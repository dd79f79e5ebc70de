import Mathlib.Logic.Basic

/-!
# Programs of asynchronous functions

The body of an `async` function is a tree: it returns, throws, or awaits one operation of a
signature `Op` and continues with the settled result, which is a value of `Resp o` or an error.
A scheduler may run other code at every `await`, so the tree is exactly what an interleaving
semantics needs to know about a function.
-/

namespace Async

/-- The body of an asynchronous function over the operations `Op`. -/
inductive Prog (Op : Type) (Resp : Op → Type) (ε α : Type) : Type where
  /-- The function has returned `a`. -/
  | ret (a : α) : Prog Op Resp ε α
  /-- The function has thrown `e`. -/
  | throw (e : ε) : Prog Op Resp ε α
  /-- The function awaits the operation `o`. -/
  | await (o : Op) (k : Except ε (Resp o) → Prog Op Resp ε α) : Prog Op Resp ε α

namespace Prog

variable {Op : Type} {Resp : Op → Type} {ε α β : Type}

/-- Sequential composition: run `p`, then `f` on its result. -/
def bind : Prog Op Resp ε α → (α → Prog Op Resp ε β) → Prog Op Resp ε β
  | ret a, f => f a
  | throw e, _ => throw e
  | await o k, f => await o fun r => (k r).bind f

/-- `try p catch h`. -/
def tryCatch : Prog Op Resp ε α → (ε → Prog Op Resp ε α) → Prog Op Resp ε α
  | ret a, _ => ret a
  | throw e, h => h e
  | await o k, h => await o fun r => (k r).tryCatch h

/-- A synchronous computation that may throw. -/
def ofExcept : Except ε α → Prog Op Resp ε α
  | .ok a => ret a
  | .error e => throw e

/-- Await a single operation; a rejected promise is rethrown. -/
def perform (o : Op) : Prog Op Resp ε (Resp o) := await o ofExcept

instance : Monad (Prog Op Resp ε) where
  pure := ret
  bind := bind

instance : MonadExcept ε (Prog Op Resp ε) where
  throw := throw
  tryCatch := tryCatch

@[simp] theorem pure_eq (a : α) : (pure a : Prog Op Resp ε α) = ret a := rfl

@[simp] theorem ret_bind (a : α) (f : α → Prog Op Resp ε β) : (ret a >>= f) = f a := rfl

theorem bind_ret (p : Prog Op Resp ε α) : p >>= ret = p := by
  induction p with
  | ret a => rfl
  | throw e => rfl
  | await o k ih => exact congrArg (await o) (funext ih)

/-- Run a function body to its end, given how the awaited operations are answered. -/
def run {σ : Type} (answer : σ → (o : Op) → Except ε (Resp o) × σ) :
    Prog Op Resp ε α → σ → Except ε α × σ
  | ret a, s => (.ok a, s)
  | throw e, s => (.error e, s)
  | await o k, s => (k (answer s o).1).run answer (answer s o).2

/-- The operation that a function body awaits. -/
def awaits? : Prog Op Resp ε α → Option Op
  | ret _ => none
  | throw _ => none
  | await o _ => some o

/-- Every operation that `p` can still await satisfies `P`, whatever the operations answer. -/
def All (P : Op → Prop) : Prog Op Resp ε α → Prop
  | ret _ => True
  | throw _ => True
  | await o k => P o ∧ ∀ r, (k r).All P

@[simp] theorem all_ret {P : Op → Prop} (a : α) : (ret a : Prog Op Resp ε α).All P := trivial

@[simp] theorem all_throw {P : Op → Prop} (e : ε) : (throw e : Prog Op Resp ε α).All P := trivial

@[simp] theorem all_await {P : Op → Prop} (o : Op) (k : Except ε (Resp o) → Prog Op Resp ε α) :
    (await o k).All P ↔ P o ∧ ∀ r, (k r).All P := Iff.rfl

theorem All.mono {P Q : Op → Prop} (hPQ : ∀ o, P o → Q o) {p : Prog Op Resp ε α} (h : p.All P) :
    p.All Q := by
  induction p with
  | ret a => trivial
  | throw e => trivial
  | await o k ih => exact ⟨hPQ o h.1, fun r => ih r (h.2 r)⟩

/-- `Path p tr q`: with the answers recorded in `tr`, the function body `p` gets to `q`. -/
inductive Path :
    Prog Op Resp ε α → List (Σ o : Op, Except ε (Resp o)) → Prog Op Resp ε α → Prop where
  | refl (p : Prog Op Resp ε α) : Path p [] p
  | await {o : Op} {k : Except ε (Resp o) → Prog Op Resp ε α} (r : Except ε (Resp o))
      {tr : List (Σ o : Op, Except ε (Resp o))} {q : Prog Op Resp ε α} (h : Path (k r) tr q) :
      Path (await o k) (⟨o, r⟩ :: tr) q

variable {tr : List (Σ o : Op, Except ε (Resp o))} {q : Prog Op Resp ε α}

theorem Path.of_ret {a : α} (h : Path (ret a) tr q) : q = ret a := by
  cases h; rfl

/-- Nothing is answered to a function that has returned. -/
theorem Path.nil_of_ret {a : α} (h : Path (ret a) tr q) : tr = [] := by
  cases h; rfl

theorem Path.of_throw {e : ε} (h : Path (throw e) tr q) : q = throw e := by
  cases h; rfl

/-- A function body that awaits either stays, or gets the answer that the record begins with. -/
theorem Path.of_await {o : Op} {k : Except ε (Resp o) → Prog Op Resp ε α}
    (h : Path (Prog.await o k) tr q) :
    q = Prog.await o k ∨ ∃ r tr', tr = ⟨o, r⟩ :: tr' ∧ Path (k r) tr' q := by
  cases h with
  | refl => exact Or.inl rfl
  | await r h => exact Or.inr ⟨r, _, rfl, h⟩

/-- One more answer. -/
theorem Path.concat {p : Prog Op Resp ε α} {o : Op} {k : Except ε (Resp o) → Prog Op Resp ε α}
    (h : Path p tr (Prog.await o k)) (r : Except ε (Resp o)) : Path p (tr ++ [⟨o, r⟩]) (k r) := by
  generalize hq : Prog.await o k = q at h
  induction h with
  | refl p =>
    subst hq
    exact .await r (.refl _)
  | await r' _ ih => exact .await r' (ih hq)

/-- An answer on the record was awaited. -/
theorem Path.split {p : Prog Op Resp ε α} {tr₁ tr₂ : List (Σ o : Op, Except ε (Resp o))}
    {x : Σ o : Op, Except ε (Resp o)} (h : Path p (tr₁ ++ x :: tr₂) q) :
    ∃ k, Path p tr₁ (Prog.await x.1 k) ∧ Path (k x.2) tr₂ q := by
  induction tr₁ generalizing p with
  | nil =>
    cases h with
    | @await o k r _ _ h => exact ⟨k, .refl _, h⟩
  | cons y tr₁ ih =>
    cases h with
    | @await o k r _ _ h =>
      obtain ⟨k', h₁, h₂⟩ := ih h
      exact ⟨k', .await r h₁, h₂⟩

/-- What holds of all operations holds of those on the record and of those to come. -/
theorem All.of_path {P : Op → Prop} {p : Prog Op Resp ε α} (hp : p.All P) (h : Path p tr q) :
    q.All P ∧ ∀ x ∈ tr, P x.1 := by
  induction h with
  | refl p => exact ⟨hp, fun x hx => by cases hx⟩
  | @await o k r tr q h ih =>
    obtain ⟨hq, htr⟩ := ih (hp.2 r)
    exact ⟨hq, List.forall_mem_cons.2 ⟨hp.1, htr⟩⟩

end Prog

end Async
