import Mathlib.Data.Finsupp.Weight
import Tsunagari.Async.Program

/-!
# The price of asynchronous functions

Every operation has a price. What is left of a function body is paid when there is credit for all
operations that it can still await, whatever they answer. The credit of several functions is an
account, from which one function pays and to which another may be credited.
-/

namespace Async

namespace Prog

variable {Op : Type} {Resp : Op → Type} {ε α : Type} {price : Op → ℕ}

/-- The credit `n` pays for every way to the end. -/
def Within (price : Op → ℕ) : Prog Op Resp ε α → ℕ → Prop
  | ret _, _ => True
  | throw _, _ => True
  | await o k, n => ∃ m, price o + m ≤ n ∧ ∀ r, (k r).Within price m

/-- Every way to the end returns. -/
def Returns : Prog Op Resp ε α → Prop
  | ret _ => True
  | throw _ => False
  | await _ k => ∀ r, (k r).Returns

/-- Every way to the end on which the operations succeed returns. -/
def ReturnsIfOk : Prog Op Resp ε α → Prop
  | ret _ => True
  | throw _ => False
  | await _ k => ∀ v, (k (.ok v)).ReturnsIfOk

@[simp] theorem within_ret (a : α) (n : ℕ) : (ret a : Prog Op Resp ε α).Within price n := trivial

@[simp] theorem within_throw (e : ε) (n : ℕ) : (throw e : Prog Op Resp ε α).Within price n :=
  trivial

/-- An operation is paid, and then what follows. -/
theorem within_await {o : Op} {k : Except ε (Resp o) → Prog Op Resp ε α} {m n : ℕ}
    (h : price o + m ≤ n) (hk : ∀ r, (k r).Within price m) : (await o k).Within price n :=
  ⟨m, h, hk⟩

theorem Within.mono {p : Prog Op Resp ε α} {m n : ℕ} (h : p.Within price m) (hmn : m ≤ n) :
    p.Within price n := by
  cases p with
  | ret a => trivial
  | throw e => trivial
  | await o k =>
    obtain ⟨m', hm, hk⟩ := h
    exact ⟨m', hm.trans hmn, hk⟩

/-- Where the operations with `Q` have the price one, no way is answered more of them than there is
credit for. -/
theorem Within.countP_le {Q : Op → Bool} {p q : Prog Op Resp ε α} {n : ℕ}
    {tr : List (Σ o : Op, Except ε (Resp o))} (hp : p.Within (fun o => if Q o then 1 else 0) n)
    (h : Path p tr q) : tr.countP (fun x => Q x.1) ≤ n := by
  induction h generalizing n with
  | refl p => exact Nat.zero_le n
  | await r h ih =>
    obtain ⟨m, hm, hk⟩ := hp
    have hrest := ih (hk r)
    rw [List.countP_cons]
    dsimp only at hm ⊢
    omega

/-- A function that returns on every way to the end still does so on its way. -/
theorem Returns.of_path {p q : Prog Op Resp ε α} {tr : List (Σ o : Op, Except ε (Resp o))}
    (hp : p.Returns) (h : Path p tr q) : q.Returns := by
  induction h with
  | refl p => exact hp
  | await r h ih => exact ih (hp r)

end Prog

/-! ## Accounts -/

section Account

variable {ι : Type*}

/-- Changing one credit changes the balance by as much. -/
theorem degree_update (f : ι →₀ ℕ) (i : ι) (n : ℕ) :
    (f.update i n).degree + f i = f.degree + n := by
  have hf : f.degree = f i + (f.erase i).degree := by
    rw [← Finsupp.degree_single i (f i), ← map_add, Finsupp.single_add_erase]
  rw [Finsupp.update_eq_erase_add_single, map_add, Finsupp.degree_single, hf]
  omega

/-- Paying one credit of `i` and more. -/
theorem degree_update_lt (f : ι →₀ ℕ) {i : ι} {n : ℕ} (h : n < f i) :
    (f.update i n).degree < f.degree := by
  have := degree_update f i n
  omega

end Account

end Async
