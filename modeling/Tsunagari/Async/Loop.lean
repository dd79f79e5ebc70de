import Tsunagari.Async.Program

/-!
# Loops over asynchronous functions

A loop that awaits one function after another ends at the first that throws. This module compares it
with the loop that catches the errors of its functions, by the answers that the two get from the
same environment.
-/

namespace Async

namespace Prog

variable {Op : Type} {Resp : Op → Type} {ε α β ι σ : Type}

/-! ## Records of runs -/

/-- The operations that a function body awaits on its way to the end, with their answers. -/
def record (answer : σ → (o : Op) → Except ε (Resp o) × σ) :
    Prog Op Resp ε α → σ → List (Σ o : Op, Except ε (Resp o))
  | ret _, _ => []
  | throw _, _ => []
  | await o k, s => ⟨o, (answer s o).1⟩ :: (k (answer s o).1).record answer (answer s o).2

variable {answer : σ → (o : Op) → Except ε (Resp o) × σ}

/-- A function body whose first part returns goes on with the second. -/
theorem run_bind_of_ok {p : Prog Op Resp ε α} {f : α → Prog Op Resp ε β} {s s' : σ} {a : α}
    (h : p.run answer s = (.ok a, s')) :
    (p >>= f).run answer s = (f a).run answer s' ∧
      (p >>= f).record answer s = p.record answer s ++ (f a).record answer s' := by
  induction p generalizing s with
  | ret b => cases h; exact ⟨rfl, rfl⟩
  | throw e => cases h
  | await o k ih =>
    obtain ⟨hrun, hrec⟩ := ih (answer s o).1 h
    exact ⟨hrun, congrArg (List.cons _) hrec⟩

/-- A function body whose first part throws ends there. -/
theorem run_bind_of_error {p : Prog Op Resp ε α} {f : α → Prog Op Resp ε β} {s s' : σ} {e : ε}
    (h : p.run answer s = (.error e, s')) :
    (p >>= f).run answer s = (.error e, s') ∧
      (p >>= f).record answer s = p.record answer s := by
  induction p generalizing s with
  | ret b => cases h
  | throw e' => cases h; exact ⟨rfl, rfl⟩
  | await o k ih =>
    obtain ⟨hrun, hrec⟩ := ih (answer s o).1 h
    exact ⟨hrun, congrArg (List.cons _) hrec⟩

/-- Catching an error keeps what was answered before it. -/
theorem run_tryCatch (answer : σ → (o : Op) → Except ε (Resp o) × σ) (p : Prog Op Resp ε α) (a : α)
    (s : σ) :
    ∃ b, (p.tryCatch fun _ => ret a).run answer s = (.ok b, (p.run answer s).2) ∧
      (p.tryCatch fun _ => ret a).record answer s = p.record answer s := by
  induction p generalizing s with
  | ret b => exact ⟨b, rfl, rfl⟩
  | throw e => exact ⟨a, rfl, rfl⟩
  | await o k ih =>
    obtain ⟨b, hrun, hrec⟩ := ih (answer s o).1 (answer s o).2
    exact ⟨b, hrun, congrArg (List.cons _) hrec⟩

/-- What is recorded satisfies what every awaited operation does. -/
theorem All.of_mem_record {P : Op → Prop} {p : Prog Op Resp ε α} (h : p.All P) (s : σ) :
    ∀ x ∈ p.record answer s, P x.1 := by
  induction p generalizing s with
  | ret a => simp [record]
  | throw e => simp [record]
  | await o k ih =>
    intro x hx
    rcases List.mem_cons.1 hx with rfl | hx
    · exact h.1
    · exact ih _ (h.2 _) _ x hx

/-- Nothing is recorded when the body awaits nothing. -/
theorem record_eq_nil {p : Prog Op Resp ε α} {s : σ} :
    p.record answer s = [] ↔ p.awaits? = none := by
  cases p <;> simp [record, awaits?]

theorem run_of_awaits?_eq_none {p : Prog Op Resp ε α} (h : p.awaits? = none) (s : σ) :
    (p.run answer s).2 = s := by
  cases p with
  | ret a => rfl
  | throw e => rfl
  | await o k => cases h

/-! ## Loops -/

/-- Await the functions in turn; the first error ends the loop. -/
def forEach (f : ι → Prog Op Resp ε Unit) : List ι → Prog Op Resp ε Unit
  | [] => ret ()
  | i :: l => do
    f i
    forEach f l

/-- Await the functions in turn and catch their errors. -/
def forEachCatch (f : ι → Prog Op Resp ε Unit) : List ι → Prog Op Resp ε Unit
  | [] => ret ()
  | i :: l => do
    (f i).tryCatch fun _ => ret ()
    forEachCatch f l

variable {f : ι → Prog Op Resp ε Unit}

/-- The loop that catches goes on with the next function. -/
theorem forEachCatch_cons (i : ι) (l : List ι) (s : σ) :
    (forEachCatch f (i :: l)).run answer s =
        (forEachCatch f l).run answer ((f i).run answer s).2 ∧
      (forEachCatch f (i :: l)).record answer s =
        (f i).record answer s ++ (forEachCatch f l).record answer ((f i).run answer s).2 := by
  obtain ⟨u, hrun, hrec⟩ := run_tryCatch answer (f i) () s
  obtain ⟨hrun', hrec'⟩ := run_bind_of_ok (f := fun _ => forEachCatch f l) hrun
  exact ⟨hrun', hrec'.trans (by rw [hrec])⟩

/-- Nothing is recorded of a loop when none of its functions awaits anything. -/
theorem record_forEachCatch_eq_nil {l : List ι} {s : σ} :
    (forEachCatch f l).record answer s = [] ↔ ∀ i ∈ l, (f i).awaits? = none := by
  induction l with
  | nil => simp [forEachCatch, record]
  | cons i l ih =>
    rw [(forEachCatch_cons i l s).2, List.append_eq_nil_iff, record_eq_nil, List.forall_mem_cons]
    constructor
    · rintro ⟨hi, hl⟩
      rw [run_of_awaits?_eq_none hi] at hl
      exact ⟨hi, ih.1 hl⟩
    · rintro ⟨hi, hl⟩
      rw [run_of_awaits?_eq_none hi]
      exact ⟨hi, ih.2 hl⟩

/-- **The two loops get the same answers exactly when no function that throws at its turn is
followed by one that awaits something.** -/
theorem record_forEach_eq_iff (answer : σ → (o : Op) → Except ε (Resp o) × σ)
    (f : ι → Prog Op Resp ε Unit) (l : List ι) (s : σ) :
    (forEach f l).record answer s = (forEachCatch f l).record answer s ↔
      ∀ pre i post, l = pre ++ i :: post →
        (∃ e, ((f i).run answer ((forEachCatch f pre).run answer s).2).1 = .error e) →
          ∀ j ∈ post, (f j).awaits? = none := by
  induction l generalizing s with
  | nil => simp [forEach, forEachCatch]
  | cons i l ih =>
    have hsplit : ∀ pre j post, i :: l = pre ++ j :: post →
        (pre = [] ∧ j = i ∧ post = l) ∨ ∃ pre', pre = i :: pre' ∧ l = pre' ++ j :: post := by
      intro pre j post h
      cases pre with
      | nil => cases h; exact Or.inl ⟨rfl, rfl, rfl⟩
      | cons i' pre' => cases h; exact Or.inr ⟨pre', rfl, rfl⟩
    rw [(forEachCatch_cons i l s).2]
    rcases hrun : (f i).run answer s with ⟨e | u, s'⟩
    · -- the loop ends here, so that the rest must have nothing to record
      have hrec : (forEach f (i :: l)).record answer s = (f i).record answer s :=
        (run_bind_of_error (f := fun _ => forEach f l) hrun).2
      rw [hrec, List.self_eq_append_right, record_forEachCatch_eq_nil]
      constructor
      · intro hnone pre j post hl _ j' hj'
        rcases hsplit pre j post hl with ⟨-, -, rfl⟩ | ⟨pre', -, rfl⟩
        · exact hnone j' hj'
        · exact hnone j' (List.mem_append_right _ (List.mem_cons_of_mem _ hj'))
      · intro h
        refine h [] i l rfl ⟨e, ?_⟩
        show ((f i).run answer s).1 = _
        rw [hrun]
    · have hrec : (forEach f (i :: l)).record answer s =
          (f i).record answer s ++ (forEach f l).record answer s' :=
        (run_bind_of_ok (f := fun _ => forEach f l) hrun).2
      rw [hrec, List.append_right_inj, ih]
      have hshift : ∀ pre, ((forEachCatch f (i :: pre)).run answer s).2 =
          ((forEachCatch f pre).run answer s').2 := by
        intro pre
        rw [(forEachCatch_cons i pre s).1, hrun]
      constructor
      · rintro h pre j post hl ⟨e, he⟩
        rcases hsplit pre j post hl with ⟨rfl, rfl, rfl⟩ | ⟨pre', rfl, rfl⟩
        · change ((f j).run answer s).1 = _ at he
          rw [hrun] at he
          cases he
        · rw [hshift] at he
          exact h pre' j post rfl ⟨e, he⟩
      · rintro h pre j post rfl ⟨e, he⟩
        rw [← hshift] at he
        exact h (i :: pre) j post rfl ⟨e, he⟩

end Prog

end Async
