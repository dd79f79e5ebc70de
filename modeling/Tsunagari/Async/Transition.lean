import Mathlib.Data.Nat.Notation
import Mathlib.Logic.Relation

/-!
# Runs of labelled transition systems

A deterministic labelled transition system is a partial step function `σ → α → Option σ`; the
label says who moves and what the environment answers. A run is a list of labels. The rules below
are the ones a verification over all runs needs: an invariant carried along a run, a simulation by
an abstract step relation, the replay of an abstract run, and the projection of a run to the labels
of one component.
-/

namespace Async

open Relation

variable {σ τ α : Type*}

/-- The state after the labels `l`, if every one of them is enabled in turn. -/
def exec (step : σ → α → Option σ) : σ → List α → Option σ
  | s, [] => some s
  | s, a :: l => (step s a).bind fun s' => exec step s' l

variable {step : σ → α → Option σ}

@[simp] theorem exec_nil (s : σ) : exec step s [] = some s := rfl

theorem exec_cons {s s₂ : σ} {a : α} {l : List α} :
    exec step s (a :: l) = some s₂ ↔ ∃ s₁, step s a = some s₁ ∧ exec step s₁ l = some s₂ := by
  simp [exec, Option.bind_eq_some_iff]

theorem exec_append {s s₂ : σ} {l₁ l₂ : List α} :
    exec step s (l₁ ++ l₂) = some s₂ ↔
      ∃ s₁, exec step s l₁ = some s₁ ∧ exec step s₁ l₂ = some s₂ := by
  induction l₁ generalizing s with
  | nil => simp
  | cons a l₁ ih =>
    rw [List.cons_append, exec_cons]
    constructor
    · rintro ⟨s', hs', h⟩
      obtain ⟨s₁, h1, h2⟩ := ih.1 h
      exact ⟨s₁, exec_cons.2 ⟨s', hs', h1⟩, h2⟩
    · rintro ⟨s₁, h1, h2⟩
      obtain ⟨s', hs', h1⟩ := exec_cons.1 h1
      exact ⟨s', hs', ih.2 ⟨s₁, h1, h2⟩⟩

/-- Every label of `l` is allowed in the state in which it is taken. -/
def Along (step : σ → α → Option σ) (Ok : σ → α → Prop) : σ → List α → Prop
  | _, [] => True
  | s, a :: l => Ok s a ∧ ∀ s' ∈ step s a, Along step Ok s' l

instance Along.decidable (step : σ → α → Option σ) (Ok : σ → α → Prop)
    [∀ s a, Decidable (Ok s a)] : ∀ s l, Decidable (Along step Ok s l)
  | _, [] => .isTrue trivial
  | s, a :: l =>
    have := fun s' => Along.decidable step Ok s' l
    inferInstanceAs (Decidable (Ok s a ∧ ∀ s' ∈ step s a, Along step Ok s' l))

/-- What is allowed along a run is allowed along each of its parts. -/
theorem Along.of_append {Ok : σ → α → Prop} {s : σ} {l₁ l₂ : List α}
    (h : Along step Ok s (l₁ ++ l₂)) :
    Along step Ok s l₁ ∧ ∀ s', exec step s l₁ = some s' → Along step Ok s' l₂ := by
  induction l₁ generalizing s with
  | nil =>
    refine ⟨trivial, fun s' hs' => ?_⟩
    cases hs'
    exact h
  | cons a l₁ ih =>
    refine ⟨⟨h.1, fun s₁ h1 => (ih (h.2 s₁ h1)).1⟩, fun s' hs' => ?_⟩
    obtain ⟨s₁, h1, h2⟩ := exec_cons.1 hs'
    exact (ih (h.2 s₁ h1)).2 s' h2

/-- **Invariant rule**: what every allowed step preserves holds at the end of an allowed run, where
the labels that are allowed may depend on the state. -/
theorem exec_invariant_along (Inv : σ → Prop) (Ok : σ → α → Prop)
    (hstep : ∀ {s s' a}, Ok s a → Inv s → step s a = some s' → Inv s') {s s' : σ} {l : List α}
    (hs : Inv s) (hok : Along step Ok s l) (h : exec step s l = some s') : Inv s' := by
  induction l generalizing s with
  | nil => cases h; exact hs
  | cons a l ih =>
    obtain ⟨s₁, h1, h2⟩ := exec_cons.1 h
    exact ih (hstep hok.1 hs h1) (hok.2 s₁ h1) h2

/-- **A condition on labels decides a property of states along a run** if it does so for one step,
given an invariant. -/
theorem along_iff {Ok : σ → α → Prop} {P : σ → Prop} (Inv : σ → Prop)
    (hinv : ∀ {s s' a}, Inv s → step s a = some s' → Inv s')
    (hstep : ∀ {s s' a}, Inv s → P s → step s a = some s' → (Ok s a ↔ P s'))
    {s s₂ : σ} {l : List α} (hs : Inv s) (hp : P s) (h : exec step s l = some s₂) :
    Along step Ok s l ↔ ∀ l' s', l' <+: l → exec step s l' = some s' → P s' := by
  induction l generalizing s with
  | nil =>
    refine ⟨fun _ l' s' hl h' => ?_, fun _ => trivial⟩
    rw [List.prefix_nil.1 hl] at h'
    cases h'
    exact hp
  | cons a l ih =>
    obtain ⟨s₁, h1, h2⟩ := exec_cons.1 h
    constructor
    · rintro ⟨hok, hrest⟩ l' s' hl h'
      cases l' with
      | nil => cases h'; exact hp
      | cons b l' =>
        obtain ⟨rfl, htail⟩ := List.cons_prefix_cons.1 hl
        obtain ⟨s₁', h1', h2'⟩ := exec_cons.1 h'
        cases h1.symm.trans h1'
        have hp₁ := (hstep hs hp h1).1 hok
        exact (ih (hinv hs h1) hp₁ h2).1 (hrest s₁ h1) l' s' htail h2'
    · intro hall
      have hp₁ := hall [a] s₁ (List.cons_prefix_cons.2 ⟨rfl, List.nil_prefix⟩)
        (exec_cons.2 ⟨s₁, h1, rfl⟩)
      refine ⟨(hstep hs hp h1).2 hp₁, fun s' h1' => ?_⟩
      cases h1.symm.trans h1'
      exact (ih (hinv hs h1) hp₁ h2).2 fun l' s' hl h' =>
        hall (a :: l') s' (List.cons_prefix_cons.2 ⟨rfl, hl⟩) (exec_cons.2 ⟨s₁, h1, h'⟩)

/-- A run of labels that are allowed in every state. -/
theorem Along.of_forall {Ok : α → Prop} {l : List α} (hok : ∀ a ∈ l, Ok a) (s : σ) :
    Along step (fun _ => Ok) s l := by
  induction l generalizing s with
  | nil => exact trivial
  | cons a l ih =>
    exact ⟨hok a (List.mem_cons_self ..),
      fun s' _ => ih (fun b hb => hok b (List.mem_cons_of_mem _ hb)) s'⟩

/-- **Invariant rule**: what every allowed step preserves holds at the end of an allowed run. -/
theorem exec_invariant (Inv : σ → Prop) (Ok : α → Prop)
    (hstep : ∀ {s s' a}, Ok a → Inv s → step s a = some s' → Inv s') {s s' : σ} {l : List α}
    (hs : Inv s) (hok : ∀ a ∈ l, Ok a) (h : exec step s l = some s') : Inv s' :=
  exec_invariant_along Inv (fun _ => Ok) hstep hs (.of_forall hok s) h

/-- **Termination rule**: when every step leaves less, what is left bounds the length of a run. -/
theorem exec_left (Left : σ → ℕ → Prop)
    (hstep : ∀ {s s' a n}, Left s n → step s a = some s' → ∃ m, m < n ∧ Left s' m) {s s' : σ}
    {l : List α} {n : ℕ} (hs : Left s n) (h : exec step s l = some s') :
    ∃ m, l.length + m ≤ n ∧ Left s' m := by
  induction l generalizing s n with
  | nil =>
    cases h
    exact ⟨n, by simp, hs⟩
  | cons a l ih =>
    obtain ⟨s₁, h1, h2⟩ := exec_cons.1 h
    obtain ⟨m, hm, hs₁⟩ := hstep hs h1
    obtain ⟨m', hm', hs'⟩ := ih hs₁ h2
    refine ⟨m', ?_, hs'⟩
    rw [List.length_cons]
    omega

/-- **Accounting rule**: when only the labels with `p` add to a measure, and one each, it is bounded
by their number. -/
theorem exec_le_countP (Inv : σ → Prop) (m : σ → ℕ) (p : α → Bool)
    (hinv : ∀ {s s' a}, Inv s → step s a = some s' → Inv s')
    (hstep : ∀ {s s' a}, Inv s → step s a = some s' → m s' ≤ m s + if p a then 1 else 0)
    {s s' : σ} {l : List α} (hs : Inv s) (h : exec step s l = some s') :
    m s' ≤ m s + l.countP p := by
  induction l generalizing s with
  | nil =>
    cases h
    exact Nat.le_refl _
  | cons a l ih =>
    obtain ⟨s₁, h1, h2⟩ := exec_cons.1 h
    have hfirst := hstep hs h1
    have hrest := ih (hinv hs h1) h2
    rw [List.countP_cons]
    omega

/-- **Simulation rule**: if every allowed step is matched by abstract steps, so is a run. -/
theorem exec_simulation {R : σ → τ → Prop} (Ok : α → Prop) {abs : τ → τ → Prop}
    (hstep : ∀ {s s' t a}, Ok a → R s t → step s a = some s' →
      ∃ t', ReflTransGen abs t t' ∧ R s' t')
    {s s' : σ} {t : τ} {l : List α} (hr : R s t) (hok : ∀ a ∈ l, Ok a)
    (h : exec step s l = some s') : ∃ t', ReflTransGen abs t t' ∧ R s' t' := by
  induction l generalizing s t with
  | nil => cases h; exact ⟨t, .refl, hr⟩
  | cons a l ih =>
    obtain ⟨s₁, h1, h2⟩ := exec_cons.1 h
    obtain ⟨t₁, ht1, hr1⟩ := hstep (hok a (List.mem_cons_self ..)) hr h1
    obtain ⟨t', ht', hr'⟩ := ih hr1 (fun b hb => hok b (List.mem_cons_of_mem _ hb)) h2
    exact ⟨t', ht1.trans ht', hr'⟩

/-- Labels with `Ok` lead from `s` to a state with `Q`. -/
def CanReach (step : σ → α → Option σ) (Ok : α → Prop) (s : σ) (Q : σ → Prop) : Prop :=
  ∃ l s', (∀ a ∈ l, Ok a) ∧ exec step s l = some s' ∧ Q s'

theorem CanReach.here {Ok : α → Prop} {s : σ} {Q : σ → Prop} (h : Q s) : CanReach step Ok s Q :=
  ⟨[], s, by simp, rfl, h⟩

theorem CanReach.one {Ok : α → Prop} {s s' : σ} {Q : σ → Prop} {a : α} (ha : Ok a)
    (h : step s a = some s') (hq : Q s') : CanReach step Ok s Q :=
  ⟨[a], s', by simpa using ha, exec_cons.2 ⟨s', h, rfl⟩, hq⟩

/-- Reaching is transitive. -/
theorem CanReach.bind {Ok : α → Prop} {s : σ} {Q R : σ → Prop} (h : CanReach step Ok s Q)
    (hq : ∀ s', Q s' → CanReach step Ok s' R) : CanReach step Ok s R := by
  obtain ⟨l₁, s₁, hok1, h1, hq1⟩ := h
  obtain ⟨l₂, s₂, hok2, h2, hr⟩ := hq s₁ hq1
  refine ⟨l₁ ++ l₂, s₂, fun a ha => ?_, exec_append.2 ⟨s₁, h1, h2⟩, hr⟩
  rcases List.mem_append.1 ha with ha | ha
  · exact hok1 a ha
  · exact hok2 a ha

/-- No label is enabled. -/
def Final (step : σ → α → Option σ) (s : σ) : Prop := ∀ a, step s a = none

/-- **Completion rule**: when every step leaves less, and an allowed label is enabled in every state
that is not final, a final state can be reached. -/
theorem CanReach.final {Ok : α → Prop} (Left : σ → ℕ → Prop)
    (hstep : ∀ {s s' a n}, Left s n → step s a = some s' → ∃ m, m < n ∧ Left s' m)
    (hprogress : ∀ {s n}, Left s n → Final step s ∨ ∃ a s', Ok a ∧ step s a = some s')
    {s : σ} {n : ℕ} (hs : Left s n) : CanReach step Ok s (Final step) := by
  induction n using Nat.strongRecOn generalizing s with
  | _ n ih =>
    rcases hprogress hs with hfinal | ⟨a, s', ha, h⟩
    · exact .here hfinal
    · obtain ⟨m, hm, hs'⟩ := hstep hs h
      exact (CanReach.one ha h rfl).bind fun s₁ h₁ => h₁ ▸ ih m hm hs'

/-- **Replay rule**: if every abstract step can be carried out by allowed labels, so can an abstract
run. -/
theorem exec_replay {R : σ → τ → Prop} (Ok : α → Prop) {abs : τ → τ → Prop}
    (hstep : ∀ {s t t'}, R s t → abs t t' → CanReach step Ok s fun s' => R s' t')
    {s : σ} {t t' : τ} (hr : R s t) (h : ReflTransGen abs t t') :
    CanReach step Ok s fun s' => R s' t' := by
  induction h with
  | refl => exact .here hr
  | tail _ hlast ih => exact ih.bind fun s' hr' => hstep hr' hlast

/-- **Component rule**: when every step moves a component by the label that `f` finds in it, or not
at all, a run of the whole is a run of the component. -/
theorem exec_filterMap {β : Type*} {part : τ → β → Option τ} (π : σ → τ) (f : α → Option β)
    (hsome : ∀ {s s' a b}, f a = some b → step s a = some s' → part (π s) b = some (π s'))
    (hnone : ∀ {s s' a}, f a = none → step s a = some s' → π s' = π s) {s s' : σ} {l : List α}
    (h : exec step s l = some s') : exec part (π s) (l.filterMap f) = some (π s') := by
  induction l generalizing s with
  | nil =>
    cases h
    rfl
  | cons a l ih =>
    obtain ⟨s₁, h1, h2⟩ := exec_cons.1 h
    cases hf : f a with
    | none =>
      rw [List.filterMap_cons_none hf, ← hnone hf h1]
      exact ih h2
    | some b =>
      rw [List.filterMap_cons_some hf]
      exact exec_cons.2 ⟨π s₁, hsome hf h1, ih h2⟩

/-- **Projection rule**: when the labels outside `mine` leave the related state alone and those in
`mine` run in lockstep, the labels in `mine` alone are a run from the related state. -/
theorem exec_filter {R : σ → σ → Prop} (mine : α → Prop) [DecidablePred mine]
    (hmine : ∀ {s s' t a}, mine a → R s t → step s a = some s' → ∃ t', step t a = some t' ∧ R s' t')
    (hother : ∀ {s s' t a}, ¬ mine a → R s t → step s a = some s' → R s' t)
    {s s' t : σ} {l : List α} (hr : R s t) (h : exec step s l = some s') :
    ∃ t', exec step t (l.filter (fun a => mine a)) = some t' ∧ R s' t' := by
  induction l generalizing s t with
  | nil => cases h; exact ⟨t, rfl, hr⟩
  | cons a l ih =>
    obtain ⟨s₁, h1, h2⟩ := exec_cons.1 h
    by_cases ha : mine a
    · obtain ⟨t₁, ht1, hr1⟩ := hmine ha hr h1
      obtain ⟨t', ht', hr'⟩ := ih hr1 h2
      rw [List.filter_cons_of_pos (by simpa using ha)]
      exact ⟨t', exec_cons.2 ⟨t₁, ht1, ht'⟩, hr'⟩
    · rw [List.filter_cons_of_neg (by simpa using ha)]
      exact ih (hother ha hr h1) h2

end Async
