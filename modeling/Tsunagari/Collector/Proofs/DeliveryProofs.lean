import Tsunagari.Collector.Protocol

/-!
# Proofs: no collection is lost

Until the list is emptied for the first time it only grows, so among `t` participants that are
through with their handlers the one that counted last has seen at least `t` contributions. From
then on there is a ticket until a server empties the list and submits what it read.
-/

namespace Collector

variable {δ : Type*} {t : ℕ} {crash : Prop}

@[simp] theorem add_ne_absent (k : Ticket δ) : k.add ≠ .absent := by
  cases k <;> simp [Ticket.add]

theorem add_eq_held {k : Ticket δ} {l : List δ} : k.add = .held l ↔ k = .held l := by
  cases k <;> simp [Ticket.add]

theorem add_eq_cleared {k : Ticket δ} {l : List δ} : k.add = .cleared l ↔ k = .cleared l := by
  cases k <;> simp [Ticket.add]

theorem add_eq_served {k : Ticket δ} : k.add = .served ↔ k = .served := by
  cases k <;> simp [Ticket.add]

/-- What holds as long as the list has never been emptied. -/
structure Fresh (t : ℕ) (s : State δ) : Prop where
  /-- A participant that went on has its contribution in the list. -/
  entered : ∀ d, (s.phase d).Entered → d ∈ s.list
  /-- The count that a participant has seen is still there. -/
  reached : ∀ d, (s.phase d).Reached → t ≤ s.list.length
  /-- Fewer than `t` participants have counted too few contributions. -/
  below : ∀ S : Finset δ, (∀ d ∈ S, s.phase d = .counted false) → S.card < t
  /-- A participant that is finished left a ticket behind. -/
  ticketed : ∀ d, s.phase d = .finished → s.ticket ≠ .absent
  /-- So did one that ran the step that adds it. -/
  added : s.added ≠ [] → s.ticket ≠ .absent
  /-- While there is a ticket, the list holds a quorum. -/
  quorum : s.ticket ≠ .absent → t ≤ s.list.length
  /-- What a server has read is a quorum. -/
  held : ∀ l, s.ticket = .held l → t ≤ l.length
  /-- No server is done. -/
  unserved : s.ticket ≠ .served

/-- A longer list keeps the facts. -/
theorem Fresh.append {s : State δ} (hs : Fresh t s) (d : δ) :
    Fresh t { s with list := s.list ++ [d] } where
  entered d' h := List.mem_append_left _ (hs.entered d' h)
  reached d' h := by have := hs.reached d' h; simp; omega
  below := hs.below
  ticketed := hs.ticketed
  added := hs.added
  quorum h := by have := hs.quorum h; simp; omega
  held := hs.held
  unserved := hs.unserved

theorem Fresh.init (live : δ → Bool) (ht : 1 ≤ t) : Fresh t (State.init live) where
  entered d h := by
    cases hl : live d <;> simp [State.init, hl, Phase.Entered] at h
  reached d h := by
    cases hl : live d <;> simp [State.init, hl, Phase.Reached] at h
  below S h := by
    rcases S.eq_empty_or_nonempty with rfl | ⟨d, hd⟩
    · rw [Finset.card_empty]; omega
    · have := h d hd
      cases hl : live d <;> simp [State.init, hl] at this
  ticketed d h := by
    cases hl : live d <;> simp [State.init, hl] at h
  added h := by simp [State.init] at h
  quorum h := by simp [State.init] at h
  held l h := by simp [State.init] at h
  unserved := by simp [State.init]

variable [DecidableEq δ]

@[simp] theorem setPhase_list (s : State δ) (d : δ) (p : Phase) :
    (s.setPhase d p).list = s.list := rfl

@[simp] theorem setPhase_ticket (s : State δ) (d : δ) (p : Phase) :
    (s.setPhase d p).ticket = s.ticket := rfl

@[simp] theorem setPhase_submitted (s : State δ) (d : δ) (p : Phase) :
    (s.setPhase d p).submitted = s.submitted := rfl

@[simp] theorem setPhase_added (s : State δ) (d : δ) (p : Phase) :
    (s.setPhase d p).added = s.added := rfl

theorem setPhase_phase (s : State δ) (d : δ) (p : Phase) :
    (s.setPhase d p).phase = Function.update s.phase d p := rfl

@[simp] theorem setPhase_self (s : State δ) (d : δ) (p : Phase) :
    (s.setPhase d p).phase d = p := by
  simp [setPhase_phase]

theorem setPhase_setPhase (s : State δ) (d : δ) (p q : Phase) :
    (s.setPhase d p).setPhase d q = s.setPhase d q := by
  simp only [State.setPhase, Function.update_idem]

theorem setPhase_eq_self {s : State δ} {d : δ} {p : Phase} (h : s.phase d = p) :
    s.setPhase d p = s := by
  subst h
  simp only [State.setPhase, Function.update_eq_self]

theorem setPhase_of_ne (s : State δ) {d d' : δ} (p : Phase) (h : d' ≠ d) :
    (s.setPhase d p).phase d' = s.phase d' := by
  simp [setPhase_phase, h]

omit [DecidableEq δ] in
/-- Unless a server has just emptied the list, something has been submitted since. -/
theorem State.Drained.submitted_ne_nil {s : State δ} (h : s.Drained)
    (hne : ∀ l, s.ticket ≠ .cleared l) : s.submitted ≠ [] :=
  h.resolve_right fun ⟨l, hl⟩ => hne l hl

omit [DecidableEq δ] in
/-- A new ticket empties the list only when it is a cleared one. -/
theorem State.Drained.of_ticket {s : State δ} {ticket : Ticket δ}
    (h : ({ s with ticket } : State δ).Drained) (hne : ∀ l, ticket ≠ .cleared l) : s.Drained :=
  Or.inl (h.submitted_ne_nil hne)

/-- A step that empties the list or comes after such a step: draining is never undone. -/
theorem Drained.step {s s' : State δ} (hd : s.Drained) (h : Step t crash s s') : s'.Drained := by
  cases h with
  | submit l _ => left; simp
  | finish h => exact Or.inl (hd.submitted_ne_nil (by simp [h]))
  | take h => exact Or.inl (hd.submitted_ne_nil (by simp [h]))
  | readEmpty h _ => exact Or.inl (hd.submitted_ne_nil (by simp [h]))
  | read h _ => exact Or.inl (hd.submitted_ne_nil (by simp [h]))
  | clear l h => exact Or.inr ⟨l, rfl⟩
  | add d _ =>
    rcases hd with hd | ⟨l, hl⟩
    · exact Or.inl hd
    · exact Or.inr ⟨l, add_eq_cleared.2 hl⟩
  | _ => exact hd

/-- Moving one participant keeps the facts, provided they hold of its new phase. -/
theorem Fresh.setPhase {s : State δ} (hs : Fresh t s) {d : δ} {p : Phase}
    (he : p.Entered → d ∈ s.list) (hr : p.Reached → t ≤ s.list.length)
    (hb : p ≠ .counted false) (hf : p = .finished → s.ticket ≠ .absent) :
    Fresh t (s.setPhase d p) where
  entered d' h := by
    by_cases hd : d' = d
    · subst hd; exact he (by simpa using h)
    · rw [setPhase_of_ne s p hd] at h; exact hs.entered d' h
  reached d' h := by
    by_cases hd : d' = d
    · subst hd; exact hr (by simpa using h)
    · rw [setPhase_of_ne s p hd] at h; exact hs.reached d' h
  below S h := by
    refine hs.below S fun d' hd' => ?_
    by_cases hd : d' = d
    · subst hd; exact absurd (by simpa using h d' hd') hb
    · rw [← setPhase_of_ne s p hd]; exact h d' hd'
  ticketed d' h := by
    by_cases hd : d' = d
    · subst hd; exact hf (by simpa using h)
    · rw [setPhase_of_ne s p hd] at h; exact hs.ticketed d' h
  added := hs.added
  quorum := hs.quorum
  held := hs.held
  unserved := hs.unserved

/-- A participant that counts too few contributions: everybody who did so before is in the list,
and so is the participant itself. -/
theorem Fresh.countBelow {s : State δ} (hs : Fresh t s) {d : δ} (hd : s.phase d = .stored)
    (hlt : s.list.length < t) : Fresh t (s.setPhase d (.counted false)) where
  entered d' h := by
    by_cases hd' : d' = d
    · subst hd'; exact hs.entered d' (by rw [hd]; trivial)
    · rw [setPhase_of_ne s _ hd'] at h; exact hs.entered d' h
  reached d' h := by
    by_cases hd' : d' = d
    · subst hd'; simp [Phase.Reached] at h
    · rw [setPhase_of_ne s _ hd'] at h; exact hs.reached d' h
  below S h := by
    have hsub : S ⊆ s.list.toFinset := by
      intro d' hd'
      rw [List.mem_toFinset]
      by_cases he : d' = d
      · subst he; exact hs.entered d' (by rw [hd]; trivial)
      · have := h d' hd'
        rw [setPhase_of_ne s _ he] at this
        exact hs.entered d' (by rw [this]; trivial)
    have h1 := Finset.card_le_card hsub
    have h2 := s.list.toFinset_card_le
    omega
  ticketed d' h := by
    by_cases hd' : d' = d
    · subst hd'; simp at h
    · rw [setPhase_of_ne s _ hd'] at h; exact hs.ticketed d' h
  added := hs.added
  quorum := hs.quorum
  held := hs.held
  unserved := hs.unserved

/-- **Before the list is emptied the facts are kept; emptying it drains.** -/
theorem Fresh.step {s s' : State δ} (ht : 1 ≤ t) (hs : Fresh t s) (h : Step t crash s s') :
    s'.Drained ∨ Fresh t s' := by
  cases h with
  | issue d h =>
    exact Or.inr
      (hs.setPhase (by simp [Phase.Entered]) (by simp [Phase.Reached]) (by simp) (by simp))
  | store d h =>
    right
    have h1 : Fresh t ({ s with list := s.list ++ [d] } : State δ) := hs.append d
    exact h1.setPhase (fun _ => by simp) (by simp [Phase.Reached]) (by simp) (by simp)
  | storeStopped d h =>
    right
    have h1 : Fresh t ({ s with list := s.list ++ [d] } : State δ) := hs.append d
    exact h1.setPhase (by simp [Phase.Entered]) (by simp [Phase.Reached]) (by simp) (by simp)
  | count d h =>
    right
    by_cases hle : t ≤ s.list.length
    · have hd : d ∈ s.list := hs.entered d (by rw [h]; trivial)
      exact hs.setPhase (fun _ => hd) (fun _ => hle) (by simp [hle]) (by simp)
    · rw [decide_eq_false hle]
      exact hs.countBelow h (by omega)
  | find d h htk =>
    have hd : d ∈ s.list := hs.entered d (by rw [h]; trivial)
    have hr := hs.reached d (by rw [h]; rfl)
    exact Or.inr (hs.setPhase (fun _ => hd) (fun _ => hr) (by simp) (fun _ => htk))
  | miss d h htk =>
    have hd : d ∈ s.list := hs.entered d (by rw [h]; trivial)
    have hr := hs.reached d (by rw [h]; rfl)
    exact Or.inr (hs.setPhase (fun _ => hd) (fun _ => hr) (by simp) (by simp))
  | add d h =>
    right
    have hd : d ∈ s.list := hs.entered d (by rw [h]; trivial)
    have hr := hs.reached d (by rw [h]; trivial)
    have h1 : Fresh t ({ s with ticket := s.ticket.add, added := s.added ++ [d] } : State δ) :=
      { entered := hs.entered
        reached := hs.reached
        below := hs.below
        ticketed := fun d' h' => add_ne_absent _
        added := fun _ => add_ne_absent _
        quorum := fun _ => hr
        held := fun l hl => hs.held l (add_eq_held.1 hl)
        unserved := fun hc => hs.unserved (add_eq_served.1 hc) }
    exact h1.setPhase (fun _ => hd) (fun _ => hr) (by simp) (fun _ => add_ne_absent _)
  | stop d q hc h =>
    exact Or.inr
      (hs.setPhase (by simp [Phase.Entered]) (by simp [Phase.Reached]) (by simp) (by simp))
  | take h =>
    have hq := hs.quorum (by rw [h]; simp)
    exact Or.inr { hs with
      ticketed := by simp
      added := by simp
      quorum := fun _ => hq
      held := by simp
      unserved := by simp }
  | readEmpty h hl =>
    -- the ticket stands for a quorum, so the list cannot be empty
    have hq := hs.quorum (by rw [h]; simp)
    rw [hl] at hq
    simp at hq
    omega
  | read h hl =>
    have hq := hs.quorum (by rw [h]; simp)
    exact Or.inr { hs with
      ticketed := by simp
      added := by simp
      quorum := fun _ => hq
      held := fun l hl' => by cases hl'; exact hq
      unserved := by simp }
  | clear l h => exact Or.inl (Or.inr ⟨l, rfl⟩)
  | submit l h => exact Or.inl (Or.inl (by simp))
  | finish h => exact absurd h hs.unserved

/-- In every reachable state the list has been emptied or the facts of `Fresh` hold. -/
theorem drained_or_fresh {live : δ → Bool} {s : State δ} (ht : 1 ≤ t)
    (h : Steps t crash (State.init live) s) : s.Drained ∨ Fresh t s := by
  induction h with
  | refl => exact Or.inr (Fresh.init live ht)
  | tail _ hstep ih =>
    rcases ih with hd | hf
    · exact Or.inl (Drained.step hd hstep)
    · exact hf.step ht hstep

/-- **No collection is lost**: once `t` participants are through, something has been submitted or
there is a ticket. -/
theorem submitted_or_ticket {live : δ → Bool} {s : State δ} (ht : 1 ≤ t)
    (h : Steps t crash (State.init live) s) (S : Finset δ) (hS : t ≤ S.card)
    (hdone : ∀ d ∈ S, s.phase d = .finished ∨ s.phase d = .counted false) :
    s.submitted ≠ [] ∨ s.ticket ≠ .absent := by
  rcases drained_or_fresh ht h with (hsub | ⟨l, hl⟩) | hf
  · exact Or.inl hsub
  · exact Or.inr (by rw [hl]; simp)
  · right
    by_contra habs
    have hbelow : ∀ d ∈ S, s.phase d = .counted false := by
      intro d hd
      rcases hdone d hd with h1 | h1
      · exact absurd habs (hf.ticketed d h1)
      · exact h1
    have := hf.below S hbelow
    omega

/-- Before a ticket is added there is none, and nothing is submitted. -/
theorem unserved_of_steps {live : δ → Bool} {s : State δ} (h : Steps t crash (State.init live) s)
    (ha : s.added = []) : s.ticket = .absent ∧ s.submitted = [] := by
  induction h with
  | refl => exact ⟨rfl, rfl⟩
  | tail _ hstep ih =>
    cases hstep with
    | add d h => simp at ha
    | take h => exact absurd ((ih ha).1.symm.trans h) (by simp)
    | readEmpty h hl => exact absurd ((ih ha).1.symm.trans h) (by simp)
    | read h hl => exact absurd ((ih ha).1.symm.trans h) (by simp)
    | clear l h => exact absurd ((ih ha).1.symm.trans h) (by simp)
    | submit l h => exact absurd ((ih ha).1.symm.trans h) (by simp)
    | finish h => exact ⟨rfl, (ih ha).2⟩
    | _ => exact ih ha

/-- **Once `t` participants are through, a ticket has been added.** -/
theorem added_of_done {live : δ → Bool} {s : State δ} (ht : 1 ≤ t)
    (h : Steps t crash (State.init live) s) (S : Finset δ) (hS : t ≤ S.card)
    (hdone : ∀ d ∈ S, s.phase d = .finished ∨ s.phase d = .counted false) : s.added ≠ [] := by
  intro ha
  obtain ⟨hticket, hsubmitted⟩ := unserved_of_steps h ha
  rcases submitted_or_ticket ht h S hS hdone with h1 | h1
  · exact h1 hsubmitted
  · exact h1 hticket

/-- Before the list is emptied, a ticket is added only when the list holds a quorum. -/
theorem quorum_of_added {live : δ → Bool} {s : State δ} (ht : 1 ≤ t)
    (h : Steps t crash (State.init live) s) (hd : ¬ s.Drained) (ha : s.added ≠ []) :
    t ≤ s.list.length := by
  rcases drained_or_fresh ht h with h1 | hf
  · exact absurd h1 hd
  · exact hf.quorum (hf.added ha)

end Collector
