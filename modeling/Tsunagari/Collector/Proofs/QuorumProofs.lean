import Tsunagari.Collector.Proofs.DeliveryProofs

/-!
# Proofs: when a submission has a quorum and when it is the only one

When there are at most `t` participants, the count reaches `t` only after all of them have appended,
so that nothing is appended any more once the list has been emptied: there is one submission and it
carries a quorum. When there are more than `t` participants, a late one contributes to a list that
has already been emptied, and another submission follows.
-/

namespace Collector

variable {δ : Type*} [DecidableEq δ] {t : ℕ} {crash : Prop}

/-! ## At most `t` participants -/

/-- No participant contributes twice. -/
structure Distinct (s : State δ) : Prop where
  /-- The contributions in the list are of different participants. -/
  nodup : s.list.Nodup
  /-- Who is in the list does not append any more. -/
  stored : ∀ d ∈ s.list, ¬ (s.phase d).Pending

omit [DecidableEq δ] in
theorem Distinct.init (live : δ → Bool) : Distinct (State.init live) where
  nodup := List.nodup_nil
  stored d hd := by simp [State.init] at hd

theorem Distinct.setPhase {s : State δ} (hs : Distinct s) {d : δ} {p : Phase} (hp : ¬ p.Pending) :
    Distinct (s.setPhase d p) where
  nodup := hs.nodup
  stored d' hd' := by
    by_cases hd : d' = d
    · subst hd; simpa using hp
    · rw [setPhase_of_ne s p hd]; exact hs.stored d' hd'

/-- A pending participant appends and moves to a phase in which it does so no more. -/
theorem Distinct.append {s : State δ} (hs : Distinct s) {d : δ} {p : Phase}
    (hd : (s.phase d).Pending) (hp : ¬ p.Pending) :
    Distinct ({ s.setPhase d p with list := s.list ++ [d] } : State δ) where
  nodup := by
    have hnot : d ∉ s.list := fun hin => hs.stored d hin hd
    refine List.nodup_append.2 ⟨hs.nodup, List.nodup_singleton d, ?_⟩
    intro a ha b hb hab
    rw [List.mem_singleton.1 hb] at hab
    exact hnot (hab ▸ ha)
  stored d' hd' := by
    show ¬ ((s.setPhase d p).phase d').Pending
    by_cases he : d' = d
    · subst he; simpa using hp
    · rw [setPhase_of_ne s p he]
      rcases List.mem_append.1 hd' with h1 | h1
      · exact hs.stored d' h1
      · exact absurd (List.mem_singleton.1 h1) he

theorem Distinct.step {s s' : State δ} (hs : Distinct s) (h : Step t crash s s') : Distinct s' := by
  cases h with
  | issue d h =>
    refine ⟨hs.nodup, fun d' hd' => ?_⟩
    have hne : d' ≠ d := by
      rintro rfl
      exact hs.stored d' hd' (by rw [h]; trivial)
    rw [setPhase_of_ne s _ hne]
    exact hs.stored d' hd'
  | store d h => exact hs.append (by rw [h]; trivial) (by simp [Phase.Pending])
  | storeStopped d h => exact hs.append (by rw [h]; rfl) (by simp [Phase.Pending])
  | count d h => exact hs.setPhase (by simp [Phase.Pending])
  | find d h htk => exact hs.setPhase (by simp [Phase.Pending])
  | miss d h htk => exact hs.setPhase (by simp [Phase.Pending])
  | add d h =>
    have h1 := hs.setPhase (d := d) (p := .finished) (by simp [Phase.Pending])
    exact ⟨h1.nodup, h1.stored⟩
  | stop d q hc h =>
    refine ⟨hs.nodup, fun d' hd' => ?_⟩
    by_cases he : d' = d
    · subst he
      have hnp := hs.stored d' hd'
      cases hph : s.phase d' <;> simp_all [Phase.stop, Phase.Pending]
    · rw [setPhase_of_ne s _ he]; exact hs.stored d' hd'
  | take h => exact ⟨hs.nodup, hs.stored⟩
  | readEmpty h hl => exact ⟨hs.nodup, hs.stored⟩
  | read h hl => exact ⟨hs.nodup, hs.stored⟩
  | clear l h => exact ⟨List.nodup_nil, fun d hd => by simp at hd⟩
  | submit l h => exact ⟨hs.nodup, hs.stored⟩
  | finish h => exact ⟨hs.nodup, hs.stored⟩

theorem distinct_of_steps {live : δ → Bool} {s : State δ} (h : Steps t crash (State.init live) s) :
    Distinct s := by
  induction h with
  | refl => exact Distinct.init live
  | tail _ hstep ih => exact ih.step hstep

/-- Only participants that were about to start contribute. -/
theorem live_of_steps {live : δ → Bool} {s : State δ} (h : Steps t crash (State.init live) s) :
    (∀ d ∈ s.list, live d = true) ∧ ∀ d, live d = false → s.phase d = .stopped false := by
  induction h with
  | refl =>
    refine ⟨fun d hd => by simp [State.init] at hd, fun d hd => ?_⟩
    simp [State.init, hd]
  | @tail s s' _ hstep ih =>
    obtain ⟨hlist, hphase⟩ := ih
    have hmove : ∀ {d : δ} {p : Phase}, s.phase d ≠ .stopped false →
        live d = true ∧ ∀ d', live d' = false → (s.setPhase d p).phase d' = .stopped false := by
      intro d p hd
      have hlive : live d = true := by
        by_contra hl
        exact hd (hphase d (by simpa using hl))
      refine ⟨hlive, fun d' hd' => ?_⟩
      rw [setPhase_of_ne s p (by rintro rfl; rw [hlive] at hd'; cases hd')]
      exact hphase d' hd'
    cases hstep with
    | issue d h => exact ⟨hlist, (hmove (by rw [h]; simp)).2⟩
    | store d h =>
      obtain ⟨hd, hp⟩ := hmove (d := d) (p := .stored) (by rw [h]; simp)
      refine ⟨fun d' hd' => ?_, hp⟩
      rcases List.mem_append.1 hd' with h1 | h1
      · exact hlist d' h1
      · rw [List.mem_singleton.1 h1]; exact hd
    | storeStopped d h =>
      obtain ⟨hd, hp⟩ := hmove (d := d) (p := .stopped false) (by rw [h]; simp)
      refine ⟨fun d' hd' => ?_, hp⟩
      rcases List.mem_append.1 hd' with h1 | h1
      · exact hlist d' h1
      · rw [List.mem_singleton.1 h1]; exact hd
    | count d h => exact ⟨hlist, (hmove (by rw [h]; simp)).2⟩
    | find d h htk => exact ⟨hlist, (hmove (by rw [h]; simp)).2⟩
    | miss d h htk => exact ⟨hlist, (hmove (by rw [h]; simp)).2⟩
    | add d h => exact ⟨hlist, (hmove (by rw [h]; simp)).2⟩
    | stop d q hc h => exact ⟨hlist, (hmove (by intro he; rw [he] at h; cases h)).2⟩
    | clear l h => exact ⟨fun d hd => by simp at hd, hphase⟩
    | _ => exact ⟨hlist, hphase⟩

/-- The threshold has been reached at some time. -/
def Begun (s : State δ) : Prop :=
  (∃ d, (s.phase d).Reached) ∨ s.ticket ≠ .absent ∨ s.submitted ≠ []

omit [DecidableEq δ] in
theorem Begun.of_drained {s : State δ} (h : s.Drained) : Begun s := by
  rcases h with h | ⟨l, h⟩
  · exact Or.inr (Or.inr h)
  · exact Or.inr (Or.inl (by rw [h]; simp))

/-- What holds when there are at most `t` participants. -/
structure Sole (t : ℕ) (s : State δ) : Prop where
  /-- After the threshold has been reached nobody appends any more. -/
  closed : Begun s → ∀ d, ¬ (s.phase d).Pending
  /-- After the list has been emptied it stays empty. -/
  empty : s.Drained → s.list = []
  /-- No server holds contributions of a second round. -/
  unheld : s.Drained → ∀ l, s.ticket ≠ .held l
  /-- There is at most one submission. -/
  once : s.submitted.length ≤ 1
  /-- A server that has emptied the list makes the first submission. -/
  first : ∀ l, s.ticket = .cleared l → s.submitted = []
  /-- What is submitted is a quorum. -/
  quorum : ∀ l, s.ticket = .cleared l ∨ l ∈ s.submitted → t ≤ l.length

omit [DecidableEq δ] in
theorem Sole.init (live : δ → Bool) : Sole t (State.init live) where
  closed h := by
    rcases h with ⟨d, hd⟩ | h | h
    · cases hl : live d <;> simp [State.init, hl, Phase.Reached] at hd
    · simp [State.init] at h
    · simp [State.init] at h
  empty _ := rfl
  unheld _ l := by simp [State.init]
  once := by simp [State.init]
  first l h := rfl
  quorum l h := by simp [State.init] at h

/-- Moving a participant that does not append any more, and that has reached the threshold only if
somebody else had. -/
theorem Sole.setPhase {s : State δ} (hs : Sole t s) {d : δ} {p : Phase}
    (hp : Begun s → ¬ p.Pending) (hr : p.Reached → Begun s) : Sole t (s.setPhase d p) where
  closed h d' := by
    have hb : Begun s := by
      rcases h with ⟨d₁, h1⟩ | h1 | h1
      · by_cases hd : d₁ = d
        · subst hd; exact hr (by simpa using h1)
        · rw [setPhase_of_ne s p hd] at h1; exact Or.inl ⟨d₁, h1⟩
      · exact Or.inr (Or.inl h1)
      · exact Or.inr (Or.inr h1)
    by_cases hd : d' = d
    · subst hd; simpa using hp hb
    · rw [setPhase_of_ne s p hd]; exact hs.closed hb d'
  empty := hs.empty
  unheld := hs.unheld
  once := hs.once
  first := hs.first
  quorum := hs.quorum

/-- A participant that may still append shows that the threshold has not been reached yet. -/
theorem Sole.append {s : State δ} (hs : Sole t s) {d : δ} {p : Phase} (hd : (s.phase d).Pending)
    (hr : ¬ p.Reached) : Sole t ({ s.setPhase d p with list := s.list ++ [d] } : State δ) := by
  have hnb : ¬ Begun s := fun h => hs.closed h d hd
  have h1 : Sole t (s.setPhase d p) := hs.setPhase (fun h => absurd h hnb) (fun h => absurd h hr)
  have hnd : ¬ (s.setPhase d p).Drained := fun h => hnb (Begun.of_drained h)
  exact
    { closed := h1.closed
      empty := fun h => absurd h hnd
      unheld := fun h => absurd h hnd
      once := h1.once
      first := h1.first
      quorum := h1.quorum }

omit [DecidableEq δ] in
/-- A participant that counts `t` contributions of at most `t` participants has counted all. -/
theorem Distinct.all_mem [Fintype δ] {s : State δ} (hs : Distinct s)
    (hcard : Fintype.card δ ≤ t) (hle : t ≤ s.list.length) (d : δ) : d ∈ s.list := by
  classical
  have hlen : s.list.toFinset.card = s.list.length := List.toFinset_card_of_nodup hs.nodup
  have huniv : s.list.toFinset = Finset.univ := by
    apply Finset.eq_univ_of_card
    have := Finset.card_le_univ s.list.toFinset
    omega
  rw [← List.mem_toFinset, huniv]
  exact Finset.mem_univ d

omit [DecidableEq δ] in
/-- The ticket goes on, and the list is not emptied. -/
theorem Sole.setTicket {s : State δ} (hs : Sole t s) {ticket : Ticket δ} (hb : Begun s)
    (hcleared : ∀ l, ticket ≠ .cleared l) (hheld : s.Drained → ∀ l, ticket ≠ .held l) :
    Sole t { s with ticket } where
  closed _ := hs.closed hb
  empty h := hs.empty (h.of_ticket hcleared)
  unheld h := hheld (h.of_ticket hcleared)
  once := hs.once
  first l h := absurd h (hcleared l)
  quorum l h := hs.quorum l (Or.inr (h.resolve_left (hcleared l)))

/-- **With at most `t` participants, every step keeps the facts.** -/
theorem Sole.step [Fintype δ] {s s' : State δ} (hcard : Fintype.card δ ≤ t) (hs : Sole t s)
    (hd : Distinct s) (hf : s.Drained ∨ Fresh t s) (h : Step t crash s s') : Sole t s' := by
  cases h with
  | issue d h =>
    have hnb : ¬ Begun s := fun hb => hs.closed hb d (by rw [h]; trivial)
    exact hs.setPhase (fun hb => absurd hb hnb) (by simp [Phase.Reached])
  | store d h => exact hs.append (by rw [h]; trivial) (by simp [Phase.Reached])
  | storeStopped d h => exact hs.append (by rw [h]; rfl) (by simp [Phase.Reached])
  | count d h =>
    by_cases hle : t ≤ s.list.length
    · -- all participants are in the list, so none of them appends any more
      have hall : ∀ d', ¬ (s.phase d').Pending := fun d' => hd.stored d' (hd.all_mem hcard hle d')
      exact
        { closed := fun _ d' => by
            by_cases he : d' = d
            · subst he; simp [Phase.Pending]
            · rw [setPhase_of_ne s _ he]; exact hall d'
          empty := hs.empty
          unheld := hs.unheld
          once := hs.once
          first := hs.first
          quorum := hs.quorum }
    · exact hs.setPhase (by simp [Phase.Pending]) (by simp [Phase.Reached, hle])
  | find d h htk =>
    exact hs.setPhase (by simp [Phase.Pending]) (fun _ => Or.inl ⟨d, by rw [h]; rfl⟩)
  | miss d h htk =>
    exact hs.setPhase (by simp [Phase.Pending]) (fun _ => Or.inl ⟨d, by rw [h]; rfl⟩)
  | add d h =>
    have hb : Begun s := Or.inl ⟨d, by rw [h]; trivial⟩
    have h1 := hs.setPhase (d := d) (p := .finished) (by simp [Phase.Pending]) (fun _ => hb)
    have hdr : ({ s.setPhase d .finished with ticket := s.ticket.add, added := s.added ++ [d] } :
        State δ).Drained → s.Drained := by
      rintro (h2 | ⟨l, h2⟩)
      · exact Or.inl h2
      · exact Or.inr ⟨l, add_eq_cleared.1 h2⟩
    exact
      { closed := fun _ => h1.closed (Or.inl ⟨d, by simp [Phase.Reached]⟩)
        empty := fun h2 => hs.empty (hdr h2)
        unheld := fun h2 l hl => hs.unheld (hdr h2) l (add_eq_held.1 hl)
        once := hs.once
        first := fun l hl => hs.first l (add_eq_cleared.1 hl)
        quorum := fun l hl => hs.quorum l (hl.imp_left add_eq_cleared.1) }
  | stop d q hc h =>
    refine hs.setPhase (fun hb hq => ?_) (by simp [Phase.Reached])
    have hnp := hs.closed hb d
    cases hph : s.phase d <;> simp_all [Phase.stop, Phase.Pending]
  | take h => exact hs.setTicket (Or.inr (Or.inl (by rw [h]; simp))) (by simp) (by simp)
  | readEmpty h hl => exact hs.setTicket (Or.inr (Or.inl (by rw [h]; simp))) (by simp) (by simp)
  | read h hl =>
    exact hs.setTicket (Or.inr (Or.inl (by rw [h]; simp))) (by simp) fun hdr =>
      absurd (hs.empty hdr) hl
  | clear l h =>
    have hb : Begun s := Or.inr (Or.inl (by rw [h]; simp))
    have hnd : ¬ s.Drained := fun h2 => hs.unheld h2 l h
    have hfr : Fresh t s := hf.resolve_left hnd
    have hsub : s.submitted = [] := by
      by_contra h2
      exact hnd (Or.inl h2)
    refine { closed := fun _ => hs.closed hb, empty := fun _ => rfl, unheld := by simp,
             once := hs.once, first := fun _ _ => hsub, quorum := ?_ }
    rintro l' (h2 | h2)
    · cases h2; exact hfr.held l h
    · exact hs.quorum l' (Or.inr h2)
  | submit l h =>
    have hb : Begun s := Or.inr (Or.inl (by rw [h]; simp))
    have hdr : s.Drained := Or.inr ⟨l, h⟩
    refine { closed := fun _ => hs.closed hb, empty := fun _ => hs.empty hdr, unheld := by simp,
             once := ?_, first := by simp, quorum := ?_ }
    · simp [hs.first l h]
    · rintro l' (h2 | h2)
      · cases h2
      · rcases List.mem_append.1 h2 with h3 | h3
        · exact hs.quorum l' (Or.inr h3)
        · rw [List.mem_singleton.1 h3]; exact hs.quorum l (Or.inl h)
  | finish h => exact hs.setTicket (Or.inr (Or.inl (by rw [h]; simp))) (by simp) (by simp)

theorem sole_of_steps [Fintype δ] {live : δ → Bool} {s : State δ} (ht : 1 ≤ t)
    (hcard : Fintype.card δ ≤ t) (h : Steps t crash (State.init live) s) : Sole t s := by
  induction h with
  | refl => exact Sole.init live
  | tail hsteps hstep ih =>
    exact ih.step hcard (distinct_of_steps hsteps) (drained_or_fresh ht hsteps) hstep

end Collector
