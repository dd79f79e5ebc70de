import Tsunagari.Collector.Proofs.QuorumProofs

/-!
# Proofs: every contribution is spent once

Emptying the list begins a round: what was read goes into one submission. The rounds take different
contributions, the first of them takes a quorum, and none is empty, which bounds their number.
-/

namespace Collector

variable {δ : Type*} {t : ℕ} {crash : Prop}

/-- The contributions that a server has taken out of the list and not submitted yet. -/
def Ticket.round : Ticket δ → Option (List δ)
  | .cleared l => some l
  | _ => none

/-- The contributions of every round, the first one first. -/
def State.rounds (s : State δ) : List (List δ) := s.submitted ++ s.ticket.round.toList

@[simp] theorem round_add (k : Ticket δ) : k.add.round = k.round := by
  cases k <;> rfl

theorem rounds_of_round {s : State δ} (h : s.ticket.round = none) : s.rounds = s.submitted := by
  rw [State.rounds, h, Option.toList_none, List.append_nil]

/-- A round has begun when the list has been emptied. -/
theorem rounds_ne_nil_iff {s : State δ} : s.rounds ≠ [] ↔ s.Drained := by
  cases h : s.ticket with
  | cleared l =>
    refine ⟨fun _ => Or.inr ⟨l, h⟩, fun _ => ?_⟩
    simp [State.rounds, h, Ticket.round]
  | _ =>
    rw [rounds_of_round (by rw [h]; rfl), State.Drained, h]
    simp

/-- Emptying the list begins a round with what was read. -/
theorem rounds_clear {s : State δ} {l : List δ} (h : s.ticket = .held l) :
    State.rounds { s with list := [], ticket := .cleared l } = s.rounds ++ [l] := by
  rw [rounds_of_round (s := s) (by rw [h]; rfl)]
  rfl

/-- What holds of the rounds. -/
structure Spent (t : ℕ) (s : State δ) : Prop where
  /-- No contribution is in two rounds, or in a round and in the list. -/
  nodup : (s.list ++ s.rounds.flatten).Nodup
  /-- Who is in a round does not append any more. -/
  stored : ∀ d ∈ s.rounds.flatten, ¬ (s.phase d).Pending
  /-- What a server has read is still in the list. -/
  held : ∀ l, s.ticket = .held l → l ≠ [] ∧ l <+: s.list
  /-- No round is empty. -/
  nonempty : ∀ l ∈ s.rounds, l ≠ []
  /-- The first round is a quorum. -/
  first : ∀ l ∈ s.rounds.head?, t ≤ l.length

namespace Spent

theorem init (live : δ → Bool) : Spent t (State.init live) where
  nodup := List.nodup_nil
  stored d h := by cases h
  held l h := by cases h
  nonempty l h := by cases h
  first l h := by cases h

variable {s s' : State δ}

/-- The list, the rounds and what is held stay as they are, and nobody may append again. -/
theorem frame (hs : Spent t s) (hlist : s'.list = s.list) (hrounds : s'.rounds = s.rounds)
    (hphase : ∀ d, ¬ (s.phase d).Pending → ¬ (s'.phase d).Pending)
    (hheld : ∀ l, s'.ticket = .held l → s.ticket = .held l) : Spent t s' where
  nodup := by rw [hlist, hrounds]; exact hs.nodup
  stored d hd := hphase d (hs.stored d (hrounds ▸ hd))
  held l hl := hlist ▸ hs.held l (hheld l hl)
  nonempty := by rw [hrounds]; exact hs.nonempty
  first := by rw [hrounds]; exact hs.first

variable [DecidableEq δ]

/-- A participant moves to a phase in which it does not append unless it was about to. -/
theorem setPhase (hs : Spent t s) {d : δ} {p : Phase}
    (hp : ¬ (s.phase d).Pending → ¬ p.Pending) : Spent t (s.setPhase d p) := by
  refine hs.frame rfl rfl (fun d' hd' => ?_) fun _ => id
  by_cases hd : d' = d
  · subst hd
    rw [setPhase_self]
    exact hp hd'
  · rwa [setPhase_of_ne s p hd]

/-- A pending participant appends. -/
theorem append (hs : Spent t s) (hd : Distinct s) {d : δ} {p : Phase} (hpend : (s.phase d).Pending)
    (hp : ¬ p.Pending) : Spent t ({ s.setPhase d p with list := s.list ++ [d] } : State δ) := by
  have h1 := hs.setPhase (d := d) (p := p) fun _ => hp
  refine ⟨?_, h1.stored, fun l hl => ?_, h1.nonempty, h1.first⟩
  · have hlist : d ∉ s.list := fun h => hd.stored d h hpend
    have hrounds : d ∉ s.rounds.flatten := fun h => hs.stored d h hpend
    show ((s.list ++ [d]) ++ s.rounds.flatten).Nodup
    rw [List.append_assoc, List.singleton_append]
    refine List.nodup_middle.2 (List.nodup_cons.2 ⟨?_, hs.nodup⟩)
    rw [List.mem_append]
    exact not_or.2 ⟨hlist, hrounds⟩
  · obtain ⟨hne, hlead⟩ := hs.held l hl
    exact ⟨hne, hlead.trans (List.prefix_append _ _)⟩

/-- **Every step keeps the facts.** -/
theorem step (hs : Spent t s) (hd : Distinct s) (hf : s.Drained ∨ Fresh t s)
    (h : Step t crash s s') : Spent t s' := by
  cases h with
  | issue d h => exact hs.setPhase fun hn => absurd (show Phase.Pending _ by rw [h]; trivial) hn
  | store d h => exact hs.append hd (by rw [h]; trivial) (by simp [Phase.Pending])
  | storeStopped d h => exact hs.append hd (by rw [h]; rfl) (by simp [Phase.Pending])
  | count d h => exact hs.setPhase fun _ => by simp [Phase.Pending]
  | find d h htk => exact hs.setPhase fun _ => by simp [Phase.Pending]
  | miss d h htk => exact hs.setPhase fun _ => by simp [Phase.Pending]
  | add d h =>
    have h1 := hs.setPhase (d := d) (p := .finished) fun _ => by simp [Phase.Pending]
    refine h1.frame rfl ?_ (fun _ => id) fun l hl => add_eq_held.1 hl
    simp only [State.rounds, round_add, setPhase_ticket, setPhase_submitted]
  | stop d q hc h =>
    refine hs.setPhase fun hn => ?_
    cases hph : s.phase d <;> simp_all [Phase.stop, Phase.Pending]
  | take h =>
    refine hs.frame rfl ?_ (fun _ => id) fun l hl => by cases hl
    simp only [State.rounds, h, Ticket.round]
  | readEmpty h hl =>
    refine hs.frame rfl ?_ (fun _ => id) fun l hl => by cases hl
    simp only [State.rounds, h, Ticket.round]
  | read h hl =>
    refine ⟨?_, ?_, fun l hl' => ?_, ?_, ?_⟩
    · simpa only [State.rounds, h, Ticket.round] using hs.nodup
    · simpa only [State.rounds, h, Ticket.round] using hs.stored
    · cases hl'
      exact ⟨hl, List.prefix_rfl⟩
    · simpa only [State.rounds, h, Ticket.round] using hs.nonempty
    · simpa only [State.rounds, h, Ticket.round] using hs.first
  | clear l h =>
    obtain ⟨hne, hlead⟩ := hs.held l h
    have hnew := rounds_clear h
    have hflat : (s.rounds ++ [l]).flatten = s.rounds.flatten ++ l := by simp
    refine ⟨?_, ?_, fun _ hl' => (by cases hl'), ?_, ?_⟩
    · rw [hnew, hflat, List.nil_append]
      have hsub : (l ++ s.rounds.flatten).Sublist (s.list ++ s.rounds.flatten) :=
        hlead.sublist.append_right _
      exact (List.nodup_append_comm.1 (hs.nodup.sublist hsub))
    · intro d hmem
      rw [hnew, hflat, List.mem_append] at hmem
      rcases hmem with hmem | hmem
      · exact hs.stored d hmem
      · exact hd.stored d (hlead.subset hmem)
    · intro l' hmem
      rw [hnew, List.mem_append, List.mem_singleton] at hmem
      rcases hmem with hmem | rfl
      · exact hs.nonempty l' hmem
      · exact hne
    · intro l' hmem
      rw [hnew] at hmem
      cases hr : s.rounds with
      | nil =>
        -- the list has not been emptied before, so that what was read is a quorum
        have hfresh : Fresh t s := hf.resolve_left fun hdr => rounds_ne_nil_iff.2 hdr hr
        rw [hr] at hmem
        cases hmem
        exact hfresh.held l h
      | cons l₁ rest =>
        refine hs.first l' ?_
        rw [hr] at hmem ⊢
        exact hmem
  | submit l h =>
    refine hs.frame rfl ?_ (fun _ => id) fun l hl => by cases hl
    simp [State.rounds, h, Ticket.round]
  | finish h =>
    refine hs.frame rfl ?_ (fun _ => id) fun l hl => by cases hl
    simp only [State.rounds, h, Ticket.round]

end Spent

variable [DecidableEq δ]

theorem spent_of_steps {live : δ → Bool} {s : State δ} (ht : 1 ≤ t)
    (h : Steps t crash (State.init live) s) : Spent t s := by
  induction h with
  | refl => exact .init live
  | tail hsteps hstep ih =>
    exact ih.step (distinct_of_steps hsteps) (drained_or_fresh ht hsteps) hstep

/-- Only participants that were about to start are in a round. -/
theorem live_of_rounds {live : δ → Bool} {s : State δ} (ht : 1 ≤ t)
    (h : Steps t crash (State.init live) s) : ∀ d ∈ s.rounds.flatten, live d = true := by
  induction h with
  | refl => intro d hd; cases hd
  | @tail s s' hsteps hstep ih =>
    have hkeep : s'.rounds = s.rounds → ∀ d ∈ s'.rounds.flatten, live d = true := fun h => h ▸ ih
    cases hstep with
    | clear l h =>
      intro d hd
      rw [rounds_clear h, List.flatten_append, List.mem_append] at hd
      rcases hd with hd | hd
      · exact ih d hd
      · refine (live_of_steps hsteps).1 d (((spent_of_steps ht hsteps).held l h).2.subset ?_)
        simpa using hd
    | add d h => exact hkeep (by simp only [State.rounds, round_add, setPhase_submitted])
    | take h => exact hkeep (by simp only [State.rounds, h, Ticket.round])
    | readEmpty h hl => exact hkeep (by simp only [State.rounds, h, Ticket.round])
    | read h hl => exact hkeep (by simp only [State.rounds, h, Ticket.round])
    | submit l h => exact hkeep (by simp [State.rounds, h, Ticket.round])
    | finish h => exact hkeep (by simp only [State.rounds, h, Ticket.round])
    | _ => exact ih

/-- **No contribution is submitted twice**, nor is one in the list that has been submitted. -/
theorem submitted_nodup {live : δ → Bool} {s : State δ} (ht : 1 ≤ t)
    (h : Steps t crash (State.init live) s) :
    (s.list ++ s.submitted.flatten).Nodup ∧ ∀ d ∈ s.submitted.flatten, live d = true := by
  have hsub : s.submitted.flatten.Sublist s.rounds.flatten := by
    rw [State.rounds, List.flatten_append]
    exact List.sublist_append_left ..
  exact ⟨(spent_of_steps ht h).nodup.sublist (hsub.append_left _),
    fun d hd => live_of_rounds ht h d (hsub.subset hd)⟩

omit [DecidableEq δ] in
/-- Lists that are not empty are at most as many as their elements. -/
theorem length_le_of_nonempty {ls : List (List δ)} (h : ∀ l ∈ ls, l ≠ []) :
    ls.length ≤ ls.flatten.length := by
  induction ls with
  | nil => simp
  | cons l ls ih =>
    have hl := List.length_pos_of_ne_nil (h l (List.mem_cons_self ..))
    have hls := ih fun l' hl' => h l' (List.mem_cons_of_mem _ hl')
    rw [List.flatten_cons, List.length_append, List.length_cons]
    omega

/-- **The first round takes a quorum and every other one at least one contribution**, so that there
are at most `n - t + 1` submissions of `n` participants. -/
theorem submitted_length_add_le [Fintype δ] {live : δ → Bool} {s : State δ} (ht : 1 ≤ t)
    (h : Steps t crash (State.init live) s) (hne : s.submitted ≠ []) :
    s.submitted.length + t ≤ (Finset.univ.filter fun d => live d = true).card + 1 := by
  have hs := spent_of_steps ht h
  obtain ⟨hnodup, hlive⟩ := submitted_nodup ht h
  have hcard : s.submitted.flatten.length ≤ (Finset.univ.filter fun d => live d = true).card := by
    rw [← List.toFinset_card_of_nodup (List.nodup_append.1 hnodup).2.1]
    refine Finset.card_le_card fun d hd => ?_
    rw [List.mem_toFinset] at hd
    exact Finset.mem_filter.2 ⟨Finset.mem_univ d, hlive d hd⟩
  cases hsub : s.submitted with
  | nil => exact absurd hsub hne
  | cons first rest =>
    have hfirst : t ≤ first.length := hs.first first (by rw [State.rounds, hsub]; rfl)
    have hrest : rest.length ≤ rest.flatten.length := by
      refine length_le_of_nonempty fun l hl => hs.nonempty l ?_
      rw [State.rounds, hsub]
      exact List.mem_append_left _ (List.mem_cons_of_mem _ hl)
    rw [hsub, List.flatten_cons, List.length_append] at hcard
    rw [List.length_cons]
    omega

end Collector
