import Tsunagari.Collector.Proofs.QuorumProofs

/-!
# Proofs: exactly when there is one submission and when every submission has a quorum

The bounds of `Sole` are sharp: with more than `t` participants there is a schedule with a second
submission, and, unless `t` is one, the second submission falls short of the threshold.
-/

namespace Collector

open Relation

variable {δ : Type*} [DecidableEq δ] {t : ℕ} {crash : Prop}

/-! ## Schedules -/

/-- The participants in `l` append one after the other. -/
theorem steps_store {l : List δ} (hnd : l.Nodup) {s : State δ}
    (hidle : ∀ d ∈ l, s.phase d = .idle) :
    ∃ s', Steps t crash s s' ∧ s'.list = s.list ++ l ∧ s'.ticket = s.ticket ∧
      s'.submitted = s.submitted ∧ ∀ d, s'.phase d = if d ∈ l then .stored else s.phase d := by
  induction l generalizing s with
  | nil => exact ⟨s, .refl, by simp, rfl, rfl, by simp⟩
  | cons d l ih =>
    obtain ⟨hdl, hnd⟩ := List.nodup_cons.1 hnd
    have hd : s.phase d = .idle := hidle d (List.mem_cons_self ..)
    set s₁ := s.setPhase d .issued with hs₁
    set s₂ : State δ := { s₁.setPhase d .stored with list := s.list ++ [d] } with hs₂
    have hph : ∀ d', s₂.phase d' = if d' = d then .stored else s.phase d' := by
      intro d'
      show (s₁.setPhase d .stored).phase d' = _
      by_cases he : d' = d
      · simp [he]
      · rw [setPhase_of_ne _ _ he, hs₁, setPhase_of_ne _ _ he, if_neg he]
    have h1 : Step t crash s s₁ := .issue d hd
    have h2 : Step t crash s₁ s₂ := .store d (by simp [hs₁])
    have hidle' : ∀ d' ∈ l, s₂.phase d' = .idle := by
      intro d' hd'
      have hne : d' ≠ d := fun he => hdl (he ▸ hd')
      rw [hph, if_neg hne]
      exact hidle d' (List.mem_cons_of_mem _ hd')
    obtain ⟨s', hst, hl, htk, hsub, hp⟩ := ih hnd hidle'
    refine ⟨s', (ReflTransGen.head h1 (ReflTransGen.head h2 hst)), ?_, htk, hsub, fun d' => ?_⟩
    · rw [hl]; simp [hs₂]
    · rw [hp, hph]
      by_cases he : d' = d
      · simp [he]
      · simp [he]

/-- A participant that has appended counts a list with at least `t` contributions. -/
theorem steps_count {s : State δ} {d : δ} (hd : s.phase d = .stored) (hle : t ≤ s.list.length) :
    Steps t crash s (s.setPhase d (.counted true)) := by
  have h : Step t crash s _ := .count d hd
  rw [decide_eq_true hle] at h
  exact ReflTransGen.single h

/-- A participant that has seen the threshold reached finds no ticket, adds one, and the server
serves it: it submits the whole list. -/
theorem steps_serve {s : State δ} {d : δ} (hd : s.phase d = .counted true)
    (htk : s.ticket = .absent) (hl : s.list ≠ []) :
    ∃ s', Steps t crash s s' ∧ s'.list = [] ∧ s'.ticket = .absent ∧
      s'.submitted = s.submitted ++ [s.list] ∧ ∀ d', d' ≠ d → s'.phase d' = s.phase d' := by
  set s₁ := s.setPhase d .checked with hs₁
  set s₂ : State δ :=
    { s₁.setPhase d .finished with ticket := s₁.ticket.add, added := s.added ++ [d] } with hs₂
  have h1 : Step t crash s s₁ := .miss d hd htk
  have h2 : Step t crash s₁ s₂ := .add d (by simp [hs₁])
  have hw : s₂.ticket = .waiting := by simp [hs₂, hs₁, htk, Ticket.add]
  have h3 : Step t crash s₂ { s₂ with ticket := .reading } := .take hw
  have h4 : Step t crash { s₂ with ticket := .reading } { s₂ with ticket := .held s.list } :=
    .read rfl hl
  have h5 : Step t crash { s₂ with ticket := .held s.list }
      { s₂ with list := [], ticket := .cleared s.list } :=
    .clear s.list rfl
  have h6 : Step t crash { s₂ with list := [], ticket := .cleared s.list }
      { s₂ with list := [], ticket := .served, submitted := s.submitted ++ [s.list] } :=
    .submit s.list rfl
  have h7 : Step t crash
      { s₂ with list := [], ticket := .served, submitted := s.submitted ++ [s.list] }
      { s₂ with list := [], ticket := .absent, submitted := s.submitted ++ [s.list] } :=
    .finish rfl
  refine ⟨_, ((((((ReflTransGen.single h1).tail h2).tail h3).tail h4).tail h5).tail h6).tail h7,
    rfl, rfl, rfl, fun d' hne => ?_⟩
  show (s₁.setPhase d .finished).phase d' = s.phase d'
  rw [setPhase_of_ne _ _ hne, hs₁, setPhase_of_ne _ _ hne]

/-- A late participant `x` appends to the emptied list, and `b`, which had seen the threshold
reached before, makes another submission of `x` alone. -/
theorem steps_second {s : State δ} {b x : δ} (hb : s.phase b = .counted true)
    (hx : s.phase x = .idle) (htk : s.ticket = .absent) (hl : s.list = []) :
    ∃ s', Steps t crash s s' ∧ s'.submitted = s.submitted ++ [[x]] := by
  have hbx : b ≠ x := by rintro rfl; rw [hb] at hx; cases hx
  obtain ⟨s₁, h1, hl1, htk1, hsub1, hp1⟩ :=
    steps_store (t := t) (List.nodup_singleton x) (s := s) (by simpa using hx)
  have hb1 : s₁.phase b = .counted true := by rw [hp1]; simp [hbx, hb]
  obtain ⟨s₂, h2, -, -, hsub2, -⟩ :=
    steps_serve (t := t) hb1 (htk1.trans htk) (by rw [hl1]; simp)
  exact ⟨s₂, h1.trans h2, by rw [hsub2, hsub1, hl1, hl]; simp⟩

omit [DecidableEq δ] in
/-- Of more than `t` participants, `t` different ones and another one. -/
theorem exists_nodup_cons [Fintype δ] (h : t < Fintype.card δ) :
    ∃ (x : δ) (l : List δ), x ∉ l ∧ l.Nodup ∧ l.length = t := by
  obtain ⟨S, -, hS⟩ := Finset.exists_subset_card_eq (s := (Finset.univ : Finset δ)) (n := t + 1)
    (by rw [Finset.card_univ]; omega)
  have hlen : S.toList.length = t + 1 := by rw [Finset.length_toList, hS]
  have hnd := S.nodup_toList
  cases hl : S.toList with
  | nil => rw [hl] at hlen; simp at hlen
  | cons x l =>
    rw [hl] at hlen hnd
    obtain ⟨h1, h2⟩ := List.nodup_cons.1 hnd
    exact ⟨x, l, h1, h2, by simpa using hlen⟩

/-- With a threshold of at least two and more participants than that, two participants see the
threshold reached in the first round; the second of them submits the contribution of a late one. -/
theorem steps_short [Fintype δ] (h2 : 2 ≤ t) (h : t < Fintype.card δ) :
    ∃ (s : State δ) (x : δ) (l : List δ), Steps t crash (State.init fun _ => true) s ∧
      s.submitted = [l, [x]] := by
  obtain ⟨x, l, hxl, hnd, hlen⟩ := exists_nodup_cons h
  obtain ⟨a, b, l', rfl⟩ : ∃ a b l', l = a :: b :: l' := by
    rcases l with _ | ⟨a, _ | ⟨b, l'⟩⟩
    · simp at hlen; omega
    · simp at hlen; omega
    · exact ⟨a, b, l', rfl⟩
  have hab : a ≠ b := by
    rintro rfl
    exact (List.nodup_cons.1 hnd).1 (List.mem_cons_self ..)
  have hxa : x ≠ a := fun he => hxl (by simp [he])
  have hxb : x ≠ b := fun he => hxl (by simp [he])
  obtain ⟨s₁, h1, hl1, htk1, hsub1, hp1⟩ :=
    steps_store (t := t) hnd (s := State.init fun _ => true) (fun d _ => by simp [State.init])
  have hlist : s₁.list = a :: b :: l' := by rw [hl1]; simp [State.init]
  have hle : t ≤ s₁.list.length := by rw [hlist]; omega
  have ha1 : s₁.phase a = .stored := by rw [hp1]; simp
  have hb1 : s₁.phase b = .stored := by rw [hp1]; simp
  have hc1 : Steps t crash _ _ := steps_count ha1 hle
  have hb2 : (s₁.setPhase a (.counted true)).phase b = .stored := by
    rw [setPhase_of_ne _ _ hab.symm]; exact hb1
  have hc2 : Steps t crash _ _ := steps_count (s := s₁.setPhase a (.counted true)) hb2 hle
  set s₂ := (s₁.setPhase a (.counted true)).setPhase b (.counted true) with hs₂
  have ha2 : s₂.phase a = .counted true := by
    rw [hs₂, setPhase_of_ne _ _ hab]; simp
  have hx2 : s₂.phase x = .idle := by
    rw [hs₂, setPhase_of_ne _ _ hxb, setPhase_of_ne _ _ hxa, hp1, if_neg hxl]
    simp [State.init]
  obtain ⟨s₃, h3, hl3, htk3, hsub3, hp3⟩ := steps_serve (t := t) ha2
    (by show s₁.ticket = _; rw [htk1]; rfl) (by show s₁.list ≠ []; rw [hlist]; simp)
  obtain ⟨s₄, h4, hsub4⟩ := steps_second (t := t) (s := s₃) (b := b) (x := x)
    (by rw [hp3 b hab.symm, hs₂]; simp) (by rw [hp3 x hxa]; exact hx2) htk3 hl3
  refine ⟨s₄, x, a :: b :: l', (((h1.trans hc1).trans hc2).trans h3).trans h4, ?_⟩
  have hs2list : s₂.list = a :: b :: l' := hlist
  have hs2sub : s₂.submitted = [] := by show s₁.submitted = []; rw [hsub1]; rfl
  rw [hsub4, hsub3, hs2sub, hs2list]
  rfl

/-- With threshold one, every participant makes a submission of its own. -/
theorem steps_twice [Fintype δ] (h : 1 < Fintype.card δ) :
    ∃ (s : State δ) (x y : δ), Steps 1 crash (State.init fun _ => true) s ∧
      s.submitted = [[x], [y]] := by
  obtain ⟨y, l, hyl, hnd, hlen⟩ := exists_nodup_cons h
  obtain ⟨x, rfl⟩ := List.length_eq_one_iff.1 hlen
  have hyx : y ≠ x := fun he => hyl (by simp [he])
  obtain ⟨s₁, h1, hl1, htk1, hsub1, hp1⟩ :=
    steps_store (t := 1) hnd (s := State.init fun _ => true) (fun d _ => by simp [State.init])
  have hlist : s₁.list = [x] := by rw [hl1]; simp [State.init]
  have hx1 : s₁.phase x = .stored := by rw [hp1]; simp
  have hc1 : Steps 1 crash _ _ := steps_count (t := 1) hx1 (by rw [hlist]; simp)
  obtain ⟨s₂, h2, hl2, htk2, hsub2, hp2⟩ := steps_serve (t := 1)
    (s := s₁.setPhase x (.counted true)) (d := x) (by simp)
    (by show s₁.ticket = _; rw [htk1]; rfl) (by show s₁.list ≠ []; rw [hlist]; simp)
  have hy2 : s₂.phase y = .idle := by
    rw [hp2 y hyx, setPhase_of_ne _ _ hyx, hp1, if_neg hyl]
    simp [State.init]
  obtain ⟨s₃, h3, hl3, htk3, hsub3, hp3⟩ :=
    steps_store (t := 1) (List.nodup_singleton y) (s := s₂) (by simpa using hy2)
  have hlist3 : s₃.list = [y] := by rw [hl3, hl2]; rfl
  have hy3 : s₃.phase y = .stored := by rw [hp3]; simp
  have hc3 : Steps 1 crash _ _ := steps_count (t := 1) hy3 (by rw [hlist3]; simp)
  obtain ⟨s₄, h4, -, -, hsub4, -⟩ := steps_serve (t := 1)
    (s := s₃.setPhase y (.counted true)) (d := y) (by simp)
    (by show s₃.ticket = _; rw [htk3, htk2]) (by show s₃.list ≠ []; rw [hlist3]; simp)
  refine ⟨s₄, x, y, ((((h1.trans hc1).trans h2).trans h3).trans hc3).trans h4, ?_⟩
  have e1 : s₁.submitted = [] := by rw [hsub1]; rfl
  have e3 : s₃.submitted = [[x]] := by
    rw [hsub3, hsub2, setPhase_submitted, setPhase_list, e1, hlist]; rfl
  rw [hsub4, setPhase_submitted, setPhase_list, e3, hlist3]
  rfl

/-! ## The exact conditions -/

/-- What is submitted is never empty. -/
structure Filled (s : State δ) : Prop where
  held : ∀ l, s.ticket = .held l → l ≠ []
  cleared : ∀ l, s.ticket = .cleared l → l ≠ []
  submitted : ∀ l ∈ s.submitted, l ≠ []

theorem filled_of_steps {live : δ → Bool} {s : State δ} (h : Steps t crash (State.init live) s) :
    Filled s := by
  induction h with
  | refl => exact ⟨by simp [State.init], by simp [State.init], by simp [State.init]⟩
  | tail _ hstep ih =>
    obtain ⟨i1, i2, i3⟩ := ih
    cases hstep with
    | add d h =>
      exact ⟨fun l hl => i1 l (add_eq_held.1 hl), fun l hl => i2 l (add_eq_cleared.1 hl), i3⟩
    | take h => exact ⟨by simp, by simp, i3⟩
    | readEmpty h hl => exact ⟨by simp, by simp, i3⟩
    | read h hl => exact ⟨fun l hl' => by cases hl'; exact hl, by simp, i3⟩
    | clear l h => exact ⟨by simp, fun l' hl' => by cases hl'; exact i1 l h, i3⟩
    | submit l h =>
      refine ⟨by simp, by simp, fun l' hl' => ?_⟩
      rcases List.mem_append.1 hl' with h1 | h1
      · exact i3 l' h1
      · rw [List.mem_singleton.1 h1]; exact i2 l h
    | finish h => exact ⟨by simp, by simp, i3⟩
    | _ => exact ⟨i1, i2, i3⟩

/-- **There is at most one submission in every schedule exactly when there are at most `t`
participants.** -/
theorem submitted_length_le_one_iff [Fintype δ] (ht : 1 ≤ t) :
    (∀ s : State δ, Steps t crash (State.init fun _ => true) s → s.submitted.length ≤ 1) ↔
      Fintype.card δ ≤ t := by
  constructor
  · intro h
    by_contra hlt
    have hlt' : t < Fintype.card δ := by omega
    rcases Nat.lt_or_ge t 2 with h2 | h2
    · obtain rfl : t = 1 := by omega
      obtain ⟨s, x, y, hst, hsub⟩ := steps_twice hlt'
      have := h s hst
      rw [hsub] at this
      simp at this
    · obtain ⟨s, x, l, hst, hsub⟩ := steps_short h2 hlt'
      have := h s hst
      rw [hsub] at this
      simp at this
  · intro hcard s hst
    exact (sole_of_steps ht hcard hst).once

/-- **Every submission carries `t` contributions in every schedule exactly when the threshold is one
or there are at most `t` participants.** -/
theorem submitted_quorum_iff [Fintype δ] (ht : 1 ≤ t) :
    (∀ s : State δ, Steps t crash (State.init fun _ => true) s → ∀ l ∈ s.submitted, t ≤ l.length) ↔
      t = 1 ∨ Fintype.card δ ≤ t := by
  constructor
  · intro h
    by_contra hlt
    obtain ⟨h1, h2⟩ := not_or.1 hlt
    obtain ⟨s, x, l, hst, hsub⟩ := steps_short (δ := δ) (t := t) (by omega) (by omega)
    have := h s hst [x] (by rw [hsub]; simp)
    simp at this
    omega
  · rintro (rfl | hcard) s hst l hl
    · have := (filled_of_steps hst).submitted l hl
      exact List.length_pos_iff.2 this
    · exact (sole_of_steps ht hcard hst).quorum l (Or.inr hl)

/-! ## Schedules without a crash -/

omit [DecidableEq δ] in
theorem State.stopped_init {live : δ → Bool} {d : δ} :
    (∃ q, (State.init live).phase d = .stopped q) ↔ live d = false := by
  cases h : live d <;> simp [State.init, h]

/-- A participant that has stopped stays so. -/
theorem Step.stopped {s s' : State δ} (h : Step t crash s s') {d : δ}
    (hd : ∃ q, s.phase d = .stopped q) : ∃ q, s'.phase d = .stopped q := by
  have hset : ∀ d' p, ((∃ q, s.phase d' = .stopped q) → ∃ q, p = .stopped q) →
      ∃ q, (s.setPhase d' p).phase d = .stopped q := by
    intro d' p hp
    by_cases he : d = d'
    · subst he
      rw [setPhase_self]
      exact hp hd
    · rw [setPhase_of_ne s p he]
      exact hd
  cases h with
  | issue d' h => exact hset d' _ fun ⟨q, hq⟩ => by rw [h] at hq; cases hq
  | store d' h => exact hset d' _ fun ⟨q, hq⟩ => by rw [h] at hq; cases hq
  | storeStopped d' h => exact hset d' _ fun _ => ⟨false, rfl⟩
  | count d' h => exact hset d' _ fun ⟨q, hq⟩ => by rw [h] at hq; cases hq
  | find d' h ht => exact hset d' _ fun ⟨q, hq⟩ => by rw [h] at hq; cases hq
  | miss d' h ht => exact hset d' _ fun ⟨q, hq⟩ => by rw [h] at hq; cases hq
  | add d' h => exact hset d' _ fun ⟨q, hq⟩ => by rw [h] at hq; cases hq
  | stop d' q hc h => exact hset d' _ fun _ => ⟨q, rfl⟩
  | take | readEmpty | read | clear | submit | finish => exact hd

theorem stopped_of_steps {s s' : State δ} (h : Steps t crash s s') {d : δ}
    (hd : ∃ q, s.phase d = .stopped q) : ∃ q, s'.phase d = .stopped q := by
  induction h with
  | refl => exact hd
  | tail _ hlast ih => exact hlast.stopped ih

/-- **A schedule in which nobody has come to a stop is one without a crash.** -/
theorem crashFree_of_steps {s s' : State δ} (h : Steps t True s s')
    (hlive : ∀ d, (∃ q, s'.phase d = .stopped q) → ∃ q, s.phase d = .stopped q) :
    Steps t False s s' := by
  induction h using ReflTransGen.head_induction_on with
  | refl => exact .refl
  | head hstep hrest ih =>
    refine .head ?_ (ih fun d hd => hstep.stopped (hlive d hd))
    cases hstep with
    | stop d q hc h =>
      obtain ⟨q', hq'⟩ := hlive d (stopped_of_steps hrest ⟨q, by simp⟩)
      rw [hq'] at h
      cases h
    | issue d h => exact .issue d h
    | store d h => exact .store d h
    | storeStopped d h => exact .storeStopped d h
    | count d h => exact .count d h
    | find d h ht => exact .find d h ht
    | miss d h ht => exact .miss d h ht
    | add d h => exact .add d h
    | take h => exact .take h
    | readEmpty h hl => exact .readEmpty h hl
    | read h hl => exact .read h hl
    | clear l h => exact .clear l h
    | submit l h => exact .submit l h
    | finish h => exact .finish h

end Collector
