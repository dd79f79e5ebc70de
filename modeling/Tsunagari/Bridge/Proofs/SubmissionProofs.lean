import Tsunagari.Bridge.Proofs.ReplayProofs
import Tsunagari.Bridge.Sample
import Tsunagari.Collector.Proofs.ScheduleProofs

/-!
# Proofs: when a submission has a quorum, and when there is only one

Every node handles the same event once, and all commands succeed. What a worker submits is what it
reads, which may be less than what was counted when the job was added: a node that has counted
enough signatures may look for the job after an earlier job for the event has been completed and
removed.
-/

namespace Tsunagari

open Collector (Steps)

variable {δ : Type} [DecidableEq δ] {P : Platform} {cfg : Config} {env : Env} {node : δ → Node}
  {e : BridgeEvent} {site : BridgeSite} {job : BridgeJob}

/-! ## One event -/

omit [DecidableEq δ] in
/-- When every node can sign, every delivery takes part. -/
theorem signs_all (hsign : ∀ d, (e.sign P cfg (node d)).isOk) :
    signs P cfg (fun _ : δ => e) node (fun _ => true) = fun _ => true := by
  funext d
  rw [signs, hsign d]
  rfl

omit [DecidableEq δ] in
/-- The submissions carry the contributions that were submitted. -/
theorem signatureCounts_eq {p : Plan} {t : ℕ} {event : δ → BridgeEvent} {mine : δ → Bool}
    {w : World δ} {s : Collector.State δ} (h : Tracks P cfg env event node mine p t w s)
    (hdecodes : QueueProcessor.Decodes P (p.theJob env)) :
    (w.submissions p.jobId).map Call.signatureCount = s.submitted.map List.length := by
  rw [h.submissions]
  induction s.submitted with
  | nil => rfl
  | cons l rest ih =>
    obtain ⟨c, hc⟩ := hdecodes.call (l.map (signatureOf P cfg event node))
    rw [List.filterMap_cons_some (b := c) (by simp only [submissionOf, hc, Except.toOption]),
      List.map_cons, List.map_cons, ih, QueueProcessor.signatureCount_of_destinationCall hc,
      List.length_map]

section Counts

variable (hsite : e.site P cfg = .ok site) (hjob : e.job P cfg env = .ok job)
  (hsign : ∀ d, (e.sign P cfg (node d)).isOk)
  (hdecodes : QueueProcessor.Decodes P job)

include hsite hjob

omit [DecidableEq δ] in
theorem exists_plan : ∃ p, e.plan P cfg = .ok p ∧ p.site = .ok site ∧ p.theJob env = job ∧
    p.jobId = e.jobId P cfg := by
  cases hplan : e.plan P cfg with
  | error err => rw [BridgeEvent.site, hplan] at hsite; cases hsite
  | ok p =>
    rw [BridgeEvent.site, hplan] at hsite
    rw [BridgeEvent.job, hplan] at hjob
    cases hjob
    exact ⟨p, rfl, hsite, rfl, (Plan.of_plan hplan).jobId⟩

include hsign hdecodes

/-- In every run, the submissions carry what is submitted in some schedule of the collection. -/
theorem schedule_of_run {l : List (Action δ)} {w : World δ} (hl : ∀ a ∈ l, a.Succeeds)
    (hrun : World.run P cfg env (World.init fun d => e.handle P cfg (node d)) l = some w) :
    ∃ s : Collector.State δ, Steps (env.threshold site) True
      (Collector.State.init fun _ => true) s ∧
        (w.submissions (e.jobId P cfg)).map Call.signatureCount = s.submitted.map List.length := by
  obtain ⟨p, hplan, hp, rfl, hid⟩ := exists_plan hsite hjob
  obtain ⟨s, hsteps, htr⟩ := Tracks.of_run (Deliveries.all hplan (Plan.threshold_of_site hp))
    (fun a ha => (hl a ha).orStops) hrun
  rw [signs_all hsign] at hsteps
  exact ⟨s, hsteps, hid ▸ signatureCounts_eq htr hdecodes⟩

/-- What is submitted in a schedule of the collection, the submissions carry in some run. -/
theorem run_of_schedule {s : Collector.State δ}
    (h : Steps (env.threshold site) False (Collector.State.init fun _ => true) s) :
    ∃ (l : List (Action δ)) (w : World δ), (∀ a ∈ l, a.Succeeds) ∧
      World.run P cfg env (World.init fun d => e.handle P cfg (node d)) l = some w ∧
        (w.submissions (e.jobId P cfg)).map Call.signatureCount = s.submitted.map List.length := by
  obtain ⟨p, hplan, hp, rfl, hid⟩ := exists_plan hsite hjob
  have hall : signs P cfg (fun _ : δ => e) node (fun _ => true) = fun _ => true := signs_all hsign
  rw [← hall] at h
  obtain ⟨l, w, hl, hrun, htr⟩ :=
    Tracks.of_steps (Deliveries.all hplan (Plan.threshold_of_site hp)) hp hdecodes h
  exact ⟨l, w, hl, hrun, hid ▸ signatureCounts_eq htr hdecodes⟩

/-! ## The exact conditions -/

/-- **Every submission carries `t` signatures in every run exactly when the threshold is one or
there are at most `t` nodes.** -/
theorem signatureCount_iff [Fintype δ] (ht : 1 ≤ env.threshold site) :
    (∀ (l : List (Action δ)) (w : World δ), (∀ a ∈ l, a.Succeeds) →
        World.run P cfg env (World.init fun d => e.handle P cfg (node d)) l = some w →
          ∀ c ∈ w.submissions (e.jobId P cfg), env.threshold site ≤ c.signatureCount) ↔
      env.threshold site = 1 ∨ Fintype.card δ ≤ env.threshold site := by
  constructor
  · intro h
    have hquorum : ∀ s : Collector.State δ, Steps (env.threshold site) False
        (Collector.State.init fun _ => true) s →
          ∀ l ∈ s.submitted, env.threshold site ≤ l.length := by
      intro s hs l hl
      obtain ⟨acts, w, hacts, hrun, hcounts⟩ := run_of_schedule hsite hjob hsign hdecodes hs
      have hmem : l.length ∈ (w.submissions (e.jobId P cfg)).map Call.signatureCount := by
        rw [hcounts]
        exact List.mem_map_of_mem hl
      obtain ⟨c, hc, hlen⟩ := List.mem_map.1 hmem
      rw [← hlen]
      exact h acts w hacts hrun c hc
    exact (Collector.submitted_quorum_iff ht).1 hquorum
  · intro h l w hl hrun c hc
    obtain ⟨s, hs, hcounts⟩ := schedule_of_run hsite hjob hsign hdecodes hl hrun
    have hmem : c.signatureCount ∈ s.submitted.map List.length := by
      rw [← hcounts]
      exact List.mem_map_of_mem hc
    obtain ⟨l', hl', hlen⟩ := List.mem_map.1 hmem
    rw [← hlen]
    exact (Collector.submitted_quorum_iff ht).2 h s hs l' hl'

omit hsite hjob hsign hdecodes [DecidableEq δ] in
/-- Two of three nodes see the threshold of two reached. The first of them adds the job, and a
worker submits both signatures. Then the second adds the job again, the third node pushes, and a
worker submits one signature. -/
theorem not_signatureCount_sample :
    ¬ ∀ (l : List (Action (Fin 3))) (w : World (Fin 3)), (∀ a ∈ l, a.Succeeds) →
      World.run Sample.platform Sample.config (Sample.env 2 2)
          (Sample.world (Sample.lock 137) 3 le_rfl) l = some w →
        ∀ c ∈ w.submissions ((Sample.lock 137).jobId Sample.platform Sample.config),
          2 ≤ c.signatureCount := by
  intro h
  have heval : (World.run Sample.platform Sample.config (Sample.env 2 2)
      (Sample.world (Sample.lock 137) 3 le_rfl)
      (Sample.push 0 ++ Sample.push 1 ++ Sample.count 0 ++ Sample.count 1 ++ Sample.enqueue 0 ++
        Sample.serve "jobID: 2361242049" (.receipt (some 1)) ++ [.settle "jobID: 2361242049"] ++
        Sample.enqueue 1 ++ Sample.push 2 ++
        Sample.serve "jobID: 2361242049" (.receipt (some 0)))).map
      (fun w => (w.submissions ((Sample.lock 137).jobId Sample.platform Sample.config)).map
        Call.signatureCount) = some [2, 1] := by decide +kernel
  obtain ⟨w, hrun, hcounts⟩ := Option.map_eq_some_iff.1 heval
  obtain ⟨c, hc, hone⟩ : ∃ c ∈ w.submissions ((Sample.lock 137).jobId Sample.platform
      Sample.config), c.signatureCount = 1 := List.mem_map.1 (by rw [hcounts]; simp)
  have htwo := h _ w (by decide) hrun c hc
  omega

omit hsite hjob hsign hdecodes [DecidableEq δ] in
/-- Three nodes and the threshold three. -/
theorem signatureCount_iff_sample :
    (∀ (l : List (Action (Fin 3))) (w : World (Fin 3)), (∀ a ∈ l, a.Succeeds) →
        World.run Sample.platform Sample.config (Sample.env 3 3)
            (Sample.world (Sample.lock 137) 3 le_rfl) l = some w →
          ∀ c ∈ w.submissions ((Sample.lock 137).jobId Sample.platform Sample.config),
            3 ≤ c.signatureCount) ↔
      3 = 1 ∨ Fintype.card (Fin 3) ≤ 3 := by
  obtain ⟨job, hjob, hdecodes⟩ := exists_ok_of_decide (p := QueueProcessor.Decodes Sample.platform)
    (x := (Sample.lock 137).job Sample.platform Sample.config (Sample.env 3 3)) (by decide +kernel)
  have hsite : (Sample.lock 137).site Sample.platform Sample.config = .ok (.evm 137) := by
    decide +kernel
  exact signatureCount_iff hsite hjob (by decide +kernel) hdecodes (by decide)

/-- **There is at most one submission in every run exactly when all nodes are needed.** -/
theorem submissions_length_iff [Fintype δ] (ht : 1 ≤ env.threshold site)
    (hcard : env.threshold site ≤ Fintype.card δ) :
    (∀ (l : List (Action δ)) (w : World δ), (∀ a ∈ l, a.Succeeds) →
        World.run P cfg env (World.init fun d => e.handle P cfg (node d)) l = some w →
          (w.submissions (e.jobId P cfg)).length ≤ 1) ↔
      env.threshold site = Fintype.card δ := by
  have hlength : ∀ (w : World δ) (s : Collector.State δ),
      (w.submissions (e.jobId P cfg)).map Call.signatureCount = s.submitted.map List.length →
        (w.submissions (e.jobId P cfg)).length = s.submitted.length := by
    intro w s h
    have := congrArg List.length h
    rwa [List.length_map, List.length_map] at this
  constructor
  · intro h
    have hsole : ∀ s : Collector.State δ, Steps (env.threshold site) False
        (Collector.State.init fun _ => true) s → s.submitted.length ≤ 1 := by
      intro s hs
      obtain ⟨acts, w, hacts, hrun, hcounts⟩ := run_of_schedule hsite hjob hsign hdecodes hs
      rw [← hlength w s hcounts]
      exact h acts w hacts hrun
    exact le_antisymm hcard ((Collector.submitted_length_le_one_iff ht).1 hsole)
  · intro h l w hl hrun
    obtain ⟨s, hs, hcounts⟩ := schedule_of_run hsite hjob hsign hdecodes hl hrun
    rw [hlength w s hcounts]
    exact (Collector.submitted_length_le_one_iff ht).2 h.ge s hs

end Counts

/-- Of two nodes with the threshold one, the second handles the event after the transfer of the
first has been submitted and its job removed: the transfer is submitted again. -/
theorem not_submissions_length_sample :
    ¬ ∀ (l : List (Action (Fin 2))) (w : World (Fin 2)), (∀ a ∈ l, a.Succeeds) →
      World.run Sample.platform Sample.config (Sample.env 1 1)
          (Sample.world (Sample.lock 137) 2 (Nat.le_succ 2)) l = some w →
        (w.submissions ((Sample.lock 137).jobId Sample.platform Sample.config)).length ≤ 1 := by
  intro h
  have heval : (World.run Sample.platform Sample.config (Sample.env 1 1)
      (Sample.world (Sample.lock 137) 2 (Nat.le_succ 2))
      (Sample.push 0 ++ Sample.count 0 ++ Sample.enqueue 0 ++
        Sample.serve "jobID: 2361242049" (.receipt (some 1)) ++ [.settle "jobID: 2361242049"] ++
        Sample.push 1 ++ Sample.count 1 ++ Sample.enqueue 1 ++
        Sample.serve "jobID: 2361242049" (.receipt (some 1)))).map
      (fun w => (w.submissions ((Sample.lock 137).jobId Sample.platform Sample.config)).length) =
        some 2 := by decide +kernel
  obtain ⟨w, hrun, hlength⟩ := Option.map_eq_some_iff.1 heval
  have hle := h _ w (by decide) hrun
  omega

/-- Three nodes and the threshold three. -/
theorem submissions_length_iff_sample :
    (∀ (l : List (Action (Fin 3))) (w : World (Fin 3)), (∀ a ∈ l, a.Succeeds) →
        World.run Sample.platform Sample.config (Sample.env 3 3)
            (Sample.world (Sample.lock 137) 3 le_rfl) l = some w →
          (w.submissions ((Sample.lock 137).jobId Sample.platform Sample.config)).length ≤ 1) ↔
      3 = Fintype.card (Fin 3) := by
  obtain ⟨job, hjob, hdecodes⟩ := exists_ok_of_decide (p := QueueProcessor.Decodes Sample.platform)
    (x := (Sample.lock 137).job Sample.platform Sample.config (Sample.env 3 3)) (by decide +kernel)
  have hsite : (Sample.lock 137).site Sample.platform Sample.config = .ok (.evm 137) := by
    decide +kernel
  exact submissions_length_iff hsite hjob (by decide +kernel) hdecodes (by decide) (by decide)

end Tsunagari
