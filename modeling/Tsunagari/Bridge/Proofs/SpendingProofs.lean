import Tsunagari.Bridge.Proofs.SubmissionProofs
import Tsunagari.Collector.Proofs.RoundProofs

/-!
# Proofs: how often a transfer is submitted

The signatures that the deliveries of an event push are spent once: a worker empties the list before
it submits what it has read, and the event has one job at a time. The first submission of an event
carries a quorum and every other one a signature that came late.
-/

namespace Tsunagari

open Collector (Steps)

variable {δ : Type} [DecidableEq δ] {P : Platform} {cfg : Config} {env : Env}
  {event : δ → BridgeEvent} {node : δ → Node} {mine : δ → Bool} {e : BridgeEvent} {p : Plan} {t : ℕ}
  {w : World δ}

/-- **No signature is submitted twice.** The submissions of an event carry the signatures of
different deliveries, none of which is still in the list. -/
theorem signatures_spent_once (hd : Deliveries P cfg env event mine e p t) (ht : 1 ≤ t)
    {l : List (Action δ)} (hl : ∀ a ∈ l, a.SucceedsOrStops)
    (hrun : World.run P cfg env (World.init fun d => (event d).handle P cfg (node d)) l = some w) :
    ∃ rounds : List (List δ),
      w.submissions (e.jobId P cfg) =
          rounds.filterMap (submissionOf P (p.theJob env) (signatureOf P cfg event node)) ∧
        ((w.store.lists (e.message P cfg)).map Prod.fst ++ rounds.flatten).Nodup ∧
          ∀ d ∈ rounds.flatten, mine d = true ∧ ∃ signature,
            e.sign P cfg (node d) = .ok signature := by
  have hof := Plan.of_plan hd.plan
  obtain ⟨s, hsteps, htr⟩ := Tracks.of_run hd hl hrun
  obtain ⟨hnodup, hlive⟩ := Collector.submitted_nodup ht hsteps
  refine ⟨s.submitted, hof.jobId ▸ htr.submissions, ?_, fun d hmem => ?_⟩
  · rw [← hof.message, htr.list, List.map_map]
    have hfst : (Prod.fst ∘ fun d => (d, signatureOf P cfg event node d)) = (id : δ → δ) := rfl
    rw [hfst, List.map_id]
    exact hnodup
  · have hsigns := hlive d hmem
    rw [signs, Bool.and_eq_true] at hsigns
    obtain ⟨hmine, hok⟩ := hsigns
    rw [hd.of_mine d hmine] at hok
    refine ⟨hmine, ?_⟩
    cases hsign : e.sign P cfg (node d) with
    | ok signature => exact ⟨signature, rfl⟩
    | error err => rw [hsign] at hok; cases hok

/-- Two of three deliveries see the threshold of two reached, and both add the job: the second
submission carries the signature of the third, which comes late. -/
def Sample.lateRun {δ : Type} (c d late : δ) : List (Action δ) :=
  Sample.push c ++ Sample.push d ++ Sample.count c ++ Sample.count d ++ Sample.enqueue c ++
    Sample.serve "jobID: 2361242049" (.receipt (some 1)) ++ [.settle "jobID: 2361242049"] ++
    Sample.enqueue d ++ Sample.push late ++ Sample.serve "jobID: 2361242049" (.receipt (some 0))

theorem Sample.run_lateRun :
    ∃ w, World.run platform config (Sample.env 2 2) (Sample.world (Sample.lock 137) 3 le_rfl)
        (lateRun 0 1 2) = some w ∧
      (w.submissions ((Sample.lock 137).jobId platform config)).map Call.signatureCount =
        [2, 1] := by
  have heval : (World.run platform config (Sample.env 2 2)
      (Sample.world (Sample.lock 137) 3 le_rfl) (lateRun 0 1 2)).map
        (fun w => (w.submissions ((Sample.lock 137).jobId platform config)).map
          Call.signatureCount) = some [2, 1] := by decide +kernel
  exact Option.map_eq_some_iff.1 heval

theorem Sample.deliveries_lock (t : ℕ) :
    ∃ p, (Sample.lock 137).plan platform config = .ok p ∧
      Deliveries platform config (Sample.env t t) (fun _ : Fin 3 => Sample.lock 137)
        (fun _ => true) (Sample.lock 137) p t := by
  obtain ⟨p, hp, -⟩ := exists_ok_of_decide (p := fun _ : Plan => True)
    (x := (Sample.lock 137).plan platform config) (by decide +kernel)
  exact ⟨p, hp, Deliveries.all hp fun site _ => by cases site <;> rfl⟩

theorem signatures_spent_once_sample :
    ∃ (p : Plan) (w : World (Fin 3)) (rounds : List (List (Fin 3))),
      (Sample.lock 137).plan Sample.platform Sample.config = .ok p ∧
        w.submissions ((Sample.lock 137).jobId Sample.platform Sample.config) =
          rounds.filterMap (submissionOf Sample.platform (p.theJob (Sample.env 2 2))
            (signatureOf Sample.platform Sample.config (fun _ => Sample.lock 137)
              fun d => Sample.node (d.castLE le_rfl))) ∧
          ((w.store.lists ((Sample.lock 137).message Sample.platform Sample.config)).map Prod.fst ++
              rounds.flatten).Nodup ∧
            (w.submissions ((Sample.lock 137).jobId Sample.platform Sample.config)).map
              Call.signatureCount = [2, 1] := by
  obtain ⟨w, hrun, hcounts⟩ := Sample.run_lateRun
  obtain ⟨p, hp, hd⟩ := Sample.deliveries_lock 2
  obtain ⟨rounds, hsub, hnodup, -⟩ := signatures_spent_once hd one_le_two
    (fun a ha => Action.Succeeds.orStops (by revert a; decide)) hrun
  exact ⟨p, w, rounds, hp, hsub, hnodup, hcounts⟩

/-- **An event that is delivered `n` times is submitted at most `n - t + 1` times.** -/
theorem submissions_length_add_le [Fintype δ] (hd : Deliveries P cfg env event mine e p t)
    (ht : 1 ≤ t) {l : List (Action δ)} (hl : ∀ a ∈ l, a.SucceedsOrStops)
    (hrun : World.run P cfg env (World.init fun d => (event d).handle P cfg (node d)) l = some w)
    (hne : w.submissions (e.jobId P cfg) ≠ []) :
    (w.submissions (e.jobId P cfg)).length + t ≤
      (Finset.univ.filter fun d => mine d = true).card + 1 := by
  have hof := Plan.of_plan hd.plan
  obtain ⟨s, hsteps, htr⟩ := Tracks.of_run hd hl hrun
  have hsub := htr.submissions
  rw [hof.jobId] at hsub
  have hsome : s.submitted ≠ [] := by
    rintro hnil
    rw [hnil] at hsub
    exact hne hsub
  have hlength : (w.submissions (e.jobId P cfg)).length ≤ s.submitted.length := by
    rw [hsub]
    exact List.length_filterMap_le ..
  have hbound := Collector.submitted_length_add_le ht hsteps hsome
  have hcard : (Finset.univ.filter fun d => signs P cfg event node mine d = true).card ≤
      (Finset.univ.filter fun d => mine d = true).card := by
    refine Finset.card_le_card fun d hmem => ?_
    rw [Finset.mem_filter, signs, Bool.and_eq_true] at hmem
    exact Finset.mem_filter.2 ⟨hmem.1, hmem.2.1⟩
  omega

/-- The bound is reached. -/
theorem submissions_length_add_le_sample :
    ∃ w : World (Fin 3), World.run Sample.platform Sample.config (Sample.env 2 2)
        (Sample.world (Sample.lock 137) 3 le_rfl) (Sample.lateRun 0 1 2) = some w ∧
      (w.submissions ((Sample.lock 137).jobId Sample.platform Sample.config)).length = 2 ∧
        (w.submissions ((Sample.lock 137).jobId Sample.platform Sample.config)).length + 2 ≤
          (Finset.univ.filter fun _ : Fin 3 => true = true).card + 1 := by
  obtain ⟨w, hrun, hcounts⟩ := Sample.run_lateRun
  have hlength : (w.submissions ((Sample.lock 137).jobId Sample.platform
      Sample.config)).length = 2 := by
    have := congrArg List.length hcounts
    rwa [List.length_map] at this
  obtain ⟨p, hp, hd⟩ := Sample.deliveries_lock 2
  refine ⟨w, hrun, hlength, submissions_length_add_le hd one_le_two
    (fun a ha => Action.Succeeds.orStops (by revert a; decide)) hrun fun hnil => ?_⟩
  rw [hnil] at hlength
  cases hlength

end Tsunagari
