import Tsunagari.Bridge.Proofs.RefinementProofs
import Tsunagari.Bridge.Sample

/-!
# Proofs: no transfer is lost
-/

namespace Tsunagari

open Async (Prog)

variable {δ : Type} [DecidableEq δ] {P : Platform} {cfg : Config} {env : Env}
  {event : δ → BridgeEvent} {node : δ → Node} {mine : δ → Bool} {e : BridgeEvent} {p : Plan} {t : ℕ}
  {w : World δ} {s : Collector.State δ}

/-- A handler that has run to its end has found the job, added it, or counted too few signatures. -/
theorem HandlerAt.done_cases {signature : String} {h : HandlerState} {ph : Collector.Phase}
    (hat : HandlerAt env t p signature h ph) (hdone : h.Done) :
    ph = .finished ∨ ph = .counted false := by
  unfold HandlerState.Done at hdone
  cases hat with
  | finished => exact Or.inl rfl
  | counted reached ha =>
    cases ha with
    | readMint mint hmint => rw [Plan.readMint_of_some hmint] at hdone; cases hdone
    | enqueue =>
      cases reached with
      | false => exact Or.inr rfl
      | true => cases hdone
  | idle => cases hdone
  | issued hb =>
    cases hb with
    | readThreshold site hsite => rw [Plan.readThreshold_of_site hsite] at hdone; cases hdone
    | readCount => cases hdone
  | stored hb =>
    cases hb with
    | readThreshold site hsite => rw [Plan.readThreshold_of_site hsite] at hdone; cases hdone
    | readCount => cases hdone
  | checked => cases hdone
  | stopped err => cases hdone
  | stoppedQueued err => cases hdone

omit [DecidableEq δ] in
/-- A job that corresponds to a ticket is outstanding. -/
theorem Tracks.outstanding (h : Tracks P cfg env event node mine p t w s)
    (hs : s.ticket ≠ .absent) :
    ∃ entry, w.store.jobs p.jobId = some entry ∧ entry.Outstanding ∧ entry.data = p.theJob env := by
  have hat := h.job
  cases hjob : w.store.jobs p.jobId with
  | none => rw [hjob] at hat; exact absurd hat.absent_of_none hs
  | some entry =>
    obtain ⟨hdata, hstatus⟩ := h.status_of_job hjob
    refine ⟨entry, rfl, ?_, hdata⟩
    generalize s.ticket = ticket at hstatus
    generalize hst : entry.status = status at hstatus
    cases hstatus with
    | waiting => exact Or.inl hst
    | _ => exact Or.inr ⟨_, hst⟩

/-- The deliveries of an event without a plan throw at once. -/
theorem not_done_of_plan_error {err : JsError} (hplan : e.plan P cfg = .error err)
    {l : List (Action δ)}
    (h : World.run P cfg env (World.init fun d => (event d).handle P cfg (node d)) l = some w)
    {d : δ} (hd : event d = e) : ¬ (w.handlers d).Done := by
  have hhandle : (event d).handle P cfg (node d) = .throw err := by
    rw [(event d).handle_eq, hd, hplan]
    rfl
  have hw := (Started.of_run h).handlers d (by rw [hhandle]; intro o k hk; cases hk)
  rw [hw, HandlerState.Done, hhandle]
  intro hdone
  cases hdone

/-- **No transfer is lost.** Commands of the nodes that have not stopped succeed, and any node may
stop before any of its awaits. Once the handlers of at least `t` deliveries of the event have run to
their end, a submission has been made or the event's job is outstanding. The event's job can be
decoded, so that a worker that has emptied the list submits. -/
theorem submitted_or_outstanding (mine : δ → Bool) (ht : 1 ≤ t)
    (hmine : ∀ d, mine d = true → event d = e)
    (hmessage : ∀ d, mine d = false → (event d).message P cfg ≠ e.message P cfg)
    (hjobId : ∀ d, mine d = false → (event d).jobId P cfg ≠ e.jobId P cfg)
    (hthreshold : ∀ site, e.site P cfg = .ok site → env.threshold site = t)
    (hdecodes : ∀ job, e.job P cfg env = .ok job → QueueProcessor.Decodes P job)
    {l : List (Action δ)} (hl : ∀ a ∈ l, a.SucceedsOrStops)
    (hrun : World.run P cfg env (World.init fun d => (event d).handle P cfg (node d)) l = some w)
    (S : Finset δ) (hS : t ≤ S.card) (hdone : ∀ d ∈ S, mine d = true ∧ (w.handlers d).Done) :
    w.submissions (e.jobId P cfg) ≠ [] ∨
      ∃ entry, w.store.jobs (e.jobId P cfg) = some entry ∧ entry.Outstanding ∧
        e.job P cfg env = .ok entry.data := by
  obtain ⟨d₀, hd₀⟩ : S.Nonempty := Finset.card_pos.1 (by omega)
  cases hplan : e.plan P cfg with
  | error err =>
    obtain ⟨hm, hd⟩ := hdone d₀ hd₀
    exact absurd hd (not_done_of_plan_error hplan hrun (hmine d₀ hm))
  | ok p =>
    have hjob : e.job P cfg env = .ok (p.theJob env) := by rw [BridgeEvent.job, hplan]; rfl
    have hdel : Deliveries P cfg env event mine e p t :=
      { plan := hplan
        threshold := fun site hsite =>
          hthreshold site (by rw [BridgeEvent.site, hplan]; exact hsite)
        of_mine := hmine
        message_ne := hmessage
        jobId_ne := hjobId }
    obtain ⟨s, hsteps, htr⟩ := Tracks.of_run hdel hl hrun
    rw [← (Plan.of_plan hplan).jobId, hjob]
    rcases Collector.submitted_or_ticket ht hsteps S hS fun d hd =>
      (htr.handlers d (hdone d hd).1).done_cases (hdone d hd).2 with hsub | htick
    · left
      obtain ⟨l₀, rest, hcons⟩ := List.exists_cons_of_ne_nil hsub
      obtain ⟨c, hc⟩ := (hdecodes _ hjob).call (l₀.map (signatureOf P cfg event node))
      rw [htr.submissions, hcons, List.filterMap_cons_some (b := c)
        (by simp only [submissionOf, hc, Except.toOption])]
      simp
    · right
      obtain ⟨entry, h1, h2, h3⟩ := htr.outstanding htick
      exact ⟨entry, h1, h2, by rw [h3]⟩

/-- One of three deliveries stops after its push. The threshold of two is reached all the same, and
the third one pushes when the worker has read the list and counts when it has been emptied. -/
def Sample.stoppedRun {δ : Type} (c d stopped : δ) : List (Action δ) :=
  Sample.push stopped ++ [.stop stopped] ++ Sample.push c ++ Sample.count c ++ Sample.enqueue c ++
    [.take "jobID: 2361242049", .worker "jobID: 2361242049" .ok] ++ Sample.push d ++
    [.worker "jobID: 2361242049" .ok, .worker "jobID: 2361242049" (.receipt (some 1))] ++
    Sample.count d

/-- Two of the nodes have run their handlers to the end. -/
theorem submitted_or_outstanding_sample :
    ∃ w : World (Fin 3),
      World.run Sample.platform Sample.config (Sample.env 2 2)
          (Sample.world (Sample.lock 137) 3 le_rfl) (Sample.stoppedRun 0 1 2) = some w ∧
        ¬ (w.handlers 2).Done ∧
        (w.submissions ((Sample.lock 137).jobId Sample.platform Sample.config) ≠ [] ∨
          ∃ entry, w.store.jobs ((Sample.lock 137).jobId Sample.platform Sample.config) =
            some entry ∧ entry.Outstanding ∧
              (Sample.lock 137).job Sample.platform Sample.config (Sample.env 2 2) =
                .ok entry.data) := by
  have heval : (World.run Sample.platform Sample.config (Sample.env 2 2)
      (Sample.world (Sample.lock 137) 3 le_rfl) (Sample.stoppedRun 0 1 2)).map
        (fun w => decide ((∀ d ∈ ({0, 1} : Finset (Fin 3)), (w.handlers d).Done) ∧
          ¬ (w.handlers 2).Done)) = some true := by decide +kernel
  obtain ⟨job, hjob, hdecodes⟩ := exists_ok_of_decide (p := QueueProcessor.Decodes Sample.platform)
    (x := (Sample.lock 137).job Sample.platform Sample.config (Sample.env 2 2)) (by decide +kernel)
  obtain ⟨w, hrun, hends⟩ := Option.map_eq_some_iff.1 heval
  obtain ⟨hdone, hstopped⟩ := of_decide_eq_true hends
  refine ⟨w, hrun, hstopped, submitted_or_outstanding (fun _ => true) (t := 2) one_le_two
    (fun _ _ => rfl) (fun _ h => by cases h) (fun _ h => by cases h)
    (fun site _ => by cases site <;> rfl) (fun job' hjob' => ?_) ?_ hrun {0, 1} (by decide)
    (fun d hd => ⟨rfl, hdone d hd⟩)⟩
  · rw [hjob] at hjob'
    cases hjob'
    exact hdecodes
  · decide

end Tsunagari
