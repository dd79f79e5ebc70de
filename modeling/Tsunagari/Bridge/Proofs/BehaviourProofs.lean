import Tsunagari.Bridge.Proofs.CompletionProofs

/-!
# Proofs: the backend is a threshold collection

As long as no operation fails, what can be seen of an event in the backend is what can be seen in a
threshold collection without crashes, no less and no more.
-/

namespace Tsunagari

open Collector (Phase Steps)

variable {δ : Type} [DecidableEq δ] {P : Platform} {cfg : Config} {env : Env}
  {event : δ → BridgeEvent} {node : δ → Node} {mine : δ → Bool} {e : BridgeEvent} {p : Plan} {t : ℕ}
  {w : World δ} {s : Collector.State δ} {site : BridgeSite}

omit [DecidableEq δ] in
/-- A participant that has stopped is a handler that has failed. -/
theorem HandlerAt.throw_of_stopped {signature : String} {hs : HandlerState} {q : Bool}
    (h : HandlerAt env t p signature hs (.stopped q)) : ∃ err, hs.prog = .throw err := by
  generalize hphase : Phase.stopped q = phase at h
  cases h with
  | stopped err => exact ⟨err, rfl⟩
  | stoppedQueued err => exact ⟨err, rfl⟩
  | _ => cases hphase

omit [DecidableEq δ] in
theorem Tracks.observe (hof : p.Of P cfg e) (h : Tracks P cfg env event node mine p t w s) :
    w.observe (e.message P cfg) (e.jobId P cfg) =
      Tsunagari.observe P (p.theJob env) (signatureOf P cfg event node) s := by
  have hjob : (w.store.jobs p.jobId).isSome =
      (Tsunagari.observe P (p.theJob env) (signatureOf P cfg event node) s).outstanding := by
    unfold Tsunagari.observe
    have hat := h.job
    generalize w.store.jobs p.jobId = entry at hat
    generalize s.ticket = ticket at hat
    cases hat with
    | absent => rfl
    | present hdata hstatus => cases ticket <;> first | rfl | exact absurd rfl hstatus.ne_absent
  rw [World.observe, ← hof.message, ← hof.jobId, h.list, hjob, h.submissions]
  rfl

/-- When no operation has failed, only those have stopped that never started. -/
theorem Tracks.live (hd : Deliveries P cfg env event mine e p t) (hsite : p.site = .ok site)
    {l : List (Action δ)} (hl : ∀ a ∈ l, a.Succeeds)
    (hrun : World.run P cfg env (World.init fun d => (event d).handle P cfg (node d)) l = some w)
    (h : Tracks P cfg env event node mine p t w s) (d : δ) (hstop : ∃ q, s.phase d = .stopped q) :
    signs P cfg event node mine d = false := by
  by_contra hsigns
  rw [Bool.not_eq_false, signs, Bool.and_eq_true] at hsigns
  obtain ⟨hmine, hsign⟩ := hsigns
  obtain ⟨q, hq⟩ := hstop
  have hat := h.handlers d hmine
  rw [hq] at hat
  obtain ⟨err, herr⟩ := hat.throw_of_stopped
  rw [hd.of_mine d hmine] at hsign
  refine not_throw_of_run ?_ hl hrun err herr
  rw [hd.of_mine d hmine]
  exact BridgeEvent.returnsIfOk_handle hd.plan hsite hsign

/-- **What the backend shows of an event is what the threshold collection shows**: every run without
a failure looks like a schedule without a crash, and every such schedule like some run. -/
theorem observable_iff (hd : Deliveries P cfg env event mine e p t) (hsite : p.site = .ok site)
    (hdec : QueueProcessor.Decodes P (p.theJob env)) (o : Observation δ) :
    (∃ (l : List (Action δ)) (w : World δ), (∀ a ∈ l, a.Succeeds) ∧
        World.run P cfg env (World.init fun d => (event d).handle P cfg (node d)) l = some w ∧
          w.observe (e.message P cfg) (e.jobId P cfg) = o) ↔
      ∃ s, Steps t False (Collector.State.init (signs P cfg event node mine)) s ∧
        observe P (p.theJob env) (signatureOf P cfg event node) s = o := by
  have hof := Plan.of_plan hd.plan
  constructor
  · rintro ⟨l, w, hl, hrun, rfl⟩
    obtain ⟨s, hsteps, htr⟩ := Tracks.of_run hd (fun a ha => (hl a ha).orStops) hrun
    refine ⟨s, Collector.crashFree_of_steps hsteps fun d hstop => ?_, (htr.observe hof).symm⟩
    exact Collector.State.stopped_init.2 (htr.live hd hsite hl hrun d hstop)
  · rintro ⟨s, hsteps, rfl⟩
    obtain ⟨l, w, hl, hrun, htr⟩ := Tracks.of_steps hd hsite hdec hsteps
    exact ⟨l, w, hl, hrun, htr.observe hof⟩

/-- The lock of the sample, handled by three nodes with the threshold two. -/
theorem observable_iff_sample :
    ∃ p : Plan, (Sample.lock 137).plan Sample.platform Sample.config = .ok p ∧
      ∀ o : Observation (Fin 3),
        (∃ (l : List (Action (Fin 3))) (w : World (Fin 3)), (∀ a ∈ l, a.Succeeds) ∧
            World.run Sample.platform Sample.config (Sample.env 2 2)
                (Sample.world (Sample.lock 137) 3 le_rfl) l = some w ∧
              w.observe ((Sample.lock 137).message Sample.platform Sample.config)
                ((Sample.lock 137).jobId Sample.platform Sample.config) = o) ↔
          ∃ s, Steps 2 False (Collector.State.init (signs Sample.platform Sample.config
              (fun _ => Sample.lock 137) (fun d => Sample.node (d.castLE le_rfl))
                fun _ => true)) s ∧
            observe Sample.platform (p.theJob (Sample.env 2 2)) (signatureOf Sample.platform
              Sample.config (fun _ => Sample.lock 137) fun d => Sample.node (d.castLE le_rfl)) s =
                o := by
  obtain ⟨p, hp, hd⟩ := Sample.deliveries_lock 2
  obtain ⟨p', hp', hsite, hdec⟩ := exists_ok_of_decide
    (p := fun p : Plan => p.site = .ok (.evm 137) ∧
      QueueProcessor.Decodes Sample.platform (p.theJob (Sample.env 2 2)))
    (x := (Sample.lock 137).plan Sample.platform Sample.config) (by decide +kernel)
  cases hp.symm.trans hp'
  exact ⟨p, hp, observable_iff hd hsite hdec⟩

end Tsunagari
