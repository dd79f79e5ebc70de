import Tsunagari.Bridge.Proofs.RefinementProofs

/-!
# Proofs: every threshold collection is a run of the backend

The converse of the refinement: when the lookups of an event succeed and its job can be decoded, the
backend can carry out every schedule of the threshold collection, with all commands succeeding.
-/

namespace Tsunagari

open Async (Prog CanReach)
open Collector (Phase Ticket Step Steps)

variable {δ : Type} [DecidableEq δ] {P : Platform} {cfg : Config} {env : Env}
  {event : δ → BridgeEvent} {node : δ → Node} {mine : δ → Bool} {e : BridgeEvent} {p : Plan} {t : ℕ}
  {w w' : World δ} {s s' : Collector.State δ}

/-- With all commands succeeding, the backend gets from `w` to a state that `s` describes. -/
abbrev Replays (P : Platform) (cfg : Config) (env : Env) (event : δ → BridgeEvent) (node : δ → Node)
    (mine : δ → Bool) (p : Plan) (t : ℕ) (w : World δ) (s : Collector.State δ) : Prop :=
  CanReach (World.step P cfg env) Action.Succeeds w fun w' =>
    Tracks P cfg env event node mine p t w' s

omit [DecidableEq δ] in
/-- The deliveries outside `mine` have stopped. -/
theorem Tracks.mine_of_phase (h : Tracks P cfg env event node mine p t w s) {d : δ}
    (hd : s.phase d ≠ .stopped false) : mine d = true := by
  by_contra hm
  rw [Bool.not_eq_true] at hm
  exact hd (h.others d hm)

omit [DecidableEq δ] in
/-- The handler of a participant that has not stopped. -/
theorem Tracks.handler_at (h : Tracks P cfg env event node mine p t w s) {d : δ} {ph : Phase}
    (hd : s.phase d = ph) (hne : ph ≠ .stopped false) :
    mine d = true ∧ HandlerAt env t p (signatureOf P cfg event node d) (w.handlers d) ph := by
  have hm := h.mine_of_phase (d := d) (by rw [hd]; exact hne)
  have hat := h.handlers d hm
  rw [hd] at hat
  exact ⟨hm, hat⟩

/-! ## Handlers -/

/-- A handler of `mine` gets an operation answered that does not touch the store. -/
theorem Tracks.perform (h : Tracks P cfg env event node mine p t w s) {d : δ} (hm : mine d = true)
    {o : Op} {r : Reply} {k : Except JsError o.Resp → Task Unit} {result : Except JsError o.Resp}
    {queued : List (String × String)} {ph : Phase} (hprog : (w.handlers d).prog = .await o k)
    (hans : Answered env w.store (w.handlers d).queued o r result w.store queued)
    (hr : r.Succeeds)
    (hat : HandlerAt env t p (signatureOf P cfg event node d) ⟨k result, queued⟩ ph)
    (henq : (⟨.handler d, o, result⟩ : Entry δ).enqueuer? p.jobId = none) :
    CanReach (World.step P cfg env) Action.Succeeds w fun w' =>
      Tracks P cfg env event node mine p t w' (s.setPhase d ph) ∧
        w'.handlers d = ⟨k result, queued⟩ := by
  have hstep : w.step P cfg env (.handler d r) = some _ := step_eq_some.2 (.handler hprog hans)
  exact .one (show (Action.handler d r).Succeeds from hr) hstep
    ⟨h.movePhase hm hat henq (h.confined.step hstep), Function.update_self ..⟩

/-- The handler issues its push. -/
theorem Tracks.replay_issue (h : Tracks P cfg env event node mine p t w s) {site : BridgeSite}
    (hsite : p.site = .ok site) {d : δ} (hd : s.phase d = .idle) :
    Replays P cfg env event node mine p t w (s.setPhase d .issued) := by
  obtain ⟨hm, hat⟩ := h.handler_at hd (by simp)
  have hh : w.handlers d = ⟨p.start (signatureOf P cfg event node d), []⟩ := by
    generalize w.handlers d = hs at hat
    cases hat
    rfl
  have hans : Answered env w.store (w.handlers d).queued
      (.rpush p.message (signatureOf P cfg event node d)) .ok (.ok 0) w.store
      [(p.message, signatureOf P cfg event node d)] := by
    rw [hh]
    exact .rpush _ _
  exact (h.perform hm (congrArg HandlerState.prog hh) hans trivial
    (.issued (.readThreshold site hsite)) rfl).bind fun w' hw' => .here hw'.1

/-- The push takes effect. -/
theorem Tracks.replay_store (h : Tracks P cfg env event node mine p t w s) {d : δ} {ph : Phase}
    (hm : mine d = true)
    (hqueued : (w.handlers d).queued = [(p.message, signatureOf P cfg event node d)])
    (hat : HandlerAt env t p (signatureOf P cfg event node d) ⟨(w.handlers d).prog, []⟩ ph) :
    Replays P cfg env event node mine p t w { s.setPhase d ph with list := s.list ++ [d] } := by
  have hstep : w.step P cfg env (.flush d .ok) = some _ := step_eq_some.2 (.flush hqueued)
  exact .one (show (Action.flush d .ok).Succeeds from trivial) hstep
    (h.moveFlush hm hat (h.confined.step hstep))

/-- The handler counts, after it has read the threshold if it has not yet. -/
theorem Tracks.replay_count (h : Tracks P cfg env event node mine p t w s)
    (hthr : ∀ site, p.site = .ok site → env.threshold site = t) {d : δ} (hd : s.phase d = .stored) :
    Replays P cfg env event node mine p t w
      (s.setPhase d (.counted (decide (t ≤ s.list.length)))) := by
  obtain ⟨hm, hat⟩ := h.handler_at hd (by simp)
  have hcount : ∀ w, Tracks P cfg env event node mine p t w s →
      w.handlers d = ⟨p.readCount t, []⟩ → Replays P cfg env event node mine p t w
        (s.setPhase d (.counted (decide (t ≤ s.list.length)))) := by
    intro w h hh
    have hlen : (w.store.lists p.message).length = s.list.length := by
      rw [h.list, List.length_map]
    have hans : Answered env w.store (w.handlers d).queued (.llen p.message) .ok
        (.ok s.list.length) w.store [] := by
      rw [hh, ← hlen]
      exact .llen _ rfl
    exact (h.perform hm (congrArg HandlerState.prog hh) hans trivial
      (.counted _ (p.readMint_after env _)) rfl).bind fun w' hw' => .here hw'.1
  generalize hhs : w.handlers d = hs at hat
  cases hat with
  | stored hb =>
    cases hb with
    | readCount => exact hcount w h hhs
    | readThreshold site hsite =>
      rw [Plan.readThreshold_of_site hsite] at hhs
      have hans : Answered env w.store (w.handlers d).queued (.getThreshold site) .ok (.ok t)
          w.store [] := by
        rw [hhs, ← hthr site hsite]
        exact .getThreshold site
      refine (h.perform hm (congrArg HandlerState.prog hhs) hans trivial
        (.stored .readCount) rfl).bind fun w' hw' => ?_
      refine hcount w' ?_ hw'.2
      rw [← Collector.setPhase_eq_self hd]
      exact hw'.1

/-- The handler reads the decimals, if it has to, and is about to look for the job. -/
theorem Tracks.reach_enqueue (h : Tracks P cfg env event node mine p t w s) {d : δ} {b : Bool}
    (hd : s.phase d = .counted b) :
    CanReach (World.step P cfg env) Action.Succeeds w fun w' =>
      Tracks P cfg env event node mine p t w' s ∧
        w'.handlers d = ⟨p.enqueue b (p.decimals env), []⟩ := by
  obtain ⟨hm, hat⟩ := h.handler_at hd (by simp)
  generalize hhs : w.handlers d = hs at hat
  cases hat with
  | counted reached ha =>
    cases ha with
    | enqueue => exact .here ⟨h, hhs⟩
    | readMint mint hmint =>
      rw [Plan.readMint_of_some hmint] at hhs
      have hans : Answered env w.store (w.handlers d).queued (.getMint mint) .ok
          (.ok (p.decimals env)) w.store [] := by
        rw [hhs, Plan.decimals_of_some hmint]
        exact .getMint mint
      refine (h.perform hm (congrArg HandlerState.prog hhs) hans trivial
        (.counted b .enqueue) rfl).bind fun w' hw' => ?_
      exact .here ⟨Collector.setPhase_eq_self hd ▸ hw'.1, hw'.2⟩

/-- The handler looks for the job, and finds it or not. -/
theorem Tracks.replay_getJob (h : Tracks P cfg env event node mine p t w s) {d : δ} {ph : Phase}
    (hd : s.phase d = .counted true)
    (hph : s.ticket = .absent ∧ ph = .checked ∨ s.ticket ≠ .absent ∧ ph = .finished) :
    Replays P cfg env event node mine p t w (s.setPhase d ph) := by
  refine (h.reach_enqueue hd).bind fun w' hw' => ?_
  obtain ⟨h', hh⟩ := hw'
  obtain ⟨hm, -⟩ := h'.handler_at hd (by simp)
  rw [Plan.enqueue_true] at hh
  have hans : Answered env w'.store (w'.handlers d).queued (.getJob p.jobId) .ok
      (.ok (w'.store.jobs p.jobId).isSome) w'.store [] := by
    rw [hh]
    exact .getJob _
  refine (h'.perform hm (congrArg HandlerState.prog hh) hans trivial ?_ rfl).bind
    fun w'' hw'' => .here hw''.1
  have hat := h'.job
  rcases hph with ⟨habs, rfl⟩ | ⟨hpresent, rfl⟩
  · rw [habs] at hat
    rw [hat.none_of_absent]
    exact .checked
  · cases hjob : w'.store.jobs p.jobId with
    | none => rw [hjob] at hat; exact absurd hat.absent_of_none hpresent
    | some entry => exact .finished

/-- The handler adds the job. -/
theorem Tracks.replay_add (h : Tracks P cfg env event node mine p t w s) {d : δ}
    (hd : s.phase d = .checked) :
    Replays P cfg env event node mine p t w
      { s.setPhase d .finished with ticket := s.ticket.add, added := s.added ++ [d] } := by
  obtain ⟨hm, hat⟩ := h.handler_at hd (by simp)
  have hh : w.handlers d = ⟨p.addJob (p.decimals env), []⟩ := by
    generalize w.handlers d = hs at hat
    cases hat
    rfl
  have hans : Answered env w.store (w.handlers d).queued (.add (p.theJob env) p.jobId p.opts) .ok
      (.ok ()) (w.store.addJob (p.theJob env) p.jobId p.opts) [] := by
    rw [hh]
    exact .add _ _ _
  have hprog : (w.handlers d).prog = .await (.add (p.theJob env) p.jobId p.opts) fun _ => .ret () :=
    congrArg HandlerState.prog hh
  have hstep : w.step P cfg env (.handler d .ok) = some _ := step_eq_some.2 (.handler hprog hans)
  have hmove := h.moveHandler hm (o := .add (p.theJob env) p.jobId p.opts) .finished
    (congrFun (Store.addJob_lists ..) _) (h.job.add p.opts) (fun l => Collector.add_eq_cleared.1)
    (h.confined.step hstep)
  have henq : (⟨.handler d, .add (p.theJob env) p.jobId p.opts, .ok ()⟩ : Entry δ).enqueuer?
      p.jobId = some d := if_pos rfl
  rw [henq] at hmove
  exact .one (show (Action.handler d .ok).Succeeds from trivial) hstep hmove

/-! ## The worker -/

/-- The worker of the job gets an operation answered. -/
theorem Tracks.work (h : Tracks P cfg env event node mine p t w s) {entry : JobEntry} {o : Op}
    {r : Reply} {k : Except JsError o.Resp → Task Unit} {result : Except JsError o.Resp}
    {store : Store δ} {queued : List (String × String)} {s' : Collector.State δ}
    (hjob : w.store.jobs p.jobId = some entry) (hstatus : entry.status = .active (.await o k))
    (hans : Answered env w.store [] o r result store queued) (hr : r.Succeeds)
    (hphase : s'.phase = s.phase) (hadded : s'.added = s.added)
    (hlist : store.lists p.message = s'.list.map fun d => (d, signatureOf P cfg event node d))
    (hat : JobAt P (p.theJob env) (signatureOf P cfg event node)
      (some { entry with status := .active (k result) }) s'.ticket)
    (hsub : s.submitted.filterMap (submissionOf P (p.theJob env) (signatureOf P cfg event node)) ++
      o.call?.toList =
        s'.submitted.filterMap (submissionOf P (p.theJob env) (signatureOf P cfg event node)))
    (hdrained : s'.Drained → s.Drained ∨ o = .del p.message) :
    Replays P cfg env event node mine p t w s' := by
  have hstep : w.step P cfg env (.worker p.jobId r) = some _ :=
    step_eq_some.2 (.worker hjob hstatus hans)
  exact .one (show (Action.worker p.jobId r).Succeeds from hr) hstep
    (h.moveWorker hphase hadded hlist hat hsub hdrained (h.confined.step hstep))

omit [DecidableEq δ] in
/-- The job of a ticket. -/
theorem Tracks.entry_of_ticket (h : Tracks P cfg env event node mine p t w s) {ticket : Ticket δ}
    (hk : s.ticket = ticket) (hne : ticket ≠ .absent) :
    ∃ entry, w.store.jobs p.jobId = some entry ∧ entry.data = p.theJob env ∧
      StatusAt P (p.theJob env) (signatureOf P cfg event node) entry.status ticket := by
  subst hk
  have hat := h.job
  cases hjob : w.store.jobs p.jobId with
  | none => rw [hjob] at hat; exact absurd hat.absent_of_none hne
  | some entry => exact ⟨entry, rfl, h.status_of_job hjob⟩

/-- A worker takes the job. -/
theorem Tracks.replay_take (h : Tracks P cfg env event node mine p t w s)
    (hk : s.ticket = .waiting) :
    Replays P cfg env event node mine p t w { s with ticket := .reading } := by
  obtain ⟨entry, hjob, hdata, hat⟩ := h.entry_of_ticket hk (by simp)
  have hstatus : entry.status = .waiting := by
    generalize entry.status = status at hat
    cases hat
    rfl
  have hstep : w.step P cfg env (.take p.jobId) = some _ := step_eq_some.2 (.take hjob hstatus)
  have hnew : JobAt P (p.theJob env) (signatureOf P cfg event node)
      (some { entry with status := .active (QueueProcessor.process P entry.data) }) .reading := by
    refine .present hdata ?_
    rw [QueueProcessor.process_eq, hdata]
    exact .reading
  exact .one (show (Action.take p.jobId : Action δ).Succeeds from trivial) hstep
    (h.moveJob hnew (fun l hl => by cases hl) (h.confined.step hstep))

/-- The worker reads the list. -/
theorem Tracks.replay_read (hd : Deliveries P cfg env event mine e p t)
    (h : Tracks P cfg env event node mine p t w s) {ticket : Ticket δ} (hk : s.ticket = .reading)
    (hticket : s.list = [] ∧ ticket = .served ∨ s.list ≠ [] ∧ ticket = .held s.list) :
    Replays P cfg env event node mine p t w { s with ticket } := by
  obtain ⟨entry, hjob, hdata, hat⟩ := h.entry_of_ticket hk (by simp)
  have hstatus : entry.status = .active (QueueProcessor.start P (p.theJob env)) := by
    generalize entry.status = status at hat
    cases hat
    rfl
  have hans : Answered env w.store [] (.lrange (p.theJob env).message) .ok
      (.ok (s.list.map (signatureOf P cfg event node))) w.store [] := by
    rw [← h.read_list hd]
    exact .lrange _ rfl
  refine h.work hjob hstatus hans trivial rfl rfl h.list (.present hdata (.afterRead hticket))
    (by simp [Op.call?]) fun hdr => Or.inl (hdr.of_ticket ?_)
  rcases hticket with ⟨-, rfl⟩ | ⟨-, rfl⟩ <;> simp

/-- The worker empties the list. -/
theorem Tracks.replay_clear (hd : Deliveries P cfg env event mine e p t)
    (hdec : QueueProcessor.Decodes P (p.theJob env))
    (h : Tracks P cfg env event node mine p t w s) {l : List δ} (hk : s.ticket = .held l) :
    Replays P cfg env event node mine p t w { s with list := [], ticket := .cleared l } := by
  obtain ⟨entry, hjob, hdata, hat⟩ := h.entry_of_ticket hk (by simp)
  have hstatus : entry.status = .active (.await (.del (p.theJob env).message) fun _ =>
      QueueProcessor.deliver P (p.theJob env) (l.map (signatureOf P cfg event node))) := by
    generalize entry.status = status at hat
    cases hat
    rfl
  obtain ⟨c, hc⟩ := hdec.call (l.map (signatureOf P cfg event node))
  have hans : Answered env w.store [] (.del (p.theJob env).message) .ok _ _ _ := .del _ rfl
  refine h.work hjob hstatus hans trivial rfl rfl ?_ (.present hdata (.cleared l c hc))
    (by simp [Op.call?]) fun _ => Or.inr (by rw [hd.theJob_message])
  rw [hd.theJob_message, Store.clear_self]
  rfl

/-- The worker submits. -/
theorem Tracks.replay_submit (h : Tracks P cfg env event node mine p t w s) {l : List δ}
    (hk : s.ticket = .cleared l) :
    Replays P cfg env event node mine p t w
      { s with ticket := .served, submitted := s.submitted ++ [l] } := by
  obtain ⟨entry, hjob, hdata, hat⟩ := h.entry_of_ticket hk (by simp)
  obtain ⟨c, hc, hstatus⟩ : ∃ c, QueueProcessor.destinationCall P (p.theJob env)
      (l.map (signatureOf P cfg event node)) = .ok c ∧
        entry.status = .active (QueueProcessor.deliver P (p.theJob env)
          (l.map (signatureOf P cfg event node))) := by
    generalize entry.status = status at hat
    cases hat with
    | cleared l c hc => exact ⟨c, hc, rfl⟩
  have hsub : submissionOf P (p.theJob env) (signatureOf P cfg event node) l = some c := by
    simp only [submissionOf, hc, Except.toOption]
  have hdr : s.Drained := Or.inr ⟨l, hk⟩
  simp only [QueueProcessor.deliver, hc] at hstatus
  cases c with
  | evm c =>
    exact h.work hjob hstatus (.callEvm c (some 1)) trivial rfl rfl h.list (.present hdata .served)
      (by simp [Op.call?, hsub]) fun _ => Or.inl hdr
  | solana c =>
    exact h.work hjob hstatus (.callSolana c true "") trivial rfl rfl h.list
      (.present hdata .served) (by simp [Op.call?, hsub]) fun _ => Or.inl hdr

/-- The queue learns that the job is completed. -/
theorem Tracks.replay_finish (h : Tracks P cfg env event node mine p t w s)
    (hk : s.ticket = .served) :
    Replays P cfg env event node mine p t w { s with ticket := .absent } := by
  obtain ⟨entry, hjob, hdata, hat⟩ := h.entry_of_ticket hk (by simp)
  have hstatus : entry.status = .active (.ret ()) := by
    generalize entry.status = status at hat
    cases hat
    rfl
  have hstep : w.step P cfg env (.settle p.jobId) = some _ :=
    step_eq_some.2 (.complete hjob hstatus)
  have hnew : JobAt P (p.theJob env) (signatureOf P cfg event node) entry.removed .absent := by
    rw [(h.confined.jobs p.jobId entry hjob).removed]
    exact .absent
  exact .one (show (Action.settle p.jobId : Action δ).Succeeds from trivial) hstep
    (h.moveJob hnew (fun l hl => by cases hl) (h.confined.step hstep))

/-! ## Schedules -/

/-- **Every step of the threshold collection can be carried out.** -/
theorem Tracks.replay (hd : Deliveries P cfg env event mine e p t) {site : BridgeSite}
    (hsite : p.site = .ok site) (hdec : QueueProcessor.Decodes P (p.theJob env))
    (h : Tracks P cfg env event node mine p t w s) (hstep : Step t False s s') :
    Replays P cfg env event node mine p t w s' := by
  cases hstep with
  | issue d hph => exact h.replay_issue hsite hph
  | store d hph =>
    obtain ⟨hm, hat⟩ := h.handler_at hph (by simp)
    generalize hhs : w.handlers d = hs at hat
    cases hat with
    | issued hb => exact h.replay_store hm (by rw [hhs]) (by rw [hhs]; exact .stored hb)
  | storeStopped d hph =>
    obtain ⟨hm, hat⟩ := h.handler_at hph (by simp)
    generalize hhs : w.handlers d = hs at hat
    cases hat with
    | stoppedQueued err => exact h.replay_store hm (by rw [hhs]) (by rw [hhs]; exact .stopped err)
  | count d hph => exact h.replay_count hd.threshold hph
  | find d hph ht => exact h.replay_getJob hph (Or.inr ⟨ht, rfl⟩)
  | miss d hph ht => exact h.replay_getJob hph (Or.inl ⟨ht, rfl⟩)
  | add d hph => exact h.replay_add hph
  | stop d q hc hph => exact absurd hc not_false
  | take ht => exact h.replay_take ht
  | readEmpty ht hl => exact h.replay_read hd ht (Or.inl ⟨hl, rfl⟩)
  | read ht hl => exact h.replay_read hd ht (Or.inr ⟨hl, rfl⟩)
  | clear l ht => exact h.replay_clear hd hdec ht
  | submit l ht => exact h.replay_submit ht
  | finish ht => exact h.replay_finish ht

/-- **Every schedule of the threshold collection is a run of the backend** in which all commands
succeed. -/
theorem Tracks.of_steps (hd : Deliveries P cfg env event mine e p t) {site : BridgeSite}
    (hsite : p.site = .ok site) (hdec : QueueProcessor.Decodes P (p.theJob env))
    (h : Steps t False (Collector.State.init (signs P cfg event node mine)) s) :
    Replays P cfg env event node mine p t
      (World.init fun d => (event d).handle P cfg (node d)) s :=
  Async.exec_replay Action.Succeeds (fun hr hs => hr.replay hd hsite hdec hs) (Tracks.init hd) h

end Tsunagari
