import Tsunagari.Bridge.Proofs.ConfinementProofs
import Tsunagari.Bridge.Refinement
import Tsunagari.Collector.Proofs.DeliveryProofs

/-!
# Proofs: the deliveries of one event are a threshold collection
-/

namespace Tsunagari

open Async (Prog)
open Collector (Phase Ticket Step Steps)

/-! ## The steps of one handler -/

/-- What an operation of a handler means for the participant and for the store. -/
inductive HandlerMove {δ : Type} (env : Env) (t : ℕ) (p : Plan) (signature : String)
    (s : Store δ) : Op → Phase → Phase → Store δ → Prop where
  | issue : HandlerMove env t p signature s (.rpush p.message signature) .idle .issued s
  | issueThrow :
      HandlerMove env t p signature s (.rpush p.message signature) .idle (.stopped true) s
  | threshold (site : BridgeSite) (ph : Phase) :
      HandlerMove env t p signature s (.getThreshold site) ph ph s
  | count : HandlerMove env t p signature s (.llen p.message) .stored
      (.counted (decide (t ≤ (s.lists p.message).length))) s
  | mint (mint : PublicKey) (ph : Phase) : HandlerMove env t p signature s (.getMint mint) ph ph s
  | find (h : s.jobs p.jobId ≠ none) :
      HandlerMove env t p signature s (.getJob p.jobId) (.counted true) .finished s
  | miss (h : s.jobs p.jobId = none) :
      HandlerMove env t p signature s (.getJob p.jobId) (.counted true) .checked s
  | add : HandlerMove env t p signature s (.add (p.theJob env) p.jobId p.opts) .checked .finished
      (s.addJob (p.theJob env) p.jobId p.opts)

theorem Plan.decimals_of_none {env : Env} {p : Plan} (h : p.mint = none) : p.decimals env = 0 := by
  simp only [Plan.decimals, h]

theorem Plan.decimals_of_some {env : Env} {p : Plan} {mint : PublicKey} (h : p.mint = some mint) :
    p.decimals env = env.decimals mint := by
  simp only [Plan.decimals, h]

/-- After the push, a handler is about to count or its threshold lookup has thrown. -/
theorem Plan.readThreshold_cases (p : Plan) (t : ℕ) :
    p.BeforeCount t p.readThreshold ∨ ∃ e, p.readThreshold = .throw e := by
  cases hsite : p.site with
  | error e => exact Or.inr ⟨e, Plan.readThreshold_of_error hsite⟩
  | ok site => exact Or.inl (.readThreshold site hsite)

/-- After the count, a handler goes on to the mint or straight to the job. -/
theorem Plan.readMint_after (env : Env) (p : Plan) (reached : Bool) :
    p.AfterCount env reached (p.readMint reached) := by
  cases hmint : p.mint with
  | some mint => exact .readMint mint hmint
  | none =>
    have hdec : p.decimals env = 0 := Plan.decimals_of_none hmint
    rw [Plan.readMint_of_none hmint, ← hdec]
    exact .enqueue

section Handler

variable {δ : Type} {env : Env} {t : ℕ} {p : Plan} {signature : String} {s s' : Store δ} {o : Op}
  {r : Reply} {k : Except JsError o.Resp → Task Unit} {result : Except JsError o.Resp}
  {queued queued' : List (String × String)}

/-- Before the count, a handler reads the threshold or counts; it counts when its push has run. -/
theorem Plan.BeforeCount.step (signature : String)
    (hthr : ∀ site, p.site = .ok site → env.threshold site = t)
    {prog : Task Unit} (hb : p.BeforeCount t prog) (hprog : prog = .await o k)
    (hans : Answered env s queued o r result s' queued') (hr : r.Succeeds) :
    p.BeforeCount t (k result) ∧ queued' = queued ∧
        (∀ ph, HandlerMove env t p signature s o ph ph s') ∨
      queued = [] ∧ queued' = [] ∧
        k result = p.readMint (decide (t ≤ (s.lists p.message).length)) ∧
        HandlerMove env t p signature s o .stored
          (.counted (decide (t ≤ (s.lists p.message).length))) s' := by
  cases hb with
  | readThreshold site hsite =>
    rw [Plan.readThreshold_of_site hsite] at hprog
    cases hprog
    cases hans with
    | failed e => exact absurd hr not_false
    | getThreshold =>
      refine Or.inl ⟨?_, rfl, fun ph => .threshold site ph⟩
      rw [hthr site hsite]
      exact .readCount
  | readCount =>
    cases hprog
    cases hans with
    | failed e => exact absurd hr not_false
    | llen key hq => exact Or.inr ⟨hq, hq, rfl, .count⟩

/-- After the count, a handler reads the decimals or looks for the job. -/
theorem Plan.AfterCount.step {reached : Bool} {prog : Task Unit}
    (ha : p.AfterCount env reached prog) (hprog : prog = .await o k)
    (hans : Answered env s [] o r result s' queued) (hr : r.Succeeds) :
    ∃ ph', HandlerAt env t p signature ⟨k result, queued⟩ ph' ∧
      HandlerMove env t p signature s o (.counted reached) ph' s' := by
  cases ha with
  | readMint mint hmint =>
    rw [Plan.readMint_of_some hmint] at hprog
    cases hprog
    cases hans with
    | failed e => exact absurd hr not_false
    | getMint =>
      refine ⟨.counted reached, .counted reached ?_, .mint mint _⟩
      rw [← Plan.decimals_of_some hmint]
      exact .enqueue
  | enqueue =>
    cases reached with
    | false => cases hprog
    | true =>
      cases hprog
      cases hans with
      | failed e => exact absurd hr not_false
      | getJob =>
        cases hjob : s.jobs p.jobId with
        | some entry => exact ⟨.finished, .finished, .find (by rw [hjob]; simp)⟩
        | none => exact ⟨.checked, .checked, .miss hjob⟩

/-- **One operation of a handler**, when it succeeds. -/
theorem HandlerAt.step (hthr : ∀ site, p.site = .ok site → env.threshold site = t)
    {h : HandlerState} {ph : Phase} (hat : HandlerAt env t p signature h ph)
    (hprog : h.prog = .await o k) (hans : Answered env s h.queued o r result s' queued)
    (hr : r.Succeeds) :
    ∃ ph', HandlerAt env t p signature ⟨k result, queued⟩ ph' ∧
      HandlerMove env t p signature s o ph ph' s' := by
  cases hat with
  | idle =>
    cases hprog
    cases hans with
    | failed e => exact absurd hr not_false
    | rpush key value =>
      rcases p.readThreshold_cases t with hb | ⟨e, he⟩
      · exact ⟨.issued, .issued hb, .issue⟩
      · exact ⟨.stopped true, he ▸ .stoppedQueued e, .issueThrow⟩
  | issued hb =>
    rcases hb.step signature hthr hprog hans hr with
      ⟨hb', rfl, hmove⟩ | ⟨hq, -⟩
    · exact ⟨.issued, .issued hb', hmove _⟩
    · cases hq
  | stored hb =>
    rcases hb.step signature hthr hprog hans hr with
      ⟨hb', rfl, hmove⟩ | ⟨-, rfl, hk, hmove⟩
    · exact ⟨.stored, .stored hb', hmove _⟩
    · rw [hk]
      exact ⟨_, .counted _ (p.readMint_after env _), hmove⟩
  | counted reached ha => exact ha.step hprog hans hr
  | checked =>
    cases hprog
    cases hans with
    | failed e => exact absurd hr not_false
    | add => exact ⟨.finished, .finished, .add⟩
  | finished => cases hprog
  | stopped e => cases hprog
  | stoppedQueued e => cases hprog

end Handler

/-! ## The correspondence -/

variable {δ : Type}

theorem submissions_append (w : World δ) (id : String) (entry : Entry δ) :
    (w.trace ++ [entry]).filterMap (Entry.submission? id) =
      w.submissions id ++ (entry.submission? id).toList := by
  rw [List.filterMap_append, World.submissions]
  cases h : entry.submission? id <;> simp [h]

theorem enqueuers_append (w : World δ) (id : String) (entry : Entry δ) :
    (w.trace ++ [entry]).filterMap (Entry.enqueuer? id) =
      w.enqueuers id ++ (entry.enqueuer? id).toList := by
  rw [List.filterMap_append, World.enqueuers]
  cases h : entry.enqueuer? id <;> simp [h]

/-- The state `s` of a threshold collection describes the deliveries `mine` in the state `w` of the
backend. -/
structure Tracks (P : Platform) (cfg : Config) (env : Env) (event : δ → BridgeEvent)
    (node : δ → Node) (mine : δ → Bool) (p : Plan) (t : ℕ) (w : World δ) (s : Collector.State δ) :
    Prop where
  list : w.store.lists p.message = s.list.map fun d => (d, signatureOf P cfg event node d)
  handlers : ∀ d, mine d = true →
    HandlerAt env t p (signatureOf P cfg event node d) (w.handlers d) (s.phase d)
  others : ∀ d, mine d = false → s.phase d = .stopped false
  job : JobAt P (p.theJob env) (signatureOf P cfg event node) (w.store.jobs p.jobId) s.ticket
  submissions : w.submissions p.jobId =
    s.submitted.filterMap (submissionOf P (p.theJob env) (signatureOf P cfg event node))
  enqueuers : w.enqueuers p.jobId = s.added
  drained : s.Drained → ∃ entry ∈ w.trace, entry.op = .del p.message
  confined : Confined P cfg event node w

/-! ### The job and the ticket -/

section Job

variable {P : Platform} {data : BridgeJob} {sig : δ → String} {ticket : Ticket δ}

theorem StatusAt.ne_absent {status : JobStatus} (h : StatusAt P data sig status ticket) :
    ticket ≠ .absent := by
  cases h <;> simp

theorem StatusAt.add {status : JobStatus} (h : StatusAt P data sig status ticket) :
    StatusAt P data sig status ticket.add := by
  cases h with
  | waiting => exact .waiting
  | reading => exact .reading
  | held l => exact .held l
  | cleared l c hc => exact .cleared l c hc
  | served => exact .served

/-- A worker that has read nothing is through, any other is about to empty the list. -/
theorem StatusAt.afterRead {l : List δ}
    (h : l = [] ∧ ticket = .served ∨ l ≠ [] ∧ ticket = .held l) :
    StatusAt P data sig (.active (QueueProcessor.afterRead P data (l.map sig))) ticket := by
  rcases h with ⟨rfl, rfl⟩ | ⟨hl, rfl⟩
  · simp only [QueueProcessor.afterRead, List.map_nil, if_true]
    exact .served
  · have hne : l.map sig ≠ [] := by simpa using hl
    simp only [QueueProcessor.afterRead, if_neg hne]
    exact .held l

/-- A worker that has ended has served the ticket, and not failed. -/
theorem StatusAt.served_of_not_await {prog : Task Unit}
    (h : StatusAt P data sig (.active prog) ticket) (hprog : ∀ o k, prog ≠ .await o k) :
    ticket = .served ∧ prog = .ret () := by
  cases h with
  | reading => exact absurd rfl (hprog _ _)
  | held l => exact absurd rfl (hprog _ _)
  | cleared l c hc =>
    cases c with
    | evm c =>
      refine absurd ?_ (hprog (.callEvm c) fun _ => .ret ())
      simp only [QueueProcessor.deliver, hc]
    | solana c =>
      refine absurd ?_ (hprog (.callSolana c) fun _ => .ret ())
      simp only [QueueProcessor.deliver, hc]
  | served => exact ⟨rfl, rfl⟩

theorem JobAt.none_of_absent {job : Option JobEntry} (h : JobAt P data sig job .absent) :
    job = none := by
  cases h with
  | absent => rfl
  | present hdata h => exact absurd rfl h.ne_absent

theorem JobAt.absent_of_none (h : JobAt P data sig none ticket) : ticket = .absent := by
  cases h; rfl

/-- Adding the job adds the ticket. -/
theorem JobAt.add {store : Store δ} {id : String} (opts : JobOptions)
    (h : JobAt P data sig (store.jobs id) ticket) :
    JobAt P data sig ((store.addJob data id opts).jobs id) ticket.add := by
  cases hjob : store.jobs id with
  | none =>
    rw [hjob] at h
    cases h
    rw [Store.addJob_of_none data opts hjob]
    exact .present rfl .waiting
  | some entry =>
    rw [Store.addJob_of_some data opts hjob, hjob]
    rw [hjob] at h
    cases h with
    | present hdata h => exact .present hdata h.add

end Job

section Tracks

variable {P : Platform} {cfg : Config} {env : Env} {event : δ → BridgeEvent} {node : δ → Node}
  {mine : δ → Bool} {e : BridgeEvent} {p : Plan} {t : ℕ} {w w' : World δ} {s : Collector.State δ}

/-- All deliveries are deliveries of one event. -/
theorem Deliveries.all (hplan : e.plan P cfg = .ok p)
    (hthreshold : ∀ site, p.site = .ok site → env.threshold site = t) :
    Deliveries P cfg env (fun _ : δ => e) (fun _ => true) e p t where
  plan := hplan
  threshold := hthreshold
  of_mine _ _ := rfl
  message_ne _ h := by cases h
  jobId_ne _ h := by cases h

theorem Plan.threshold_of_site {site : BridgeSite} (hsite : p.site = .ok site) :
    ∀ site', p.site = .ok site' → env.threshold site' = env.threshold site := by
  intro site' h
  rw [hsite] at h
  cases h
  rfl

/-- At the beginning, the deliveries that can sign are about to push. -/
theorem Tracks.init (hd : Deliveries P cfg env event mine e p t) :
    Tracks P cfg env event node mine p t (World.init fun d => (event d).handle P cfg (node d))
      (Collector.State.init (signs P cfg event node mine)) where
  list := rfl
  handlers d hm := by
    show HandlerAt env t p _ ⟨(event d).handle P cfg (node d), []⟩ (if _ then _ else _)
    unfold signs signatureOf
    rw [(event d).handle_eq, hd.of_mine d hm, hd.plan, hm]
    cases e.sign P cfg (node d) with
    | error e => exact .stopped e
    | ok signature => exact .idle
  others d hm := by
    show (if signs P cfg event node mine d then Phase.idle else Phase.stopped false) = _
    simp [signs, hm]
  job := .absent
  submissions := rfl
  enqueuers := rfl
  drained h := by
    rcases h with h | ⟨l, h⟩
    · exact absurd rfl h
    · cases h
  confined := Confined.init

/-- What does not concern the deliveries `mine` keeps the correspondence. -/
theorem Tracks.frame (h : Tracks P cfg env event node mine p t w s)
    (hlist : w'.store.lists p.message = w.store.lists p.message)
    (hhandlers : ∀ d, mine d = true → w'.handlers d = w.handlers d)
    (hjob : w'.store.jobs p.jobId = w.store.jobs p.jobId)
    (htrace : w'.trace = w.trace ∨ ∃ entry : Entry δ, w'.trace = w.trace ++ [entry] ∧
      entry.submission? p.jobId = none ∧ entry.enqueuer? p.jobId = none)
    (hconf : Confined P cfg event node w') : Tracks P cfg env event node mine p t w' s where
  list := by rw [hlist]; exact h.list
  handlers d hm := by rw [hhandlers d hm]; exact h.handlers d hm
  others := h.others
  job := by rw [hjob]; exact h.job
  submissions := by
    rcases htrace with htr | ⟨entry, htr, hs, -⟩
    · rw [World.submissions, htr]; exact h.submissions
    · rw [World.submissions, htr, submissions_append, hs, h.submissions]; simp
  enqueuers := by
    rcases htrace with htr | ⟨entry, htr, -, he⟩
    · rw [World.enqueuers, htr]; exact h.enqueuers
    · rw [World.enqueuers, htr, enqueuers_append, he, h.enqueuers]; simp
  drained hdr := by
    obtain ⟨entry, hmem, hop⟩ := h.drained hdr
    rcases htrace with htr | ⟨entry', htr, -, -⟩
    · exact ⟨entry, htr ▸ hmem, hop⟩
    · exact ⟨entry, htr ▸ List.mem_append_left _ hmem, hop⟩
  confined := hconf

variable [DecidableEq δ]

/-- A handler of `mine` moves to the phase `ph`. -/
theorem Tracks.moveHandler (h : Tracks P cfg env event node mine p t w s) {d : δ}
    (hm : mine d = true) {o : Op} {result : Except JsError o.Resp} {hs : HandlerState} {ph : Phase}
    {store : Store δ} {ticket : Ticket δ}
    (hat : HandlerAt env t p (signatureOf P cfg event node d) hs ph)
    (hlist : store.lists p.message = w.store.lists p.message)
    (hjob : JobAt P (p.theJob env) (signatureOf P cfg event node) (store.jobs p.jobId) ticket)
    (hcleared : ∀ l, ticket = .cleared l → s.ticket = .cleared l)
    (hconf : Confined P cfg event node { w with
      store, handlers := Function.update w.handlers d hs,
      trace := w.trace ++ [⟨.handler d, o, result⟩] }) :
    Tracks P cfg env event node mine p t
      { w with
        store, handlers := Function.update w.handlers d hs,
        trace := w.trace ++ [⟨.handler d, o, result⟩] }
      { s.setPhase d ph with
        ticket, added := s.added ++ ((⟨.handler d, o, result⟩ : Entry δ).enqueuer? p.jobId).toList }
    where
  list := by rw [hlist]; exact h.list
  handlers d' hm' := by
    by_cases hne : d' = d
    · subst hne
      simp only [Function.update_self, Collector.State.setPhase]
      exact hat
    · simp only [Collector.State.setPhase, Function.update_of_ne hne]
      exact h.handlers d' hm'
  others d' hm' := by
    have hne : d' ≠ d := by rintro rfl; rw [hm] at hm'; cases hm'
    simp only [Collector.State.setPhase, Function.update_of_ne hne]
    exact h.others d' hm'
  job := hjob
  submissions := by
    rw [World.submissions, submissions_append, h.submissions]
    simp [Entry.submission?]
  enqueuers := by rw [World.enqueuers, enqueuers_append, h.enqueuers]
  drained hdr := by
    have hs' : s.Drained := by
      rcases hdr with hsub | ⟨l, hl⟩
      · exact Or.inl hsub
      · exact Or.inr ⟨l, hcleared l hl⟩
    obtain ⟨entry, hmem, hop⟩ := h.drained hs'
    exact ⟨entry, List.mem_append_left _ hmem, hop⟩
  confined := hconf

/-- A handler of `mine` moves to the phase `ph` without touching the store. -/
theorem Tracks.movePhase (h : Tracks P cfg env event node mine p t w s) {d : δ}
    (hm : mine d = true) {o : Op} {result : Except JsError o.Resp} {hs : HandlerState} {ph : Phase}
    (hat : HandlerAt env t p (signatureOf P cfg event node d) hs ph)
    (henq : (⟨.handler d, o, result⟩ : Entry δ).enqueuer? p.jobId = none)
    (hconf : Confined P cfg event node { w with
      handlers := Function.update w.handlers d hs,
      trace := w.trace ++ [⟨.handler d, o, result⟩] }) :
    Tracks P cfg env event node mine p t
      { w with
        handlers := Function.update w.handlers d hs, trace := w.trace ++ [⟨.handler d, o, result⟩] }
      (s.setPhase d ph) := by
  have hmove := h.moveHandler hm hat rfl h.job (fun _ hl => hl) hconf
  rw [henq, Option.toList_none, List.append_nil] at hmove
  exact hmove

/-- One operation of a handler of `mine`. -/
theorem Tracks.handler_step (hd : Deliveries P cfg env event mine e p t)
    (h : Tracks P cfg env event node mine p t w s) {d : δ} (hm : mine d = true) {o : Op} {r : Reply}
    {k : Except JsError o.Resp → Task Unit} {result : Except JsError o.Resp} {store : Store δ}
    {queued : List (String × String)} (hprog : (w.handlers d).prog = .await o k)
    (hans : Answered env w.store (w.handlers d).queued o r result store queued) (hr : r.Succeeds)
    (hconf : Confined P cfg event node { w with
      store, handlers := Function.update w.handlers d { prog := k result, queued },
      trace := w.trace ++ [⟨.handler d, o, result⟩] }) :
    ∃ s', Steps t True s s' ∧ Tracks P cfg env event node mine p t
      { w with
        store, handlers := Function.update w.handlers d { prog := k result, queued },
        trace := w.trace ++ [⟨.handler d, o, result⟩] } s' := by
  obtain ⟨ph', hat', hmove⟩ := (h.handlers d hm).step hd.threshold hprog hans hr
  generalize hph : s.phase d = ph at hmove
  have hself : s.setPhase d ph = s := Collector.setPhase_eq_self hph
  cases hmove with
  | issue => exact ⟨_, .single (.issue d hph), h.movePhase hm hat' rfl hconf⟩
  | issueThrow =>
    refine ⟨_, ?_, h.movePhase hm hat' rfl hconf⟩
    have h1 : Step t True s (s.setPhase d .issued) := .issue d hph
    have h2 : Step t True (s.setPhase d .issued)
        ((s.setPhase d .issued).setPhase d (.stopped true)) :=
      .stop d true trivial (by simp [Phase.stop])
    rw [Collector.setPhase_setPhase] at h2
    exact (Relation.ReflTransGen.single h1).tail h2
  | threshold site => exact ⟨s, .refl, hself ▸ h.movePhase hm hat' rfl hconf⟩
  | mint mint => exact ⟨s, .refl, hself ▸ h.movePhase hm hat' rfl hconf⟩
  | count =>
    have hlen : (w.store.lists p.message).length = s.list.length := by
      rw [h.list, List.length_map]
    rw [hlen] at hat'
    exact ⟨_, .single (.count d hph), h.movePhase hm hat' rfl hconf⟩
  | find hjob =>
    refine ⟨_, .single (.find d hph fun habs => hjob ?_), h.movePhase hm hat' rfl hconf⟩
    have hat := h.job
    rw [habs] at hat
    exact hat.none_of_absent
  | miss hjob =>
    refine ⟨_, .single (.miss d hph ?_), h.movePhase hm hat' rfl hconf⟩
    have hat := h.job
    rw [hjob] at hat
    exact hat.absent_of_none
  | add =>
    refine ⟨_, .single (.add d hph), ?_⟩
    have hadd := h.moveHandler hm (o := .add (p.theJob env) p.jobId p.opts) hat'
      (congrFun (Store.addJob_lists ..) _) (h.job.add p.opts) (fun l => Collector.add_eq_cleared.1)
      hconf
    have henq : (⟨.handler d, .add (p.theJob env) p.jobId p.opts, result⟩ : Entry δ).enqueuer?
        p.jobId = some d := if_pos rfl
    rw [henq] at hadd
    exact hadd

/-- The push of a handler of `mine` takes effect, and the participant moves to the phase `ph`. -/
theorem Tracks.moveFlush (h : Tracks P cfg env event node mine p t w s) {d : δ}
    (hm : mine d = true) {hs : HandlerState} {ph : Phase}
    (hat : HandlerAt env t p (signatureOf P cfg event node d) hs ph)
    (hconf : Confined P cfg event node { w with
      store := w.store.push d p.message (signatureOf P cfg event node d)
      handlers := Function.update w.handlers d hs }) :
    Tracks P cfg env event node mine p t
      { w with
        store := w.store.push d p.message (signatureOf P cfg event node d)
        handlers := Function.update w.handlers d hs }
      { s.setPhase d ph with list := s.list ++ [d] } where
  list := by
    rw [Store.push_self, h.list, List.map_append]
    rfl
  handlers d' hm' := by
    by_cases hne : d' = d
    · subst hne
      simp only [Function.update_self, Collector.State.setPhase]
      exact hat
    · simp only [Collector.State.setPhase, Function.update_of_ne hne]
      exact h.handlers d' hm'
  others d' hm' := by
    have hne : d' ≠ d := by rintro rfl; rw [hm] at hm'; cases hm'
    simp only [Collector.State.setPhase, Function.update_of_ne hne]
    exact h.others d' hm'
  job := h.job
  submissions := h.submissions
  enqueuers := h.enqueuers
  drained := h.drained
  confined := hconf

/-- Redis runs a push of `mine`. -/
theorem Tracks.flush_step (h : Tracks P cfg env event node mine p t w s) {d : δ}
    (hm : mine d = true) {key value : String} {queued : List (String × String)}
    (hqueued : (w.handlers d).queued = (key, value) :: queued)
    (hconf : Confined P cfg event node { w with
      store := w.store.push d key value
      handlers := Function.update w.handlers d { prog := (w.handlers d).prog, queued } }) :
    ∃ s', Steps t True s s' ∧ Tracks P cfg env event node mine p t
      { w with
        store := w.store.push d key value
        handlers := Function.update w.handlers d { prog := (w.handlers d).prog, queued } } s' := by
  have hat := h.handlers d hm
  generalize hph : s.phase d = ph at hat
  generalize hhs : w.handlers d = hs at hat hqueued hconf ⊢
  cases hat with
  | issued hb => cases hqueued; exact ⟨_, .single (.store d hph), h.moveFlush hm (.stored hb) hconf⟩
  | stoppedQueued err =>
    cases hqueued
    exact ⟨_, .single (.storeStopped d hph), h.moveFlush hm (.stopped err) hconf⟩
  | _ => cases hqueued

/-- The node of a delivery in `mine` stops. -/
theorem Tracks.stop_step (h : Tracks P cfg env event node mine p t w s) {d : δ}
    (hm : mine d = true) {o : Op} {k : Except JsError o.Resp → Task Unit}
    (hprog : (w.handlers d).prog = .await o k)
    (hconf : Confined P cfg event node { w with
      handlers := Function.update w.handlers d
        { prog := .throw .stopped, queued := (w.handlers d).queued } }) :
    ∃ s', Steps t True s s' ∧ Tracks P cfg env event node mine p t
      { w with
        handlers := Function.update w.handlers d
          { prog := .throw .stopped, queued := (w.handlers d).queued } } s' := by
  obtain ⟨q, hstop, hat'⟩ : ∃ q, (s.phase d).stop = some q ∧
      HandlerAt env t p (signatureOf P cfg event node d)
        ⟨.throw .stopped, (w.handlers d).queued⟩ (.stopped q) := by
    have hat := h.handlers d hm
    generalize s.phase d = ph at hat
    generalize w.handlers d = hs at hat hprog
    cases hat with
    | issued hb => exact ⟨true, rfl, .stoppedQueued .stopped⟩
    | finished => cases hprog
    | stopped e => cases hprog
    | stoppedQueued e => cases hprog
    | _ => exact ⟨false, rfl, .stopped .stopped⟩
  refine ⟨_, .single (.stop d q trivial hstop), h.list, fun d' hm' => ?_, fun d' hm' => ?_, h.job,
    h.submissions, h.enqueuers, h.drained, hconf⟩
  · by_cases hne : d' = d
    · subst hne
      simp only [Function.update_self, Collector.State.setPhase]
      exact hat'
    · simp only [Collector.State.setPhase, Function.update_of_ne hne]
      exact h.handlers d' hm'
  · have hne : d' ≠ d := by rintro rfl; rw [hm] at hm'; cases hm'
    simp only [Collector.State.setPhase, Function.update_of_ne hne]
    exact h.others d' hm'

omit [DecidableEq δ] in
/-- The job of the event, while there is one. -/
theorem Tracks.status_of_job (h : Tracks P cfg env event node mine p t w s) {entry : JobEntry}
    (hjob : w.store.jobs p.jobId = some entry) :
    entry.data = p.theJob env ∧
      StatusAt P (p.theJob env) (signatureOf P cfg event node) entry.status s.ticket := by
  have hat := h.job
  rw [hjob] at hat
  cases hat with
  | present hdata hs => exact ⟨hdata, hs⟩

omit [DecidableEq δ] in
/-- The job moves on: its new entry corresponds to `ticket`. -/
theorem Tracks.moveJob (h : Tracks P cfg env event node mine p t w s) {new : Option JobEntry}
    {ticket : Ticket δ} {completions : String × ℕ → Task Unit}
    (hat : JobAt P (p.theJob env) (signatureOf P cfg event node) new ticket)
    (hcleared : ∀ l, ticket = .cleared l → s.ticket = .cleared l)
    (hconf : Confined P cfg event node
      { w with store := w.store.setJob p.jobId new, completions }) :
    Tracks P cfg env event node mine p t
      { w with store := w.store.setJob p.jobId new, completions } { s with ticket } where
  list := h.list
  handlers := h.handlers
  others := h.others
  job := by rw [Store.setJob_self]; exact hat
  submissions := h.submissions
  enqueuers := h.enqueuers
  drained hdr := by
    rcases hdr with hsub | ⟨l, hl⟩
    · exact h.drained (Or.inl hsub)
    · exact h.drained (Or.inr ⟨l, hcleared l hl⟩)
  confined := hconf

omit [DecidableEq δ] in
/-- The worker of the job has done an operation. -/
theorem Tracks.moveWorker (h : Tracks P cfg env event node mine p t w s) {serial : ℕ} {o : Op}
    {result : Except JsError o.Resp} {store : Store δ} {new : Option JobEntry}
    {s' : Collector.State δ} (hphase : s'.phase = s.phase) (hadded : s'.added = s.added)
    (hlist : store.lists p.message = s'.list.map fun d => (d, signatureOf P cfg event node d))
    (hat : JobAt P (p.theJob env) (signatureOf P cfg event node) new s'.ticket)
    (hsub : s.submitted.filterMap (submissionOf P (p.theJob env) (signatureOf P cfg event node)) ++
      o.call?.toList =
        s'.submitted.filterMap (submissionOf P (p.theJob env) (signatureOf P cfg event node)))
    (hdrained : s'.Drained → s.Drained ∨ o = .del p.message)
    (hconf : Confined P cfg event node { w with
      store := store.setJob p.jobId new
      trace := w.trace ++ [⟨.worker p.jobId serial, o, result⟩] }) :
    Tracks P cfg env event node mine p t
      { w with
        store := store.setJob p.jobId new
        trace := w.trace ++ [⟨.worker p.jobId serial, o, result⟩] } s' where
  list := hlist
  handlers d hm := by rw [hphase]; exact h.handlers d hm
  others d hm := by rw [hphase]; exact h.others d hm
  job := by rw [Store.setJob_self]; exact hat
  submissions := by
    have hsubm : (⟨.worker p.jobId serial, o, result⟩ : Entry δ).submission? p.jobId = o.call? :=
      if_pos rfl
    rw [World.submissions, submissions_append, h.submissions, hsubm, hsub]
  enqueuers := by
    have henq : (⟨.worker p.jobId serial, o, result⟩ : Entry δ).enqueuer? p.jobId = none := rfl
    rw [World.enqueuers, enqueuers_append, henq, h.enqueuers, hadded]
    exact List.append_nil _
  drained hdr := by
    rcases hdrained hdr with hs | rfl
    · obtain ⟨entry, hmem, hop⟩ := h.drained hs
      exact ⟨entry, List.mem_append_left _ hmem, hop⟩
    · exact ⟨_, List.mem_append_right _ (List.mem_singleton_self _), rfl⟩
  confined := hconf

omit [DecidableEq δ] in
/-- The message of the job. -/
theorem Deliveries.theJob_message (hd : Deliveries P cfg env event mine e p t) :
    (p.theJob env).message = p.message :=
  ((Plan.of_plan hd.plan).job_message _).trans (Plan.of_plan hd.plan).message.symm

omit [DecidableEq δ] in
/-- What the worker of the job reads. -/
theorem Tracks.read_list (hd : Deliveries P cfg env event mine e p t)
    (h : Tracks P cfg env event node mine p t w s) :
    (w.store.lists (p.theJob env).message).map Prod.snd =
      s.list.map (signatureOf P cfg event node) := by
  rw [hd.theJob_message, h.list, List.map_map]
  rfl

/-- One operation of the worker of the job. -/
theorem Tracks.worker_step (hd : Deliveries P cfg env event mine e p t)
    (h : Tracks P cfg env event node mine p t w s) {entry : JobEntry} {o : Op} {r : Reply}
    {k : Except JsError o.Resp → Task Unit} {result : Except JsError o.Resp} {store : Store δ}
    {queued : List (String × String)} (hjob : w.store.jobs p.jobId = some entry)
    (hstatus : entry.status = .active (.await o k))
    (hans : Answered env w.store [] o r result store queued) (hr : r.Succeeds)
    (hconf : Confined P cfg event node { w with
      store := store.setJob p.jobId (some { entry with status := .active (k result) })
      trace := w.trace ++ [⟨.worker p.jobId entry.serial, o, result⟩] }) :
    ∃ s', Steps t True s s' ∧ Tracks P cfg env event node mine p t
      { w with
        store := store.setJob p.jobId (some { entry with status := .active (k result) })
        trace := w.trace ++ [⟨.worker p.jobId entry.serial, o, result⟩] } s' := by
  obtain ⟨hdata, hat⟩ := h.status_of_job hjob
  have hmsg := hd.theJob_message
  rw [hstatus] at hat
  generalize hk : s.ticket = ticket at hat
  generalize hprog : Prog.await o k = prog at hat
  cases hat with
  | reading =>
    cases hprog
    cases hans with
    | failed e => exact absurd hr not_false
    | lrange =>
      rw [h.read_list hd] at hconf ⊢
      by_cases hl : s.list = []
      · exact ⟨_, .single (.readEmpty hk hl), h.moveWorker rfl rfl h.list
          (.present hdata (.afterRead (Or.inl ⟨hl, rfl⟩))) (by simp [Op.call?])
          (fun hdr => Or.inl (hdr.of_ticket (by simp))) hconf⟩
      · exact ⟨_, .single (.read hk hl), h.moveWorker rfl rfl h.list
          (.present hdata (.afterRead (Or.inr ⟨hl, rfl⟩))) (by simp [Op.call?])
          (fun hdr => Or.inl (hdr.of_ticket (by simp))) hconf⟩
  | held l =>
    cases hprog
    cases hans with
    | failed e => exact absurd hr not_false
    | del =>
      have hstep : Step t True s _ := .clear l hk
      have hlist : (w.store.clear (p.theJob env).message).lists p.message = [] := by
        rw [hmsg, Store.clear_self]
      cases hcall : QueueProcessor.destinationCall P (p.theJob env)
          (l.map (signatureOf P cfg event node)) with
      | ok c =>
        refine ⟨_, .single hstep, h.moveWorker rfl rfl hlist (.present hdata (.cleared l c hcall))
          (by simp [Op.call?]) (fun _ => Or.inr (by rw [hmsg])) hconf⟩
      | error err =>
        -- the fields cannot be decoded: the worker ends without a submission
        refine ⟨_, (Relation.ReflTransGen.single hstep).tail (.submit l rfl),
          h.moveWorker rfl rfl hlist (.present hdata ?_) ?_ (fun _ => Or.inr (by rw [hmsg])) hconf⟩
        · simp only [QueueProcessor.deliver, hcall]
          exact .served
        · simp [Op.call?, submissionOf, hcall, Except.toOption]
  | cleared l c hcall =>
    have hsub : submissionOf P (p.theJob env) (signatureOf P cfg event node) l = some c := by
      simp only [submissionOf, hcall, Except.toOption]
    have hdr : s.Drained := Or.inr ⟨l, hk⟩
    have hstep : Step t True s _ := .submit l hk
    cases c with
    | evm c =>
      simp only [QueueProcessor.deliver, hcall] at hprog
      cases hprog
      refine ⟨_, .single hstep, h.moveWorker rfl rfl ?_ (.present hdata .served)
        (by simp [Op.call?, hsub]) (fun _ => Or.inl hdr) hconf⟩
      cases hans with
      | failed e => exact h.list
      | callEvm => exact h.list
    | solana c =>
      simp only [QueueProcessor.deliver, hcall] at hprog
      cases hprog
      refine ⟨_, .single hstep, h.moveWorker rfl rfl ?_ (.present hdata .served)
        (by simp [Op.call?, hsub]) (fun _ => Or.inl hdr) hconf⟩
      cases hans with
      | failed e => exact h.list
      | callSolana => exact h.list
  | served => cases hprog

omit [DecidableEq δ] in
/-- A job with another id has another message. -/
theorem Deliveries.message_of_jobId (hd : Deliveries P cfg env event mine e p t) {id : String}
    {entry : JobEntry} (hentry : entry.Confined P cfg event id) (hne : id ≠ p.jobId) :
    entry.data.message ≠ p.message := by
  have hof := Plan.of_plan hd.plan
  obtain ⟨d, hid, hmsg, -⟩ := hentry.of_event
  have hm : mine d = false := by
    by_contra hm
    rw [Bool.not_eq_false] at hm
    rw [hd.of_mine d hm, ← hof.jobId] at hid
    exact hne hid
  rw [hmsg, hof.message]
  exact hd.message_ne d hm

/-- One operation of another handler. -/
theorem Tracks.other_handler (hd : Deliveries P cfg env event mine e p t)
    (h : Tracks P cfg env event node mine p t w s) {d : δ} (hm : mine d = false) {o : Op}
    {r : Reply} {k : Except JsError o.Resp → Task Unit} {result : Except JsError o.Resp}
    {store : Store δ} {queued : List (String × String)} (hprog : (w.handlers d).prog = .await o k)
    (hans : Answered env w.store (w.handlers d).queued o r result store queued)
    (hconf : Confined P cfg event node { w with
      store, handlers := Function.update w.handlers d { prog := k result, queued },
      trace := w.trace ++ [⟨.handler d, o, result⟩] }) :
    Tracks P cfg env event node mine p t
      { w with
        store, handlers := Function.update w.handlers d { prog := k result, queued },
        trace := w.trace ++ [⟨.handler d, o, result⟩] } s := by
  have hof := Plan.of_plan hd.plan
  have hall := h.confined.handlers d
  rw [hprog] at hall
  have ho := hall.1
  have hjobId : (event d).jobId P cfg ≠ p.jobId := by
    rw [hof.jobId]; exact hd.jobId_ne d hm
  have hhandlers : ∀ d', mine d' = true →
      Function.update w.handlers d { prog := k result, queued } d' = w.handlers d' :=
    update_left (fun _ _ => rfl) (by simp [hm]) _
  rcases hans.store_cases with rfl | ⟨key, rfl, rfl⟩ | ⟨data, id, opts, rfl, rfl⟩
  · refine h.frame rfl hhandlers rfl (Or.inr ⟨_, rfl, rfl, ?_⟩) hconf
    cases o with
    | add data id opts => exact if_neg (ho.2.1 ▸ hjobId)
    | _ => rfl
  · exact absurd ho not_false
  · obtain ⟨-, rfl, -⟩ := ho
    exact h.frame (congrFun (Store.addJob_lists ..) _) hhandlers
      (Store.addJob_jobs_of_ne _ _ _ hjobId.symm) (Or.inr ⟨_, rfl, rfl, if_neg hjobId⟩) hconf

/-- **One step of the backend** is matched by steps of the threshold collection. -/
theorem Tracks.step (hd : Deliveries P cfg env event mine e p t)
    (h : Tracks P cfg env event node mine p t w s) {a : Action δ} (ha : a.SucceedsOrStops)
    (hstep : w.step P cfg env a = some w') :
    ∃ s', Steps t True s s' ∧ Tracks P cfg env event node mine p t w' s' := by
  have hof := Plan.of_plan hd.plan
  have hconf := h.confined.step hstep
  cases step_eq_some.1 hstep with
  | @handler d r o k result store queued hprog hans =>
    cases hm : mine d with
    | true => exact h.handler_step hd hm hprog hans ha hconf
    | false => exact ⟨s, .refl, h.other_handler hd hm hprog hans hconf⟩
  | @flush d key value queued hqueued =>
    cases hm : mine d with
    | true => exact h.flush_step hm hqueued hconf
    | false =>
      have hkey : p.message ≠ key := by
        have hkey : key = (event d).message P cfg :=
          (h.confined.queued d (key, value) (hqueued ▸ List.mem_cons_self ..)).1
        rw [hkey, hof.message]
        exact (hd.message_ne d hm).symm
      exact ⟨s, .refl, h.frame (Store.push_of_ne _ _ _ hkey)
        (update_left (fun _ _ => rfl) (by simp [hm]) _) rfl (Or.inl rfl) hconf⟩
  | flushFailed hqueued => exact absurd ha not_false
  | @stop d o k hprog =>
    cases hm : mine d with
    | true => exact h.stop_step hm hprog hconf
    | false =>
      exact ⟨s, .refl, h.frame rfl (update_left (fun _ _ => rfl) (by simp [hm]) _) rfl (Or.inl rfl)
        hconf⟩
  | @take id entry hjob hstatus =>
    by_cases hid : id = p.jobId
    · subst hid
      obtain ⟨hdata, hat⟩ := h.status_of_job hjob
      rw [hstatus] at hat
      generalize hk : s.ticket = ticket at hat
      cases hat
      refine ⟨_, .single (.take hk), h.moveJob (.present hdata ?_) (fun l hl => ?_) hconf⟩
      · rw [QueueProcessor.process_eq, hdata]
        exact .reading
      · cases hl
    · exact ⟨s, .refl, h.frame rfl (fun _ _ => rfl) (Store.setJob_of_ne _ _ (Ne.symm hid))
        (Or.inl rfl) hconf⟩
  | @worker id r entry o k result store queued hjob hstatus hans =>
    by_cases hid : id = p.jobId
    · subst hid
      exact h.worker_step hd hjob hstatus hans ha hconf
    · have hentry := h.confined.jobs id entry hjob
      have ho := (hentry.active _ hstatus).1
      have hmsg := hd.message_of_jobId hentry hid
      refine ⟨s, .refl, h.frame ?_ (fun _ _ => rfl) ?_ (Or.inr ⟨_, rfl, if_neg hid, rfl⟩) hconf⟩
      · rcases hans.store_cases with rfl | ⟨key, rfl, rfl⟩ | ⟨data, id', opts, rfl, rfl⟩
        · rfl
        · exact Store.clear_of_ne _ (fun hkey => hmsg (ho.symm.trans hkey.symm))
        · exact absurd ho not_false
      · rw [Store.setJob_of_ne _ _ (Ne.symm hid), hans.jobs_of_worker ho]
  | @complete id entry u hjob hstatus =>
    by_cases hid : id = p.jobId
    · subst hid
      obtain ⟨hdata, hat⟩ := h.status_of_job hjob
      rw [hstatus] at hat
      have hk := (hat.served_of_not_await (by simp)).1
      have hnew : JobAt P (p.theJob env) (signatureOf P cfg event node) entry.removed .absent := by
        rw [(h.confined.jobs p.jobId entry hjob).removed]
        exact .absent
      refine ⟨_, .single (.finish hk), h.moveJob hnew (fun l hl => ?_) hconf⟩
      cases hl
    · exact ⟨s, .refl, h.frame rfl (fun _ _ => rfl) (Store.setJob_of_ne _ _ (Ne.symm hid))
        (Or.inl rfl) hconf⟩
  | @retry id entry err hjob hstatus =>
    by_cases hid : id = p.jobId
    · subst hid
      obtain ⟨hdata, hat⟩ := h.status_of_job hjob
      rw [hstatus] at hat
      cases (hat.served_of_not_await (by simp)).2
    · exact ⟨s, .refl, h.frame rfl (fun _ _ => rfl) (Store.setJob_of_ne _ _ (Ne.symm hid))
        (Or.inl rfl) hconf⟩
  | @completion id serial r o k result store queued hprog hans =>
    have hall := h.confined.completions (id, serial)
    rw [hprog] at hall
    have hstore := hans.store_of_completion hall.1
    subst hstore
    exact ⟨s, .refl, h.frame rfl (fun _ _ => rfl) rfl (Or.inr ⟨_, rfl, rfl, rfl⟩) hconf⟩

/-- **Every run of the backend in which commands succeed or nodes stop is a run of the threshold
collection** of each of its events. -/
theorem Tracks.of_run (hd : Deliveries P cfg env event mine e p t) {l : List (Action δ)}
    (hl : ∀ a ∈ l, a.SucceedsOrStops)
    (h : World.run P cfg env (World.init fun d => (event d).handle P cfg (node d)) l = some w) :
    ∃ s, Steps t True (Collector.State.init (signs P cfg event node mine)) s ∧
      Tracks P cfg env event node mine p t w s :=
  Async.exec_simulation Action.SucceedsOrStops (fun ha hr hs => hr.step hd ha hs) (Tracks.init hd)
    hl h

end Tracks

end Tsunagari
