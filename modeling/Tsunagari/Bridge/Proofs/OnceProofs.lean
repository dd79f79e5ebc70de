import Tsunagari.Bridge.Proofs.ConfinementProofs
import Tsunagari.Bridge.Proofs.CourseProofs
import Tsunagari.Bridge.Proofs.HistoryProofs
import Tsunagari.Bridge.Proofs.SpendingProofs

/-!
# Proofs: what happens at most once

A handler adds one job at most, a worker calls one destination client at most, and a listener
stores one transaction at most. As every job is processed once, the calls and the records for an
event never outnumber the deliveries that added its jobs.
-/

namespace Tsunagari

open Async (Prog)
open QueueProcessor (callOp destinationCall onCompleted process)

variable {δ : Type} [DecidableEq δ] {P : Platform} {cfg : Config} {env : Env} {w w' : World δ}

/-! ## Counting -/

section Counting

variable {β : Type} [DecidableEq β]

theorem World.mem_answers {x : Entry δ} (hx : x ∈ w.trace) :
    (⟨x.op, x.result⟩ : Σ o : Op, Except JsError o.Resp) ∈ w.answers x.agent :=
  List.mem_map.2 ⟨x, List.mem_filter.2 ⟨hx, decide_eq_true rfl⟩, rfl⟩

/-- What each agent does at most once happens at most once for each agent. -/
theorem World.nodup_filterMap {f : Entry δ → Option β} {agent : β → Agent δ} {Q : Op → Bool}
    (hf : ∀ x b, f x = some b → x.agent = agent b ∧ Q x.op = true)
    (hone : ∀ b, (w.answers (agent b)).countP (fun x => Q x.1) ≤ 1) :
    (w.trace.filterMap f).Nodup := by
  refine List.nodup_iff_count_le_one.2 fun b => le_trans ?_ (hone b)
  rw [List.count_filterMap, World.answers, List.countP_map, List.countP_filter]
  refine List.countP_mono_left fun x _ hx => ?_
  obtain ⟨hagent, hop⟩ := hf x b (by simpa using hx)
  simp [hagent, hop]

end Counting

/-! ## What a function does at most once -/

/-- A handler adds a job at most once. -/
theorem Plan.within_add (p : Plan) (signature : String) :
    (p.start signature).Within (fun o => if o.isAdd then 1 else 0) 1 := by
  have henqueue : ∀ reached n,
      (p.enqueue reached n).Within (fun o => if o.isAdd then 1 else 0) 1 := by
    intro reached n
    cases reached with
    | false => trivial
    | true =>
      refine Prog.within_await (m := 1) le_rfl fun r => ?_
      rcases r with err | existing
      · trivial
      · cases existing with
        | true => trivial
        | false => exact Prog.within_await (m := 0) le_rfl fun _ => trivial
  have hmint : ∀ reached, (p.readMint reached).Within (fun o => if o.isAdd then 1 else 0) 1 := by
    intro reached
    cases hmint : p.mint with
    | none =>
      rw [Plan.readMint_of_none hmint]
      exact henqueue reached 0
    | some mint =>
      rw [Plan.readMint_of_some hmint]
      refine Prog.within_await (m := 1) le_rfl fun r => ?_
      rcases r with err | n
      · trivial
      · exact henqueue reached n
  refine Prog.within_await (m := 1) le_rfl fun _ => ?_
  cases hsite : p.site with
  | error err =>
    rw [Plan.readThreshold_of_error hsite]
    trivial
  | ok site =>
    rw [Plan.readThreshold_of_site hsite]
    refine Prog.within_await (m := 1) le_rfl fun r => ?_
    rcases r with err | t
    · trivial
    · exact Prog.within_await (m := 1) le_rfl fun _ => hmint _

theorem BridgeEvent.within_add (P : Platform) (cfg : Config) (node : Node) (e : BridgeEvent) :
    (e.handle P cfg node).Within (fun o => if o.isAdd then 1 else 0) 1 := by
  rw [e.handle_eq]
  cases e.plan P cfg with
  | error err => trivial
  | ok p =>
    cases e.sign P cfg node with
    | error err => trivial
    | ok signature => exact p.within_add signature

/-- A worker calls a destination client at most once. -/
theorem QueueProcessor.within_call (P : Platform) (data : BridgeJob) :
    (process P data).Within (fun o => if o.call?.isSome then 1 else 0) 1 := by
  rw [process_eq]
  refine Prog.within_await (m := 1) le_rfl fun r => ?_
  rcases r with err | vs
  · trivial
  show (afterRead P data vs).Within _ 1
  unfold afterRead
  split
  · trivial
  · refine Prog.within_await (m := 1) le_rfl fun _ => ?_
    unfold deliver
    split
    · trivial
    · exact Prog.within_await (m := 0) le_rfl fun _ => trivial
    · exact Prog.within_await (m := 0) le_rfl fun _ => trivial

/-- A listener of a completed job stores at most once. -/
theorem QueueProcessor.within_store (cfg : Config) (data : BridgeJob) :
    (onCompleted cfg data).Within (fun o => if o.isStore then 1 else 0) 1 :=
  Prog.within_await (m := 0) le_rfl fun r => by rcases r with err | u <;> trivial

/-! ## At most once -/

/-- More jobs were never added under an id than handlers ran `queue.add` for it. -/
structure Added (P : Platform) (cfg : Config) (event : δ → BridgeEvent) (node : δ → Node)
    (w : World δ) : Prop where
  confined : Confined P cfg event node w
  le : ∀ id, w.store.added id ≤ (w.enqueuers id).length

namespace Added

variable {event : δ → BridgeEvent} {node : δ → Node}

theorem step (hw : Added P cfg event node w) {a : Action δ} (h : w.step P cfg env a = some w') :
    Added P cfg event node w' := by
  have hframe : ∀ l : List (Entry δ), w'.trace = w.trace ++ l → w'.store.added = w.store.added →
      ∀ id, w'.store.added id ≤ (w'.enqueuers id).length := by
    intro l htrace hadded id
    rw [hadded, World.enqueuers, htrace, List.filterMap_append, List.length_append]
    exact (hw.le id).trans (Nat.le_add_right ..)
  refine ⟨hw.confined.step h, ?_⟩
  cases step_eq_some.1 h with
  | @handler d r o k result store queued hprog hans =>
    cases hans with
    | add data id opts =>
      intro id'
      have htrace : World.enqueuers ({ w with
          trace := w.trace ++ [⟨.handler d, .add data id opts, .ok ()⟩] } : World δ) id' =
            w.enqueuers id' ++ if id = id' then [d] else [] := by
        rw [World.enqueuers, List.filterMap_append]
        by_cases hid : id = id'
        · rw [if_pos hid]
          exact congrArg _ (List.filterMap_cons_some (if_pos hid))
        · rw [if_neg hid]
          exact congrArg _ (List.filterMap_cons_none (if_neg hid))
      refine le_of_le_of_eq ?_ (congrArg List.length htrace).symm
      rw [List.length_append]
      by_cases hid : id = id'
      · subst hid
        have hadded : (w.store.addJob data id opts).added id ≤ w.store.added id + 1 := by
          cases hjob : w.store.jobs id with
          | some entry =>
            rw [Store.addJob_of_some data opts hjob]
            exact Nat.le_succ _
          | none => simp [Store.addJob, hjob]
        rw [if_pos rfl]
        exact hadded.trans (Nat.succ_le_succ (hw.le id))
      · have hadded := Store.addJob_added_of_ne w.store data opts (Ne.symm hid)
        rw [if_neg hid]
        exact (hadded.trans_le (hw.le id')).trans (Nat.le_add_right ..)
    | _ => exact hframe _ rfl rfl
  | @worker id r entry o k result store queued hjob hstatus hans =>
    have ho := ((hw.confined.jobs id entry hjob).active _ hstatus).1
    refine hframe _ rfl ?_
    rcases hans.store_cases with rfl | ⟨key, rfl, rfl⟩ | ⟨data, id', opts, rfl, rfl⟩
    · rfl
    · rfl
    · exact absurd ho not_false
  | @completion id serial r o k result store queued hprog hans =>
    have ho := hw.confined.completions (id, serial)
    rw [hprog] at ho
    exact hframe _ rfl (congrArg Store.added (hans.store_of_completion ho.1))
  | _ => exact hframe [] (List.append_nil _).symm rfl

theorem of_run {l : List (Action δ)}
    (h : World.run P cfg env (World.init fun d => (event d).handle P cfg (node d)) l = some w) :
    Added P cfg event node w :=
  Async.exec_invariant (Added P cfg event node) (fun _ => True) (fun _ hw hs => hw.step hs)
    ⟨.init, fun _ => Nat.zero_le _⟩ (fun _ _ => trivial) h

end Added

omit [DecidableEq δ] in
/-- The empty queue. -/
theorem World.init_eq_queue (handler : δ → Task Unit) :
    World.init handler = World.queue (fun _ => []) (fun _ => none) handler := rfl

namespace Sequential

variable {jobs : String → Option (BridgeJob × JobOptions)} {handler : δ → Task Unit}

/-- Only jobs that have been added are recorded, each once. -/
theorem stored_nodup (hw : Sequential P cfg jobs handler w) (id : String) :
    (w.stored id).Nodup ∧ ∀ serial ∈ w.stored id, serial < w.store.added id := by
  have hstores : ∀ x serial, Entry.stores? id x = some serial →
      (x : Entry δ).agent = .completion id serial ∧ x.op.isStore = true := by
    intro x serial hx
    simp only [Entry.stores?] at hx
    split at hx
    next hagent hop =>
      split at hx
      next hid =>
        cases hx
        rw [hagent, hop, hid]
        exact ⟨rfl, rfl⟩
      next => cases hx
    next => cases hx
  refine ⟨World.nodup_filterMap hstores fun serial => ?_, fun serial hmem => ?_⟩
  · obtain h | ⟨data, prog, -, -, hpath⟩ := hw.path_completion id serial
    · rw [h]
      exact Nat.zero_le 1
    · exact (QueueProcessor.within_store cfg data).countP_le hpath
  · obtain ⟨x, hx, hserial⟩ := List.mem_filterMap.1 hmem
    have hanswer := World.mem_answers hx
    rw [(hstores x serial hserial).1] at hanswer
    obtain h | ⟨-, -, -, hlt, -⟩ := hw.path_completion id serial
    · rw [h] at hanswer
      cases hanswer
    · exact hlt

/-- Only for jobs that have been added a destination client is called, for each once. -/
theorem submitters_nodup (hw : Sequential P cfg jobs handler w) (id : String) :
    (w.submitters id).Nodup ∧ ∀ serial ∈ w.submitters id, serial < w.store.added id := by
  have hsubmits : ∀ x serial, Entry.submits? id x = some serial →
      (x : Entry δ).agent = .worker id serial ∧ x.op.call?.isSome = true := by
    intro x serial hx
    simp only [Entry.submits?] at hx
    split at hx
    next hagent =>
      split at hx
      next hcall =>
        cases hx
        rw [hagent, hcall.1]
        exact ⟨rfl, hcall.2⟩
      next => cases hx
    next => cases hx
  refine ⟨World.nodup_filterMap (Q := fun o => o.call?.isSome) hsubmits fun serial => ?_,
    fun serial hmem => ?_⟩
  · obtain h | ⟨data, prog, -, -, hpath⟩ := hw.path_worker id serial
    · rw [h]
      exact Nat.zero_le 1
    · exact (QueueProcessor.within_call P data).countP_le hpath
  · obtain ⟨x, hx, hserial⟩ := List.mem_filterMap.1 hmem
    have hanswer := World.mem_answers hx
    rw [(hsubmits x serial hserial).1] at hanswer
    obtain h | ⟨-, -, -, hlt, -⟩ := hw.path_worker id serial
    · rw [h] at hanswer
      cases hanswer
    · exact hlt

/-- No handler of an event adds a job twice. -/
theorem enqueuers_nodup {event : δ → BridgeEvent} {node : δ → Node}
    (hw : Sequential P cfg jobs (fun d => (event d).handle P cfg (node d)) w) (id : String) :
    (w.enqueuers id).Nodup := by
  have hadds : ∀ x d, Entry.enqueuer? id x = some d →
      (x : Entry δ).agent = .handler d ∧ x.op.isAdd = true := by
    intro x d hx
    simp only [Entry.enqueuer?] at hx
    split at hx
    next hagent hop =>
      split at hx
      next hid =>
        cases hx
        rw [hagent, hop]
        exact ⟨rfl, rfl⟩
      next => cases hx
    next => cases hx
  refine World.nodup_filterMap hadds fun d => ?_
  obtain ⟨prog, hpath⟩ := hw.path_handler d
  exact ((event d).within_add P cfg (node d)).countP_le hpath

end Sequential

omit [DecidableEq δ] in
/-- The calls for the jobs of an id, counted by their jobs. -/
theorem World.length_submissions (w : World δ) (id : String) :
    (w.submissions id).length = (w.submitters id).length := by
  unfold World.submissions World.submitters
  rw [List.length_filterMap_eq_countP, List.length_filterMap_eq_countP]
  refine List.countP_congr fun x _ => ?_
  unfold Entry.submission? Entry.submits?
  cases x.agent with
  | worker id' serial =>
    by_cases hid : id' = id
    · cases x.op.call? <;> simp [hid]
    · simp [hid]
  | handler d => rfl
  | completion id' serial => rfl

/-- Distinct numbers below a bound. -/
theorem length_le_of_nodup {l : List ℕ} {n : ℕ} (hnodup : l.Nodup) (hlt : ∀ i ∈ l, i < n) :
    l.length ≤ n := by
  have hsub : l ⊆ List.range n := fun i hi => List.mem_range.2 (hlt i hi)
  simpa using (List.subperm_of_subset hnodup hsub).length_le

/-- **The calls and the records for an event never outnumber the deliveries that added its jobs**,
whatever fails: each of these adds once, each job calls once at most, and is recorded once at
most. -/
theorem once_of_run {event : δ → BridgeEvent} {node : δ → Node} {l : List (Action δ)}
    (hrun : World.run P cfg env (World.init fun d => (event d).handle P cfg (node d)) l = some w)
    (id : String) :
    (w.stored id).Nodup ∧ (w.submitters id).Nodup ∧ (w.enqueuers id).Nodup ∧
      (w.stored id).length ≤ w.store.added id ∧ (w.submissions id).length ≤ w.store.added id ∧
        w.store.added id ≤ (w.enqueuers id).length := by
  have hle := (Added.of_run hrun).le id
  rw [World.init_eq_queue] at hrun
  have hw := Sequential.of_run hrun
  obtain ⟨hstored, hstoredlt⟩ := hw.stored_nodup id
  obtain ⟨hsubmitters, hsubmitterslt⟩ := hw.submitters_nodup id
  refine ⟨hstored, hsubmitters, hw.enqueuers_nodup id, length_le_of_nodup hstored hstoredlt, ?_,
    hle⟩
  rw [World.length_submissions]
  exact length_le_of_nodup hsubmitters hsubmitterslt

/-- Two of three deliveries add a job, and both jobs are recorded. -/
def Sample.recordedRun {δ : Type} (c d late : δ) : List (Action δ) :=
  Sample.lateRun c d late ++ [.settle "jobID: 2361242049", .completion "jobID: 2361242049" 1 .ok,
    .completion "jobID: 2361242049" 0 .ok]

theorem Sample.run_recordedRun :
    ∃ w, World.run platform config (Sample.env 2 2) (Sample.world (Sample.lock 137) 3 le_rfl)
        (recordedRun 0 1 2) = some w ∧
      w.stored "jobID: 2361242049" = [1, 0] ∧
        (w.submissions "jobID: 2361242049").length = 2 ∧
          w.enqueuers "jobID: 2361242049" = [0, 1] := by
  have heval : (World.run platform config (Sample.env 2 2)
      (Sample.world (Sample.lock 137) 3 le_rfl) (recordedRun 0 1 2)).map
        (fun w => (w.stored "jobID: 2361242049", (w.submissions "jobID: 2361242049").length,
          w.enqueuers "jobID: 2361242049")) = some ([1, 0], 2, [0, 1]) := by decide +kernel
  obtain ⟨w, hrun, heq⟩ := Option.map_eq_some_iff.1 heval
  simp only [Prod.mk.injEq] at heq
  exact ⟨w, hrun, heq⟩

/-- The bounds are reached. -/
theorem once_of_run_sample :
    ∃ w : World (Fin 3), World.run Sample.platform Sample.config (Sample.env 2 2)
        (Sample.world (Sample.lock 137) 3 le_rfl) (Sample.recordedRun 0 1 2) = some w ∧
      (w.stored "jobID: 2361242049").length = 2 ∧
        (w.stored "jobID: 2361242049").length ≤ w.store.added "jobID: 2361242049" ∧
          w.store.added "jobID: 2361242049" ≤ (w.enqueuers "jobID: 2361242049").length ∧
            (w.enqueuers "jobID: 2361242049").length = 2 := by
  obtain ⟨w, hrun, hstored, -, henqueuers⟩ := Sample.run_recordedRun
  obtain ⟨-, -, -, hle, -, hadded⟩ := once_of_run hrun "jobID: 2361242049"
  exact ⟨w, hrun, congrArg List.length hstored, hle, hadded, congrArg List.length henqueuers⟩

/-! ## What is submitted -/

namespace QueueProcessor

variable {data : BridgeJob} {vs : List String} {tr : Answers} {o : Op}
  {k : Except JsError o.Resp → Task Unit}

/-- After its call a worker has nothing left to do. -/
theorem course_of_deliver (h : Prog.Path (deliver P data vs) tr (.await o k)) :
    ∃ c, o = callOp c ∧ destinationCall P data vs = .ok c ∧ (∀ r, k r = .ret ()) ∧ tr = [] := by
  cases hdest : destinationCall P data vs with
  | error err =>
    rw [deliver, hdest] at h
    cases h.of_ret
  | ok c =>
    rw [deliver_of_destinationCall hdest] at h
    cases h with
    | refl => exact ⟨c, rfl, rfl, fun _ => rfl, rfl⟩
    | await r h => cases h.of_ret

/-- The course of a worker up to its call: it has read the list, and tried to empty it. -/
theorem course_of_call (h : Prog.Path (process P data) tr (.await o k)) (ho : o.call?.isSome) :
    ∃ vs r c, o = callOp c ∧ vs ≠ [] ∧ destinationCall P data vs = .ok c ∧ (∀ r, k r = .ret ()) ∧
      tr = [⟨.lrange data.message, .ok vs⟩, ⟨.del data.message, r⟩] := by
  rw [process_eq] at h
  obtain h₁ | ⟨r₁, tr₁, rfl, h₁⟩ := h.of_await
  · cases h₁
    cases ho
  rcases r₁ with err | vs
  · cases h₁.of_ret
  change Prog.Path (afterRead P data vs) tr₁ _ at h₁
  by_cases hvs : vs = []
  · rw [afterRead, if_pos hvs] at h₁
    cases h₁.of_ret
  rw [afterRead, if_neg hvs] at h₁
  obtain h₂ | ⟨r₂, tr₂, rfl, h₂⟩ := h₁.of_await
  · cases h₂
    cases ho
  obtain ⟨c, hc, hdest, hk, rfl⟩ := course_of_deliver h₂
  exact ⟨vs, r₂, c, hc, hvs, hdest, hk, rfl⟩

end QueueProcessor

omit [DecidableEq δ] in
/-- The agent of a submission. -/
theorem Entry.worker_of_submission {x : Entry δ} {id : String} {c : Call}
    (h : x.submission? id = some c) :
    (∃ serial, x.agent = .worker id serial) ∧ x.op.call? = some c := by
  simp only [Entry.submission?] at h
  split at h
  next id' serial hagent =>
    split at h
    next hid => exact ⟨⟨serial, by rw [hagent, hid]⟩, h⟩
    next => cases h
  next => cases h

/-- **A submission carries what its own worker has read**, whatever fails: the worker has read a
list that was not empty, tried to empty it, and called the client for its job with all that it had
read; and that was all it ever did. -/
theorem submitted_of_read {lists : String → List (δ × String)}
    {jobs : String → Option (BridgeJob × JobOptions)} {handler : δ → Task Unit}
    {l : List (Action δ)} (hrun : World.run P cfg env (World.queue lists jobs handler) l = some w)
    {id : String} {c : Call} (hc : c ∈ w.submissions id) :
    ∃ serial data vs r result, w.Supplied jobs id data ∧ vs ≠ [] ∧
      destinationCall P data vs = .ok c ∧
        w.answers (.worker id serial) = [⟨.lrange data.message, .ok vs⟩, ⟨.del data.message, r⟩,
          ⟨callOp c, result⟩] := by
  obtain ⟨⟨agent, op, result⟩, hx, hsub⟩ := List.mem_filterMap.1 hc
  obtain ⟨⟨serial, rfl⟩, hcall⟩ := Entry.worker_of_submission hsub
  have hanswer := World.mem_answers hx
  obtain h | ⟨data, prog, hsupplied, -, hpath⟩ := (Sequential.of_run hrun).path_worker id serial
  · rw [h] at hanswer
    cases hanswer
  obtain ⟨tr₁, tr₂, htr⟩ := List.append_of_mem hanswer
  rw [htr] at hpath
  obtain ⟨k, h₁, h₂⟩ := hpath.split
  obtain ⟨vs, r, c', rfl, hvs, hdest, hk, rfl⟩ :=
    QueueProcessor.course_of_call h₁ (by rw [hcall]; rfl)
  rw [hk] at h₂
  obtain rfl := h₂.nil_of_ret
  obtain rfl : c' = c := by cases c' <;> exact Option.some.inj hcall
  exact ⟨serial, data, vs, r, result, hsupplied, hvs, hdest, htr⟩

/-- The list is read, its deletion fails, and the transaction of the call fails. -/
theorem submitted_of_read_sample :
    ∃ (w : World (Fin 3)) (c : Call),
      World.run Sample.platform Sample.config (Sample.env 1 1) Sample.queue
          [.take "jobID: 2361242049", .worker "jobID: 2361242049" .ok,
            .worker "jobID: 2361242049" (.error (.rejected "Connection is closed.")),
            .worker "jobID: 2361242049" (.receipt (some 0))] = some w ∧
        w.submissions "jobID: 2361242049" = [c] ∧
          ∃ serial data vs r result, vs ≠ [] ∧ destinationCall Sample.platform data vs = .ok c ∧
            w.answers (.worker "jobID: 2361242049" serial) =
              [⟨.lrange data.message, .ok vs⟩, ⟨.del data.message, r⟩, ⟨callOp c, result⟩] := by
  have heval : (World.run Sample.platform Sample.config (Sample.env 1 1) Sample.queue
      [.take "jobID: 2361242049", .worker "jobID: 2361242049" .ok,
        .worker "jobID: 2361242049" (.error (.rejected "Connection is closed.")),
        .worker "jobID: 2361242049" (.receipt (some 0))]).map
      (fun w => (w.submissions "jobID: 2361242049").length) = some 1 := by decide +kernel
  obtain ⟨w, hrun, hlength⟩ := Option.map_eq_some_iff.1 heval
  obtain ⟨c, hc⟩ := List.length_eq_one_iff.1 hlength
  obtain ⟨serial, data, vs, r, result, -, hvs, hdest, hanswers⟩ :=
    submitted_of_read hrun (c := c) (hc ▸ List.mem_singleton_self c)
  exact ⟨w, c, hrun, hc, serial, data, vs, r, result, hvs, hdest, hanswers⟩

/-! ## What is recorded -/

/-- Only the handlers that read the decimals of a mint make use of them. -/
theorem Plan.job_of_mint_none {e : BridgeEvent} {p : Plan} (h : e.plan P cfg = .ok p)
    (hmint : p.mint = none) (m n : ℕ) : p.job m = p.job n := by
  cases e with
  | tokensLocked chainId log =>
    obtain ⟨dest, -, h⟩ := except_bind_ok h
    cases h
    rfl
  | wrappedTokensBurned chainId log =>
    obtain ⟨dest, -, h⟩ := except_bind_ok h
    cases h
    rfl
  | solanaTokensLocked txSignature data =>
    obtain ⟨dest, -, h⟩ := except_bind_ok h
    cases h
    cases hmint
  | solanaTokensBurned txSignature data =>
    obtain ⟨dest, -, h⟩ := except_bind_ok h
    cases h
    cases hmint

/-- Every operation on the record was answered by the environment. -/
theorem answered_of_run {w₀ : World δ} (h₀ : w₀.trace = []) {l : List (Action δ)}
    (hrun : World.run P cfg env w₀ l = some w) :
    ∀ x ∈ w.trace, ∃ (s s' : Store δ) (q q' : List (String × String)) (r : Reply),
      Answered env s q x.op r x.result s' q' := by
  refine Async.exec_invariant (fun w : World δ => ∀ x ∈ w.trace,
      ∃ (s s' : Store δ) (q q' : List (String × String)) (r : Reply),
        Answered env s q x.op r x.result s' q') (fun _ => True)
    (fun {w w' a} _ hw h => ?_) (fun x hx => by rw [h₀] at hx; cases hx) (fun _ _ => trivial) hrun
  have hconcat : ∀ {agent : Agent δ} {o : Op} {result : Except JsError o.Resp} {s s' : Store δ}
      {q q' : List (String × String)} {r : Reply}, Answered env s q o r result s' q' →
        ∀ x ∈ w.trace ++ [⟨agent, o, result⟩],
          ∃ (s s' : Store δ) (q q' : List (String × String)) (r : Reply),
            Answered env s q x.op r x.result s' q' := by
    intro agent o result s s' q q' r hans x hx
    rcases List.mem_append.1 hx with hx | hx
    · exact hw x hx
    · rw [List.mem_singleton.1 hx]
      exact ⟨s, s', q, q', r, hans⟩
  cases step_eq_some.1 h with
  | handler hprog hans => exact hconcat hans
  | worker hjob hstatus hans => exact hconcat hans
  | completion hprog hans => exact hconcat hans
  | _ => exact hw

/-- **A handler that adds a job adds the job of its event**, whatever fails. -/
theorem theJob_of_add {event : δ → BridgeEvent} {node : δ → Node} {l : List (Action δ)}
    (hrun : World.run P cfg env (World.init fun d => (event d).handle P cfg (node d)) l = some w)
    {d : δ} {data : BridgeJob} {id : String} {opts : JobOptions}
    (hadd : (⟨.handler d, .add data id opts, .ok ()⟩ : Entry δ) ∈ w.trace) :
    ∃ p, (event d).plan P cfg = .ok p ∧ id = p.jobId ∧ data = p.theJob env := by
  have hans := answered_of_run rfl hrun
  rw [World.init_eq_queue] at hrun
  obtain ⟨prog, hpath⟩ := (Sequential.of_run hrun).path_handler d
  obtain ⟨tr₁, tr₂, htr⟩ := List.append_of_mem (World.mem_answers hadd)
  change w.answers (.handler d) = _ at htr
  rw [htr] at hpath
  obtain ⟨k, h₁, -⟩ := hpath.split
  obtain ⟨p, signature, hplan, -, hstart⟩ := BridgeEvent.plan_of_add h₁
  obtain ⟨site, r, threshold, count, decimals, -, -, hdata, hid, -, htr₁⟩ :=
    Plan.course_of_add hstart
  refine ⟨p, hplan, hid, hdata.trans ?_⟩
  cases hmint : p.mint with
  | none => exact Plan.job_of_mint_none hplan hmint _ _
  | some mint =>
    rw [Plan.mintAnswers_of_some hmint] at htr₁
    have hmem : (⟨.getMint mint, .ok decimals⟩ : Σ o : Op, Except JsError o.Resp) ∈
        w.answers (.handler d) := by
      rw [htr, htr₁]
      simp
    obtain ⟨⟨agent, op, result⟩, hx, heq⟩ := List.mem_map.1 hmem
    cases heq
    obtain ⟨s, s', q, q', r', hmintAns⟩ := hans _ (List.mem_filter.1 hx).1
    have hdecimals : p.decimals env = env.decimals mint := by rw [Plan.decimals, hmint]
    cases hmintAns
    rw [Plan.theJob, hdecimals]

/-- A listener of a completed job stores the fields of the job. -/
theorem QueueProcessor.all_store (cfg : Config) (data : BridgeJob) :
    (onCompleted cfg data).All (· = .storeTransaction data.transaction cfg.grpcPassword) :=
  ⟨rfl, fun r => by rcases r with err | u <;> trivial⟩

/-- **What is recorded is the transfer of an event**, whatever fails: a call of `StoreTransaction`
carries the fields of the job that a delivery of the event has added, and the password. -/
theorem recorded_of_event {event : δ → BridgeEvent} {node : δ → Node} {l : List (Action δ)}
    (hrun : World.run P cfg env (World.init fun d => (event d).handle P cfg (node d)) l = some w)
    {x : Entry δ} (hx : x ∈ w.trace) {transaction : CreateTransactionDto} {password : String}
    (hop : x.op = .storeTransaction transaction password) :
    ∃ d p serial, (event d).plan P cfg = .ok p ∧ x.agent = .completion p.jobId serial ∧
      d ∈ w.enqueuers p.jobId ∧ transaction = (p.theJob env).transaction ∧
        password = cfg.grpcPassword := by
  have hadd := @theJob_of_add δ _ P cfg env w event node l hrun
  rw [World.init_eq_queue] at hrun
  have hw := Sequential.of_run hrun
  have hanswer := World.mem_answers hx
  cases hagent : x.agent with
  | handler d =>
    rw [hagent] at hanswer
    obtain ⟨prog, hpath⟩ := hw.path_handler d
    have ho : x.op.OfHandler P cfg (node d) (event d) :=
      (((event d).all_handle P cfg (node d)).of_path hpath).2 _ hanswer
    rw [hop] at ho
    exact absurd ho not_false
  | worker id serial =>
    rw [hagent] at hanswer
    obtain h | ⟨data, prog, -, -, hpath⟩ := hw.path_worker id serial
    · rw [h] at hanswer
      cases hanswer
    · have ho : x.op.OfWorker data.message :=
        ((QueueProcessor.all_process P data).of_path hpath).2 _ hanswer
      rw [hop] at ho
      exact absurd ho not_false
  | completion id serial =>
    rw [hagent] at hanswer
    obtain h | ⟨data, prog, ⟨opts, h | ⟨d, hd⟩⟩, -, hpath⟩ := hw.path_completion id serial
    · rw [h] at hanswer
      cases hanswer
    · cases h
    · have ho : x.op = .storeTransaction data.transaction cfg.grpcPassword :=
        ((QueueProcessor.all_store cfg data).of_path hpath).2 _ hanswer
      obtain ⟨p, hplan, rfl, rfl⟩ := hadd hd
      cases hop.symm.trans ho
      exact ⟨d, p, serial, hplan, rfl, List.mem_filterMap.2 ⟨_, hd, if_pos rfl⟩, rfl, rfl⟩

/-- Both jobs of the lock are recorded with its fields. -/
theorem recorded_of_event_sample :
    ∃ (w : World (Fin 3)) (x : Entry (Fin 3)) (transaction : CreateTransactionDto)
        (password : String),
      World.run Sample.platform Sample.config (Sample.env 2 2)
          (Sample.world (Sample.lock 137) 3 le_rfl) (Sample.recordedRun 0 1 2) = some w ∧
        x ∈ w.trace ∧ x.op = .storeTransaction transaction password ∧
          ∃ p, (Sample.lock 137).plan Sample.platform Sample.config = .ok p ∧
            transaction = (p.theJob (Sample.env 2 2)).transaction ∧ password = "secret" := by
  obtain ⟨w, hrun, hstored, -, -⟩ := Sample.run_recordedRun
  obtain ⟨x, hx, hstores⟩ : ∃ x ∈ w.trace, x.stores? "jobID: 2361242049" = some 0 :=
    List.mem_filterMap.1 (show 0 ∈ w.stored "jobID: 2361242049" by rw [hstored]; simp)
  obtain ⟨transaction, password, hop⟩ : ∃ transaction password,
      x.op = .storeTransaction transaction password := by
    simp only [Entry.stores?] at hstores
    split at hstores
    next transaction password _ hop => exact ⟨transaction, password, hop⟩
    next => cases hstores
  obtain ⟨d, p, serial, hplan, -, -, htransaction, hpassword⟩ := recorded_of_event hrun hx hop
  exact ⟨w, x, transaction, password, hrun, hx, hop, p, hplan, htransaction, hpassword⟩

end Tsunagari
