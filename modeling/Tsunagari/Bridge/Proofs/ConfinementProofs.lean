import Tsunagari.Bridge.Proofs.HandlerProofs
import Tsunagari.Bridge.Proofs.ProcessorProofs
import Tsunagari.Bridge.Proofs.WorldProofs

/-!
# Proofs: every event keeps to its list and its job

The handlers of an event use only the signature list and the job id of the event, and push only the
signatures of their nodes; a worker uses only the list of its job's message.
-/

namespace Tsunagari

open Async (Prog)

/-! ## Footprints -/

/-- The job belongs to the event. -/
def BridgeJob.OfEvent (P : Platform) (cfg : Config) (e : BridgeEvent) (data : BridgeJob) : Prop :=
  data.message = e.message P cfg ∧ data.destinationChainId = e.destination

/-- The operations of a node's handler of the event. -/
def Op.OfHandler (P : Platform) (cfg : Config) (node : Node) (e : BridgeEvent) : Op → Prop
  | .rpush key value => key = e.message P cfg ∧ e.sign P cfg node = .ok value
  | .llen key => key = e.message P cfg
  | .getThreshold _ => True
  | .getMint _ => True
  | .getJob id => id = e.jobId P cfg
  | .add data id opts => data.OfEvent P cfg e ∧ id = e.jobId P cfg ∧ opts = cfg.jobOptions
  | _ => False

/-- The operations of a handler of the event once it has pushed. -/
def Op.AfterPush (P : Platform) (cfg : Config) (e : BridgeEvent) : Op → Prop
  | .llen key => key = e.message P cfg
  | .getThreshold _ => True
  | .getMint _ => True
  | .getJob id => id = e.jobId P cfg
  | .add data id opts => data.OfEvent P cfg e ∧ id = e.jobId P cfg ∧ opts = cfg.jobOptions
  | _ => False

theorem Op.AfterPush.ofHandler {P : Platform} {cfg : Config} {e : BridgeEvent} (node : Node)
    {o : Op} (h : o.AfterPush P cfg e) : o.OfHandler P cfg node e := by
  cases o with
  | rpush key value => exact absurd h not_false
  | _ => exact h

/-- The operations of a worker, given the message of its job. -/
def Op.OfWorker (message : String) : Op → Prop
  | .lrange key => key = message
  | .del key => key = message
  | .callEvm _ => True
  | .callSolana _ => True
  | _ => False

/-- The operations of the listener of completed jobs. -/
def Op.OfCompletion : Op → Prop
  | .storeTransaction _ _ => True
  | _ => False

namespace Plan

variable {P : Platform} {cfg : Config} {e : BridgeEvent} {p : Plan}

theorem all_addJob (hp : p.Of P cfg e) (n : ℕ) :
    (p.addJob n).All (Op.AfterPush P cfg e) :=
  ⟨⟨⟨hp.job_message n, hp.job_destination n⟩, hp.jobId, hp.opts⟩, fun _ => trivial⟩

theorem all_enqueue (hp : p.Of P cfg e) (reached : Bool) (n : ℕ) :
    (p.enqueue reached n).All (Op.AfterPush P cfg e) := by
  unfold enqueue
  split
  · refine ⟨hp.jobId, fun r => ?_⟩
    rcases r with err | existing
    · trivial
    · cases existing with
      | true => trivial
      | false => exact all_addJob hp n
  · trivial

theorem all_readMint (hp : p.Of P cfg e) (reached : Bool) :
    (p.readMint reached).All (Op.AfterPush P cfg e) := by
  unfold readMint
  cases p.mint with
  | none => exact all_enqueue hp reached 0
  | some mint =>
    refine ⟨trivial, fun r => ?_⟩
    rcases r with err | n
    · trivial
    · exact all_enqueue hp reached n

theorem all_readThreshold (hp : p.Of P cfg e) :
    p.readThreshold.All (Op.AfterPush P cfg e) := by
  unfold readThreshold
  cases p.site with
  | error err => trivial
  | ok site =>
    refine ⟨trivial, fun r => ?_⟩
    rcases r with err | t
    · trivial
    · exact ⟨hp.message, fun c => all_readMint hp _⟩

theorem all_start {node : Node} (hp : p.Of P cfg e) {signature : String}
    (hsign : e.sign P cfg node = .ok signature) :
    (p.start signature).All (Op.OfHandler P cfg node e) :=
  ⟨⟨hp.message, hsign⟩, fun _ => (all_readThreshold hp).mono fun _ h => h.ofHandler node⟩

end Plan

/-- The handlers of an event keep to its list and its job. -/
theorem BridgeEvent.all_handle (P : Platform) (cfg : Config) (node : Node) (e : BridgeEvent) :
    (e.handle P cfg node).All (Op.OfHandler P cfg node e) := by
  rw [e.handle_eq]
  cases hp : e.plan P cfg with
  | error err => trivial
  | ok p =>
    cases hsign : e.sign P cfg node with
    | error err => trivial
    | ok signature => exact Plan.all_start (Plan.of_plan hp) hsign

theorem QueueProcessor.all_deliver (P : Platform) (data : BridgeJob) (vs : List String) :
    (deliver P data vs).All (Op.OfWorker data.message) := by
  unfold deliver
  split
  · trivial
  · exact ⟨trivial, fun _ => trivial⟩
  · exact ⟨trivial, fun _ => trivial⟩

/-- A worker keeps to the list of its job's message. -/
theorem QueueProcessor.all_process (P : Platform) (data : BridgeJob) :
    (process P data).All (Op.OfWorker data.message) := by
  rw [process_eq]
  refine ⟨rfl, fun r => ?_⟩
  rcases r with err | vs
  · trivial
  · unfold afterRead
    by_cases h : vs = []
    · simp [h]
    · simp only [if_neg h]
      exact ⟨rfl, fun _ => all_deliver P data vs⟩

theorem QueueProcessor.all_onCompleted (cfg : Config) (data : BridgeJob) :
    (onCompleted cfg data).All Op.OfCompletion :=
  ⟨trivial, fun r => by rcases r with err | u <;> trivial⟩

/-! ## The invariant -/

variable {δ : Type}

/-- A job is the job of an event, and what is left of its worker keeps to the event's list. -/
structure JobEntry.Confined (P : Platform) (cfg : Config) (event : δ → BridgeEvent) (id : String)
    (entry : JobEntry) : Prop where
  of_event : ∃ d, id = (event d).jobId P cfg ∧ entry.data.OfEvent P cfg (event d)
  opts : entry.opts = cfg.jobOptions
  active : ∀ prog, entry.status = .active prog → prog.All (Op.OfWorker entry.data.message)

/-- Every event keeps to its list and its job. -/
structure Confined (P : Platform) (cfg : Config) (event : δ → BridgeEvent) (node : δ → Node)
    (w : World δ) : Prop where
  /-- What is left of a handler keeps to the list and the job of its event. -/
  handlers : ∀ d, (w.handlers d).prog.All (Op.OfHandler P cfg (node d) (event d))
  /-- So do the pushes under way. -/
  queued : ∀ d, ∀ kv ∈ (w.handlers d).queued,
    (Op.rpush kv.1 kv.2).OfHandler P cfg (node d) (event d)
  /-- And those that have run. -/
  lists : ∀ key, ∀ x ∈ w.store.lists key,
    (Op.rpush key x.2).OfHandler P cfg (node x.1) (event x.1)
  jobs : ∀ id entry, w.store.jobs id = some entry → entry.Confined P cfg event id
  completions : ∀ key, (w.completions key).All Op.OfCompletion

/-- A worker's operation leaves the jobs alone. -/
theorem Answered.jobs_of_worker {env : Env} {message : String} {r : Reply} {o : Op}
    {result : Except JsError o.Resp} {s store : Store δ} {queued queued' : List (String × String)}
    (hans : Answered env s queued o r result store queued') (ho : o.OfWorker message) :
    store.jobs = s.jobs := by
  rcases hans.store_cases with rfl | ⟨key, rfl, rfl⟩ | ⟨data, id', opts, rfl, rfl⟩
  · rfl
  · rfl
  · exact absurd ho not_false

/-- The listener of completed jobs leaves the store alone. -/
theorem Answered.store_of_completion {env : Env} {r : Reply} {o : Op}
    {result : Except JsError o.Resp} {s store : Store δ} {queued queued' : List (String × String)}
    (hans : Answered env s queued o r result store queued') (ho : o.OfCompletion) : store = s := by
  rcases hans.store_cases with rfl | ⟨key, rfl, rfl⟩ | ⟨data, id', opts, rfl, rfl⟩
  · rfl
  · exact absurd ho not_false
  · exact absurd ho not_false

/-- Such a job is removed when it completes. -/
theorem JobEntry.Confined.removed {P : Platform} {cfg : Config} {event : δ → BridgeEvent}
    {id : String} {entry : JobEntry} (h : entry.Confined P cfg event id) :
    entry.removed = none := by
  unfold JobEntry.removed
  rw [h.opts]
  rfl

namespace Confined

variable {P : Platform} {cfg : Config} {env : Env} {event : δ → BridgeEvent} {node : δ → Node}
  {w w' : World δ}

theorem init : Confined P cfg event node (World.init fun d => (event d).handle P cfg (node d)) where
  handlers d := (event d).all_handle P cfg (node d)
  queued d kv h := by cases h
  lists key x h := by cases h
  jobs id entry h := by cases h
  completions _ := trivial

/-- A handler's operation keeps the jobs in order. -/
theorem jobs_of_handler (hw : Confined P cfg event node w) {d : δ} {r : Reply} {o : Op}
    {result : Except JsError o.Resp} {store : Store δ} {queued queued' : List (String × String)}
    (ho : o.OfHandler P cfg (node d) (event d))
    (hans : Answered env w.store queued o r result store queued') {id : String} {entry : JobEntry}
    (hjob : store.jobs id = some entry) : entry.Confined P cfg event id := by
  rcases hans.store_cases with rfl | ⟨key, rfl, rfl⟩ | ⟨data, id', opts, rfl, rfl⟩
  · exact hw.jobs id entry hjob
  · exact absurd ho not_false
  · obtain ⟨hof, hid, hopts⟩ := ho
    rcases Store.jobs_addJob_cases hjob with hjob | ⟨rfl, -, rfl⟩
    · exact hw.jobs id entry hjob
    · exact ⟨⟨d, hid, hof⟩, hopts, fun prog h => by cases h⟩

/-- Replacing a job keeps the jobs in order. -/
theorem jobs_of_setJob (hw : Confined P cfg event node w) {store : Store δ} {id : String}
    {new : Option JobEntry} (hstore : store.jobs = w.store.jobs)
    (hnew : ∀ entry, new = some entry → entry.Confined P cfg event id) {id' : String}
    {entry : JobEntry} (hjob : (store.setJob id new).jobs id' = some entry) :
    entry.Confined P cfg event id' := by
  rcases Store.jobs_setJob_cases hjob with ⟨rfl, heq⟩ | ⟨-, hjob⟩
  · exact hnew entry heq
  · exact hw.jobs id' entry (hstore ▸ hjob)

variable [DecidableEq δ]

/-- What is left of one handler changes, and what it has under way. -/
theorem updateHandler {handlers : δ → HandlerState} {d : δ} {h : HandlerState}
    (hh : ∀ d, (handlers d).prog.All (Op.OfHandler P cfg (node d) (event d)))
    (hprog : h.prog.All (Op.OfHandler P cfg (node d) (event d))) :
    ∀ d', (Function.update handlers d h d').prog.All (Op.OfHandler P cfg (node d') (event d')) := by
  intro d'
  by_cases hne : d' = d
  · subst hne; rw [Function.update_self]; exact hprog
  · rw [Function.update_of_ne hne]; exact hh d'

theorem updateQueued {handlers : δ → HandlerState} {d : δ} {h : HandlerState}
    (hh : ∀ d, ∀ kv ∈ (handlers d).queued, (Op.rpush kv.1 kv.2).OfHandler P cfg (node d) (event d))
    (hq : ∀ kv ∈ h.queued, (Op.rpush kv.1 kv.2).OfHandler P cfg (node d) (event d)) :
    ∀ d', ∀ kv ∈ (Function.update handlers d h d').queued,
      (Op.rpush kv.1 kv.2).OfHandler P cfg (node d') (event d') := by
  intro d'
  by_cases hne : d' = d
  · subst hne; rw [Function.update_self]; exact hq
  · rw [Function.update_of_ne hne]; exact hh d'

omit [DecidableEq δ] in
/-- What is left of one listener changes. -/
theorem updateCompletions {completions : String × ℕ → Task Unit} {key : String × ℕ}
    {prog : Task Unit} (hc : ∀ key, (completions key).All Op.OfCompletion)
    (hprog : prog.All Op.OfCompletion) :
    ∀ key', (Function.update completions key prog key').All Op.OfCompletion := by
  intro key'
  by_cases hne : key' = key
  · subst hne; rw [Function.update_self]; exact hprog
  · rw [Function.update_of_ne hne]; exact hc key'

/-- One step keeps every event to its list and its job. -/
theorem step (hw : Confined P cfg event node w) {a : Action δ} (h : w.step P cfg env a = some w') :
    Confined P cfg event node w' := by
  cases step_eq_some.1 h with
  | @handler d r o k result store queued hprog hans =>
    have hall := hw.handlers d
    rw [hprog] at hall
    obtain ⟨ho, hk⟩ := hall
    refine ⟨updateHandler hw.handlers (hk result), updateQueued hw.queued fun kv hkv => ?_,
      fun key x hx => hw.lists key x (hans.mem_lists hx),
      fun id entry hjob => hw.jobs_of_handler ho hans hjob, hw.completions⟩
    rcases hans.queued_cases with rfl | ⟨key, value, rfl, rfl⟩
    · exact hw.queued d kv hkv
    · rcases List.mem_append.1 hkv with hkv | hkv
      · exact hw.queued d kv hkv
      · rw [List.mem_singleton.1 hkv]; exact ho
  | @flush d key value queued hqueued =>
    refine ⟨updateHandler hw.handlers (hw.handlers d),
      updateQueued hw.queued fun kv hkv => hw.queued d kv (hqueued ▸ List.mem_cons_of_mem _ hkv),
      fun key' x hx => ?_, hw.jobs, hw.completions⟩
    rcases Store.mem_push hx with hx | ⟨rfl, rfl⟩
    · exact hw.lists key' x hx
    · exact hw.queued d (_, value) (hqueued ▸ List.mem_cons_self ..)
  | @flushFailed d e key value queued hqueued =>
    exact ⟨updateHandler hw.handlers (hw.handlers d),
      updateQueued hw.queued fun kv hkv => hw.queued d kv (hqueued ▸ List.mem_cons_of_mem _ hkv),
      hw.lists, hw.jobs, hw.completions⟩
  | @stop d o k hprog =>
    exact ⟨updateHandler hw.handlers trivial, updateQueued hw.queued (hw.queued d), hw.lists,
      hw.jobs, hw.completions⟩
  | @take id entry hjob hstatus =>
    refine ⟨hw.handlers, hw.queued, hw.lists, fun id' entry' => hw.jobs_of_setJob rfl ?_,
      hw.completions⟩
    rintro _ ⟨⟩
    have he := hw.jobs id entry hjob
    refine ⟨he.of_event, he.opts, ?_⟩
    rintro _ ⟨⟩
    exact QueueProcessor.all_process P entry.data
  | @worker id r entry o k result store queued hjob hstatus hans =>
    have he := hw.jobs id entry hjob
    obtain ⟨ho, hk⟩ := he.active _ hstatus
    refine ⟨hw.handlers, hw.queued, fun key x hx => hw.lists key x (hans.mem_lists hx),
      fun id' entry' => hw.jobs_of_setJob (hans.jobs_of_worker ho) ?_, hw.completions⟩
    rintro _ ⟨⟩
    refine ⟨he.of_event, he.opts, ?_⟩
    rintro _ ⟨⟩
    exact hk result
  | @complete id entry u hjob hstatus =>
    have he := hw.jobs id entry hjob
    refine ⟨hw.handlers, hw.queued, hw.lists, fun id' entry' => hw.jobs_of_setJob rfl ?_,
      updateCompletions hw.completions (QueueProcessor.all_onCompleted cfg entry.data)⟩
    rw [he.removed]
    rintro _ ⟨⟩
  | @retry id entry e hjob hstatus =>
    have he := hw.jobs id entry hjob
    refine ⟨hw.handlers, hw.queued, hw.lists, fun id' entry' => hw.jobs_of_setJob rfl ?_,
      hw.completions⟩
    rintro _ ⟨⟩
    refine ⟨he.of_event, he.opts, fun prog hprog => ?_⟩
    simp only [JobEntry.retried] at hprog
    split at hprog <;> cases hprog
  | @completion id serial r o k result store queued hprog hans =>
    have hall := hw.completions (id, serial)
    rw [hprog] at hall
    obtain ⟨ho, hk⟩ := hall
    rw [hans.store_of_completion ho]
    exact ⟨hw.handlers, hw.queued, hw.lists, hw.jobs, updateCompletions hw.completions (hk result)⟩

/-- Every event keeps to its list and its job in every run. -/
theorem of_run {l : List (Action δ)}
    (h : World.run P cfg env (World.init fun d => (event d).handle P cfg (node d)) l = some w) :
    Confined P cfg event node w :=
  Async.exec_invariant (Confined P cfg event node) (fun _ => True) (fun _ hw hs => hw.step hs) init
    (fun _ _ => trivial) h

end Confined

end Tsunagari
