import Mathlib.Logic.Function.Basic
import Tsunagari.Async.Transition
import Tsunagari.Bridge.Processor

/-!
# The nodes, Redis and the queue

The handlers of all nodes and the workers of the queue run concurrently: between two operations that
one of them awaits, the others may move. A state has the Redis lists and the queue, what is left of
every running function, and a record of the operations that were answered. An action says who moves
and what the environment answers.

A delivery is one call of a handler (or of the log callback) on one node. A delivery issues `RPUSH`
without awaiting it, so that the command takes effect later; but it shares the connection with the
commands that the delivery issues afterwards, which are answered in order.
-/

namespace Tsunagari

open Async (Prog)

/-! ## The shared store -/

/-- What is read from the chains: thresholds of the bridges and decimals of the Solana mints. -/
structure Env where
  threshold : BridgeSite → ℕ
  decimals : PublicKey → ℕ

/-- The state of a job in the queue. -/
inductive JobStatus where
  | waiting
  /-- A worker runs `process`, of which `prog` is left. -/
  | active (prog : Task Unit)
  | completed
  | failed

/-- A job in the queue. -/
structure JobEntry where
  data : BridgeJob
  opts : JobOptions
  attemptsMade : ℕ
  /-- How many jobs had been added under the same id before this one. -/
  serial : ℕ
  status : JobStatus

/-- The job still has to be run, or is being run. -/
def JobEntry.Outstanding (entry : JobEntry) : Prop :=
  entry.status = .waiting ∨ ∃ prog, entry.status = .active prog

instance (entry : JobEntry) : Decidable entry.Outstanding :=
  match h : entry.status with
  | .waiting => .isTrue (.inl h)
  | .active prog => .isTrue (.inr ⟨prog, h⟩)
  | .completed => .isFalse fun h' => by
    rcases h' with h' | ⟨prog, h'⟩ <;> (rw [h] at h'; cases h')
  | .failed => .isFalse fun h' => by
    rcases h' with h' | ⟨prog, h'⟩ <;> (rw [h] at h'; cases h')

/-- The Redis lists and the jobs of the queue. Every list element is kept together with the delivery
that pushed it. -/
structure Store (δ : Type) where
  lists : String → List (δ × String)
  jobs : String → Option JobEntry
  /-- How many jobs have been added under each id. -/
  added : String → ℕ

namespace Store

variable {δ : Type}

/-- `RPUSH` -/
def push (s : Store δ) (d : δ) (key value : String) : Store δ :=
  { s with lists := Function.update s.lists key (s.lists key ++ [(d, value)]) }

/-- `DEL` -/
def clear (s : Store δ) (key : String) : Store δ :=
  { s with lists := Function.update s.lists key [] }

def setJob (s : Store δ) (id : String) (entry : Option JobEntry) : Store δ :=
  { s with jobs := Function.update s.jobs id entry }

/-- `queue.add` with a job id: nothing happens while a job has that id. -/
def addJob (s : Store δ) (data : BridgeJob) (id : String) (opts : JobOptions) : Store δ :=
  match s.jobs id with
  | some _ => s
  | none =>
    { s.setJob id (some ⟨data, opts, 0, s.added id, .waiting⟩) with
      added := Function.update s.added id (s.added id + 1) }

end Store

/-- What the environment decides when it answers an operation. -/
inductive Reply where
  /-- The operation succeeds. -/
  | ok
  /-- The operation fails and has no effect. -/
  | error (e : JsError)
  /-- The EVM transaction is mined, with this status in its receipt. -/
  | receipt (status : Option ℕ)
  /-- The Solana transaction is sent, with this status. -/
  | transaction (status : Bool) (txSignature : String)

/-- The answer to an operation: its result, the store afterwards, and the `RPUSH` commands that are
issued on the connection but have not run. -/
def Store.answer {δ : Type} (env : Env) (s : Store δ) (queued : List (String × String)) :
    (o : Op) → Reply → Option (Except JsError o.Resp × Store δ × List (String × String))
  | _, .error e => some (.error e, s, queued)
  | .rpush key value, .ok => some (.ok 0, s, queued ++ [(key, value)])
  | .llen key, .ok => if queued = [] then some (.ok (s.lists key).length, s, []) else none
  | .lrange key, .ok => if queued = [] then some (.ok ((s.lists key).map Prod.snd), s, []) else none
  | .del key, .ok =>
    if queued = [] then some (.ok (if s.lists key = [] then 0 else 1), s.clear key, []) else none
  | .getThreshold site, .ok => some (.ok (env.threshold site), s, queued)
  | .getMint mint, .ok => some (.ok (env.decimals mint), s, queued)
  | .getJob id, .ok => some (.ok (s.jobs id).isSome, s, queued)
  | .add data id opts, .ok => some (.ok (), s.addJob data id opts, queued)
  | .callEvm _, .receipt status => some (.ok status, s, queued)
  | .callSolana _, .transaction status txSignature => some (.ok (status, txSignature), s, queued)
  | .storeTransaction _ _, .ok => some (.ok (), s, queued)
  | _, _ => none

/-! ## States -/

/-- Who awaits an operation. -/
inductive Agent (δ : Type) where
  /-- The handler of a delivery. -/
  | handler (d : δ)
  /-- The worker that runs a job. -/
  | worker (id : String) (serial : ℕ)
  /-- The listener of the event `completed` of a job. -/
  | completion (id : String) (serial : ℕ)
  deriving DecidableEq

/-- An operation that was answered. -/
structure Entry (δ : Type) where
  agent : Agent δ
  op : Op
  result : Except JsError op.Resp

/-- A running handler: what is left of it, and the `RPUSH` commands it has issued that have not
run. -/
structure HandlerState where
  prog : Task Unit
  queued : List (String × String)

/-- The handler has run to its end. -/
def HandlerState.Done (h : HandlerState) : Prop := h.prog = .ret ()

instance (h : HandlerState) : Decidable h.Done :=
  match h with
  | ⟨.ret (), _⟩ => .isTrue rfl
  | ⟨.throw _, _⟩ => .isFalse fun h => by cases h
  | ⟨.await _ _, _⟩ => .isFalse fun h => by cases h

/-- A state of the backend. -/
structure World (δ : Type) where
  store : Store δ
  handlers : δ → HandlerState
  /-- What is left of `onCompleted`, by job id and serial number. -/
  completions : String × ℕ → Task Unit
  /-- The operations that were answered so far, the oldest first. -/
  trace : List (Entry δ)

namespace World

variable {δ : Type}

/-- Nothing has happened yet: the lists and the queue are empty, and every delivery is about to run
its handler. -/
def init (handler : δ → Task Unit) : World δ where
  store := { lists := fun _ => [], jobs := fun _ => none, added := fun _ => 0 }
  handlers d := { prog := handler d, queued := [] }
  completions _ := .ret ()
  trace := []

/-- The function body `prog` gets its awaited operation answered. -/
def advance (env : Env) (w : World δ) (agent : Agent δ) (queued : List (String × String))
    (prog : Task Unit) (r : Reply) : Option (Task Unit × List (String × String) × World δ) :=
  match prog with
  | .ret _ => none
  | .throw _ => none
  | .await o k =>
    (w.store.answer env queued o r).map fun (result, store, queued) =>
      (k result, queued, { w with store, trace := w.trace ++ [⟨agent, o, result⟩] })

def setJob (w : World δ) (id : String) (entry : Option JobEntry) : World δ :=
  { w with store := w.store.setJob id entry }

variable [DecidableEq δ]

def setHandler (w : World δ) (d : δ) (h : HandlerState) : World δ :=
  { w with handlers := Function.update w.handlers d h }

end World

/-! ## Steps -/

/-- Who moves, and how the environment answers. -/
inductive Action (δ : Type) where
  /-- The handler of the delivery gets its operation answered. -/
  | handler (d : δ) (r : Reply)
  /-- Redis runs the oldest `RPUSH` that the delivery has issued, or fails to. -/
  | flush (d : δ) (r : Reply)
  /-- The node of the delivery stops. -/
  | stop (d : δ)
  /-- A worker takes the job. -/
  | take (id : String)
  /-- The worker of the job gets its operation answered. -/
  | worker (id : String) (r : Reply)
  /-- The queue learns how `process` ended. -/
  | settle (id : String)
  /-- The listener of the job's completion gets its operation answered. -/
  | completion (id : String) (serial : ℕ) (r : Reply)

/-- `process` has ended: a completed job is removed, and a failed one is tried again while attempts
are left. -/
def JobEntry.retried (entry : JobEntry) : JobEntry :=
  { entry with
    attemptsMade := entry.attemptsMade + 1
    status := if entry.attemptsMade + 1 < entry.opts.attempts then .waiting else .failed }

def JobEntry.removed (entry : JobEntry) : Option JobEntry :=
  if entry.opts.removeOnComplete then none else some { entry with status := .completed }

/-- One step of the backend; `none` when the action is not possible. -/
def World.step {δ : Type} [DecidableEq δ] (P : Platform) (cfg : Config) (env : Env) (w : World δ) :
    Action δ → Option (World δ)
  | .handler d r =>
    (w.advance env (.handler d) (w.handlers d).queued (w.handlers d).prog r).map
      fun (prog, queued, w') => w'.setHandler d { prog, queued }
  | .flush d r =>
    match (w.handlers d).queued, r with
    | (key, value) :: queued, .ok =>
      some ({ w with store := w.store.push d key value }.setHandler d
        { prog := (w.handlers d).prog, queued })
    | _ :: queued, .error _ => some (w.setHandler d { prog := (w.handlers d).prog, queued })
    | _, _ => none
  | .stop d =>
    match (w.handlers d).prog with
    | .await _ _ =>
      some (w.setHandler d { prog := .throw .stopped, queued := (w.handlers d).queued })
    | _ => none
  | .take id => do
    let entry ← w.store.jobs id
    match entry.status with
    | .waiting =>
      some (w.setJob id (some { entry with
        status := .active (QueueProcessor.process P entry.data) }))
    | _ => none
  | .worker id r => do
    let entry ← w.store.jobs id
    match entry.status with
    | .active prog =>
      (w.advance env (.worker id entry.serial) [] prog r).map fun (prog, _, w') =>
        w'.setJob id (some { entry with status := .active prog })
    | _ => none
  | .settle id => do
    let entry ← w.store.jobs id
    match entry.status with
    | .active (.ret _) =>
      some { w with
        store := w.store.setJob id entry.removed
        completions := Function.update w.completions (id, entry.serial)
          (QueueProcessor.onCompleted cfg entry.data) }
    | .active (.throw _) => some (w.setJob id (some entry.retried))
    | _ => none
  | .completion id serial r =>
    (w.advance env (.completion id serial) [] (w.completions (id, serial)) r).map
      fun (prog, _, w') =>
        { w' with completions := Function.update w'.completions (id, serial) prog }

/-! ## Runs -/

/-- The state after the actions `l`, if they are possible in turn. -/
abbrev World.run {δ : Type} [DecidableEq δ] (P : Platform) (cfg : Config) (env : Env) :
    World δ → List (Action δ) → Option (World δ) :=
  Async.exec (World.step P cfg env)

/-- The answer to an operation that succeeds. -/
def Reply.Succeeds : Reply → Prop
  | .error _ => False
  | _ => True

instance : DecidablePred Reply.Succeeds
  | .ok => .isTrue trivial
  | .error _ => .isFalse not_false
  | .receipt _ => .isTrue trivial
  | .transaction _ _ => .isTrue trivial

/-- Every command of the action succeeds and no node stops. -/
def Action.Succeeds {δ : Type} : Action δ → Prop
  | .handler _ r => r.Succeeds
  | .flush _ r => r.Succeeds
  | .stop _ => False
  | .take _ => True
  | .worker _ r => r.Succeeds
  | .settle _ => True
  | .completion _ _ r => r.Succeeds

instance {δ : Type} : DecidablePred (Action.Succeeds : Action δ → Prop)
  | .handler _ r => inferInstanceAs (Decidable r.Succeeds)
  | .flush _ r => inferInstanceAs (Decidable r.Succeeds)
  | .stop _ => .isFalse not_false
  | .take _ => .isTrue trivial
  | .worker _ r => inferInstanceAs (Decidable r.Succeeds)
  | .settle _ => .isTrue trivial
  | .completion _ _ r => inferInstanceAs (Decidable r.Succeeds)

/-- A node stops, or every command of the action succeeds. -/
def Action.SucceedsOrStops {δ : Type} : Action δ → Prop
  | .stop _ => True
  | a => a.Succeeds

instance {δ : Type} : DecidablePred (Action.SucceedsOrStops : Action δ → Prop)
  | .stop _ => .isTrue trivial
  | .handler _ r => inferInstanceAs (Decidable r.Succeeds)
  | .flush _ r => inferInstanceAs (Decidable r.Succeeds)
  | .take _ => .isTrue trivial
  | .worker _ r => inferInstanceAs (Decidable r.Succeeds)
  | .settle _ => .isTrue trivial
  | .completion _ _ r => inferInstanceAs (Decidable r.Succeeds)

/-- The call of a destination client. -/
def Op.call? : Op → Option Call
  | .callEvm c => some (.evm c)
  | .callSolana c => some (.solana c)
  | _ => none

/-- The operation is the call of a destination client, and its transaction succeeded: the status of
the EVM receipt is not zero, or the Solana status is true. -/
def Op.Delivered : (o : Op) → Except JsError o.Resp → Prop
  | .callEvm _, .ok status => status ≠ some 0
  | .callSolana _, .ok (status, _) => status = true
  | _, _ => False

instance (o : Op) (r : Except JsError o.Resp) : Decidable (o.Delivered r) := by
  cases o with
  | callEvm c =>
    cases r with
    | error e => exact .isFalse not_false
    | ok status => exact inferInstanceAs (Decidable (status ≠ some 0))
  | callSolana c =>
    cases r with
    | error e => exact .isFalse not_false
    | ok answer => exact inferInstanceAs (Decidable (answer.1 = true))
  | _ => exact .isFalse not_false

/-- The signatures that a submission carries. -/
def Call.signatureCount : Call → ℕ
  | .evm c => c.signatures.length
  | .solana c => c.signatures.length

/-- The call that the entry records, when a worker of the job `id` made it. -/
def Entry.submission? {δ : Type} (id : String) (entry : Entry δ) : Option Call :=
  match entry.agent with
  | .worker id' _ => if id' = id then entry.op.call? else none
  | _ => none

/-- The delivery whose handler ran `queue.add` for the job `id`. -/
def Entry.enqueuer? {δ : Type} (id : String) (entry : Entry δ) : Option δ :=
  match entry.agent, entry.op with
  | .handler d, .add _ id' _ => if id' = id then some d else none
  | _, _ => none

namespace World

variable {δ : Type}

/-- The calls of a destination client that workers made for the job `id`. -/
def submissions (w : World δ) (id : String) : List Call := w.trace.filterMap (Entry.submission? id)

/-- The deliveries whose handlers ran `queue.add` for the job `id`. -/
def enqueuers (w : World δ) (id : String) : List δ := w.trace.filterMap (Entry.enqueuer? id)

end World

end Tsunagari
