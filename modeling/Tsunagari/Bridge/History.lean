import Tsunagari.Bridge.Queue

/-!
# The history of a run

A run of the backend answers the operations of many functions. What one agent was answered is taken
out of the run and compared with a function of the source: the handler for a delivery, `process` for
a job, and `onCompleted` once that has ended.
-/

namespace Tsunagari

open Async (Prog)

variable {δ : Type}

/-- The job was in the queue from the start, or a handler has added it. -/
def World.Supplied (w : World δ) (jobs : String → Option (BridgeJob × JobOptions)) (id : String)
    (data : BridgeJob) : Prop :=
  ∃ opts, jobs id = some (data, opts) ∨
    ∃ d, (⟨.handler d, .add data id opts, .ok ()⟩ : Entry δ) ∈ w.trace

/-- The number of the job, when the entry is the call of a destination client for a job with the
given id. -/
def Entry.submits? (id : String) (entry : Entry δ) : Option ℕ :=
  match entry.agent with
  | .worker id' serial => if id' = id ∧ entry.op.call?.isSome then some serial else none
  | _ => none

/-- The jobs with the given id for which a destination client was called, by their numbers. -/
def World.submitters (w : World δ) (id : String) : List ℕ := w.trace.filterMap (Entry.submits? id)

/-- The operation adds a job. -/
def Op.isAdd : Op → Bool
  | .add .. => true
  | _ => false

/-- The operation stores a transaction. -/
def Op.isStore : Op → Bool
  | .storeTransaction .. => true
  | _ => false

/-- The transaction that `onCompleted` stores for a job. -/
def BridgeJob.transaction (data : BridgeJob) : CreateTransactionDto where
  user := data.recipient
  originTokenAddress := data.originTokenAddress
  destinationTokenAddress := data.destinationTokenAddress
  amount := data.amount
  originChainId := data.originChainId
  destinationChainId := data.destinationChainId

/-! ## By agents -/

variable [DecidableEq δ]

/-- What an agent was answered, the oldest first. -/
def World.answers (w : World δ) (agent : Agent δ) : Answers :=
  (w.trace.filter fun x => x.agent = agent).map fun x => ⟨x.op, x.result⟩

/-- The handler of a delivery is on its way, unless its node has stopped. -/
inductive World.Follows (w : World δ) (d : δ) (handler : Task Unit) : Prop where
  | running (h : Prog.Path handler (w.answers (.handler d)) (w.handlers d).prog)
  | stopped {o : Op} {k : Except JsError o.Resp → Task Unit}
      (h : Prog.Path handler (w.answers (.handler d)) (.await o k))
      (hprog : (w.handlers d).prog = .throw .stopped)

/-- The life of a job, which was the one with the number `serial` under its id. -/
inductive World.Life (P : Platform) (cfg : Config) (w : World δ) (id : String) (serial : ℕ)
    (data : BridgeJob) : Prop where
  | waiting {entry : JobEntry} (hjob : w.store.jobs id = some entry)
      (hserial : entry.serial = serial) (hdata : entry.data = data)
      (hstatus : entry.status = .waiting)
      (hworker : w.answers (.worker id serial) = [])
      (hcompletion : w.answers (.completion id serial) = [])
      (hleft : w.completions (id, serial) = .ret ())
  | active {entry : JobEntry} {prog : Task Unit} (hjob : w.store.jobs id = some entry)
      (hserial : entry.serial = serial) (hdata : entry.data = data)
      (hstatus : entry.status = .active prog)
      (hworker : Prog.Path (QueueProcessor.process P data) (w.answers (.worker id serial)) prog)
      (hcompletion : w.answers (.completion id serial) = [])
      (hleft : w.completions (id, serial) = .ret ())
  /-- A job that has ended is in the queue only where completed jobs are kept. -/
  | ended (hjob : ∀ entry, w.store.jobs id = some entry → entry.serial = serial →
        entry.status = .completed)
      (hworker : Prog.Path (QueueProcessor.process P data) (w.answers (.worker id serial))
        (.ret ()))
      (hcompletion : Prog.Path (QueueProcessor.onCompleted cfg data)
        (w.answers (.completion id serial)) (w.completions (id, serial)))

end Tsunagari
