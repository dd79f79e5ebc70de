import Tsunagari.Bridge.Plan
import Tsunagari.Bridge.World

/-!
# The queue by itself

A run of the queue starts with any signature lists and any waiting jobs, and anyone may add jobs.
This module says which transfers are recorded in such a run, and which steps meet no failure.
-/

namespace Tsunagari

variable {δ : Type}

/-- The given lists and the given waiting jobs; nothing has been processed yet. -/
def World.queue (lists : String → List (δ × String))
    (jobs : String → Option (BridgeJob × JobOptions)) (handler : δ → Task Unit) : World δ where
  store :=
    { lists
      jobs := fun id => (jobs id).map fun (data, opts) => ⟨data, opts, 0, 0, .waiting⟩
      added := fun id => if (jobs id).isSome then 1 else 0 }
  handlers d := { prog := handler d, queued := [] }
  completions _ := .ret ()
  trace := []

/-! ## Recorded transfers -/

/-- The serial number of the job, when the entry is the call of `StoreTransaction` for a job with
the given id. -/
def Entry.stores? (id : String) (entry : Entry δ) : Option ℕ :=
  match entry.agent, entry.op with
  | .completion id' serial, .storeTransaction _ _ => if id' = id then some serial else none
  | _, _ => none

/-- The calls of `StoreTransaction` for jobs with the given id. -/
def World.stored (w : World δ) (id : String) : List ℕ := w.trace.filterMap (Entry.stores? id)

/-- The entry is the call of a destination client for the job, whose transaction succeeded. -/
def Entry.Delivers (id : String) (serial : ℕ) (entry : Entry δ) : Prop :=
  entry.agent = .worker id serial ∧ entry.op.Delivered entry.result

/-! ## Steps without a failure -/

/-- The transaction of a call succeeds. -/
def Reply.Delivers : Reply → Prop
  | .receipt status => status ≠ some 0
  | .transaction status _ => status = true
  | _ => False

instance (r : Reply) : Decidable r.Delivers :=
  match r with
  | .ok => .isFalse not_false
  | .error _ => .isFalse not_false
  | .receipt status => inferInstanceAs (Decidable (status ≠ some 0))
  | .transaction status _ => inferInstanceAs (Decidable (status = true))

/-- The operation that the worker of a job awaits is answered without a failure: the list is read
and not empty, the fields of the job decode, and the transaction succeeds. -/
def Op.Served (P : Platform) (store : Store δ) (data : BridgeJob) (r : Reply) : Op → Prop
  | .lrange key => r.Succeeds ∧ store.lists key ≠ [] ∧ QueueProcessor.Decodes P data
  | .callEvm _ => r.Delivers
  | .callSolana _ => r.Delivers
  | _ => True

instance (P : Platform) (store : Store δ) (data : BridgeJob) (r : Reply) (o : Op) :
    Decidable (o.Served P store data r) :=
  match o with
  | .lrange key =>
    inferInstanceAs (Decidable (r.Succeeds ∧ store.lists key ≠ [] ∧
      QueueProcessor.Decodes P data))
  | .callEvm _ => inferInstanceAs (Decidable r.Delivers)
  | .callSolana _ => inferInstanceAs (Decidable r.Delivers)
  | .rpush .. | .llen _ | .del _ | .getThreshold _ | .getMint _ | .getJob _ | .add .. |
    .storeTransaction .. => .isTrue trivial

/-- The operation that a handler awaits does not add a job whose id has been used before. -/
def Op.AddsNew (store : Store δ) (r : Reply) : Op → Prop
  | .add _ id _ => r.Succeeds → store.jobs id = none → store.added id = 0
  | _ => True

instance (store : Store δ) (r : Reply) (o : Op) : Decidable (o.AddsNew store r) :=
  match o with
  | .add _ id _ =>
    inferInstanceAs (Decidable (r.Succeeds → store.jobs id = none → store.added id = 0))
  | .rpush .. | .llen _ | .lrange _ | .del _ | .getThreshold _ | .getMint _ | .getJob _ |
    .callEvm _ | .callSolana _ | .storeTransaction .. => .isTrue trivial

/-- What the worker of a job awaits. -/
def JobEntry.awaits? (entry : JobEntry) : Option Op :=
  match entry.status with
  | .active prog => prog.awaits?
  | _ => none

/-- The step meets no failure, and adds no job under the id of an earlier one that is gone. -/
def World.Serves (P : Platform) (w : World δ) : Action δ → Prop
  | .worker id r =>
    ∀ entry ∈ w.store.jobs id, ∀ o ∈ entry.awaits?, o.Served P w.store entry.data r
  | .handler d r => ∀ o ∈ (w.handlers d).prog.awaits?, o.AddsNew w.store r
  | _ => True

instance (P : Platform) (w : World δ) (a : Action δ) : Decidable (w.Serves P a) :=
  match a with
  | .worker id r =>
    inferInstanceAs (Decidable (∀ entry ∈ w.store.jobs id, ∀ o ∈ entry.awaits?,
      o.Served P w.store entry.data r))
  | .handler d r =>
    inferInstanceAs (Decidable (∀ o ∈ (w.handlers d).prog.awaits?, o.AddsNew w.store r))
  | .flush .. | .stop _ | .take _ | .settle _ | .completion .. => .isTrue trivial

end Tsunagari
