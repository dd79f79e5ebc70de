import Tsunagari.Bridge.Plan
import Tsunagari.Bridge.World

/-!
# One job, processed by itself

What `process` does to the store when no one else moves, given what fails on the way.
-/

namespace Tsunagari

/-- What the environment does while a job is processed: whether the Redis commands fail, and how the
calls of the destination clients end. -/
structure Faults where
  lrange : Option JsError
  del : Option JsError
  callEvm : EvmCall → Except JsError (Option ℕ)
  callSolana : SolanaCall → Except JsError (Bool × String)

namespace Faults

def reply (f : Faults) : Op → Reply
  | .lrange _ =>
    match f.lrange with
    | none => .ok
    | some e => .error e
  | .del _ =>
    match f.del with
    | none => .ok
    | some e => .error e
  | .callEvm c =>
    match f.callEvm c with
    | .ok status => .receipt status
    | .error e => .error e
  | .callSolana c =>
    match f.callSolana c with
    | .ok (status, txSignature) => .transaction status txSignature
    | .error e => .error e
  | _ => .ok

/-- The transaction of the call succeeds. -/
def Delivers (f : Faults) : Call → Prop
  | .evm c => ∃ status, f.callEvm c = .ok status ∧ status ≠ some 0
  | .solana c => ∃ txSignature, f.callSolana c = .ok (true, txSignature)

end Faults

/-- The store, and the operations that were answered. -/
structure Session (δ : Type) where
  store : Store δ
  log : List (Σ o : Op, Except JsError o.Resp)

/-- Answer an operation of the processor. -/
def Session.answer {δ : Type} (env : Env) (f : Faults) (s : Session δ) (o : Op) :
    Except JsError o.Resp × Session δ :=
  match s.store.answer env [] o (f.reply o) with
  | some (result, store, _) => (result, { store, log := s.log ++ [⟨o, result⟩] })
  | none => (.error .stopped, s)

/-- Process a job by itself: how `process` settles, and the store and the log then. -/
def processAlone {δ : Type} (P : Platform) (env : Env) (f : Faults) (store : Store δ)
    (data : BridgeJob) : Except JsError Unit × Session δ :=
  (QueueProcessor.process P data).run (Session.answer env f) { store, log := [] }

end Tsunagari
