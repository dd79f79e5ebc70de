import Tsunagari.Bridge.Queue

/-!
# What becomes of the signatures

A signature that Redis has pushed is in the list under its message until a worker deletes the list,
which it does after it has read it. This module says where a signature can be, and when a deletion
takes no other signatures than those that were read.
-/

namespace Tsunagari

variable {δ : Type}

/-! ## Submissions -/

/-- The message whose signatures are submitted. -/
def Call.signedMessage : Call → String
  | .evm c => c.signedMessage
  | .solana c => c.signedMessage

/-- The signature is passed in the signature argument. -/
def Call.Carries (signature : String) : Call → Prop
  | .evm c => signature ∈ c.signatures
  | .solana c => QueueProcessor.signatureBytes signature ∈ c.signatures

instance (signature : String) : DecidablePred (Call.Carries signature)
  | .evm c => inferInstanceAs (Decidable (signature ∈ c.signatures))
  | .solana c =>
    inferInstanceAs (Decidable (QueueProcessor.signatureBytes signature ∈ c.signatures))

/-- A worker called a destination client with the signature. -/
def Entry.Submits (message signature : String) (entry : Entry δ) : Prop :=
  match entry.agent with
  | .worker _ _ => ∃ c ∈ entry.op.call?, c.signedMessage = message ∧ c.Carries signature
  | _ => False

instance (message signature : String) (entry : Entry δ) :
    Decidable (entry.Submits message signature) :=
  match entry with
  | ⟨.worker _ _, op, _⟩ =>
    inferInstanceAs (Decidable (∃ c ∈ op.call?, c.signedMessage = message ∧ c.Carries signature))
  | ⟨.handler _, _, _⟩ => .isFalse not_false
  | ⟨.completion _ _, _, _⟩ => .isFalse not_false

/-! ## Workers -/

/-- The signatures that the entry answers to the worker of the job. -/
def Entry.read? (id : String) (serial : ℕ) : Entry δ → Option (List String)
  | ⟨.worker id' serial', .lrange _, .ok signatures⟩ =>
    if id' = id ∧ serial' = serial then some signatures else none
  | _ => none

namespace World

/-- The signatures that the worker of the job has read. -/
def lastRead (w : World δ) (id : String) (serial : ℕ) : List String :=
  ((w.trace.filterMap (Entry.read? id serial)).getLast?).getD []

/-- A worker of a job with the message has read the signature, and has not submitted what it read:
it awaits the deletion of the list or its call. -/
def Held (w : World δ) (message signature : String) : Prop :=
  ∃ id entry o, w.store.jobs id = some entry ∧ entry.data.message = message ∧
    entry.awaits? = some o ∧ (o = .del message ∨ o.call?.isSome) ∧
      signature ∈ w.lastRead id entry.serial

/-- The signature is in the list under the message, or a worker holds it, or it was submitted. -/
def Accounted (w : World δ) (message signature : String) : Prop :=
  signature ∈ (w.store.lists message).map Prod.snd ∨ w.Held message signature ∨
    ∃ entry ∈ w.trace, entry.Submits message signature

/-- The signature was in the list at first, or Redis pushed it in the run. -/
def Pushed [DecidableEq δ] (P : Platform) (cfg : Config) (env : Env) (w : World δ)
    (l : List (Action δ)) (message signature : String) : Prop :=
  signature ∈ (w.store.lists message).map Prod.snd ∨
    ∃ l₁ d l₂ w₁ queued, l = l₁ ++ .flush d .ok :: l₂ ∧ World.run P cfg env w l₁ = some w₁ ∧
      (w₁.handlers d).queued = (message, signature) :: queued

end World

/-! ## Deletions that lose nothing -/

/-- A deletion finds only what the worker has read, in a list whose job can be decoded. -/
def Op.DeletesRead (P : Platform) (store : Store δ) (data : BridgeJob) (read : List String) :
    Op → Prop
  | .del key => ∀ x ∈ store.lists key, x.2 ∈ read ∧ QueueProcessor.Decodes P data
  | _ => True

instance (P : Platform) (store : Store δ) (data : BridgeJob) (read : List String) (o : Op) :
    Decidable (o.DeletesRead P store data read) :=
  match o with
  | .del key =>
    inferInstanceAs (Decidable (∀ x ∈ store.lists key, x.2 ∈ read ∧ QueueProcessor.Decodes P data))
  | .rpush .. | .llen _ | .lrange _ | .getThreshold _ | .getMint _ | .getJob _ | .add .. |
    .callEvm _ | .callSolana _ | .storeTransaction .. => .isTrue trivial

/-- When a worker's deletion is carried out, it has read all that the list holds. -/
def World.DeletesRead (P : Platform) (w : World δ) : Action δ → Prop
  | .worker id .ok =>
    ∀ entry ∈ w.store.jobs id, ∀ o ∈ entry.awaits?,
      o.DeletesRead P w.store entry.data (w.lastRead id entry.serial)
  | _ => True

instance (P : Platform) (w : World δ) (a : Action δ) : Decidable (w.DeletesRead P a) :=
  match a with
  | .worker id .ok =>
    inferInstanceAs (Decidable (∀ entry ∈ w.store.jobs id, ∀ o ∈ entry.awaits?,
      o.DeletesRead P w.store entry.data (w.lastRead id entry.serial)))
  | .worker _ (.error _) | .worker _ (.receipt _) | .worker _ (.transaction _ _) |
    .handler .. | .flush .. | .stop _ | .take _ | .settle _ | .completion .. => .isTrue trivial

end Tsunagari
