import Tsunagari.Bridge.Plan
import Tsunagari.Bridge.World
import Tsunagari.Collector.Protocol

/-!
# The deliveries of one event as a threshold collection

For one bridge event, the handlers, its signature list, its job and the worker of that job are a
threshold collection: a delivery is a participant, its signature is its contribution, and the job is
the ticket. This module says which states of the two correspond.
-/

namespace Tsunagari

open Async (Prog)
open Collector (Phase Ticket)

/-- The decimals that the handlers read. -/
def Plan.decimals (env : Env) (p : Plan) : ℕ :=
  match p.mint with
  | none => 0
  | some mint => env.decimals mint

/-- The job that the handlers add. -/
def Plan.theJob (env : Env) (p : Plan) : BridgeJob := p.job (p.decimals env)

/-- The job of the event's handlers, or the error of their lookups. -/
def BridgeEvent.job (P : Platform) (cfg : Config) (env : Env) (e : BridgeEvent) :
    Except JsError BridgeJob :=
  (e.plan P cfg).map fun p => p.theJob env

/-- The bridge whose threshold the event's handlers read. -/
def BridgeEvent.site (P : Platform) (cfg : Config) (e : BridgeEvent) : Except JsError BridgeSite :=
  (e.plan P cfg).bind Plan.site

/-- The handler has pushed and is about to count. -/
inductive Plan.BeforeCount (p : Plan) (t : ℕ) : Task Unit → Prop where
  | readThreshold (site : BridgeSite) (h : p.site = .ok site) : p.BeforeCount t p.readThreshold
  | readCount : p.BeforeCount t (p.readCount t)

/-- The handler has counted and is about to look for the job. -/
inductive Plan.AfterCount (env : Env) (p : Plan) (reached : Bool) : Task Unit → Prop where
  | readMint (mint : PublicKey) (h : p.mint = some mint) :
      p.AfterCount env reached (p.readMint reached)
  | enqueue : p.AfterCount env reached (p.enqueue reached (p.decimals env))

/-- The state of a handler that corresponds to a phase of a participant. -/
inductive HandlerAt (env : Env) (t : ℕ) (p : Plan) (signature : String) :
    HandlerState → Phase → Prop where
  | idle : HandlerAt env t p signature ⟨p.start signature, []⟩ .idle
  | issued {prog : Task Unit} (h : p.BeforeCount t prog) :
      HandlerAt env t p signature ⟨prog, [(p.message, signature)]⟩ .issued
  | stored {prog : Task Unit} (h : p.BeforeCount t prog) :
      HandlerAt env t p signature ⟨prog, []⟩ .stored
  | counted {prog : Task Unit} (reached : Bool) (h : p.AfterCount env reached prog) :
      HandlerAt env t p signature ⟨prog, []⟩ (.counted reached)
  | checked : HandlerAt env t p signature ⟨p.addJob (p.decimals env), []⟩ .checked
  | finished : HandlerAt env t p signature ⟨.ret (), []⟩ .finished
  | stopped (e : JsError) : HandlerAt env t p signature ⟨.throw e, []⟩ (.stopped false)
  | stoppedQueued (e : JsError) :
      HandlerAt env t p signature ⟨.throw e, [(p.message, signature)]⟩ (.stopped true)

/-- The state of a job that corresponds to a state of the ticket; `sig d` is the signature of the
delivery `d`. -/
inductive StatusAt {δ : Type} (P : Platform) (data : BridgeJob) (sig : δ → String) :
    JobStatus → Ticket δ → Prop where
  | waiting : StatusAt P data sig .waiting .waiting
  | reading : StatusAt P data sig (.active (QueueProcessor.start P data)) .reading
  | held (l : List δ) :
      StatusAt P data sig (.active (.await (.del data.message) fun _ =>
        QueueProcessor.deliver P data (l.map sig))) (.held l)
  | cleared (l : List δ) (c : Call)
      (h : QueueProcessor.destinationCall P data (l.map sig) = .ok c) :
      StatusAt P data sig (.active (QueueProcessor.deliver P data (l.map sig))) (.cleared l)
  | served : StatusAt P data sig (.active (.ret ())) .served

/-- The queue's view of a ticket. -/
inductive JobAt {δ : Type} (P : Platform) (data : BridgeJob) (sig : δ → String) :
    Option JobEntry → Ticket δ → Prop where
  | absent : JobAt P data sig none .absent
  | present {entry : JobEntry} {ticket : Ticket δ} (hdata : entry.data = data)
      (h : StatusAt P data sig entry.status ticket) : JobAt P data sig (some entry) ticket

/-- The submission that a worker makes of the contributions `l`, if the job can be decoded. -/
def submissionOf {δ : Type} (P : Platform) (data : BridgeJob) (sig : δ → String) (l : List δ) :
    Option Call :=
  (QueueProcessor.destinationCall P data (l.map sig)).toOption

/-- The signature of a delivery, if its node can make it. -/
def signatureOf {δ : Type} (P : Platform) (cfg : Config) (event : δ → BridgeEvent)
    (node : δ → Node) (d : δ) : String :=
  ((event d).sign P cfg (node d)).toOption.getD ""

/-- The deliveries that are going to push a signature. -/
def signs {δ : Type} (P : Platform) (cfg : Config) (event : δ → BridgeEvent) (node : δ → Node)
    (mine : δ → Bool) (d : δ) : Bool :=
  mine d && ((event d).sign P cfg (node d)).isOk

/-- The deliveries in `mine` are the deliveries of the event `e`, which has the plan `p` and the
threshold `t`, and no other delivery uses the message or the job id of `e`. -/
structure Deliveries {δ : Type} (P : Platform) (cfg : Config) (env : Env) (event : δ → BridgeEvent)
    (mine : δ → Bool) (e : BridgeEvent) (p : Plan) (t : ℕ) : Prop where
  plan : e.plan P cfg = .ok p
  threshold : ∀ site, p.site = .ok site → env.threshold site = t
  of_mine : ∀ d, mine d = true → event d = e
  message_ne : ∀ d, mine d = false → (event d).message P cfg ≠ e.message P cfg
  jobId_ne : ∀ d, mine d = false → (event d).jobId P cfg ≠ e.jobId P cfg

/-- What is seen of an event: its signature list, whether it has a job, and its submissions. -/
structure Observation (δ : Type) where
  list : List (δ × String)
  outstanding : Bool
  submissions : List Call

/-- What the backend shows of the event with the message and the job id. -/
def World.observe {δ : Type} (message jobId : String) (w : World δ) : Observation δ where
  list := w.store.lists message
  outstanding := (w.store.jobs jobId).isSome
  submissions := w.submissions jobId

/-- What the threshold collection shows, when its participants contribute signatures. -/
def observe {δ : Type} (P : Platform) (data : BridgeJob) (sig : δ → String)
    (s : Collector.State δ) : Observation δ where
  list := s.list.map fun d => (d, sig d)
  outstanding :=
    match s.ticket with
    | .absent => false
    | _ => true
  submissions := s.submitted.filterMap (submissionOf P data sig)

end Tsunagari
