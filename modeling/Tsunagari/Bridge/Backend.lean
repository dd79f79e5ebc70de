import Tsunagari.Bridge.Listeners
import Tsunagari.Bridge.World

/-!
# The nodes listen to the chains

The connections of every node to the EVM chains, its subscriptions on Solana, and the handlers that
they start on the shared store. A provider that reports a log of a bridge contract calls every
listener that is registered on it for the event, and a notification of Solana calls the callback of
every subscription; each call runs the handler of the event once more.

A provider that was replaced still reports logs: it is never closed. The notifications are those
of transactions with one bridge event.
-/

namespace Tsunagari

/-! ## Deliveries -/

/-- The chain and the signature for which the listeners of an EVM event are registered. -/
def BridgeEvent.topic? : BridgeEvent → Option (ℕ × EventSignatures)
  | tokensLocked chainId _ => some (chainId, .LOCK_EVENT_SIGNATURE)
  | wrappedTokensBurned chainId _ => some (chainId, .BURN_EVENT_SIGNATURE)
  | solanaTokensLocked _ _ => none
  | solanaTokensBurned _ _ => none

/-- Who calls a handler. -/
inductive Caller where
  | listener (l : Listener)
  /-- The callback of a subscription on Solana. -/
  | subscription (n : ℕ)
  deriving DecidableEq

/-- A call of the handler of an event on a node. -/
structure Delivery (ν κ : Type) where
  node : ν
  caller : Caller
  event : κ
  /-- How often the caller had been notified of the event before. -/
  earlier : ℕ
  deriving DecidableEq

/-- The delivery whose handler moves. -/
def Action.delivery? {δ : Type} : Action δ → Option δ
  | .handler d _ => some d
  | .flush d _ => some d
  | .stop d => some d
  | _ => none

/-- The action may lead to another listener for an event of a chain: the chains are set up, or a new
provider is. -/
def Connections.Action.connects : Connections.Action → Bool
  | .setupAll => true
  | .error _ (.ready _) => true
  | .timer _ (.ready _) => true
  | _ => false

/-! ## States -/

/-- The nodes `ν`, which see the events `κ`, and what they share. -/
structure Backend (ν κ : Type) where
  connections : ν → Connections
  /-- The calls of `SolanaClientService.setupEventListeners` that have returned. -/
  subscriptions : ν → ℕ
  /-- Which provider of which node has reported which event; `none` is the Solana connection. -/
  reports : List (ν × Option ℕ × κ)
  /-- The handlers that were called so far. -/
  deliveries : List (Delivery ν κ)
  world : World (Delivery ν κ)

namespace Backend

variable {ν κ : Type}

/-- The handler that a delivery runs. -/
def handler (P : Platform) (cfg : Config) (keys : ν → Node) (events : κ → BridgeEvent)
    (d : Delivery ν κ) : Task Unit :=
  (events d.event).handle P cfg (keys d.node)

/-- The services are constructed. -/
def init (P : Platform) (cfg : Config) (keys : ν → Node) (events : κ → BridgeEvent) :
    Backend ν κ where
  connections _ := Connections.init cfg
  subscriptions _ := 0
  reports := []
  deliveries := []
  world := World.init (handler P cfg keys events)

/-- The listeners or subscriptions of the node for the event. -/
def registered (events : κ → BridgeEvent) (b : Backend ν κ) (v : ν) (k : κ) : ℕ :=
  match (events k).topic? with
  | some (chainId, event) => (b.connections v).count chainId event
  | none => b.subscriptions v

/-! ## Actions -/

/-- What happens next. -/
inductive Action (ν κ : Type) where
  /-- The connections of the node change. -/
  | connect (v : ν) (a : Connections.Action)
  /-- `SolanaClientService.setupEventListeners` returns. -/
  | subscribe (v : ν)
  /-- A provider of the node reports the event, or the Solana connection does. -/
  | report (v : ν) (provider : Option ℕ) (k : κ)
  /-- A handler, a worker or the queue moves. -/
  | run (a : Tsunagari.Action (Delivery ν κ))

/-- What the connections of a node do. -/
def Action.connect? [DecidableEq ν] (v : ν) : Action ν κ → Option Connections.Action
  | .connect v' a => if v' = v then some a else none
  | _ => none

/-- What the handlers, the workers and the queue do. -/
def Action.run? : Action ν κ → Option (Tsunagari.Action (Delivery ν κ))
  | .run a => some a
  | _ => none

/-- The node may get another listener or subscription for an event. -/
def Action.registers [DecidableEq ν] (v : ν) : Action ν κ → Bool
  | .connect v' a => v' = v && a.connects
  | .subscribe v' => v' = v
  | _ => false

/-! ## Steps -/

/-- The callers that a report of the event reaches. -/
def callers (events : κ → BridgeEvent) (b : Backend ν κ) (v : ν) (provider : Option ℕ) (k : κ) :
    List Caller :=
  match provider, (events k).topic? with
  | some provider, some (chainId, event) =>
    ((b.connections v).listeners.filter fun l =>
      l.provider = provider ∧ l.chainId = chainId ∧ l.event = event).map .listener
  | none, none => (List.range (b.subscriptions v)).map .subscription
  | _, _ => []

variable [DecidableEq ν] [DecidableEq κ]

/-- The handlers that it calls. -/
def called (events : κ → BridgeEvent) (b : Backend ν κ) (v : ν) (provider : Option ℕ) (k : κ) :
    List (Delivery ν κ) :=
  (b.callers events v provider k).map fun caller =>
    { node := v, caller, event := k, earlier := b.reports.count (v, provider, k) }

/-- One step; `none` when the action is not possible. Only a handler that was called moves. -/
def step (P : Platform) (cfg : Config) (env : Env) (events : κ → BridgeEvent) (b : Backend ν κ) :
    Action ν κ → Option (Backend ν κ)
  | .connect v a =>
    ((b.connections v).step cfg a).map fun s =>
      { b with connections := Function.update b.connections v s }
  | .subscribe v =>
    some { b with subscriptions := Function.update b.subscriptions v (b.subscriptions v + 1) }
  | .report v provider k =>
    some { b with
      reports := b.reports ++ [(v, provider, k)]
      deliveries := b.deliveries ++ b.called events v provider k }
  | .run a =>
    if ∀ d ∈ a.delivery?, d ∈ b.deliveries then
      (b.world.step P cfg env a).map fun world => { b with world }
    else none

/-- The state after the actions `l`, if they are possible in turn. -/
abbrev run (P : Platform) (cfg : Config) (env : Env) (events : κ → BridgeEvent) :
    Backend ν κ → List (Action ν κ) → Option (Backend ν κ) :=
  Async.exec (step P cfg env events)

end Backend

end Tsunagari
