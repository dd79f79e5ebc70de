import Mathlib.Logic.Function.Basic
import Tsunagari.Async.Transition
import Tsunagari.Bridge.Services

/-!
# The event listeners of the EVM chains

The providers, `Contract` objects and listeners of `EthereumClientService`, from the constructor on:
setting up, reconnecting and removing. Between two awaits a function runs to completion, so that an
action is such a piece of a function; the environment decides where it throws.

A listener stays registered until it is removed, and `removeAllListeners` of a `Contract` object
removes the listeners that were registered through it.
-/

namespace Tsunagari

/-! ## State -/

/-- `EventSignatures` -/
inductive EventSignatures where
  | LOCK_EVENT_SIGNATURE
  | BURN_EVENT_SIGNATURE
  deriving DecidableEq

/-- A registered listener: through which `Contract` object, on which provider, for which chain. -/
structure Listener where
  contract : ℕ
  provider : ℕ
  chainId : ℕ
  event : EventSignatures
  deriving DecidableEq

/-- The connections of a node to the EVM chains. WebSocket providers and `Contract` objects are
numbered in the order in which they are created. -/
structure Connections where
  /-- The number of WebSocket providers. -/
  providers : ℕ
  /-- The number of `Contract` objects. -/
  contracts : ℕ
  /-- `networksProviders.get(chainId).wsProvider` -/
  wsProvider : ℕ → Option ℕ
  /-- The handlers of the event `error`, each with its provider and the chain that it reconnects. -/
  errorHandlers : List (ℕ × ℕ)
  listeners : List Listener
  /-- The calls of `reconnectWebSocket` that await `setupEventListeners`, and whether that
  returned. -/
  attempts : List (ℕ × Bool)
  /-- The calls of `reconnectWebSocket` that are scheduled. -/
  timers : List ℕ
  /-- The chains that are left in calls of `setupAllEventListeners`. -/
  setups : List (List ℕ)
  /-- The chains that are left in calls of `removeAllEventListeners`. -/
  removals : List (List ℕ)
  /-- The providers that had an error while they were installed for the chain. -/
  observed : List (ℕ × ℕ)
  /-- A call of `removeAllEventListeners` has returned. -/
  removed : Bool

/-- How far `setupEventListeners` gets before it throws, if it does. -/
inductive SetupProgress where
  | nothing
  | errorHandler
  | contract
  | lockListener
  | all
  deriving DecidableEq

/-- The events for which `setupEventListeners` gets to register a listener. -/
def SetupProgress.registers : SetupProgress → List EventSignatures
  | .nothing => []
  | .errorHandler => []
  | .contract => []
  | .lockListener => [.LOCK_EVENT_SIGNATURE]
  | .all => [.LOCK_EVENT_SIGNATURE, .BURN_EVENT_SIGNATURE]

/-- What happens in a call of `reconnectWebSocket`. -/
inductive Attempt where
  /-- `new WebSocketProvider` throws. -/
  | constructorThrows
  /-- The new provider is not ready. -/
  | notReady
  | ready (progress : SetupProgress)
  deriving DecidableEq

/-- The events for which an attempt gets to register a listener. -/
def Attempt.registers : Attempt → List EventSignatures
  | .constructorThrows => []
  | .notReady => []
  | .ready progress => progress.registers

namespace Connections

/-! ## The functions of the service -/

/-- `new WebSocketProvider(..)`, which is put into `networksProviders`. -/
def install (s : Connections) (chainId : ℕ) : Connections :=
  { s with
    providers := s.providers + 1
    wsProvider := Function.update s.wsProvider chainId (some s.providers) }

/-- The constructor creates one provider for every chain. -/
def init (cfg : Config) : Connections :=
  cfg.networks.foldl
    (fun s network =>
      if (s.wsProvider network.chainId).isSome then s else s.install network.chainId)
    { providers := 0, contracts := 0, wsProvider := fun _ => none, errorHandlers := [],
      listeners := [], attempts := [], timers := [], setups := [], removals := [], observed := [],
      removed := false }

/-- `provider.on('error', ..)` -/
def onError (s : Connections) (provider chainId : ℕ) : Connections :=
  { s with errorHandlers := s.errorHandlers ++ [(provider, chainId)] }

/-- `new Contract(..)` -/
def newContract (s : Connections) : Connections := { s with contracts := s.contracts + 1 }

/-- `contract.on(..)` -/
def on (s : Connections) (contract provider chainId : ℕ) (event : EventSignatures) : Connections :=
  { s with listeners := s.listeners ++ [{ contract, provider, chainId, event }] }

/-- `contract.removeAllListeners()` -/
def removeAllListeners (s : Connections) (contract : ℕ) : Connections :=
  { s with listeners := s.listeners.filter fun l => l.contract ≠ contract }

/-- `setTimeout(() => this.reconnectWebSocket(chainId), ..)` -/
def setTimeout (s : Connections) (chainId : ℕ) : Connections :=
  { s with timers := s.timers ++ [chainId] }

/-- `setupEventListeners`, and whether it returns. -/
def setupEventListeners (s : Connections) (chainId : ℕ) (progress : SetupProgress) :
    Connections × Bool :=
  match s.wsProvider chainId with
  | none => (s, false)
  | some provider =>
    match progress with
    | .nothing => (s, false)
    | .errorHandler => (s.onError provider chainId, false)
    | .contract => ((s.onError provider chainId).newContract, false)
    | .lockListener =>
      (((s.onError provider chainId).newContract).on s.contracts provider chainId
        .LOCK_EVENT_SIGNATURE, false)
    | .all =>
      ((((s.onError provider chainId).newContract).on s.contracts provider chainId
        .LOCK_EVENT_SIGNATURE).on s.contracts provider chainId .BURN_EVENT_SIGNATURE, true)

/-- `removeEventListeners`, and whether it returns; the listeners were registered through other
`Contract` objects. -/
def removeEventListeners (s : Connections) (chainId : ℕ) : Connections × Bool :=
  match s.wsProvider chainId with
  | none => (s, false)
  | some _ => (s.newContract.removeAllListeners s.contracts, true)

/-- `reconnectWebSocket`, up to its await. -/
def reconnectWebSocket (cfg : Config) (s : Connections) (chainId : ℕ) (a : Attempt) : Connections :=
  match cfg.network? chainId with
  | none => s
  | some _ =>
    match a with
    | .constructorThrows => s.setTimeout chainId
    | .notReady => { s with providers := s.providers + 1 }
    | .ready progress =>
      let (s, returned) := (s.install chainId).setupEventListeners chainId progress
      { s with attempts := s.attempts ++ [(chainId, returned)] }

/-! ## Steps -/

/-- What happens next. -/
inductive Action where
  /-- `setupAllEventListeners` is called. -/
  | setupAll
  /-- A call of it gets to its next chain. -/
  | setup (i : ℕ) (progress : SetupProgress)
  /-- A handler of the event `error` is called. -/
  | error (i : ℕ) (a : Attempt)
  /-- A call of `reconnectWebSocket` goes on after its await. -/
  | resume (i : ℕ)
  /-- A timer fires. -/
  | timer (i : ℕ) (a : Attempt)
  /-- `removeAllEventListeners` is called. -/
  | removeAll
  /-- A call of it gets to its next chain. -/
  | remove (i : ℕ)
  deriving DecidableEq

/-- The error is observed if the provider is the one that is installed. -/
def observe (s : Connections) (provider chainId : ℕ) : Connections :=
  if s.wsProvider chainId = some provider then
    { s with observed := s.observed ++ [(provider, chainId)] }
  else s

/-- One step; `none` when the action is not possible. A loop over the chains ends with the first
call that throws. -/
def step (cfg : Config) (s : Connections) : Action → Option Connections
  | .setupAll => some { s with setups := s.setups ++ [cfg.networks.map Network.chainId] }
  | .setup i progress =>
    match s.setups[i]? with
    | some (chainId :: rest) =>
      let (s', returned) := s.setupEventListeners chainId progress
      some { s' with setups := s.setups.set i (if returned then rest else []) }
    | _ => none
  | .error i a =>
    match s.errorHandlers[i]? with
    | some (provider, chainId) =>
      some ((s.observe provider chainId).reconnectWebSocket cfg chainId a)
    | none => none
  | .resume i =>
    match s.attempts[i]? with
    | some (chainId, returned) =>
      let s' := { s with attempts := s.attempts.eraseIdx i }
      some (if returned then s' else s'.setTimeout chainId)
    | none => none
  | .timer i a =>
    match s.timers[i]? with
    | some chainId =>
      some ({ s with timers := s.timers.eraseIdx i }.reconnectWebSocket cfg chainId a)
    | none => none
  | .removeAll => some { s with removals := s.removals ++ [cfg.networks.map Network.chainId] }
  | .remove i =>
    match s.removals[i]? with
    | some (chainId :: rest) =>
      let (s', returned) := s.removeEventListeners chainId
      some { s' with
        removals := s.removals.set i (if returned then rest else [])
        removed := s.removed || (returned && rest.isEmpty) }
    | _ => none

/-- The state after the actions `l`, if they are possible in turn. -/
abbrev run (cfg : Config) : Connections → List Action → Option Connections := Async.exec (step cfg)

/-! ## What is wanted of them -/

/-- The provider carries a listener for every event of the chain. -/
def Carries (s : Connections) (chainId provider : ℕ) : Prop :=
  ∀ event, ∃ l ∈ s.listeners, l.provider = provider ∧ l.chainId = chainId ∧ l.event = event

/-- After an error of the provider, a newer one that carries the listeners has been installed, or a
call of `reconnectWebSocket` is under way or scheduled. -/
def Recovers (s : Connections) (chainId provider : ℕ) : Prop :=
  (∃ newer, s.wsProvider chainId = some newer ∧ provider < newer ∧ s.Carries chainId newer) ∨
    (∃ returned, (chainId, returned) ∈ s.attempts) ∨ chainId ∈ s.timers

/-- The number of listeners for an event of the chain, on all providers. -/
def count (s : Connections) (chainId : ℕ) (event : EventSignatures) : ℕ :=
  s.listeners.countP fun l => l.chainId = chainId ∧ l.event = event

/-- At most one listener for every event of a chain, and none after a call of
`removeAllEventListeners`. -/
def OnePerEvent (cfg : Config) (s : Connections) : Prop :=
  ∀ network ∈ cfg.networks, ∀ event, s.count network.chainId event ≤ 1 ∧
    (s.removed = true → s.count network.chainId event = 0)

/-- Nothing listens to the chain, and no error handler, attempt or timer will see to it. -/
structure Quiet (s : Connections) (chainId : ℕ) : Prop where
  errorHandlers : ∀ h ∈ s.errorHandlers, h.2 ≠ chainId
  listeners : ∀ l ∈ s.listeners, l.chainId ≠ chainId
  attempts : ∀ x ∈ s.attempts, x.1 ≠ chainId
  timers : chainId ∉ s.timers

/-- How far the only call of `setupAllEventListeners` has got: the chains that it has set up, the
one that failed, those that are left, and those that it will not get to. -/
structure SetUp (cfg : Config) (s : Connections) (done failed left dropped : List ℕ) : Prop where
  chains : cfg.networks.map Network.chainId = done ++ failed ++ left ++ dropped
  setups : s.setups = [left]
  /-- The first chain that fails ends the call. -/
  failed : (failed = [] ∧ dropped = []) ∨ (failed.length = 1 ∧ left = [])
  carries : ∀ chainId ∈ done, ∃ provider, s.Carries chainId provider
  quiet : ∀ chainId ∈ left ++ dropped, s.Quiet chainId

/-! ## Conditions on steps -/

/-- A call of `setupEventListeners` in `setupAllEventListeners` returns. -/
def Action.Returns : Action → Prop
  | .setup _ progress => progress = .all
  | _ => True

instance : DecidablePred Action.Returns
  | .setup _ progress => inferInstanceAs (Decidable (progress = .all))
  | .setupAll | .error .. | .resume _ | .timer .. | .removeAll | .remove _ => .isTrue trivial

/-- A handler of the event `error` is called. -/
def Action.isError : Action → Bool
  | .error .. => true
  | _ => false

/-- The new provider of an attempt is ready, unless its constructor throws. -/
def Action.Ready : Action → Prop
  | .error _ a => a ≠ .notReady
  | .timer _ a => a ≠ .notReady
  | _ => True

instance : DecidablePred Action.Ready
  | .error _ a => inferInstanceAs (Decidable (a ≠ .notReady))
  | .timer _ a => inferInstanceAs (Decidable (a ≠ .notReady))
  | .setupAll => .isTrue trivial
  | .setup _ _ => .isTrue trivial
  | .resume _ => .isTrue trivial
  | .removeAll => .isTrue trivial
  | .remove _ => .isTrue trivial

/-- The listeners that an action registers, by chain and event. -/
def newListeners (cfg : Config) (s : Connections) : Action → List (ℕ × EventSignatures)
  | .setup i progress =>
    match s.setups[i]? with
    | some (chainId :: _) =>
      if (s.wsProvider chainId).isSome then progress.registers.map (chainId, ·) else []
    | _ => []
  | .error i a =>
    match s.errorHandlers[i]? with
    | some (_, chainId) =>
      if (cfg.network? chainId).isSome then a.registers.map (chainId, ·) else []
    | none => []
  | .timer i a =>
    match s.timers[i]? with
    | some chainId => if (cfg.network? chainId).isSome then a.registers.map (chainId, ·) else []
    | none => []
  | _ => []

/-- The action is the last step of a call of `removeAllEventListeners`. -/
def returns (s : Connections) : Action → Bool
  | .remove i =>
    match s.removals[i]? with
    | some [chainId] => (s.wsProvider chainId).isSome
    | _ => false
  | _ => false

/-- A listener is registered only for a chain and an event that have none, and not after a call of
`removeAllEventListeners`; and that returns only when there is nothing to remove. -/
def Registers (cfg : Config) (s : Connections) (a : Action) : Prop :=
  (∀ x ∈ s.newListeners cfg a, s.removed = false ∧ ∀ l ∈ s.listeners, (l.chainId, l.event) ≠ x) ∧
    (s.returns a = true → s.listeners = [])

instance (cfg : Config) (s : Connections) : DecidablePred (s.Registers cfg) := fun a =>
  inferInstanceAs (Decidable ((∀ x ∈ s.newListeners cfg a,
    s.removed = false ∧ ∀ l ∈ s.listeners, (l.chainId, l.event) ≠ x) ∧
      (s.returns a = true → s.listeners = [])))

end Connections

end Tsunagari
