import Tsunagari.Bridge.Proofs.HandlerProofs
import Tsunagari.Bridge.Proofs.WorldProofs
import Tsunagari.Bridge.Routes
import Tsunagari.Bridge.Sample

/-!
# Proofs: when only routes of the configuration are endorsed

A handler looks up the counterpart of the token through three levels. Where one of the first two is
missing it throws, but the last lookup gives `undefined` without an error, and the handler goes on
to sign.
-/

namespace Tsunagari

open Async (Prog CanReach)

variable {P : Platform} {cfg : Config} {env : Env} {node : Node} {e : BridgeEvent}

/-! ## Lookups -/

/-- The plan of an event begins with its lookups. -/
theorem BridgeEvent.exists_plan {dest : Option String} (h : e.route P cfg = .ok dest) :
    ∃ p, e.plan P cfg = .ok p := by
  cases e with
  | tokensLocked chainId log => exact ⟨_, congrArg (· >>= _) h⟩
  | wrappedTokensBurned chainId log => exact ⟨_, congrArg (· >>= _) h⟩
  | solanaTokensLocked txSignature data => exact ⟨_, congrArg (· >>= _) h⟩
  | solanaTokensBurned txSignature data => exact ⟨_, congrArg (· >>= _) h⟩

theorem BridgeEvent.plan_of_route_error {err : JsError} (h : e.route P cfg = .error err) :
    e.plan P cfg = .error err := by
  cases e with
  | tokensLocked chainId log => exact congrArg (· >>= _) h
  | wrappedTokensBurned chainId log => exact congrArg (· >>= _) h
  | solanaTokensLocked txSignature data => exact congrArg (· >>= _) h
  | solanaTokensBurned txSignature data => exact congrArg (· >>= _) h

/-- A handler whose lookups succeed and that can sign begins with a push. -/
theorem BridgeEvent.handle_of_route {dest : Option String} {signature : String}
    (hroute : e.route P cfg = .ok dest) (hsign : e.sign P cfg node = .ok signature) :
    ∃ key k, e.handle P cfg node = .await (.rpush key signature) k := by
  obtain ⟨p, hplan⟩ := BridgeEvent.exists_plan hroute
  rw [e.handle_eq, hplan, hsign]
  exact ⟨p.message, _, rfl⟩

/-- Any other handler ends at once. -/
theorem BridgeEvent.handle_of_error
    (h : (∃ err, e.route P cfg = .error err) ∨ ∃ err, e.sign P cfg node = .error err) :
    ∃ err, e.handle P cfg node = .throw err := by
  rw [e.handle_eq]
  rcases h with ⟨err, hroute⟩ | ⟨err, hsign⟩
  · rw [BridgeEvent.plan_of_route_error hroute]
    exact ⟨err, rfl⟩
  · cases hplan : e.plan P cfg with
    | error err' => exact ⟨err', rfl⟩
    | ok p =>
      rw [hsign]
      exact ⟨err, rfl⟩

/-! ## Endorsed routes -/

/-- The action is a step of the delivery's handler, or of a command that it issued. -/
def Action.Of {δ : Type} (d : δ) : Action δ → Prop
  | .handler d' _ => d' = d
  | .flush d' _ => d' = d
  | _ => False

/-- What is in Redis and in the queue comes from events with a counterpart in the configuration, and
the other events change neither. -/
structure World.Endorses {δ : Type} [DecidableEq δ] (P : Platform) (cfg : Config) (env : Env)
    (event : δ → BridgeEvent) (w : World δ) : Prop where
  signatures : ∀ key, ∀ x ∈ w.store.lists key, ((event x.1).counterpart? P cfg).isSome
  jobs : ∀ id, ∀ d ∈ w.enqueuers id, ((event d).counterpart? P cfg).isSome
  unmapped : ∀ d, (event d).counterpart? P cfg = none → ∀ (a : Action δ) (w' : World δ), a.Of d →
    w.step P cfg env a = some w' → w'.store = w.store

variable {δ : Type} [DecidableEq δ] {event : δ → BridgeEvent} {nodeOf : δ → Node}

/-- A handler that ends at once takes no step. -/
theorem World.step_ne_some_of_throw {w : World δ} {d : δ} {err : JsError}
    (hh : w.handlers d = { prog := .throw err, queued := [] }) {a : Action δ} (ha : a.Of d)
    (w' : World δ) : w.step P cfg env a ≠ some w' := by
  intro h
  cases step_eq_some.1 h with
  | handler hprog hans =>
    cases ha
    rw [hh] at hprog
    cases hprog
  | flush hqueued =>
    cases ha
    rw [hh] at hqueued
    cases hqueued
  | flushFailed hqueued =>
    cases ha
    rw [hh] at hqueued
    cases hqueued
  | stop => exact ha
  | take => exact ha
  | worker => exact ha
  | complete => exact ha
  | retry => exact ha
  | completion => exact ha

/-- **Only events with a counterpart in the configuration are endorsed, in every run, exactly when
every event either has one, or fails in its lookups, or cannot be signed.** -/
theorem endorses_iff :
    (∀ (l : List (Action δ)) (w : World δ),
        World.run P cfg env (World.init fun d => (event d).handle P cfg (nodeOf d)) l = some w →
          w.Endorses P cfg env event) ↔
      ∀ d, ((event d).counterpart? P cfg).isSome ∨ (∃ err, (event d).route P cfg = .error err) ∨
        ∃ err, (event d).sign P cfg (nodeOf d) = .error err := by
  constructor
  · intro h d
    cases hroute : (event d).route P cfg with
    | error err => exact Or.inr (Or.inl ⟨err, rfl⟩)
    | ok dest =>
      cases hsign : (event d).sign P cfg (nodeOf d) with
      | error err => exact Or.inr (Or.inr ⟨err, rfl⟩)
      | ok signature =>
        obtain ⟨key, k, hawait⟩ := BridgeEvent.handle_of_route hroute hsign
        obtain ⟨l, w, -, hrun, hstore, -⟩ := World.reach_push P cfg env
          (w := World.init fun d => (event d).handle P cfg (nodeOf d)) (d := d)
          (congrArg (fun prog => HandlerState.mk prog []) hawait)
        refine Or.inl ((h l w hrun).signatures key (d, signature) ?_)
        rw [hstore, Store.push_self]
        exact List.mem_append_right _ (List.mem_singleton_self _)
  · intro h l w hrun
    have hw := Started.of_run hrun
    have hthrow : ∀ d, (event d).counterpart? P cfg = none →
        ∃ err, (event d).handle P cfg (nodeOf d) = .throw err := by
      intro d hnone
      rcases h d with hsome | hfails
      · rw [hnone] at hsome
        cases hsome
      · exact BridgeEvent.handle_of_error hfails
    have hmapped : ∀ d, (∃ o k, (event d).handle P cfg (nodeOf d) = .await o k) →
        ((event d).counterpart? P cfg).isSome := by
      rintro d ⟨o, k, hawait⟩
      cases hc : (event d).counterpart? P cfg with
      | some token => rfl
      | none =>
        obtain ⟨err, hthrow⟩ := hthrow d hc
        cases hthrow.symm.trans hawait
    refine ⟨fun key x hx => hmapped _ (hw.lists key x hx), fun id d hd => ?_, ?_⟩
    · obtain ⟨entry, hmem, hentry⟩ := List.mem_filterMap.1 hd
      exact hmapped d (hw.trace entry hmem d (Entry.agent_of_enqueuer hentry))
    · intro d hnone a w' ha hstep
      obtain ⟨err, hthrow⟩ := hthrow d hnone
      have hh := hw.handlers d fun o k hawait => by cases hthrow.symm.trans hawait
      rw [hthrow] at hh
      exact absurd hstep (World.step_ne_some_of_throw hh ha w')

/-- A lock for a chain on which the token has no counterpart is signed. -/
theorem not_endorses_sample :
    ¬ ∀ (l : List (Action (Fin 1))) (w : World (Fin 1)),
      World.run Sample.platform Sample.config (Sample.env 2 2)
          (Sample.world (Sample.lock 1) 1 (Nat.le_add_left 1 2)) l = some w →
        w.Endorses Sample.platform Sample.config (Sample.env 2 2) fun _ => Sample.lock 1 := by
  intro h
  have heval : (World.run Sample.platform Sample.config (Sample.env 2 2)
      (Sample.world (Sample.lock 1) 1 (Nat.le_add_left 1 2)) (Sample.push 0)).map
      (fun w => (w.store.lists "378321974").map Prod.fst) = some [0] := by decide +kernel
  obtain ⟨w, hrun, hlist⟩ := Option.map_eq_some_iff.1 heval
  obtain ⟨x, hx, -⟩ := List.mem_map.1 (hlist ▸ List.mem_singleton_self (0 : Fin 1))
  have hsome := (h _ w hrun).signatures _ x hx
  have hnone : (Sample.lock 1).counterpart? Sample.platform Sample.config = none := by
    decide +kernel
  rw [hnone] at hsome
  cases hsome

end Tsunagari
