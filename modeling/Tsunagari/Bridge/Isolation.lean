import Tsunagari.Bridge.Refinement

/-!
# Two bridge events on one store

Some deliveries are deliveries of a first event, the others of a second one. This module says which
steps belong to the first event, and when two states differ only in what belongs to it.
-/

namespace Tsunagari

variable {δ : Type}

/-- A delivery of the first event, or someone who works on the job with the id. -/
def Agent.Concerns (first : δ → Bool) (id : String) : Agent δ → Bool
  | .handler d => first d
  | .worker id' _ => id' = id
  | .completion id' _ => id' = id

/-- A step of a delivery of the first event, or of the job with the id. -/
def Action.Concerns (first : δ → Bool) (id : String) : Action δ → Bool
  | .handler d _ => first d
  | .flush d _ => first d
  | .stop d => first d
  | .take id' => id' = id
  | .worker id' _ => id' = id
  | .settle id' => id' = id
  | .completion id' _ _ => id' = id

/-- The stores differ at most in the list under the key and the job with the id. -/
structure Store.Agrees (key id : String) (s t : Store δ) : Prop where
  lists : ∀ k, k ≠ key → s.lists k = t.lists k
  jobs : ∀ i, i ≠ id → s.jobs i = t.jobs i
  added : ∀ i, i ≠ id → s.added i = t.added i

/-- The states differ at most in the deliveries of the first event, its list and its job. -/
structure World.Agrees (first : δ → Bool) (key id : String) (w t : World δ) : Prop where
  store : w.store.Agrees key id t.store
  handlers : ∀ d, first d = false → w.handlers d = t.handlers d
  completions : ∀ i s, i ≠ id → w.completions (i, s) = t.completions (i, s)
  /-- The other agents got the same answers to the same operations. -/
  trace : w.trace.filter (fun x => !x.agent.Concerns first id) =
    t.trace.filter (fun x => !x.agent.Concerns first id)

/-- The nodes handle deliveries of the event `e₁`, where `first` says so, and of `e₂`. -/
abbrev World.both (P : Platform) (cfg : Config) (e₁ e₂ : BridgeEvent) (node : δ → Node)
    (first : δ → Bool) : World δ :=
  World.init fun d => (if first d then e₁ else e₂).handle P cfg (node d)

/-- The event `e₁` does not interfere with the event `e₂`. -/
structure Isolated (P : Platform) (cfg : Config) (env : Env) (e₁ e₂ : BridgeEvent) : Prop where
  /-- They use different signature lists. -/
  message : e₁.message P cfg ≠ e₂.message P cfg
  /-- They use different job ids. -/
  jobId : e₁.jobId P cfg ≠ e₂.jobId P cfg
  /-- Without the steps of `e₁`, everything else goes as before. -/
  view : ∀ {δ : Type} [DecidableEq δ] (node : δ → Node) (first : δ → Bool) (l : List (Action δ))
    (w : World δ), World.run P cfg env (World.both P cfg e₁ e₂ node first) l = some w →
      ∃ t, World.run P cfg env (World.both P cfg e₁ e₂ node first)
          (l.filter fun a => !a.Concerns first (e₁.jobId P cfg)) = some t ∧
        w.Agrees first (e₁.message P cfg) (e₁.jobId P cfg) t
  /-- When commands succeed or nodes stop, and as many deliveries of one of the events as its
  threshold have been handled to the end, that event gets its own job. -/
  job : ∀ {δ : Type} [DecidableEq δ] (node : δ → Node) (first : δ → Bool) (l : List (Action δ))
    (w : World δ), (∀ a ∈ l, a.SucceedsOrStops) →
      World.run P cfg env (World.both P cfg e₁ e₂ node first) l = some w →
      ∀ (b : Bool) (t : ℕ), 1 ≤ t →
        (∀ site, (if b then e₁ else e₂).site P cfg = .ok site → env.threshold site = t) →
        ∀ S : Finset δ, t ≤ S.card → (∀ d ∈ S, first d = b ∧ (w.handlers d).Done) →
          w.enqueuers ((if b then e₁ else e₂).jobId P cfg) ≠ [] ∧
            ∀ entry, w.store.jobs ((if b then e₁ else e₂).jobId P cfg) = some entry →
              (if b then e₁ else e₂).job P cfg env = .ok entry.data

end Tsunagari
