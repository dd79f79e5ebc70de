import Mathlib.Algebra.Order.BigOperators.Group.Finset
import Tsunagari.Bridge.Backend
import Tsunagari.Bridge.Proofs.ListenerCountProofs
import Tsunagari.Bridge.Proofs.NotificationProofs
import Tsunagari.Bridge.Proofs.SignerProofs

/-!
# Proofs: how many signatures of one node are counted

A node signs an event once for every listener that it has registered for it, and it registers the
listeners again whenever a provider is replaced. The quorum shrinks by as much.
-/

namespace Tsunagari

/-! ## Registrations -/

/-- Replacing an element of a list of numbers. -/
theorem sum_set_add {l : List ℕ} {i x : ℕ} (h : l[i]? = some x) (y : ℕ) :
    (l.set i y).sum + x = l.sum + y := by
  induction l generalizing i with
  | nil => cases h
  | cons z l ih =>
    cases i with
    | zero =>
      cases h
      rw [List.set_cons_zero, List.sum_cons, List.sum_cons]
      omega
    | succ i =>
      have hrest := ih (i := i) h
      rw [List.set_cons_succ, List.sum_cons, List.sum_cons]
      omega

namespace Connections

variable {cfg : Config} {s s' : Connections}

/-- How often the chain is left in calls of `setupAllEventListeners`. -/
def waiting (s : Connections) (chainId : ℕ) : ℕ := (s.setups.map (List.count chainId)).sum

theorem waiting_of_setups (h : s'.setups = s.setups) (chainId : ℕ) :
    s'.waiting chainId = s.waiting chainId := by
  unfold waiting
  rw [h]

/-- Setting up a chain registers its listeners once, and takes it out of those that are left. -/
theorem count_setup_le (hs : s.Numbered) {i : ℕ} {progress : SetupProgress}
    (h : s.step cfg (.setup i progress) = some s') (chainId : ℕ) (event : EventSignatures) :
    s'.count chainId event + s'.waiting chainId ≤ s.count chainId event + s.waiting chainId := by
  have hcount := count_of_steps hs (steps_of_step h) chainId event
  have hone := List.nodup_iff_count_le_one.1 (nodup_newListeners cfg s (.setup i progress))
    (chainId, event)
  simp only [step] at h
  split at h
  next c rest hi =>
    have hnew : (s.newListeners cfg (.setup i progress)).count (chainId, event) ≤
        [c].count chainId := by
      by_cases hc : c = chainId
      · rw [hc, List.count_singleton_self]
        exact hone
      · have hnot : (chainId, event) ∉ s.newListeners cfg (.setup i progress) := by
          simp only [newListeners, hi]
          split <;> simp [hc]
        rw [List.count_eq_zero.2 hnot]
        exact Nat.zero_le _
    have hi' : (s.setups.map (List.count chainId))[i]? = some ((c :: rest).count chainId) := by
      rw [List.getElem?_map, hi]
      rfl
    have hsum := sum_set_add hi'
      ((if (s.setupEventListeners c progress).2 then rest else []).count chainId)
    have hrest : (if (s.setupEventListeners c progress).2 then rest else []).count chainId ≤
        rest.count chainId := by
      split
      · exact le_rfl
      · exact Nat.zero_le _
    rw [← List.map_set] at hsum
    have hwaiting : s'.waiting chainId + (c :: rest).count chainId = s.waiting chainId +
        (if (s.setupEventListeners c progress).2 then rest else []).count chainId := by
      cases h
      exact hsum
    have hcons : (c :: rest).count chainId = [c].count chainId + rest.count chainId := by
      rw [← List.singleton_append, List.count_append]
    omega
  next => cases h

/-- Otherwise only a new provider leads to new listeners. -/
theorem newListeners_eq_nil {a : Action} (h : a.connects = false)
    (hsetup : ∀ i progress, a ≠ .setup i progress) : s.newListeners cfg a = [] := by
  have hregisters : ∀ {b : Attempt}, (∀ progress, b ≠ .ready progress) → b.registers = [] := by
    intro b hb
    cases b with
    | ready progress => exact absurd rfl (hb progress)
    | _ => rfl
  cases a with
  | setup i progress => exact absurd rfl (hsetup i progress)
  | error i b =>
    have hb : b.registers = [] := hregisters fun progress hb => by rw [hb] at h; cases h
    simp only [newListeners, hb, List.map_nil, ite_self]
    split <;> rfl
  | timer i b =>
    have hb : b.registers = [] := hregisters fun progress hb => by rw [hb] at h; cases h
    simp only [newListeners, hb, List.map_nil, ite_self]
    split <;> rfl
  | _ => rfl

/-- A step that does not set up chains leaves those that are left. -/
theorem waiting_of_steps {a : Action} (h : Steps cfg s a s') (hall : a ≠ .setupAll)
    (hsetup : ∀ i progress, a ≠ .setup i progress) (chainId : ℕ) :
    s'.waiting chainId = s.waiting chainId := by
  refine waiting_of_setups ?_ chainId
  cases h with
  | setupAll => exact absurd rfl hall
  | setup => exact absurd rfl (hsetup _ _)
  | @error i provider c a _ hi h =>
    rw [h.setups]
    unfold observe
    split <;> rfl
  | timer hi h => exact h.setups
  | @remove i c rest hi removals removed hremoved =>
    show (s.removeEventListeners c).1.setups = _
    rcases s.removeEventListeners_fst c with h | h <;> rw [h]
    rfl
  | _ => rfl

/-- **The listeners for an event of a chain, and those that will still be registered, grow by one
when the chains are set up or a new provider is.** -/
theorem count_step_le (hs : s.Numbered) (hchains : (cfg.networks.map Network.chainId).Nodup)
    {a : Action} (h : s.step cfg a = some s') (chainId : ℕ) (event : EventSignatures) :
    s'.count chainId event + s'.waiting chainId ≤
      s.count chainId event + s.waiting chainId + if a.connects then 1 else 0 := by
  by_cases hsetup : ∃ i progress, a = .setup i progress
  · obtain ⟨i, progress, rfl⟩ := hsetup
    exact (count_setup_le hs h chainId event).trans (Nat.le_add_right _ _)
  have hne : ∀ i progress, a ≠ .setup i progress := fun i progress h => hsetup ⟨i, progress, h⟩
  have hcount := count_of_steps hs (steps_of_step h) chainId event
  by_cases hall : a = .setupAll
  · subst hall
    have hnew : s.newListeners cfg .setupAll = [] := rfl
    have hwaiting : s'.waiting chainId =
        s.waiting chainId + (cfg.networks.map Network.chainId).count chainId := by
      cases h
      simp [waiting]
    have hone := List.nodup_iff_count_le_one.1 hchains chainId
    rw [hnew, List.count_nil] at hcount
    rw [if_pos (show Action.setupAll.connects = true from rfl)]
    omega
  · have hwaiting := waiting_of_steps (steps_of_step h) hall hne chainId
    cases hconnects : a.connects with
    | true =>
      have hone := List.nodup_iff_count_le_one.1 (nodup_newListeners cfg s a) (chainId, event)
      rw [if_pos rfl]
      omega
    | false =>
      rw [newListeners_eq_nil hconnects hne, List.count_nil] at hcount
      omega

end Connections

/-- A list grows only by a push of the delivery that moves. -/
theorem World.mem_lists_of_step {δ : Type} [DecidableEq δ] {P : Platform} {cfg : Config} {env : Env}
    {w w' : World δ} {a : Action δ} (h : w.step P cfg env a = some w') {key : String}
    {x : δ × String} (hx : x ∈ w'.store.lists key) :
    x ∈ w.store.lists key ∨ a.delivery? = some x.1 := by
  cases step_eq_some.1 h with
  | handler hprog hans => exact Or.inl (hans.mem_lists hx)
  | flush hqueued =>
    rcases Store.mem_push hx with hx | ⟨-, rfl⟩
    · exact Or.inl hx
    · exact Or.inr rfl
  | worker hjob hstatus hans => exact Or.inl (hans.mem_lists hx)
  | completion hprog hans => exact Or.inl (hans.mem_lists hx)
  | _ => exact Or.inl hx

/-- The callback for a notification with one bridge event is the handler of that event. -/
theorem Logs.onLogs_of_single {P : Platform} (cfg : Config) (node : Node) {logs : Logs}
    {e : BridgeEvent} (h : logs.bridgeEvents P = [e]) :
    SolanaClientService.onLogs P cfg node logs = e.handle P cfg node := by
  rw [Logs.onLogs_eq, h]
  exact Async.Prog.bind_ret _

/-- A list in which nothing occurs more often than `r` times. -/
theorem length_le_mul_card {ν : Type} [DecidableEq ν] {l : List ν} {r : ℕ}
    (h : ∀ v ∈ l, l.count v ≤ r) : l.length ≤ r * l.toFinset.card := by
  rw [← List.sum_toFinset_count_eq_length, mul_comm]
  exact Finset.sum_le_card_nsmul _ _ _ fun v hv => h v (List.mem_toFinset.1 hv)

/-! ## Parts of a run -/

namespace Backend

variable {ν κ : Type} [DecidableEq ν] [DecidableEq κ] {P : Platform} {cfg : Config} {env : Env}
  {keys : ν → Node} {events : κ → BridgeEvent} {b b' : Backend ν κ}

/-- What a step does. -/
inductive Moves (P : Platform) (cfg : Config) (env : Env) (events : κ → BridgeEvent)
    (b : Backend ν κ) : Action ν κ → Backend ν κ → Prop where
  | connect {v : ν} {a : Connections.Action} {s : Connections}
      (h : (b.connections v).step cfg a = some s) :
      Moves P cfg env events b (.connect v a)
        { b with connections := Function.update b.connections v s }
  | subscribe (v : ν) :
      Moves P cfg env events b (.subscribe v)
        { b with subscriptions := Function.update b.subscriptions v (b.subscriptions v + 1) }
  | report (v : ν) (provider : Option ℕ) (k : κ) :
      Moves P cfg env events b (.report v provider k)
        { b with
          reports := b.reports ++ [(v, provider, k)]
          deliveries := b.deliveries ++ b.called events v provider k }
  | run {a : Tsunagari.Action (Delivery ν κ)} {w : World (Delivery ν κ)}
      (hmem : ∀ d ∈ a.delivery?, d ∈ b.deliveries) (h : b.world.step P cfg env a = some w) :
      Moves P cfg env events b (.run a) { b with world := w }

theorem moves_of_step {a : Action ν κ} (h : b.step P cfg env events a = some b') :
    Moves P cfg env events b a b' := by
  cases a with
  | connect v a =>
    obtain ⟨s, hs, rfl⟩ := Option.map_eq_some_iff.1 h
    exact .connect hs
  | subscribe v => cases h; exact .subscribe v
  | report v provider k => cases h; exact .report v provider k
  | run a =>
    simp only [step] at h
    split at h
    next hmem =>
      obtain ⟨w, hw, rfl⟩ := Option.map_eq_some_iff.1 h
      exact .run hmem hw
    next => cases h

/-- **A run of the nodes with their connections is a run on the shared store.** -/
theorem world_of_run {l : List (Action ν κ)} (h : run P cfg env events b l = some b') :
    World.run P cfg env b.world (l.filterMap Action.run?) = some b'.world := by
  refine Async.exec_filterMap Backend.world Action.run? ?_ ?_ h
  · intro b b' a a' ha h
    cases moves_of_step h with
    | run _ hw => cases ha; exact hw
    | _ => cases ha
  · intro b b' a ha h
    cases moves_of_step h with
    | run => cases ha
    | _ => rfl

/-- **It is a run of the connections of each node.** -/
theorem connections_of_run {l : List (Action ν κ)} (h : run P cfg env events b l = some b')
    (v : ν) :
    Connections.run cfg (b.connections v) (l.filterMap (Action.connect? v)) =
      some (b'.connections v) := by
  refine Async.exec_filterMap (fun b => b.connections v) (Action.connect? v) ?_ ?_ h
  · intro b b' a a' ha h
    cases moves_of_step h with
    | @connect v' a s hs =>
      simp only [Action.connect?] at ha
      split at ha
      next heq =>
        cases ha
        subst heq
        rw [hs]
        show some s = some (Function.update b.connections v' s v')
        rw [Function.update_self]
      next => cases ha
    | _ => cases ha
  · intro b b' a ha h
    cases moves_of_step h with
    | @connect v' a s h =>
      simp only [Action.connect?] at ha
      split at ha
      next => cases ha
      next hne => exact Function.update_of_ne (fun heq => hne heq.symm) _ _
    | _ => rfl

/-! ## Deliveries -/

omit [DecidableEq ν] [DecidableEq κ] in
/-- Whoever is registered stays so. -/
theorem callers_mono {v : ν} {provider : Option ℕ} {k : κ} {caller : Caller}
    (h : caller ∈ b.callers events v provider k)
    (hlisteners : ∀ l ∈ (b.connections v).listeners, l ∈ (b'.connections v).listeners)
    (hsubscriptions : b.subscriptions v ≤ b'.subscriptions v) :
    caller ∈ b'.callers events v provider k := by
  unfold callers at h ⊢
  split at h
  · obtain ⟨l, hl, rfl⟩ := List.mem_map.1 h
    obtain ⟨hl, hprop⟩ := List.mem_filter.1 hl
    exact List.mem_map_of_mem (List.mem_filter.2 ⟨hlisteners l hl, hprop⟩)
  · obtain ⟨n, hn, rfl⟩ := List.mem_map.1 h
    exact List.mem_map_of_mem
      (List.mem_range.2 ((List.mem_range.1 hn).trans_le hsubscriptions))
  · cases h

/-- Every handler that was called goes back to a report that reached its caller, and only such
handlers have pushed. -/
structure Reported (events : κ → BridgeEvent) (b : Backend ν κ) : Prop where
  numbered : ∀ v, (b.connections v).Numbered
  callers : ∀ d ∈ b.deliveries, ∃ provider, d.caller ∈ b.callers events d.node provider d.event ∧
    d.earlier < b.reports.count (d.node, provider, d.event)
  lists : ∀ key, ∀ x ∈ b.world.store.lists key, x.1 ∈ b.deliveries

namespace Reported

theorem init (P : Platform) (cfg : Config) (keys : ν → Node) (events : κ → BridgeEvent) :
    Reported events (init P cfg keys events) where
  numbered _ := Connections.Numbered.init cfg
  callers _ h := by cases h
  lists _ _ h := by cases h

theorem connect (hb : Reported events b) {v : ν} {a : Connections.Action} {s : Connections}
    (h : (b.connections v).step cfg a = some s) :
    Reported events { b with connections := Function.update b.connections v s } := by
  have hsteps := Connections.steps_of_step h
  refine ⟨fun v' => ?_, fun d hd => ?_, hb.lists⟩
  · by_cases hv : v' = v
    · subst hv
      simp only [Function.update_self]
      exact (hb.numbered v').step hsteps
    · simp only [Function.update_of_ne hv]
      exact hb.numbered v'
  · obtain ⟨provider, hcaller, hearlier⟩ := hb.callers d hd
    refine ⟨provider, callers_mono hcaller (fun l hl => ?_) le_rfl, hearlier⟩
    by_cases hv : d.node = v
    · subst hv
      simp only [Function.update_self]
      exact Connections.mem_listeners_of_steps (hb.numbered d.node) hsteps hl
    · simp only [Function.update_of_ne hv]
      exact hl

theorem subscribe (hb : Reported events b) (v : ν) :
    Reported events
      { b with subscriptions := Function.update b.subscriptions v (b.subscriptions v + 1) } := by
  refine ⟨hb.numbered, fun d hd => ?_, hb.lists⟩
  obtain ⟨provider, hcaller, hearlier⟩ := hb.callers d hd
  refine ⟨provider, callers_mono hcaller (fun l hl => hl) ?_, hearlier⟩
  by_cases hv : d.node = v
  · subst hv
    simp only [Function.update_self]
    exact Nat.le_succ _
  · simp only [Function.update_of_ne hv]
    exact le_rfl

theorem report (hb : Reported events b) (v : ν) (provider : Option ℕ) (k : κ) :
    Reported events
      { b with
        reports := b.reports ++ [(v, provider, k)]
        deliveries := b.deliveries ++ b.called events v provider k } := by
  refine ⟨hb.numbered, fun d hd => ?_, fun key x hx => List.mem_append_left _ (hb.lists key x hx)⟩
  rcases List.mem_append.1 hd with hd | hd
  · obtain ⟨provider', hcaller, hearlier⟩ := hb.callers d hd
    refine ⟨provider', hcaller, ?_⟩
    simp only [List.count_append]
    omega
  · obtain ⟨caller, hcaller, rfl⟩ := List.mem_map.1 hd
    refine ⟨provider, hcaller, ?_⟩
    simp only [List.count_append, List.count_singleton_self]
    omega

theorem step (hb : Reported events b) {a : Action ν κ}
    (h : b.step P cfg env events a = some b') : Reported events b' := by
  cases moves_of_step h with
  | connect hs => exact hb.connect hs
  | subscribe v => exact hb.subscribe v
  | report v provider k => exact hb.report v provider k
  | run hmem hw =>
    refine ⟨hb.numbered, hb.callers, fun key x hx => ?_⟩
    rcases World.mem_lists_of_step hw hx with hx | hx
    · exact hb.lists key x hx
    · exact hmem x.1 hx

theorem of_run {l : List (Action ν κ)}
    (h : run P cfg env events (Backend.init P cfg keys events) l = some b) :
    Reported events b :=
  Async.exec_invariant (Reported events) (fun _ => True) (fun _ hb h => hb.step h)
    (init P cfg keys events) (fun _ _ => trivial) h

end Reported

/-! ## Registrations along a run -/

/-- The registrations of the node for the event, and those that are under way. -/
def registering (events : κ → BridgeEvent) (b : Backend ν κ) (v : ν) (k : κ) : ℕ :=
  match (events k).topic? with
  | some (chainId, event) =>
    (b.connections v).count chainId event + (b.connections v).waiting chainId
  | none => b.subscriptions v

theorem registering_step (hb : Reported events b)
    (hchains : (cfg.networks.map Network.chainId).Nodup) (v : ν) (k : κ) {a : Action ν κ}
    (h : b.step P cfg env events a = some b') :
    b'.registering events v k ≤ b.registering events v k + if a.registers v then 1 else 0 := by
  unfold registering
  cases moves_of_step h with
  | @connect v' a s hs =>
    by_cases hv : v' = v
    · subst hv
      split
      next chainId event _ =>
        have hle := Connections.count_step_le (hb.numbered v') hchains hs chainId event
        simpa [Action.registers] using hle
      next => exact Nat.le_add_right _ _
    · simp only [Function.update_of_ne (fun heq => hv heq.symm : v ≠ v')]
      exact Nat.le_add_right _ _
  | subscribe v' =>
    split
    next => exact Nat.le_add_right _ _
    next =>
      by_cases hv : v' = v
      · subst hv
        simp [Action.registers]
      · simp only [Function.update_of_ne (fun heq => hv heq.symm : v ≠ v')]
        exact Nat.le_add_right _ _
  | report => exact Nat.le_add_right _ _
  | run => exact Nat.le_add_right _ _

/-- **A node registers for an event only when it is set up or gets a new provider.** -/
theorem registered_le (hchains : (cfg.networks.map Network.chainId).Nodup) (v : ν) (k : κ)
    {l : List (Action ν κ)}
    (h : run P cfg env events (init P cfg keys events) l = some b) :
    b.registered events v k ≤ l.countP (Action.registers v) := by
  have hinit : (init P cfg keys events).registering events v k = 0 := by
    unfold registering
    split
    next chainId event _ =>
      obtain ⟨hsetups, hkeys⟩ := Connections.init_setups_keys cfg
      show (Connections.init cfg).count chainId event + (Connections.init cfg).waiting chainId = 0
      rw [Connections.count_eq, hkeys, Connections.waiting, hsetups]
      rfl
    next => rfl
  have hle := Async.exec_le_countP (Reported events) (fun b => b.registering events v k)
    (Action.registers v) (fun hb h => hb.step h)
    (fun hb h => registering_step hb hchains v k h) (Reported.init P cfg keys events) h
  rw [hinit, Nat.zero_add] at hle
  refine le_trans ?_ hle
  unfold registered registering
  cases (events k).topic? with
  | some topic => exact Nat.le_add_right _ _
  | none => exact le_rfl

/-! ## Signatures -/

/-- Whoever is registered on the node for the event. -/
def allCallers (events : κ → BridgeEvent) (b : Backend ν κ) (v : ν) (k : κ) : List Caller :=
  match (events k).topic? with
  | some (chainId, event) =>
    ((b.connections v).listeners.filter fun l => l.chainId = chainId ∧ l.event = event).map
      .listener
  | none => (List.range (b.subscriptions v)).map .subscription

omit [DecidableEq ν] [DecidableEq κ] in
theorem length_allCallers (events : κ → BridgeEvent) (b : Backend ν κ) (v : ν) (k : κ) :
    (b.allCallers events v k).length = b.registered events v k := by
  unfold allCallers registered
  cases (events k).topic? with
  | some topic =>
    rw [List.length_map, ← List.countP_eq_length_filter]
    rfl
  | none => rw [List.length_map, List.length_range]

omit [DecidableEq ν] [DecidableEq κ] in
theorem mem_allCallers {v : ν} {provider : Option ℕ} {k : κ} {caller : Caller}
    (h : caller ∈ b.callers events v provider k) : caller ∈ b.allCallers events v k := by
  unfold callers at h
  unfold allCallers
  split at h
  next chainId event htopic =>
    obtain ⟨l, hl, rfl⟩ := List.mem_map.1 h
    rw [htopic]
    refine List.mem_map_of_mem (List.mem_filter.2 ⟨(List.mem_filter.1 hl).1, ?_⟩)
    have hprop := of_decide_eq_true (List.mem_filter.1 hl).2
    exact decide_eq_true hprop.2
  next htopic =>
    rw [htopic]
    exact h
  next => cases h

/-- **Where no provider reports the event twice, a node has no more deliveries of it than
registrations.** -/
theorem Reported.count_le (hb : Reported events b) {v : ν} {k : κ}
    (honce : ∀ provider, b.reports.count (v, provider, k) ≤ 1) {ds : List (Delivery ν κ)}
    (hnodup : ds.Nodup) (hmem : ∀ d ∈ ds, d ∈ b.deliveries ∧ d.event = k) :
    (ds.map Delivery.node).count v ≤ b.registered events v k := by
  have hlength : (ds.map Delivery.node).count v =
      ((ds.filter fun d => d.node = v).map Delivery.caller).length := by
    rw [List.count_eq_countP, List.countP_map, List.length_map, ← List.countP_eq_length_filter]
    refine List.countP_congr fun d _ => ?_
    simp
  have hcaller : ∀ d ∈ ds.filter (fun d => d.node = v),
      d.node = v ∧ d.event = k ∧ d.earlier = 0 ∧ d.caller ∈ b.allCallers events v k := by
    intro d hd
    obtain ⟨hd, hv⟩ := List.mem_filter.1 hd
    have hv := of_decide_eq_true hv
    obtain ⟨hd, hk⟩ := hmem d hd
    obtain ⟨provider, hcaller, hearlier⟩ := hb.callers d hd
    rw [hv, hk] at hcaller hearlier
    have hle := honce provider
    exact ⟨hv, hk, by omega, mem_allCallers hcaller⟩
  rw [hlength, ← length_allCallers]
  refine (List.Nodup.subperm (List.Nodup.map_on ?_ (hnodup.filter _)) ?_).length_le
  · intro d hd d' hd' heq
    obtain ⟨hv, hk, hearlier, -⟩ := hcaller d hd
    obtain ⟨hv', hk', hearlier', -⟩ := hcaller d' hd'
    cases d
    cases d'
    simp_all
  · intro caller hc
    obtain ⟨d, hd, rfl⟩ := List.mem_map.1 hc
    exact (hcaller d hd).2.2.2

/-- So has it no more signatures in a list of the event. -/
theorem Reported.signers_le (hb : Reported events b) {v : ν} {k : κ}
    (honce : ∀ provider, b.reports.count (v, provider, k) ≤ 1) {message : String}
    (hnodup : ((b.world.store.lists message).map Prod.fst).Nodup)
    (hevent : ∀ x ∈ b.world.store.lists message, x.1.event = k) :
    (b.world.signers Delivery.node message).count v ≤ b.registered events v k := by
  have hmem : ∀ d ∈ (b.world.store.lists message).map Prod.fst,
      d ∈ b.deliveries ∧ d.event = k := by
    intro d hd
    obtain ⟨x, hx, hfst⟩ := List.mem_map.1 hd
    rw [← hfst]
    exact ⟨hb.lists _ x hx, hevent x hx⟩
  have hle := hb.count_le honce hnodup hmem
  rwa [List.map_map] at hle

/-! ## The quorum -/

variable {l : List (Action ν κ)} {k : κ}

/-- The deliveries whose signatures are in the list of the event are different ones of the event;
and before the list is emptied, a job is added only when there are as many as the threshold. -/
theorem deliveries_of_run
    (hjobId : ∀ k', (events k').jobId P cfg = (events k).jobId P cfg → k' = k)
    (hl : ∀ a ∈ l.filterMap Action.run?, a.SucceedsOrStops)
    (hrun : run P cfg env events (init P cfg keys events) l = some b) :
    ((b.world.store.lists ((events k).message P cfg)).map Prod.fst).Nodup ∧
      (∀ x ∈ b.world.store.lists ((events k).message P cfg), x.1.event = k) ∧
      ((∀ entry ∈ b.world.trace, entry.op ≠ .del ((events k).message P cfg)) →
        ∀ site, (events k).site P cfg = .ok site →
          b.world.enqueuers ((events k).jobId P cfg) ≠ [] →
            env.threshold site ≤ (b.world.store.lists ((events k).message P cfg)).length) := by
  have hmessage : ∀ k', (events k').message P cfg = (events k).message P cfg → k' = k := by
    intro k' h
    refine hjobId k' ?_
    unfold BridgeEvent.jobId
    rw [h]
  have hworld : World.run P cfg env
      (World.init fun d : Delivery ν κ => (events d.event).handle P cfg (keys d.node))
      (l.filterMap Action.run?) = some b.world := world_of_run hrun
  cases hplan : (events k).plan P cfg with
  | error err =>
    have hempty : b.world.store.lists ((events k).message P cfg) = [] := by
      refine List.eq_nil_iff_forall_not_mem.2 fun x hx => ?_
      have hconf : Confined P cfg (fun d : Delivery ν κ => events d.event) (fun d => keys d.node)
          b.world := Confined.of_run hworld
      have hk := hmessage _ (hconf.lists _ x hx).1.symm
      obtain ⟨o, next, hawait⟩ := (Started.of_run hworld).lists _ x hx
      rw [hk, BridgeEvent.handle_eq, hplan] at hawait
      cases hawait
    rw [hempty]
    refine ⟨List.nodup_nil, fun x hx => (by cases hx), fun _ site hsite => ?_⟩
    rw [BridgeEvent.site, hplan] at hsite
    cases hsite
  | ok p =>
    obtain ⟨t, ht⟩ : ∃ t, ∀ site, p.site = .ok site → env.threshold site = t := by
      cases hsite : p.site with
      | error err => exact ⟨0, fun site h => by cases h⟩
      | ok site => exact ⟨env.threshold site, fun site' h => by cases h; rfl⟩
    have hd : Deliveries P cfg env (fun d : Delivery ν κ => events d.event)
        (fun d => decide (d.event = k)) (events k) p t :=
      { plan := hplan
        threshold := ht
        of_mine := fun d h => by rw [of_decide_eq_true h]
        message_ne := fun d h heq => of_decide_eq_false h (hmessage _ heq)
        jobId_ne := fun d h heq => of_decide_eq_false h (hjobId _ heq) }
    obtain ⟨s, hsteps, htr⟩ : ∃ s, Collector.Steps t True
        (Collector.State.init (signs P cfg (fun d : Delivery ν κ => events d.event)
          (fun d => keys d.node) fun d => decide (d.event = k))) s ∧
        Tracks P cfg env (fun d => events d.event) (fun d => keys d.node)
          (fun d => decide (d.event = k)) p t b.world s := Tracks.of_run hd hl hworld
    have hof := Plan.of_plan hplan
    have hlist : (b.world.store.lists ((events k).message P cfg)).map Prod.fst = s.list := by
      rw [← hof.message, htr.list, List.map_map]
      exact List.map_id _
    refine ⟨?_, fun x hx => ?_, fun hdel site hsite henq => ?_⟩
    · rw [hlist]
      exact (Collector.distinct_of_steps hsteps).nodup
    · have hmem : x.1 ∈ s.list := hlist ▸ List.mem_map_of_mem hx
      have hlive := (Collector.live_of_steps hsteps).1 x.1 hmem
      exact of_decide_eq_true (Bool.and_eq_true_iff.1 hlive).1
    · have hfresh : ¬ s.Drained := by
        intro hs
        obtain ⟨entry, hmem, hop⟩ := htr.drained hs
        exact hdel entry hmem (hof.message ▸ hop)
      rw [BridgeEvent.site, hplan] at hsite
      rw [← hof.jobId, htr.enqueuers] at henq
      rw [ht site hsite, ← List.length_map Prod.fst, hlist]
      rcases Nat.eq_zero_or_pos t with rfl | hpos
      · exact Nat.zero_le _
      · exact Collector.quorum_of_added hpos hsteps hfresh henq

/-! ## A replaced provider -/

/-- The lock on the first chain is the only event. -/
def sampleEvents (_ : Unit) : BridgeEvent := Sample.lock 137

/-- The single node at the beginning. -/
def sampleInit (node : Node) : Backend Unit Unit :=
  init Sample.platform Sample.config (fun _ => node) sampleEvents

/-- The call of the lock listener that was registered through a `Contract` object on a provider. -/
def sampleDelivery (contract provider : ℕ) : Delivery Unit Unit where
  node := ()
  caller := .listener { contract, provider, chainId := 1, event := .LOCK_EVENT_SIGNATURE }
  event := ()
  earlier := 0

/-- The provider of the first chain is replaced, both providers report the lock, and both handlers
push before the first one counts and adds the job. -/
def sampleActions : List (Action Unit Unit) :=
  [.connect () .setupAll, .connect () (.setup 0 .all), .connect () (.error 0 (.ready .all)),
    .report () (some 0) (), .report () (some 2) ()] ++
  (Sample.push (sampleDelivery 0 0) ++ Sample.push (sampleDelivery 1 2) ++
    Sample.count (sampleDelivery 0 0) ++ Sample.enqueue (sampleDelivery 0 0)).map .run

/-- In the end the list holds two signatures of the node, and a handler has added the job. -/
def SampleOutcome (b : Backend Unit Unit) : Prop :=
  b.reports = [((), some 0, ()), ((), some 2, ())] ∧ b.registered sampleEvents () () = 2 ∧
    b.world.signers Delivery.node ((sampleEvents ()).message Sample.platform Sample.config) =
      [(), ()] ∧
    b.world.enqueuers ((sampleEvents ()).jobId Sample.platform Sample.config) ≠ [] ∧
    ∀ entry ∈ b.world.trace,
      entry.op ≠ .del ((sampleEvents ()).message Sample.platform Sample.config)

instance : DecidablePred SampleOutcome := fun _ => inferInstanceAs (Decidable (_ ∧ _))

theorem sampleOutcome_of_run : ∃ b, run Sample.platform Sample.config (Sample.env 2 2) sampleEvents
    (sampleInit (Sample.node 0)) sampleActions = some b ∧ SampleOutcome b := by
  have heval : (run Sample.platform Sample.config (Sample.env 2 2) sampleEvents
      (sampleInit (Sample.node 0)) sampleActions).map (fun b => decide (SampleOutcome b)) =
        some true := by decide +kernel
  obtain ⟨b, hrun, heq⟩ := Option.map_eq_some_iff.1 heval
  exact ⟨b, hrun, of_decide_eq_true heq⟩

theorem SampleOutcome.reports_count_le {b : Backend Unit Unit} (hb : SampleOutcome b) (v : Unit)
    (provider : Option ℕ) : b.reports.count (v, provider, ()) ≤ 1 := by
  rw [hb.1]
  exact List.nodup_iff_count_le_one.1 (by decide) _

theorem succeeds_sampleActions :
    ∀ a ∈ sampleActions.filterMap Action.run?, a.SucceedsOrStops :=
  fun a ha => Action.Succeeds.orStops (by revert a; decide)

/-! ## Signers -/

/-- **A node signs an event at most once for every listener or subscription that it has for it, and
it gets these only when it is set up or a provider is replaced**: in every run in which no provider
reports the event twice. -/
theorem count_signers_le (hchains : (cfg.networks.map Network.chainId).Nodup)
    (hjobId : ∀ k', (events k').jobId P cfg = (events k).jobId P cfg → k' = k)
    (hl : ∀ a ∈ l.filterMap Action.run?, a.SucceedsOrStops)
    (hrun : run P cfg env events (init P cfg keys events) l = some b) {v : ν}
    (honce : ∀ provider, b.reports.count (v, provider, k) ≤ 1) :
    (b.world.signers Delivery.node ((events k).message P cfg)).count v ≤ b.registered events v k ∧
      b.registered events v k ≤ l.countP (Action.registers v) := by
  have hb := Reported.of_run hrun
  obtain ⟨hnodup, hevent, -⟩ := deliveries_of_run hjobId hl hrun
  exact ⟨hb.signers_le honce hnodup hevent, registered_le hchains v k hrun⟩

/-- The replaced provider makes the node sign twice. -/
theorem count_signers_le_sample : ∃ b, run Sample.platform Sample.config (Sample.env 2 2)
      sampleEvents (sampleInit (Sample.node 0)) sampleActions = some b ∧ SampleOutcome b ∧
    (b.world.signers Delivery.node
      ((sampleEvents ()).message Sample.platform Sample.config)).count () ≤
        b.registered sampleEvents () () ∧
      b.registered sampleEvents () () ≤ sampleActions.countP (Action.registers ()) := by
  obtain ⟨b, hrun, hb⟩ := sampleOutcome_of_run
  exact ⟨b, hrun, hb, count_signers_le (by decide) (fun _ _ => rfl) succeeds_sampleActions hrun
    (hb.reports_count_le ())⟩

/-- **A quorum of `t` signatures stems from at least `t / r` nodes** when no node has more than `r`
listeners for the event: in every run in which no provider reports it twice, before the list is
emptied. -/
theorem threshold_le_mul_signers
    (hjobId : ∀ k', (events k').jobId P cfg = (events k).jobId P cfg → k' = k)
    (hl : ∀ a ∈ l.filterMap Action.run?, a.SucceedsOrStops)
    (hrun : run P cfg env events (init P cfg keys events) l = some b)
    (honce : ∀ v provider, b.reports.count (v, provider, k) ≤ 1) {r : ℕ}
    (hr : ∀ v, b.registered events v k ≤ r)
    (hdel : ∀ entry ∈ b.world.trace, entry.op ≠ .del ((events k).message P cfg))
    {site : BridgeSite} (hsite : (events k).site P cfg = .ok site)
    (henq : b.world.enqueuers ((events k).jobId P cfg) ≠ []) :
    env.threshold site ≤
      r * (b.world.signers Delivery.node ((events k).message P cfg)).toFinset.card := by
  have hb := Reported.of_run hrun
  obtain ⟨hnodup, hevent, hquorum⟩ := deliveries_of_run hjobId hl hrun
  have hlength : (b.world.store.lists ((events k).message P cfg)).length =
      (b.world.signers Delivery.node ((events k).message P cfg)).length :=
    (List.length_map _).symm
  refine (hquorum hdel site hsite henq).trans (hlength.trans_le (length_le_mul_card fun v _ => ?_))
  exact (hb.signers_le (honce v) hnodup hevent).trans (hr v)

/-- One node is enough for a threshold of two. -/
theorem threshold_le_mul_signers_sample : ∃ b, run Sample.platform Sample.config (Sample.env 2 2)
      sampleEvents (sampleInit (Sample.node 0)) sampleActions = some b ∧ SampleOutcome b ∧
    2 ≤ 2 * (b.world.signers Delivery.node
      ((sampleEvents ()).message Sample.platform Sample.config)).toFinset.card := by
  obtain ⟨b, hrun, hb⟩ := sampleOutcome_of_run
  have hsite : (sampleEvents ()).site Sample.platform Sample.config = .ok (.evm 137) := by
    decide +kernel
  exact ⟨b, hrun, hb, threshold_le_mul_signers (fun _ _ => rfl) succeeds_sampleActions hrun
    hb.reports_count_le (fun _ => hb.2.1.le) hb.2.2.2.2 hsite hb.2.2.2.1⟩

end Backend

end Tsunagari
