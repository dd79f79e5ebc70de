import Mathlib.Data.List.Nodup
import Tsunagari.Bridge.Proofs.ListenerProofs
import Tsunagari.Bridge.Sample

/-!
# Proofs: when a chain has every listener once

A reconnection registers the listeners again, while the old ones stay registered on the provider
that was replaced; and what is to remove them goes through a new `Contract` object.
-/

namespace Tsunagari

namespace Connections

variable {cfg : Config} {s s' : Connections}

/-! ## The listeners that a step registers -/

/-- The listeners, by chain and event. -/
def keys (s : Connections) : List (ℕ × EventSignatures) :=
  s.listeners.map fun l => (l.chainId, l.event)

theorem count_eq (s : Connections) (chainId : ℕ) (event : EventSignatures) :
    s.count chainId event = s.keys.count (chainId, event) := by
  unfold Connections.count keys
  rw [List.count_eq_countP, List.countP_map]
  refine List.countP_congr fun l _ => ?_
  simp

theorem SetsUp.keys {chainId provider : ℕ} {progress : SetupProgress}
    (h : s.SetsUp chainId provider progress s') :
    s'.keys = s.keys ++ progress.registers.map (chainId, ·) := by
  unfold Connections.keys
  rw [h.listeners, List.map_append, List.map_map]
  rfl

theorem setupEventListeners_keys (s : Connections) (chainId : ℕ) (progress : SetupProgress) :
    (s.setupEventListeners chainId progress).1.keys = s.keys ++
      if (s.wsProvider chainId).isSome then progress.registers.map (chainId, ·) else [] := by
  cases hp : s.wsProvider chainId with
  | none =>
    rw [setupEventListeners_of_none hp]
    exact (List.append_nil _).symm
  | some provider => exact (setsUp hp progress).1.keys

theorem setupEventListeners_removed (s : Connections) (chainId : ℕ) (progress : SetupProgress) :
    (s.setupEventListeners chainId progress).1.removed = s.removed := by
  cases hp : s.wsProvider chainId with
  | none => rw [setupEventListeners_of_none hp]
  | some provider => exact (setsUp hp progress).1.removed

theorem Reconnects.keys {chainId : ℕ} {a : Attempt} (h : Reconnects cfg s chainId a s') :
    s'.keys = s.keys ++
      if (cfg.network? chainId).isSome then a.registers.map (chainId, ·) else [] := by
  cases h with
  | skipped hnone =>
    rw [hnone]
    exact (List.append_nil _).symm
  | threw => split <;> exact (List.append_nil _).symm
  | gaveUp => split <;> exact (List.append_nil _).symm
  | installed hnetwork h =>
    rw [if_pos hnetwork]
    exact h.keys

theorem Reconnects.removed {chainId : ℕ} {a : Attempt} (h : Reconnects cfg s chainId a s') :
    s'.removed = s.removed := by
  cases h with
  | installed _ h => exact h.removed
  | _ => rfl

theorem Reconnects.setups {chainId : ℕ} {a : Attempt} (h : Reconnects cfg s chainId a s') :
    s'.setups = s.setups := by
  cases h with
  | installed _ h => exact h.setups
  | _ => rfl

theorem Numbered.removeEventListeners_keys (hs : s.Numbered) (chainId : ℕ) :
    (s.removeEventListeners chainId).1.keys = s.keys :=
  congrArg (List.map _) (hs.removeEventListeners_listeners chainId)

theorem removeEventListeners_snd (s : Connections) (chainId : ℕ) :
    (s.removeEventListeners chainId).2 = (s.wsProvider chainId).isSome := by
  unfold removeEventListeners
  cases s.wsProvider chainId <;> rfl

/-- **A step only adds listeners.** -/
theorem keys_of_steps (hs : s.Numbered) {a : Action} (h : Steps cfg s a s') :
    s'.keys = s.keys ++ s.newListeners cfg a := by
  cases h with
  | setupAll => exact (List.append_nil _).symm
  | setup hi hsetups =>
    simp only [newListeners, hi]
    exact setupEventListeners_keys ..
  | @error i provider chainId a _ hi h =>
    simp only [newListeners, hi]
    have hobserve : (s.observe provider chainId).keys = s.keys := by
      unfold observe
      split <;> rfl
    rw [← hobserve]
    exact h.keys
  | returned => exact (List.append_nil _).symm
  | threw => exact (List.append_nil _).symm
  | timer hi h =>
    simp only [newListeners, hi]
    exact h.keys
  | removeAll => exact (List.append_nil _).symm
  | @remove i chainId rest hi removals removed hremoved =>
    exact (hs.removeEventListeners_keys chainId).trans (List.append_nil _).symm

theorem removed_of_steps {a : Action} (h : Steps cfg s a s') :
    s'.removed = (s.removed || s.returns a) := by
  cases h with
  | @remove i chainId rest hi removals removed hremoved =>
    change removed = _
    rw [hremoved, removeEventListeners_snd]
    cases rest with
    | nil => simp [returns, hi]
    | cons c rest => simp [returns, hi]
  | setup hi hsetups =>
    rw [show s.returns (.setup _ _) = false from rfl, Bool.or_false]
    exact setupEventListeners_removed ..
  | @error i provider chainId a _ hi h =>
    rw [h.removed, show s.returns (.error i a) = false from rfl, Bool.or_false]
    unfold observe
    split <;> rfl
  | timer hi h =>
    rw [h.removed]
    exact (Bool.or_false _).symm
  | _ => exact (Bool.or_false _).symm

theorem nodup_registers (progress : SetupProgress) : progress.registers.Nodup := by
  cases progress <;> decide

theorem nodup_attempt_registers (a : Attempt) : a.registers.Nodup := by
  cases a with
  | ready progress => exact Connections.nodup_registers progress
  | _ => exact List.nodup_nil

/-- A step registers listeners for one chain, which is in the configuration or left in a call of
`setupAllEventListeners`, and none of them twice. -/
theorem newListeners_cases (cfg : Config) (s : Connections) (a : Action) :
    s.newListeners cfg a = [] ∨ ∃ (chainId : ℕ) (events : List EventSignatures),
      s.newListeners cfg a = events.map (chainId, ·) ∧ events.Nodup ∧
        ((cfg.network? chainId).isSome ∨ ∃ chains ∈ s.setups, chainId ∈ chains) := by
  unfold newListeners
  split
  · split
    next chainId rest hi =>
      split
      · exact Or.inr ⟨chainId, _, rfl, nodup_registers _,
          Or.inr ⟨_, List.mem_of_getElem? hi, List.mem_cons_self ..⟩⟩
      · exact Or.inl rfl
    next => exact Or.inl rfl
  · split
    next provider chainId hi =>
      split
      next hnetwork => exact Or.inr ⟨chainId, _, rfl, nodup_attempt_registers _, Or.inl hnetwork⟩
      next => exact Or.inl rfl
    next => exact Or.inl rfl
  · split
    next chainId hi =>
      split
      next hnetwork => exact Or.inr ⟨chainId, _, rfl, nodup_attempt_registers _, Or.inl hnetwork⟩
      next => exact Or.inl rfl
    next => exact Or.inl rfl
  · exact Or.inl rfl

theorem nodup_newListeners (cfg : Config) (s : Connections) (a : Action) :
    (s.newListeners cfg a).Nodup := by
  rcases newListeners_cases cfg s a with h | ⟨chainId, events, h, hnodup, -⟩
  · rw [h]
    exact List.nodup_nil
  · rw [h]
    exact hnodup.map fun _ _ h => (Prod.mk.inj h).2

/-- The last step of a removal registers nothing. -/
theorem newListeners_of_returns {a : Action} (h : s.returns a = true) :
    s.newListeners cfg a = [] := by
  cases a with
  | remove i => rfl
  | _ => cases h

/-! ## Chains -/

/-- Only the chains of the configuration are set up. -/
structure Configured (cfg : Config) (s : Connections) : Prop where
  setups : ∀ chains ∈ s.setups, ∀ chainId ∈ chains, (cfg.network? chainId).isSome
  keys : ∀ x ∈ s.keys, (cfg.network? x.1).isSome

theorem isSome_network? {chainId : ℕ} :
    (cfg.network? chainId).isSome ↔ ∃ network ∈ cfg.networks, network.chainId = chainId := by
  unfold Config.network?
  rw [List.find?_isSome]
  simp

/-- Nothing is set up at first. -/
theorem init_setups_keys (cfg : Config) :
    (init cfg).setups = [] ∧ (init cfg).keys = [] := by
  unfold Connections.init
  refine List.foldlRecOn cfg.networks _
    (motive := fun s : Connections => s.setups = [] ∧ s.keys = []) ⟨rfl, rfl⟩ ?_
  intro s hs network _
  split <;> exact hs

namespace Configured

theorem newListeners (hs : Configured cfg s) {a : Action} :
    ∀ x ∈ s.newListeners cfg a, (cfg.network? x.1).isSome := by
  intro x hx
  rcases newListeners_cases cfg s a with h | ⟨chainId, events, h, -, hchain⟩
  · rw [h] at hx
    cases hx
  · rw [h] at hx
    obtain ⟨event, -, rfl⟩ := List.mem_map.1 hx
    rcases hchain with hchain | ⟨chains, hmem, hchain⟩
    · exact hchain
    · exact hs.setups chains hmem chainId hchain

theorem init (cfg : Config) : Configured cfg (init cfg) := by
  refine ⟨fun chains hmem => ?_, fun x hx => ?_⟩
  · rw [(init_setups_keys cfg).1] at hmem
    cases hmem
  · rw [(init_setups_keys cfg).2] at hx
    cases hx

theorem step (hs : Configured cfg s) (hn : s.Numbered) {a : Action} (h : Steps cfg s a s') :
    Configured cfg s' := by
  refine ⟨?_, fun x hx => ?_⟩
  · cases h with
    | setupAll =>
      intro chains hmem
      rcases List.mem_append.1 hmem with hmem | hmem
      · exact hs.setups chains hmem
      · rw [List.mem_singleton.1 hmem]
        intro chainId hchain
        exact isSome_network?.2 (List.mem_map.1 hchain)
    | setup hi hsetups =>
      intro chains hmem chainId hchain
      rcases hsetups chains hmem with hmem | hsub
      · exact hs.setups chains hmem chainId hchain
      · exact hs.setups _ (List.mem_of_getElem? hi) chainId
          (List.mem_cons_of_mem _ (hsub hchain))
    | @error i provider chainId a _ hi h =>
      rw [h.setups]
      unfold observe
      split <;> exact hs.setups
    | timer hi h =>
      rw [h.setups]
      exact hs.setups
    | @remove i chainId rest hi removals removed hremoved =>
      change ∀ chains ∈ (s.removeEventListeners chainId).1.setups, _
      rcases s.removeEventListeners_fst chainId with h | h <;> rw [h] <;> exact hs.setups
    | _ => exact hs.setups
  · rw [keys_of_steps hn h] at hx
    rcases List.mem_append.1 hx with hx | hx
    · exact hs.keys x hx
    · exact hs.newListeners x hx

end Configured

/-! ## Runs -/

theorem count_of_steps (hs : s.Numbered) {a : Action} (h : Steps cfg s a s') (chainId : ℕ)
    (event : EventSignatures) :
    s'.count chainId event =
      s.count chainId event + (s.newListeners cfg a).count (chainId, event) := by
  rw [count_eq, count_eq, keys_of_steps hs h, List.count_append]

theorem count_eq_zero_iff {chainId : ℕ} {event : EventSignatures} :
    s.count chainId event = 0 ↔ ∀ l ∈ s.listeners, (l.chainId, l.event) ≠ (chainId, event) := by
  rw [count_eq, List.count_eq_zero]
  simp [Connections.keys]

/-- A chain and an event whose listeners are counted. -/
theorem OnePerEvent.of_isSome (hp : OnePerEvent cfg s) {x : ℕ × EventSignatures}
    (hx : (cfg.network? x.1).isSome) :
    s.count x.1 x.2 ≤ 1 ∧ (s.removed = true → s.count x.1 x.2 = 0) := by
  obtain ⟨network, hmem, hchain⟩ := isSome_network?.1 hx
  rw [← hchain]
  exact hp network hmem x.2

/-- **One step keeps the property if and only if it meets the condition.** -/
theorem registers_iff (hs : s.Numbered ∧ Configured cfg s) (hp : OnePerEvent cfg s) {a : Action}
    (h : s.step cfg a = some s') : s.Registers cfg a ↔ OnePerEvent cfg s' := by
  have hsteps := steps_of_step h
  have hcount := count_of_steps hs.1 hsteps
  have hremoved := removed_of_steps hsteps
  have hs' := hs.2.step hs.1 hsteps
  constructor
  · rintro ⟨hnew, hreturns⟩ network hmem event
    obtain ⟨hle, hzero⟩ := hp network hmem event
    have hone := List.nodup_iff_count_le_one.1 (nodup_newListeners cfg s a) (network.chainId, event)
    by_cases hx : (network.chainId, event) ∈ s.newListeners cfg a
    · obtain ⟨hkept, hnone⟩ := hnew _ hx
      have hreturn : s.returns a = false := by
        cases hr : s.returns a with
        | false => rfl
        | true =>
          rw [newListeners_of_returns hr] at hx
          cases hx
      rw [hcount, count_eq_zero_iff.2 hnone, hremoved, hkept, hreturn]
      exact ⟨by omega, fun h => by cases h⟩
    · rw [hcount, List.count_eq_zero.2 hx, hremoved, Bool.or_eq_true]
      refine ⟨hle, fun hr => ?_⟩
      rcases hr with hr | hr
      · exact hzero hr
      · refine count_eq_zero_iff.2 fun l hl => ?_
        rw [hreturns hr] at hl
        cases hl
  · intro hp'
    refine ⟨fun x hx => ?_, fun hr => ?_⟩
    · obtain ⟨hle, hzero⟩ := hp'.of_isSome (hs.2.newListeners x hx)
      have hpos : 0 < (s.newListeners cfg a).count (x.1, x.2) := List.count_pos_iff.2 hx
      rw [hcount] at hle hzero
      constructor
      · cases hr : s.removed with
        | false => rfl
        | true =>
          have := hzero (by rw [hremoved, hr]; rfl)
          omega
      · exact count_eq_zero_iff.1 (by omega)
    · refine List.eq_nil_iff_forall_not_mem.2 fun l hl => ?_
      have hmem : (l.chainId, l.event) ∈ s'.keys := by
        rw [keys_of_steps hs.1 hsteps]
        exact List.mem_append_left _ (List.mem_map_of_mem hl)
      have hnone := (hp'.of_isSome (hs'.keys _ hmem)).2 (by rw [hremoved, hr, Bool.or_true])
      rw [count_eq] at hnone
      exact List.count_eq_zero.1 hnone hmem

theorem OnePerEvent.init (cfg : Config) : OnePerEvent cfg (init cfg) := by
  intro network _ event
  have hnone : (Connections.init cfg).count network.chainId event = 0 := by
    rw [count_eq, (init_setups_keys cfg).2, List.count_nil]
  exact ⟨hnone.trans_le (Nat.zero_le 1), fun _ => hnone⟩

/-- **A chain has every listener at most once in every state of a run, and none after a removal,
exactly when listeners are only registered where there are none and a removal only returns when
there are none.** -/
theorem onePerEvent_iff {l : List Action} (hrun : run cfg (init cfg) l = some s) :
    (∀ l' s', l' <+: l → run cfg (init cfg) l' = some s' → OnePerEvent cfg s') ↔
      Async.Along (step cfg) (Registers cfg) (init cfg) l := by
  refine (Async.along_iff (fun s => s.Numbered ∧ Configured cfg s) ?_ (registers_iff · · ·)
    ⟨Numbered.init cfg, Configured.init cfg⟩ (OnePerEvent.init cfg) hrun).symm
  intro s s' a hs h
  have hsteps := steps_of_step h
  exact ⟨hs.1.step hsteps, hs.2.step hs.1 hsteps⟩

/-- Both chains are set up, and the constructor of the provider that replaces the first one's throws
before a new one is found. -/
theorem onePerEvent_iff_sample :
    Async.Along (step Sample.config) (Registers Sample.config) (init Sample.config)
        [.setupAll, .setup 0 .all, .setup 0 .contract, .error 0 .constructorThrows,
          .error 1 (.ready .lockListener)] ∧
      ((∀ l' s', l' <+: [.setupAll, .setup 0 .all, .setup 0 .contract,
            .error 0 .constructorThrows, .error 1 (.ready .lockListener)] →
          run Sample.config (init Sample.config) l' = some s' → OnePerEvent Sample.config s') ↔
        Async.Along (step Sample.config) (Registers Sample.config) (init Sample.config)
          [.setupAll, .setup 0 .all, .setup 0 .contract, .error 0 .constructorThrows,
            .error 1 (.ready .lockListener)]) :=
  ⟨by decide, onePerEvent_iff rfl⟩

/-- After an error on the first chain its lock event has two listeners; and after setting up both
chains and removing the listeners of both, each is still registered. -/
theorem not_onePerEvent_sample :
    (∃ s, run Sample.config (init Sample.config)
        [.setupAll, .setup 0 .all, .error 0 (.ready .all)] = some s ∧
      s.removed = false ∧ ¬ OnePerEvent Sample.config s) ∧
    (∃ s, run Sample.config (init Sample.config)
        [.setupAll, .setup 0 .all, .setup 0 .all, .removeAll, .remove 0, .remove 0] = some s ∧
      s.removed = true ∧ ¬ OnePerEvent Sample.config s) := by
  constructor
  · refine ⟨_, rfl, rfl, fun h => ?_⟩
    have hone := (h { chainId := 1, bridgeAddress := _ } (List.mem_cons_self ..)
      .LOCK_EVENT_SIGNATURE).1
    exact absurd hone (by decide)
  · refine ⟨_, rfl, rfl, fun h => ?_⟩
    have hnone := (h { chainId := 1, bridgeAddress := _ } (List.mem_cons_self ..)
      .LOCK_EVENT_SIGNATURE).2 rfl
    exact absurd hnone (by decide)

end Connections

end Tsunagari
