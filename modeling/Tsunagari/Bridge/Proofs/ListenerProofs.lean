import Tsunagari.Bridge.Listeners
import Tsunagari.Bridge.Sample

/-!
# Proofs: when a chain keeps its listeners

A reconnection that finds its new provider not ready ends without a listener and without another
attempt.
-/

namespace Tsunagari

namespace Connections

variable {cfg : Config} {s s' : Connections}

/-! ## What a step does -/

/-- The effect of `setupEventListeners` on a provider. -/
structure SetsUp (s : Connections) (chainId provider : ℕ) (progress : SetupProgress)
    (s' : Connections) : Prop where
  providers : s'.providers = s.providers
  contracts : s.contracts ≤ s'.contracts
  wsProvider : s'.wsProvider = s.wsProvider
  errorHandlers : ∀ h ∈ s'.errorHandlers, h ∈ s.errorHandlers ∨ h = (provider, chainId)
  listeners : s'.listeners = s.listeners ++ progress.registers.map fun event =>
    { contract := s.contracts, provider, chainId, event }
  fresh : progress.registers ≠ [] → s.contracts < s'.contracts
  attempts : s'.attempts = s.attempts
  timers : s'.timers = s.timers
  setups : s'.setups = s.setups
  observed : s'.observed = s.observed
  removed : s'.removed = s.removed

theorem setsUp {chainId provider : ℕ} (h : s.wsProvider chainId = some provider)
    (progress : SetupProgress) :
    s.SetsUp chainId provider progress (s.setupEventListeners chainId progress).1 ∧
      (s.setupEventListeners chainId progress).2 = decide (progress = .all) := by
  unfold setupEventListeners
  rw [h]
  cases progress with
  | nothing =>
    exact ⟨⟨rfl, le_rfl, rfl, fun _ => Or.inl, (List.append_nil _).symm, fun h => absurd rfl h,
      rfl, rfl, rfl, rfl, rfl⟩, rfl⟩
  | errorHandler =>
    exact ⟨⟨rfl, le_rfl, rfl, fun _ h => by simpa [onError] using h, (List.append_nil _).symm,
      fun h => absurd rfl h, rfl, rfl, rfl, rfl, rfl⟩, rfl⟩
  | contract =>
    exact ⟨⟨rfl, Nat.le_succ _, rfl, fun _ h => by simpa [onError, newContract] using h,
      (List.append_nil _).symm, fun h => absurd rfl h, rfl, rfl, rfl, rfl, rfl⟩, rfl⟩
  | lockListener =>
    exact ⟨⟨rfl, Nat.le_succ _, rfl, fun _ h => by simpa [onError, newContract, on] using h, rfl,
      fun _ => Nat.lt_succ_self _, rfl, rfl, rfl, rfl, rfl⟩, rfl⟩
  | all =>
    exact ⟨⟨rfl, Nat.le_succ _, rfl, fun _ h => by simpa [onError, newContract, on] using h,
      List.append_assoc _ _ _, fun _ => Nat.lt_succ_self _, rfl, rfl, rfl, rfl, rfl⟩, rfl⟩

theorem setupEventListeners_of_none {chainId : ℕ} (h : s.wsProvider chainId = none)
    (progress : SetupProgress) : s.setupEventListeners chainId progress = (s, false) := by
  unfold setupEventListeners
  rw [h]

theorem install_wsProvider (s : Connections) (chainId : ℕ) :
    (s.install chainId).wsProvider chainId = some s.providers := Function.update_self ..

/-- What an attempt to reconnect does. -/
inductive Reconnects (cfg : Config) (s : Connections) (chainId : ℕ) : Attempt → Connections → Prop
  where
  | skipped {a : Attempt} (h : cfg.network? chainId = none) : Reconnects cfg s chainId a s
  | threw : Reconnects cfg s chainId .constructorThrows (s.setTimeout chainId)
  | gaveUp : Reconnects cfg s chainId .notReady { s with providers := s.providers + 1 }
  | installed {progress : SetupProgress} {s' : Connections}
      (hnetwork : (cfg.network? chainId).isSome)
      (h : (s.install chainId).SetsUp chainId s.providers progress s') :
      Reconnects cfg s chainId (.ready progress)
        { s' with attempts := s'.attempts ++ [(chainId, decide (progress = .all))] }

theorem reconnects (cfg : Config) (s : Connections) (chainId : ℕ) (a : Attempt) :
    Reconnects cfg s chainId a (s.reconnectWebSocket cfg chainId a) := by
  unfold reconnectWebSocket
  cases hnetwork : cfg.network? chainId with
  | none => exact .skipped hnetwork
  | some network =>
    cases a with
    | constructorThrows => exact .threw
    | notReady => exact .gaveUp
    | ready progress =>
      obtain ⟨hset, hreturned⟩ := setsUp (s.install_wsProvider chainId) progress
      have hsome : (cfg.network? chainId).isSome := by rw [hnetwork]; rfl
      have h := Reconnects.installed hsome hset
      rw [← hreturned] at h
      exact h

/-- What the removal for a chain does. -/
theorem removeEventListeners_fst (s : Connections) (chainId : ℕ) :
    (s.removeEventListeners chainId).1 = s ∨
      (s.removeEventListeners chainId).1 = s.newContract.removeAllListeners s.contracts := by
  unfold removeEventListeners
  cases s.wsProvider chainId with
  | none => exact Or.inl rfl
  | some provider => exact Or.inr rfl

/-! ## Numbers -/

/-- Whatever is referred to has been created. -/
structure Numbered (s : Connections) : Prop where
  installed : ∀ chainId provider, s.wsProvider chainId = some provider → provider < s.providers
  handlers : ∀ h ∈ s.errorHandlers, h.1 < s.providers
  observed : ∀ x ∈ s.observed, x.1 < s.providers
  listeners : ∀ l ∈ s.listeners, l.contract < s.contracts

namespace Numbered

theorem install (hs : s.Numbered) (chainId : ℕ) : (s.install chainId).Numbered := by
  refine ⟨fun c p hcp => ?_, fun x hx => (hs.handlers x hx).trans (Nat.lt_succ_self _),
    fun x hx => (hs.observed x hx).trans (Nat.lt_succ_self _), hs.listeners⟩
  by_cases hc : c = chainId
  · subst hc
    rw [install_wsProvider] at hcp
    cases hcp
    exact Nat.lt_succ_self _
  · change Function.update _ _ _ c = _ at hcp
    rw [Function.update_of_ne hc] at hcp
    exact (hs.installed c p hcp).trans (Nat.lt_succ_self _)

theorem init (cfg : Config) : Numbered (init cfg) := by
  unfold Connections.init
  refine List.foldlRecOn cfg.networks _ (motive := Numbered) ?_ ?_
  · exact ⟨fun _ _ h => (by cases h), fun _ h => (by cases h), fun _ h => (by cases h),
      fun _ h => by cases h⟩
  · intro s hs network _
    split
    · exact hs
    · exact hs.install network.chainId

theorem setsUp (hs : s.Numbered) {chainId provider : ℕ} {progress : SetupProgress}
    (hp : provider < s.providers) (h : s.SetsUp chainId provider progress s') : s'.Numbered := by
  refine ⟨fun c p hcp => ?_, fun x hx => ?_, fun x hx => ?_, fun l hl => ?_⟩
  · rw [h.providers]
    rw [h.wsProvider] at hcp
    exact hs.installed c p hcp
  · rw [h.providers]
    rcases h.errorHandlers x hx with hx | rfl
    · exact hs.handlers x hx
    · exact hp
  · rw [h.providers]
    rw [h.observed] at hx
    exact hs.observed x hx
  · rw [h.listeners, List.mem_append] at hl
    rcases hl with hl | hl
    · exact (hs.listeners l hl).trans_le h.contracts
    · obtain ⟨event, hevent, rfl⟩ := List.mem_map.1 hl
      exact h.fresh (List.ne_nil_of_mem hevent)

theorem reconnects (hs : s.Numbered) {chainId : ℕ} {a : Attempt}
    (h : Reconnects cfg s chainId a s') : s'.Numbered := by
  cases h with
  | skipped => exact hs
  | threw => exact ⟨hs.installed, hs.handlers, hs.observed, hs.listeners⟩
  | gaveUp =>
    exact ⟨fun c p h => (hs.installed c p h).trans (Nat.lt_succ_self _),
      fun x hx => (hs.handlers x hx).trans (Nat.lt_succ_self _),
      fun x hx => (hs.observed x hx).trans (Nat.lt_succ_self _), hs.listeners⟩
  | installed _ h =>
    have hn := (hs.install chainId).setsUp (Nat.lt_succ_self _) h
    exact ⟨hn.installed, hn.handlers, hn.observed, hn.listeners⟩

theorem observe (hs : s.Numbered) {provider : ℕ} (hp : provider < s.providers) (chainId : ℕ) :
    (s.observe provider chainId).Numbered := by
  unfold Connections.observe
  split
  · refine ⟨hs.installed, hs.handlers, fun x hx => ?_, hs.listeners⟩
    rcases List.mem_append.1 hx with hx | hx
    · exact hs.observed x hx
    · rw [List.mem_singleton.1 hx]
      exact hp
  · exact hs

/-- **Removing removes nothing**: no listener was registered through the new `Contract` object. -/
theorem removeEventListeners_listeners (hs : s.Numbered) (chainId : ℕ) :
    (s.removeEventListeners chainId).1.listeners = s.listeners := by
  rcases s.removeEventListeners_fst chainId with h | h
  · rw [h]
  · rw [h]
    refine List.filter_eq_self.2 fun l hl => decide_eq_true ?_
    exact (hs.listeners l hl).ne

theorem removeEventListeners (hs : s.Numbered) (chainId : ℕ) :
    (s.removeEventListeners chainId).1.Numbered := by
  have hl := hs.removeEventListeners_listeners chainId
  rcases s.removeEventListeners_fst chainId with h | h
  · rw [h]
    exact hs
  · rw [h] at hl ⊢
    exact ⟨hs.installed, hs.handlers, hs.observed, fun l hmem =>
      (hs.listeners l (hl ▸ hmem)).trans (Nat.lt_succ_self _)⟩

end Numbered

/-! ## Steps -/

/-- The steps of the connections. -/
inductive Steps (cfg : Config) (s : Connections) : Action → Connections → Prop where
  | setupAll :
      Steps cfg s .setupAll { s with setups := s.setups ++ [cfg.networks.map Network.chainId] }
  | setup {i chainId : ℕ} {progress : SetupProgress} {rest : List ℕ}
      (hi : s.setups[i]? = some (chainId :: rest)) {setups : List (List ℕ)}
      (hsetups : ∀ chains ∈ setups, chains ∈ s.setups ∨ chains ⊆ rest) :
      Steps cfg s (.setup i progress)
        { (s.setupEventListeners chainId progress).1 with setups }
  | error {i provider chainId : ℕ} {a : Attempt} {s' : Connections}
      (hi : s.errorHandlers[i]? = some (provider, chainId))
      (h : Reconnects cfg (s.observe provider chainId) chainId a s') : Steps cfg s (.error i a) s'
  | returned {i chainId : ℕ} (hi : s.attempts[i]? = some (chainId, true)) :
      Steps cfg s (.resume i) { s with attempts := s.attempts.eraseIdx i }
  | threw {i chainId : ℕ} (hi : s.attempts[i]? = some (chainId, false)) :
      Steps cfg s (.resume i) ({ s with attempts := s.attempts.eraseIdx i }.setTimeout chainId)
  | timer {i chainId : ℕ} {a : Attempt} {s' : Connections} (hi : s.timers[i]? = some chainId)
      (h : Reconnects cfg { s with timers := s.timers.eraseIdx i } chainId a s') :
      Steps cfg s (.timer i a) s'
  | removeAll :
      Steps cfg s .removeAll
        { s with removals := s.removals ++ [cfg.networks.map Network.chainId] }
  | remove {i chainId : ℕ} {rest : List ℕ} (hi : s.removals[i]? = some (chainId :: rest))
      (removals : List (List ℕ)) {removed : Bool}
      (hremoved : removed =
        (s.removed || ((s.removeEventListeners chainId).2 && rest.isEmpty))) :
      Steps cfg s (.remove i)
        { (s.removeEventListeners chainId).1 with removals, removed }

theorem steps_of_step {a : Action} (h : s.step cfg a = some s') : Steps cfg s a s' := by
  cases a with
  | setupAll => cases h; exact .setupAll
  | setup i progress =>
    simp only [step] at h
    split at h
    next chainId rest hi =>
      cases h
      refine .setup hi fun chains hmem => ?_
      rcases List.mem_or_eq_of_mem_set hmem with hmem | rfl
      · exact Or.inl hmem
      · exact Or.inr (by split <;> simp)
    next => cases h
  | error i a =>
    simp only [step] at h
    split at h
    next provider chainId hi => cases h; exact .error hi (reconnects ..)
    next => cases h
  | resume i =>
    simp only [step] at h
    split at h
    next chainId returned hi =>
      cases h
      cases returned with
      | true => exact .returned hi
      | false => exact .threw hi
    next => cases h
  | timer i a =>
    simp only [step] at h
    split at h
    next chainId hi => cases h; exact .timer hi (reconnects ..)
    next => cases h
  | removeAll => cases h; exact .removeAll
  | remove i =>
    simp only [step] at h
    split at h
    next chainId rest hi =>
      cases h
      exact .remove hi _ rfl
    next => cases h

theorem Numbered.setupEventListeners (hs : s.Numbered) (chainId : ℕ) (progress : SetupProgress) :
    (s.setupEventListeners chainId progress).1.Numbered := by
  cases hp : s.wsProvider chainId with
  | none => rw [setupEventListeners_of_none hp]; exact hs
  | some provider => exact hs.setsUp (hs.installed _ _ hp) (Connections.setsUp hp progress).1

theorem Numbered.step (hs : s.Numbered) {a : Action} (h : Steps cfg s a s') : s'.Numbered := by
  cases h with
  | setupAll => exact ⟨hs.installed, hs.handlers, hs.observed, hs.listeners⟩
  | @setup i chainId progress rest hi setups hsetups =>
    have hn := hs.setupEventListeners chainId progress
    exact ⟨hn.installed, hn.handlers, hn.observed, hn.listeners⟩
  | error hi h => exact (hs.observe (hs.handlers _ (List.mem_of_getElem? hi)) _).reconnects h
  | returned => exact ⟨hs.installed, hs.handlers, hs.observed, hs.listeners⟩
  | threw => exact ⟨hs.installed, hs.handlers, hs.observed, hs.listeners⟩
  | @timer i chainId a _ hi h =>
    refine Numbered.reconnects ?_ h
    exact ⟨hs.installed, hs.handlers, hs.observed, hs.listeners⟩
  | removeAll => exact ⟨hs.installed, hs.handlers, hs.observed, hs.listeners⟩
  | @remove i chainId rest hi removals removed =>
    have hn := hs.removeEventListeners chainId
    exact ⟨hn.installed, hn.handlers, hn.observed, hn.listeners⟩

theorem SetsUp.mem_listeners {chainId provider : ℕ} {progress : SetupProgress} {l : Listener}
    (h : s.SetsUp chainId provider progress s') (hl : l ∈ s.listeners) : l ∈ s'.listeners := by
  rw [h.listeners]
  exact List.mem_append_left _ hl

theorem Reconnects.mem_listeners {chainId : ℕ} {a : Attempt} {l : Listener}
    (h : Reconnects cfg s chainId a s') (hl : l ∈ s.listeners) : l ∈ s'.listeners := by
  cases h with
  | installed _ h => exact h.mem_listeners hl
  | _ => exact hl

/-- No step takes a listener away. -/
theorem mem_listeners_of_steps (hs : s.Numbered) {a : Action} (h : Steps cfg s a s') {l : Listener}
    (hl : l ∈ s.listeners) : l ∈ s'.listeners := by
  cases h with
  | @setup i chainId progress rest hi setups hsetups =>
    show l ∈ (s.setupEventListeners chainId progress).1.listeners
    cases hp : s.wsProvider chainId with
    | none =>
      rw [setupEventListeners_of_none hp]
      exact hl
    | some provider => exact (Connections.setsUp hp progress).1.mem_listeners hl
  | error hi h =>
    refine h.mem_listeners ?_
    unfold observe
    split <;> exact hl
  | timer hi h => exact h.mem_listeners hl
  | @remove i chainId rest hi removals removed hremoved =>
    show l ∈ (s.removeEventListeners chainId).1.listeners
    rwa [hs.removeEventListeners_listeners chainId]
  | _ => exact hl

/-! ## No chain is abandoned -/

/-- A newer provider carries the listeners, or a call of `reconnectWebSocket` has failed and will
schedule another one, or one is scheduled. -/
def Settled (s : Connections) (chainId provider : ℕ) : Prop :=
  (∃ newer, s.wsProvider chainId = some newer ∧ provider < newer ∧ s.Carries chainId newer) ∨
    (chainId, false) ∈ s.attempts ∨ chainId ∈ s.timers

theorem Settled.recovers {chainId provider : ℕ} (h : s.Settled chainId provider) :
    s.Recovers chainId provider := by
  rcases h with h | h | h
  · exact Or.inl h
  · exact Or.inr (Or.inl ⟨false, h⟩)
  · exact Or.inr (Or.inr h)

/-- What a chain has in the first state, it has in the second. -/
structure Keeps (s s' : Connections) (chainId : ℕ) : Prop where
  wsProvider : s'.wsProvider chainId = s.wsProvider chainId
  listeners : ∀ l ∈ s.listeners, l ∈ s'.listeners
  attempts : (chainId, false) ∈ s.attempts → (chainId, false) ∈ s'.attempts
  timers : chainId ∈ s.timers → chainId ∈ s'.timers

theorem Keeps.of_eq {chainId : ℕ} (hprovider : s'.wsProvider = s.wsProvider)
    (hlisteners : s'.listeners = s.listeners) (hattempts : s'.attempts = s.attempts)
    (htimers : s'.timers = s.timers) : Keeps s s' chainId where
  wsProvider := by rw [hprovider]
  listeners l hl := by rwa [hlisteners]
  attempts h := by rwa [hattempts]
  timers h := by rwa [htimers]

theorem Settled.keeps {chainId provider : ℕ} (hk : Keeps s s' chainId)
    (h : s.Settled chainId provider) : s'.Settled chainId provider := by
  rcases h with ⟨newer, hp, hlt, hcarries⟩ | h | h
  · refine Or.inl ⟨newer, hk.wsProvider.trans hp, hlt, fun event => ?_⟩
    obtain ⟨l, hl, hprop⟩ := hcarries event
    exact ⟨l, hk.listeners l hl, hprop⟩
  · exact Or.inr (Or.inl (hk.attempts h))
  · exact Or.inr (Or.inr (hk.timers h))

theorem SetsUp.keeps {chainId provider : ℕ} {progress : SetupProgress}
    (h : s.SetsUp chainId provider progress s') (c : ℕ) : Keeps s s' c where
  wsProvider := congrFun h.wsProvider c
  listeners l hl := by
    rw [h.listeners]
    exact List.mem_append_left _ hl
  attempts hmem := by rwa [h.attempts]
  timers hmem := by rwa [h.timers]

theorem Numbered.removeEventListeners_keeps (hs : s.Numbered) (chainId c : ℕ) :
    Keeps s (s.removeEventListeners chainId).1 c := by
  have hl := hs.removeEventListeners_listeners chainId
  rcases s.removeEventListeners_fst chainId with h | h
  · rw [h]
    exact .of_eq rfl rfl rfl rfl
  · rw [h] at hl ⊢
    exact ⟨rfl, fun l h => hl ▸ h, fun h => h, fun h => h⟩

theorem removeEventListeners_observed (s : Connections) (chainId : ℕ) :
    (s.removeEventListeners chainId).1.observed = s.observed := by
  rcases s.removeEventListeners_fst chainId with h | h
  · rw [h]
  · rw [h]
    rfl

theorem SetsUp.carries {chainId provider : ℕ} (h : s.SetsUp chainId provider .all s') :
    s'.Carries chainId provider := by
  intro event
  refine ⟨{ contract := s.contracts, provider, chainId, event }, ?_, rfl, rfl, rfl⟩
  rw [h.listeners]
  refine List.mem_append_right _ (List.mem_map.2 ⟨event, ?_, rfl⟩)
  cases event with
  | LOCK_EVENT_SIGNATURE => exact List.mem_cons_self ..
  | BURN_EVENT_SIGNATURE => exact List.mem_cons_of_mem _ (List.mem_cons_self ..)

/-- An attempt for another chain. -/
theorem Reconnects.keeps {chainId c : ℕ} {a : Attempt} (h : Reconnects cfg s chainId a s')
    (hc : c ≠ chainId) : Keeps s s' c := by
  cases h with
  | skipped => exact .of_eq rfl rfl rfl rfl
  | threw => exact ⟨rfl, fun _ h => h, fun h => h, List.mem_append_left _⟩
  | gaveUp => exact .of_eq rfl rfl rfl rfl
  | installed _ h =>
    have hk := h.keeps c
    refine ⟨hk.wsProvider.trans (Function.update_of_ne hc _ _), hk.listeners, fun hmem => ?_,
      hk.timers⟩
    exact List.mem_append_left _ (hk.attempts hmem)

/-- **An attempt for the chain settles it**, unless the new provider is not ready. -/
theorem Reconnects.settled {chainId provider : ℕ} {a : Attempt}
    (h : Reconnects cfg s chainId a s') (hnetwork : (cfg.network? chainId).isSome)
    (ha : a ≠ .notReady) (hp : provider < s.providers) : s'.Settled chainId provider := by
  cases h with
  | skipped hnone => rw [hnone] at hnetwork; cases hnetwork
  | threw => exact Or.inr (Or.inr (List.mem_append_right _ (List.mem_singleton_self _)))
  | gaveUp => exact absurd rfl ha
  | @installed progress s' _ h =>
    by_cases hall : progress = .all
    · subst hall
      exact Or.inl ⟨s.providers, (congrFun h.wsProvider _).trans (s.install_wsProvider chainId), hp,
        h.carries⟩
    · refine Or.inr (Or.inl (List.mem_append_right _ ?_))
      rw [decide_eq_false hall]
      exact List.mem_singleton_self _

theorem Reconnects.observed {chainId : ℕ} {a : Attempt} (h : Reconnects cfg s chainId a s') :
    s'.observed = s.observed := by
  cases h with
  | installed _ h => exact h.observed
  | _ => rfl

/-- Every chain whose installed provider had an error is settled. -/
structure Safe (cfg : Config) (s : Connections) : Prop where
  numbered : s.Numbered
  settled : ∀ x ∈ s.observed, (cfg.network? x.2).isSome → s.Settled x.2 x.1

theorem Safe.init (cfg : Config) : Safe cfg (init cfg) := by
  refine ⟨Numbered.init cfg, ?_⟩
  have hnone : (Connections.init cfg).observed = [] := by
    unfold Connections.init
    refine List.foldlRecOn cfg.networks _ (motive := fun s : Connections => s.observed = []) rfl ?_
    intro s hs network _
    split <;> exact hs
  rw [hnone]
  exact fun _ h => by cases h

/-- An attempt that does not find its provider unready, in a state where the other chains are
settled. -/
theorem Safe.reconnects {chainId : ℕ} {a : Attempt} (hn : s.Numbered)
    (hother : ∀ x ∈ s.observed, x.2 ≠ chainId → (cfg.network? x.2).isSome → s.Settled x.2 x.1)
    (h : Reconnects cfg s chainId a s') (ha : a ≠ .notReady) : Safe cfg s' := by
  refine ⟨hn.reconnects h, fun x hx hnetwork => ?_⟩
  rw [h.observed] at hx
  by_cases hc : x.2 = chainId
  · obtain ⟨provider, c⟩ := x
    subst hc
    exact h.settled hnetwork ha (hn.observed _ hx)
  · exact (hother x hx hc hnetwork).keeps (h.keeps hc)

/-- What is not at the erased place stays. -/
theorem mem_eraseIdx_of_ne {α : Type} {l : List α} {i : ℕ} {x y : α} (hi : l[i]? = some y)
    (hne : x ≠ y) (hx : x ∈ l) : x ∈ l.eraseIdx i := by
  obtain ⟨j, hj⟩ := List.mem_iff_getElem?.1 hx
  refine List.mem_eraseIdx_iff_getElem?.2 ⟨j, ?_, hj⟩
  rintro rfl
  exact hne (Option.some.inj (hj.symm.trans hi))

theorem Safe.step (hs : Safe cfg s) {a : Action} (ha : a.Ready) (h : s.step cfg a = some s') :
    Safe cfg s' := by
  have hstep := steps_of_step h
  have hnum := hs.numbered.step hstep
  cases hstep with
  | setupAll =>
    exact ⟨hnum, fun x hx hn => (hs.settled x hx hn).keeps (.of_eq rfl rfl rfl rfl)⟩
  | @setup i chainId progress rest hi setups hsetups =>
    refine ⟨hnum, fun x hx hn => ?_⟩
    cases hp : s.wsProvider chainId with
    | none =>
      rw [setupEventListeners_of_none hp] at hx ⊢
      exact (hs.settled x hx hn).keeps (.of_eq rfl rfl rfl rfl)
    | some provider =>
      have hset := (Connections.setsUp hp progress).1
      have hk := hset.keeps x.2
      have hx' : x ∈ s.observed := hset.observed ▸ hx
      exact (hs.settled x hx' hn).keeps ⟨hk.wsProvider, hk.listeners, hk.attempts, hk.timers⟩
  | @error i provider chainId a _ hi h =>
    have hp := hs.numbered.handlers _ (List.mem_of_getElem? hi)
    refine Safe.reconnects (hs.numbered.observe hp chainId) (fun x hx hc hn => ?_) h ha
    unfold observe at hx ⊢
    split at hx
    · rename_i hinst
      rw [if_pos hinst]
      rcases List.mem_append.1 hx with hx | hx
      · exact (hs.settled x hx hn).keeps (.of_eq rfl rfl rfl rfl)
      · rw [List.mem_singleton.1 hx] at hc
        exact absurd rfl hc
    · rename_i hinst
      rw [if_neg hinst]
      exact hs.settled x hx hn
  | @returned i chainId hi =>
    refine ⟨hnum, fun x hx hn => ?_⟩
    -- the call returned, so that it is not one of those that schedule another
    have hk : Keeps s { s with attempts := s.attempts.eraseIdx i } x.2 :=
      ⟨rfl, fun _ h => h, mem_eraseIdx_of_ne hi (fun h => by cases h), fun h => h⟩
    exact (hs.settled x hx hn).keeps hk
  | @threw i chainId hi =>
    refine ⟨hnum, fun x hx hn => ?_⟩
    by_cases hc : x.2 = chainId
    · exact Or.inr (Or.inr (List.mem_append_right _ (List.mem_singleton.2 hc)))
    · have hk : Keeps s ({ s with attempts := s.attempts.eraseIdx i }.setTimeout chainId) x.2 :=
        ⟨rfl, fun _ h => h, mem_eraseIdx_of_ne hi (fun h => hc (congrArg Prod.fst h)),
          List.mem_append_left _⟩
      exact (hs.settled x hx hn).keeps hk
  | @timer i chainId a _ hi h =>
    refine Safe.reconnects ?_ (fun x hx hc hn => ?_) h ha
    · exact ⟨hs.numbered.installed, hs.numbered.handlers, hs.numbered.observed,
        hs.numbered.listeners⟩
    · have hk : Keeps s { s with timers := s.timers.eraseIdx i } x.2 :=
        ⟨rfl, fun _ h => h, fun h => h, mem_eraseIdx_of_ne hi hc⟩
      exact (hs.settled x hx hn).keeps hk
  | removeAll =>
    exact ⟨hnum, fun x hx hn => (hs.settled x hx hn).keeps (.of_eq rfl rfl rfl rfl)⟩
  | @remove i chainId rest hi removals removed =>
    refine ⟨hnum, fun x hx hn => ?_⟩
    have hk := hs.numbered.removeEventListeners_keeps chainId x.2
    have hx' : x ∈ s.observed := s.removeEventListeners_observed chainId ▸ hx
    exact (hs.settled x hx' hn).keeps ⟨hk.wsProvider, hk.listeners, hk.attempts, hk.timers⟩

/-- **No chain is abandoned in a run in which every new provider is ready or cannot be created.** -/
theorem recovers_of_ready {l : List Action} (hl : ∀ a ∈ l, a.Ready)
    (hrun : run cfg (init cfg) l = some s) :
    ∀ network ∈ cfg.networks, ∀ provider, (provider, network.chainId) ∈ s.observed →
      s.Recovers network.chainId provider := by
  intro network hmem provider hobs
  have hs := Async.exec_invariant (Safe cfg) Action.Ready (fun ha hs h => hs.step ha h)
    (Safe.init cfg) hl hrun
  have hsome : (cfg.network? network.chainId).isSome :=
    List.find?_isSome.2 ⟨network, hmem, decide_eq_true rfl⟩
  exact (hs.settled _ hobs hsome).recovers

/-- The second attempt to set up throws in the middle, and so does the constructor of the provider
that replaces the first chain's. -/
theorem recovers_of_ready_sample :
    ∃ s, run Sample.config (init Sample.config)
        [.setupAll, .setup 0 .all, .setup 0 .lockListener, .error 0 .constructorThrows] = some s ∧
      (0, 1) ∈ s.observed ∧ s.Recovers 1 0 := by
  obtain ⟨s, hrun⟩ : ∃ s, run Sample.config (init Sample.config)
      [.setupAll, .setup 0 .all, .setup 0 .lockListener, .error 0 .constructorThrows] = some s :=
    ⟨_, rfl⟩
  have hobserved : (0, 1) ∈ s.observed := by
    cases hrun
    exact List.mem_singleton_self _
  exact ⟨s, hrun, hobserved, recovers_of_ready (by decide) hrun { chainId := 1, bridgeAddress := _ }
    (List.mem_cons_self ..) 0 hobserved⟩

/-- The new provider of the first chain is not ready: nothing listens to it, and nothing will. -/
theorem not_recovers_sample :
    ∃ s, run Sample.config (init Sample.config)
        [.setupAll, .setup 0 .all, .setup 0 .all, .error 0 .notReady] = some s ∧
      (0, 1) ∈ s.observed ∧ ¬ s.Recovers 1 0 := by
  refine ⟨_, rfl, List.mem_singleton_self _, ?_⟩
  rintro (⟨newer, hp, hlt, -⟩ | ⟨returned, h⟩ | h)
  · -- the provider of the chain is still the first one
    cases hp
    exact absurd hlt (Nat.lt_irrefl 0)
  · cases h
  · cases h

end Connections

end Tsunagari
