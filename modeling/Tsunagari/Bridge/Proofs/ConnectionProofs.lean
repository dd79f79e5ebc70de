import Tsunagari.Bridge.Proofs.ListenerCountProofs

/-!
# Proofs: providers, attempts, and the chains that are never set up

A provider serves one chain, and an error leads to one attempt at a time. The first chain that
cannot be set up ends the call of `setupAllEventListeners`, and nobody ever gets back to the chains
after it.
-/

namespace Tsunagari

/-! ## The maps of the constructor -/

/-- What the loop adds to a map. -/
theorem EthereumClientService.foldl_collect {α : Type} (value : Network → α)
    (networks : List Network) (map : ℕ → Option α) (chainId : ℕ) :
    networks.foldl
        (fun map network =>
          if (map network.chainId).isSome then map
          else Function.update map network.chainId (some (value network))) map chainId =
      (map chainId).or ((networks.find? fun n => n.chainId = chainId).map value) := by
  induction networks generalizing map with
  | nil => simp
  | cons network networks ih =>
    rw [List.foldl_cons, ih, List.find?_cons]
    by_cases hc : network.chainId = chainId
    · subst hc
      cases hm : map network.chainId with
      | none => simp
      | some a => simp [hm]
    · have hkept : (if (map network.chainId).isSome then map
          else Function.update map network.chainId (some (value network))) chainId =
          map chainId := by
        split
        · rfl
        · exact Function.update_of_ne (fun h => hc h.symm) _ _
      rw [hkept, decide_eq_false hc]

/-- **The maps hold what the first entry of the chain gives**, so that a lookup in one of them is a
lookup in the configuration. -/
theorem EthereumClientService.maps_eq (cfg : Config) (node : Node) (chainId : ℕ) :
    bridgeAddresses cfg chainId = (cfg.network? chainId).map Network.bridgeAddress ∧
      wallets cfg node chainId = (cfg.network? chainId).map fun _ => node.privateKey :=
  ⟨foldl_collect _ _ _ _, foldl_collect _ _ _ _⟩

namespace Connections

variable {cfg : Config} {s s' : Connections}

/-! ## Chains that nobody sees to -/

theorem Quiet.of_eq {c : ℕ} (hs : s.Quiet c) (hhandlers : s'.errorHandlers = s.errorHandlers)
    (hlisteners : ∀ l ∈ s'.listeners, l ∈ s.listeners)
    (hattempts : ∀ x ∈ s'.attempts, x ∈ s.attempts)
    (htimers : ∀ x ∈ s'.timers, x ∈ s.timers) : s'.Quiet c where
  errorHandlers h hh := hs.errorHandlers h (hhandlers ▸ hh)
  listeners l hl := hs.listeners l (hlisteners l hl)
  attempts x hx := hs.attempts x (hattempts x hx)
  timers h := hs.timers (htimers c h)

/-- Another chain is set up. -/
theorem SetsUp.quiet {chainId provider c : ℕ} {progress : SetupProgress}
    (h : s.SetsUp chainId provider progress s') (hc : c ≠ chainId) (hs : s.Quiet c) :
    s'.Quiet c := by
  refine ⟨fun x hx => ?_, fun l hl => ?_, fun x hx => ?_, ?_⟩
  · rcases h.errorHandlers x hx with hx | rfl
    · exact hs.errorHandlers x hx
    · exact hc.symm
  · rw [h.listeners, List.mem_append] at hl
    rcases hl with hl | hl
    · exact hs.listeners l hl
    · obtain ⟨event, -, rfl⟩ := List.mem_map.1 hl
      exact hc.symm
  · rw [h.attempts] at hx
    exact hs.attempts x hx
  · rw [h.timers]
    exact hs.timers

theorem Quiet.setupEventListeners {chainId c : ℕ} (hs : s.Quiet c) (hc : c ≠ chainId)
    (progress : SetupProgress) : (s.setupEventListeners chainId progress).1.Quiet c := by
  cases hp : s.wsProvider chainId with
  | none =>
    rw [setupEventListeners_of_none hp]
    exact hs
  | some provider => exact (setsUp hp progress).1.quiet hc hs

/-- An attempt is made for another chain. -/
theorem Reconnects.quiet {chainId c : ℕ} {a : Attempt} (h : Reconnects cfg s chainId a s')
    (hc : c ≠ chainId) (hs : s.Quiet c) : s'.Quiet c := by
  cases h with
  | skipped => exact hs
  | threw =>
    refine ⟨hs.errorHandlers, hs.listeners, hs.attempts, fun h => ?_⟩
    rcases List.mem_append.1 h with h | h
    · exact hs.timers h
    · exact hc (List.mem_singleton.1 h)
  | gaveUp => exact ⟨hs.errorHandlers, hs.listeners, hs.attempts, hs.timers⟩
  | installed _ h =>
    have hq := h.quiet hc ⟨hs.errorHandlers, hs.listeners, hs.attempts, hs.timers⟩
    refine ⟨hq.errorHandlers, hq.listeners, fun x hx => ?_, hq.timers⟩
    rcases List.mem_append.1 hx with hx | hx
    · exact hq.attempts x hx
    · rw [List.mem_singleton.1 hx]
      exact hc.symm

theorem Quiet.observe {c : ℕ} (hs : s.Quiet c) (provider chainId : ℕ) :
    (s.observe provider chainId).Quiet c := by
  unfold Connections.observe
  split <;> exact ⟨hs.errorHandlers, hs.listeners, hs.attempts, hs.timers⟩

/-- **A chain that is left alone stays so**, until `setupEventListeners` is called for it. -/
theorem Quiet.step {c : ℕ} (hs : s.Quiet c) {a : Action} (h : Steps cfg s a s')
    (hsetup : ∀ i progress rest, a = .setup i progress → s.setups[i]? ≠ some (c :: rest)) :
    s'.Quiet c := by
  cases h with
  | setupAll => exact ⟨hs.errorHandlers, hs.listeners, hs.attempts, hs.timers⟩
  | @setup i chainId progress rest hi setups hsetups =>
    have hc : c ≠ chainId := by
      rintro rfl
      exact hsetup i progress rest rfl hi
    have hq := hs.setupEventListeners hc progress
    exact ⟨hq.errorHandlers, hq.listeners, hq.attempts, hq.timers⟩
  | @error i provider chainId a _ hi h =>
    exact h.quiet (hs.errorHandlers _ (List.mem_of_getElem? hi)).symm (hs.observe provider chainId)
  | returned hi =>
    exact hs.of_eq rfl (fun _ h => h) (fun _ h => List.mem_of_mem_eraseIdx h) fun _ h => h
  | @threw i chainId hi =>
    refine ⟨hs.errorHandlers, hs.listeners,
      fun x hx => hs.attempts x (List.mem_of_mem_eraseIdx hx), fun h => ?_⟩
    rcases List.mem_append.1 h with h | h
    · exact hs.timers h
    · exact hs.attempts _ (List.mem_of_getElem? hi) (List.mem_singleton.1 h).symm
  | @timer i chainId a _ hi h =>
    refine h.quiet ?_ (hs.of_eq rfl (fun _ h => h) (fun _ h => h)
      fun _ h => List.mem_of_mem_eraseIdx h)
    rintro rfl
    exact hs.timers (List.mem_of_getElem? hi)
  | removeAll => exact ⟨hs.errorHandlers, hs.listeners, hs.attempts, hs.timers⟩
  | @remove i chainId rest hi removals removed =>
    have hq : (s.removeEventListeners chainId).1.Quiet c := by
      rcases s.removeEventListeners_fst chainId with h | h
      · rw [h]
        exact hs
      · rw [h]
        exact hs.of_eq rfl (fun _ h => List.mem_of_mem_filter h) (fun _ h => h) fun _ h => h
    exact ⟨hq.errorHandlers, hq.listeners, hq.attempts, hq.timers⟩

/-! ## The call of `setupAllEventListeners` -/

theorem Carries.mono {chainId provider : ℕ} (h : s.Carries chainId provider)
    (hl : ∀ l ∈ s.listeners, l ∈ s'.listeners) : s'.Carries chainId provider := by
  intro event
  obtain ⟨l, hmem, hprop⟩ := h event
  exact ⟨l, hl l hmem, hprop⟩

/-- Every chain of the configuration has a provider. -/
def Installed (cfg : Config) (s : Connections) : Prop :=
  ∀ chainId ∈ cfg.networks.map Network.chainId, (s.wsProvider chainId).isSome

theorem isSome_install {chainId c : ℕ} (h : (s.wsProvider c).isSome) :
    ((s.install chainId).wsProvider c).isSome := by
  by_cases hc : c = chainId
  · subst hc
    rw [install_wsProvider]
    rfl
  · show (Function.update s.wsProvider chainId (some s.providers) c).isSome
    rwa [Function.update_of_ne hc]

namespace Installed

theorem init (cfg : Config) : Installed cfg (init cfg) := by
  unfold Connections.init
  suffices h : ∀ (networks : List Network) (s : Connections) (c : ℕ),
      (s.wsProvider c).isSome ∨ c ∈ networks.map Network.chainId →
        ((networks.foldl (fun s network =>
          if (s.wsProvider network.chainId).isSome then s else s.install network.chainId)
            s).wsProvider c).isSome from
    fun c hc => h _ _ c (Or.inr hc)
  intro networks
  induction networks with
  | nil =>
    rintro s c (h | h)
    · exact h
    · cases h
  | cons network networks ih =>
    intro s c h
    refine ih _ c ?_
    dsimp only
    rcases h with h | h
    · split
      · exact Or.inl h
      · exact Or.inl (isSome_install h)
    · rcases List.mem_cons.1 h with rfl | h
      · split
        next hsome => exact Or.inl hsome
        next =>
          rw [install_wsProvider]
          exact Or.inl rfl
      · exact Or.inr h

theorem reconnects (hs : Installed cfg s) {chainId : ℕ} {a : Attempt}
    (h : Reconnects cfg s chainId a s') : Installed cfg s' := by
  cases h with
  | installed _ h =>
    exact fun c hc => (congrFun h.wsProvider c).symm ▸ isSome_install (hs c hc)
  | _ => exact hs

theorem step (hs : Installed cfg s) {a : Action} (h : Steps cfg s a s') : Installed cfg s' := by
  cases h with
  | @setup i chainId progress rest hi setups hsetups =>
    intro c hc
    show ((s.setupEventListeners chainId progress).1.wsProvider c).isSome
    cases hp : s.wsProvider chainId with
    | none =>
      rw [setupEventListeners_of_none hp]
      exact hs c hc
    | some provider =>
      rw [(setsUp hp progress).1.wsProvider]
      exact hs c hc
  | @error i provider chainId a _ hi h =>
    refine Installed.reconnects (fun c hc => ?_) h
    unfold observe
    split <;> exact hs c hc
  | timer hi h =>
    refine Installed.reconnects ?_ h
    exact hs
  | @remove i chainId rest hi removals removed =>
    intro c hc
    rcases s.removeEventListeners_fst chainId with h | h
    · show ((s.removeEventListeners chainId).1.wsProvider c).isSome
      rw [h]
      exact hs c hc
    · show ((s.removeEventListeners chainId).1.wsProvider c).isSome
      rw [h]
      exact hs c hc
  | _ => exact hs

end Installed

/-- What a step of `setupAllEventListeners` does. -/
theorem step_setup {i : ℕ} {progress : SetupProgress}
    (h : s.step cfg (.setup i progress) = some s') :
    ∃ chainId rest, s.setups[i]? = some (chainId :: rest) ∧
      s' = { (s.setupEventListeners chainId progress).1 with
        setups := s.setups.set i
          (if (s.setupEventListeners chainId progress).2 then rest else []) } := by
  simp only [step] at h
  split at h
  next chainId rest hi =>
    cases h
    exact ⟨chainId, rest, hi, rfl⟩
  next => cases h

/-- Only the steps of `setupAllEventListeners` change how far it has got. -/
theorem setups_of_steps {a : Action} (h : Steps cfg s a s') (hall : a ≠ .setupAll)
    (hsetup : ∀ i progress, a ≠ .setup i progress) : s'.setups = s.setups := by
  cases h with
  | setupAll => exact absurd rfl hall
  | setup => exact absurd rfl (hsetup _ _)
  | error hi h =>
    rw [h.setups]
    unfold observe
    split <;> rfl
  | timer hi h => exact h.setups
  | @remove i chainId rest hi removals removed =>
    show (s.removeEventListeners chainId).1.setups = s.setups
    rcases s.removeEventListeners_fst chainId with h | h
    · rw [h]
    · rw [h]
      rfl
  | _ => rfl

namespace SetUp

variable {done failed left dropped : List ℕ}

/-- Something else happens than a step of the call. -/
theorem other (hs : SetUp cfg s done failed left dropped) (hn : s.Numbered) {a : Action}
    (h : Steps cfg s a s') (hall : a ≠ .setupAll) (hsetup : ∀ i progress, a ≠ .setup i progress) :
    SetUp cfg s' done failed left dropped where
  chains := hs.chains
  setups := (setups_of_steps h hall hsetup).trans hs.setups
  failed := hs.failed
  carries chainId hmem := by
    obtain ⟨provider, hcarries⟩ := hs.carries chainId hmem
    exact ⟨provider, hcarries.mono fun _ => mem_listeners_of_steps hn h⟩
  quiet chainId hmem :=
    (hs.quiet chainId hmem).step h fun i progress rest ha => absurd ha (hsetup i progress)

/-- The call gets to its next chain. -/
theorem setup (hs : SetUp cfg s done failed left dropped) (hi : Installed cfg s)
    (hnodup : (cfg.networks.map Network.chainId).Nodup) {i : ℕ}
    {progress : SetupProgress} (h : s.step cfg (.setup i progress) = some s') :
    ∃ done' failed' left' dropped', SetUp cfg s' done' failed' left' dropped' ∧
      (failed' = [] ↔ failed = [] ∧ progress = .all) := by
  have hstep := steps_of_step h
  obtain ⟨chainId, rest, hget, rfl⟩ := step_setup h
  rw [hs.setups] at hget
  obtain ⟨rfl, rfl⟩ : i = 0 ∧ left = chainId :: rest := by
    cases i with
    | zero => exact ⟨rfl, Option.some.inj hget⟩
    | succ i => cases hget
  obtain ⟨rfl, rfl⟩ : failed = [] ∧ dropped = [] := by
    rcases hs.failed with h | ⟨-, h⟩
    · exact h
    · cases h
  have hchains := hs.chains
  simp only [List.append_nil] at hchains
  obtain ⟨provider, hp⟩ : ∃ provider, s.wsProvider chainId = some provider :=
    Option.isSome_iff_exists.1 (hi chainId (by rw [hchains]; simp))
  obtain ⟨hsets, hreturned⟩ := setsUp hp progress
  have hcarries : ∀ c ∈ done, ∃ provider, Connections.Carries
      { (s.setupEventListeners chainId progress).1 with
        setups := s.setups.set 0
          (if (s.setupEventListeners chainId progress).2 then rest else []) } c provider := by
    intro c hc
    obtain ⟨provider, hcarries⟩ := hs.carries c hc
    exact ⟨provider, hcarries.mono fun _ => hsets.mem_listeners⟩
  have hquiet : ∀ c ∈ rest, Connections.Quiet
      { (s.setupEventListeners chainId progress).1 with
        setups := s.setups.set 0
          (if (s.setupEventListeners chainId progress).2 then rest else []) } c := by
    intro c hc
    refine (hs.quiet c (by simp [hc])).step hstep fun i progress rest' ha hget' => ?_
    cases ha
    rw [hs.setups] at hget'
    cases hget'
    rw [hchains] at hnodup
    exact (List.nodup_cons.1 (List.nodup_append.1 hnodup).2.1).1 hc
  by_cases hall : progress = .all
  · subst hall
    refine ⟨done ++ [chainId], [], rest, [], ⟨by simp [hchains], ?_, Or.inl ⟨rfl, rfl⟩, ?_, ?_⟩,
      by simp⟩
    · rw [hs.setups, hreturned]
      rfl
    · intro c hc
      rcases List.mem_append.1 hc with hc | hc
      · exact hcarries c hc
      · rw [List.mem_singleton.1 hc]
        exact ⟨provider, hsets.carries.mono fun _ h => h⟩
    · simpa using hquiet
  · refine ⟨done, [chainId], [], rest, ⟨by simp [hchains], ?_, Or.inr ⟨rfl, rfl⟩, hcarries, ?_⟩,
      by simp [hall]⟩
    · rw [hs.setups, hreturned, decide_eq_false hall]
      rfl
    · simpa using hquiet

theorem step (hs : SetUp cfg s done failed left dropped) (hn : s.Numbered)
    (hi : Installed cfg s) (hnodup : (cfg.networks.map Network.chainId).Nodup) {a : Action}
    (ha : a ≠ .setupAll) (h : s.step cfg a = some s') :
    ∃ done' failed' left' dropped', SetUp cfg s' done' failed' left' dropped' ∧
      (failed' = [] ↔ failed = [] ∧ a.Returns) := by
  by_cases hsetup : ∃ i progress, a = .setup i progress
  · obtain ⟨i, progress, rfl⟩ := hsetup
    exact hs.setup hi hnodup h
  · have hne : ∀ i progress, a ≠ .setup i progress := fun i progress h => hsetup ⟨i, progress, h⟩
    have hreturns : a.Returns := by
      cases a with
      | setup i progress => exact absurd rfl (hne i progress)
      | _ => trivial
    exact ⟨done, failed, left, dropped, hs.other hn (steps_of_step h) ha hne,
      by simp [hreturns]⟩

theorem run (hs : SetUp cfg s done failed left dropped) (hn : s.Numbered) (hi : Installed cfg s)
    (hnodup : (cfg.networks.map Network.chainId).Nodup) {l : List Action} (hl : .setupAll ∉ l)
    (h : Connections.run cfg s l = some s') :
    ∃ done' failed' left' dropped', SetUp cfg s' done' failed' left' dropped' ∧
      (failed' = [] ↔ failed = [] ∧ ∀ a ∈ l, a.Returns) := by
  induction l generalizing s done failed left dropped with
  | nil =>
    cases h
    exact ⟨done, failed, left, dropped, hs, by simp⟩
  | cons a l ih =>
    obtain ⟨s₁, h₁, h₂⟩ := Async.exec_cons.1 h
    obtain ⟨ha, hl⟩ := List.ne_and_not_mem_of_not_mem_cons hl
    obtain ⟨done₁, failed₁, left₁, dropped₁, hs₁, hiff₁⟩ := hs.step hn hi hnodup ha.symm h₁
    have hsteps := steps_of_step h₁
    obtain ⟨done', failed', left', dropped', hs', hiff⟩ :=
      ih hs₁ (hn.step hsteps) (hi.step hsteps) hl h₂
    refine ⟨done', failed', left', dropped', hs', ?_⟩
    rw [hiff, hiff₁, List.forall_mem_cons, and_assoc]

end SetUp

/-- Nothing is under way at first. -/
theorem init_quiet (cfg : Config) (c : ℕ) : (init cfg).Quiet c := by
  have hnone : (init cfg).errorHandlers = [] ∧ (init cfg).listeners = [] ∧
      (init cfg).attempts = [] ∧ (init cfg).timers = [] := by
    unfold Connections.init
    refine List.foldlRecOn cfg.networks _ (motive := fun s : Connections => s.errorHandlers = [] ∧
      s.listeners = [] ∧ s.attempts = [] ∧ s.timers = []) ⟨rfl, rfl, rfl, rfl⟩ ?_
    intro s hs network _
    split <;> exact hs
  obtain ⟨hhandlers, hlisteners, hattempts, htimers⟩ := hnone
  refine ⟨?_, ?_, ?_, ?_⟩
  · rw [hhandlers]
    exact fun _ h => by cases h
  · rw [hlisteners]
    exact fun _ h => by cases h
  · rw [hattempts]
    exact fun _ h => by cases h
  · rw [htimers]
    exact List.not_mem_nil

/-- **After the only call of `setupAllEventListeners`** every chain before the first one that failed
keeps its listeners, whatever happens, and the chains after it are never listened to. -/
theorem setUp_of_run (hnodup : (cfg.networks.map Network.chainId).Nodup) {l : List Action}
    (hl : .setupAll ∉ l) (hrun : run cfg (init cfg) (.setupAll :: l) = some s) :
    ∃ done failed left dropped, SetUp cfg s done failed left dropped ∧
      (failed = [] ↔ ∀ a ∈ l, a.Returns) := by
  obtain ⟨s₁, h₁, h₂⟩ := Async.exec_cons.1 hrun
  have hsteps := steps_of_step h₁
  have hstart : SetUp cfg s₁ [] [] (cfg.networks.map Network.chainId) [] := by
    cases h₁
    refine ⟨by simp, ?_, Or.inl ⟨rfl, rfl⟩, fun _ h => (by cases h), fun c _ => ?_⟩
    · show (init cfg).setups ++ _ = _
      rw [(init_setups_keys cfg).1]
      rfl
    · have hq := init_quiet cfg c
      exact ⟨hq.errorHandlers, hq.listeners, hq.attempts, hq.timers⟩
  obtain ⟨done, failed, left, dropped, hs, hiff⟩ := hstart.run ((Numbered.init cfg).step hsteps)
    ((Installed.init cfg).step hsteps) hnodup hl h₂
  exact ⟨done, failed, left, dropped, hs, by simpa using hiff⟩

/-- The first chain fails after its error handler: it comes back, and the second chain is lost. -/
theorem setUp_of_run_sample : ∃ s, run Sample.config (init Sample.config)
      [.setupAll, .setup 0 .errorHandler, .error 0 (.ready .all), .resume 0] = some s ∧
    s.keys = [(1, .LOCK_EVENT_SIGNATURE), (1, .BURN_EVENT_SIGNATURE)] ∧
      ∃ done failed left dropped, SetUp Sample.config s done failed left dropped ∧ failed ≠ [] := by
  obtain ⟨s, hrun, hkeys⟩ : ∃ s, run Sample.config (init Sample.config)
      [.setupAll, .setup 0 .errorHandler, .error 0 (.ready .all), .resume 0] = some s ∧
        s.keys = [(1, .LOCK_EVENT_SIGNATURE), (1, .BURN_EVENT_SIGNATURE)] := ⟨_, rfl, rfl⟩
  obtain ⟨done, failed, left, dropped, hs, hiff⟩ :=
    setUp_of_run (by decide) (by decide) hrun
  refine ⟨s, hrun, hkeys, done, failed, left, dropped, hs, fun hnil => ?_⟩
  have hreturns := hiff.1 hnil (.setup 0 .errorHandler) (List.mem_cons_self ..)
  cases hreturns

/-! ## Attempts -/

/-- The calls of `reconnectWebSocket` that are under way or scheduled. -/
def pending (s : Connections) : ℕ := s.attempts.length + s.timers.length

theorem Reconnects.pending_le_succ {chainId : ℕ} {a : Attempt} (h : Reconnects cfg s chainId a s') :
    s'.pending ≤ s.pending + 1 := by
  unfold pending
  cases h with
  | skipped => exact Nat.le_succ _
  | threw =>
    rw [setTimeout, List.length_append]
    exact le_rfl
  | gaveUp => exact Nat.le_succ _
  | installed _ h =>
    dsimp only
    rw [h.attempts, h.timers, List.length_append, List.length_singleton]
    show s.attempts.length + 1 + s.timers.length ≤ _
    omega

/-- Only an error starts another attempt; one that goes on takes the place of the last one. -/
theorem pending_of_steps {a : Action} (h : Steps cfg s a s') :
    s'.pending ≤ s.pending + if a.isError then 1 else 0 := by
  cases h with
  | @setup i chainId progress rest hi setups hsetups =>
    refine le_of_eq ?_
    show (s.setupEventListeners chainId progress).1.pending = _
    cases hp : s.wsProvider chainId with
    | none =>
      rw [setupEventListeners_of_none hp]
      rfl
    | some provider =>
      have hset := (setsUp hp progress).1
      unfold pending
      rw [hset.attempts, hset.timers]
      rfl
  | @error i provider chainId a _ hi h =>
    have hobserve : (s.observe provider chainId).pending = s.pending := by
      unfold observe
      split <;> rfl
    exact hobserve ▸ h.pending_le_succ
  | returned hi => exact Nat.add_le_add_right (List.length_eraseIdx_le _ _) _
  | @threw i chainId hi =>
    have hlt := (List.getElem?_eq_some_iff.1 hi).1
    unfold pending
    rw [setTimeout, List.length_append, List.length_eraseIdx_of_lt hlt, List.length_singleton]
    show s.attempts.length - 1 + (s.timers.length + 1) ≤ s.attempts.length + s.timers.length
    omega
  | @timer i chainId a _ hi h =>
    have hlt := (List.getElem?_eq_some_iff.1 hi).1
    refine h.pending_le_succ.trans ?_
    unfold pending
    rw [List.length_eraseIdx_of_lt hlt]
    show s.attempts.length + (s.timers.length - 1) + 1 ≤ s.attempts.length + s.timers.length
    omega
  | @remove i chainId rest hi removals removed =>
    refine le_of_eq ?_
    show (s.removeEventListeners chainId).1.pending = _
    rcases s.removeEventListeners_fst chainId with h | h <;> rw [h] <;> rfl
  | _ => exact le_rfl

/-- **The calls of `reconnectWebSocket` that are under way or scheduled are never more than the
errors that were reported**: attempts do not multiply. -/
theorem pending_le {l : List Action} (hrun : run cfg (init cfg) l = some s) :
    s.attempts.length + s.timers.length ≤ l.countP Action.isError := by
  have hinit : (init cfg).pending = 0 := by
    unfold Connections.init
    refine List.foldlRecOn cfg.networks _ (motive := fun s : Connections => s.pending = 0) rfl ?_
    intro s hs network _
    split <;> exact hs
  have h := Async.exec_le_countP (fun _ => True) pending Action.isError (fun _ _ => trivial)
    (fun _ h => pending_of_steps (steps_of_step h)) trivial hrun
  rwa [hinit, Nat.zero_add] at h

/-- Two errors of the first chain's provider: one new provider cannot be created, and the other one
cannot be set up. -/
theorem pending_le_sample :
    ∃ s, run Sample.config (init Sample.config)
        [.setupAll, .setup 0 .all, .error 0 .constructorThrows, .error 0 (.ready .contract),
          .timer 0 .constructorThrows, .resume 0] = some s ∧
      s.timers.length = 2 ∧ s.attempts.length + s.timers.length ≤ 2 := by
  obtain ⟨s, hrun, hlength⟩ : ∃ s, run Sample.config (init Sample.config)
      [.setupAll, .setup 0 .all, .error 0 .constructorThrows, .error 0 (.ready .contract),
        .timer 0 .constructorThrows, .resume 0] = some s ∧ s.timers.length = 2 := ⟨_, rfl, rfl⟩
  exact ⟨s, hrun, hlength, pending_le hrun⟩

/-! ## Providers -/

/-- Every provider has one chain: that for which it is installed, that its error handlers reconnect,
and that of the listeners on it. -/
structure Owned (owner : ℕ → ℕ) (s : Connections) : Prop where
  installed : ∀ chainId provider, s.wsProvider chainId = some provider →
    owner provider = chainId ∧ provider < s.providers
  handlers : ∀ h ∈ s.errorHandlers, owner h.1 = h.2 ∧ h.1 < s.providers
  listeners : ∀ l ∈ s.listeners, owner l.provider = l.chainId ∧ l.provider < s.providers

namespace Owned

variable {owner : ℕ → ℕ}

theorem of_eq (hs : Owned owner s) (hproviders : s.providers ≤ s'.providers)
    (hinstalled : s'.wsProvider = s.wsProvider) (hhandlers : s'.errorHandlers = s.errorHandlers)
    (hlisteners : ∀ l ∈ s'.listeners, l ∈ s.listeners) : Owned owner s' := by
  refine ⟨fun c p h => ?_, fun h hh => ?_, fun l hl => ?_⟩
  · obtain ⟨hp, hlt⟩ := hs.installed c p (hinstalled ▸ h)
    exact ⟨hp, hlt.trans_le hproviders⟩
  · obtain ⟨hp, hlt⟩ := hs.handlers h (hhandlers ▸ hh)
    exact ⟨hp, hlt.trans_le hproviders⟩
  · obtain ⟨hp, hlt⟩ := hs.listeners l (hlisteners l hl)
    exact ⟨hp, hlt.trans_le hproviders⟩

/-- A new provider belongs to the chain for which it is created. -/
theorem install (hs : Owned owner s) (chainId : ℕ) :
    Owned (Function.update owner s.providers chainId) (s.install chainId) := by
  have hold : ∀ {p c}, owner p = c ∧ p < s.providers →
      Function.update owner s.providers chainId p = c ∧ p < s.providers + 1 := by
    rintro p c ⟨hp, hlt⟩
    exact ⟨by rw [Function.update_of_ne hlt.ne, hp], hlt.trans (Nat.lt_succ_self _)⟩
  refine ⟨fun c p h => ?_, fun h hh => hold (hs.handlers h hh),
    fun l hl => hold (hs.listeners l hl)⟩
  by_cases hc : c = chainId
  · subst hc
    rw [install_wsProvider] at h
    cases h
    exact ⟨Function.update_self .., Nat.lt_succ_self _⟩
  · change Function.update _ _ _ c = _ at h
    rw [Function.update_of_ne hc] at h
    exact hold (hs.installed c p h)

theorem setsUp (hs : Owned owner s) {chainId provider : ℕ} {progress : SetupProgress}
    (hp : owner provider = chainId ∧ provider < s.providers)
    (h : s.SetsUp chainId provider progress s') : Owned owner s' := by
  refine ⟨fun c p hcp => ?_, fun x hx => ?_, fun l hl => ?_⟩
  · rw [h.providers]
    exact hs.installed c p (h.wsProvider ▸ hcp)
  · rw [h.providers]
    rcases h.errorHandlers x hx with hx | rfl
    · exact hs.handlers x hx
    · exact hp
  · rw [h.providers]
    rw [h.listeners, List.mem_append] at hl
    rcases hl with hl | hl
    · exact hs.listeners l hl
    · obtain ⟨event, -, rfl⟩ := List.mem_map.1 hl
      exact hp

theorem reconnects (hs : Owned owner s) {chainId : ℕ} {a : Attempt}
    (h : Reconnects cfg s chainId a s') : ∃ owner', Owned owner' s' := by
  cases h with
  | skipped => exact ⟨owner, hs⟩
  | threw => exact ⟨owner, hs.of_eq le_rfl rfl rfl fun _ h => h⟩
  | gaveUp => exact ⟨owner, hs.of_eq (Nat.le_succ _) rfl rfl fun _ h => h⟩
  | installed _ h =>
    refine ⟨_, ((hs.install chainId).setsUp ⟨Function.update_self .., Nat.lt_succ_self _⟩ h).of_eq
      le_rfl rfl rfl fun _ h => h⟩

theorem step (hs : Owned owner s) {a : Action} (h : Steps cfg s a s') :
    ∃ owner', Owned owner' s' := by
  cases h with
  | @setup i chainId progress rest hi setups hsetups =>
    refine ⟨owner, Owned.of_eq (s := (s.setupEventListeners chainId progress).1) ?_ le_rfl rfl rfl
      fun _ h => h⟩
    cases hp : s.wsProvider chainId with
    | none =>
      rw [setupEventListeners_of_none hp]
      exact hs
    | some provider => exact hs.setsUp (hs.installed _ _ hp) (Connections.setsUp hp progress).1
  | @error i provider chainId a _ hi h =>
    have hobserve : Owned owner (s.observe provider chainId) := by
      unfold observe
      split
      · exact hs.of_eq le_rfl rfl rfl fun _ h => h
      · exact hs
    exact hobserve.reconnects h
  | @timer i chainId a _ hi h =>
    have htimers : Owned owner { s with timers := s.timers.eraseIdx i } :=
      hs.of_eq le_rfl rfl rfl fun _ h => h
    exact htimers.reconnects h
  | @remove i chainId rest hi removals removed =>
    refine ⟨owner, Owned.of_eq (s := (s.removeEventListeners chainId).1) ?_ le_rfl rfl rfl
      fun _ h => h⟩
    rcases s.removeEventListeners_fst chainId with h | h
    · rw [h]
      exact hs
    · rw [h]
      exact hs.of_eq le_rfl rfl rfl fun _ h => List.mem_of_mem_filter h
  | _ => exact ⟨owner, hs.of_eq le_rfl rfl rfl fun _ h => h⟩

end Owned

/-- **A provider serves one chain**: an error of it reconnects just the chain whose events it
delivers, and it is never installed for another one. -/
theorem owned_of_run {l : List Action} (hrun : run cfg (init cfg) l = some s) :
    ∃ owner, Owned owner s := by
  refine Async.exec_invariant (fun s => ∃ owner, Owned owner s) (fun _ => True)
    (fun _ ⟨_, hs⟩ h => hs.step (steps_of_step h)) ?_ (fun _ _ => trivial) hrun
  unfold Connections.init
  refine List.foldlRecOn cfg.networks _ (motive := fun s : Connections => ∃ owner, Owned owner s)
    ⟨fun _ => 0, fun _ _ h => (by cases h), fun _ h => (by cases h), fun _ h => by cases h⟩ ?_
  rintro s ⟨owner, hs⟩ network _
  split
  · exact ⟨owner, hs⟩
  · exact ⟨_, hs.install network.chainId⟩

/-- Both chains are set up, and the provider of the first one is replaced twice, by errors of the
first two. -/
theorem owned_of_run_sample :
    ∃ s, run Sample.config (init Sample.config)
        [.setupAll, .setup 0 .all, .setup 0 .all, .error 0 (.ready .all), .error 2 (.ready .all)] =
          some s ∧
      s.listeners.map Listener.provider = [0, 0, 1, 1, 2, 2, 3, 3] ∧ ∃ owner, Owned owner s := by
  obtain ⟨s, hrun, hproviders⟩ : ∃ s, run Sample.config (init Sample.config)
      [.setupAll, .setup 0 .all, .setup 0 .all, .error 0 (.ready .all), .error 2 (.ready .all)] =
        some s ∧ s.listeners.map Listener.provider = [0, 0, 1, 1, 2, 2, 3, 3] := ⟨_, rfl, rfl⟩
  exact ⟨s, hrun, hproviders, owned_of_run hrun⟩

end Connections

end Tsunagari
