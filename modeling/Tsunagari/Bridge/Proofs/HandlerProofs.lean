import Tsunagari.Bridge.Plan
import Tsunagari.Js.Proofs.LiteralProofs

/-!
# Proofs: every handler follows a plan
-/

namespace Tsunagari

open Async (Prog)

/-- A computation that succeeds went through its first part. -/
theorem except_bind_ok {ε α β : Type} {x : Except ε α} {f : α → Except ε β} {b : β}
    (h : (x >>= f) = .ok b) : ∃ a, x = .ok a ∧ f a = .ok b := by
  cases x with
  | error e => cases h
  | ok a => exact ⟨a, rfl, h⟩

/-- A computation whose result can be checked succeeds with a checked result. -/
theorem exists_ok_of_decide {ε α : Type} {x : Except ε α} {p : α → Prop} [DecidablePred p]
    (h : (match x with | .ok a => decide (p a) | .error _ => false) = true) :
    ∃ a, x = .ok a ∧ p a := by
  cases x with
  | error e => cases h
  | ok a => exact ⟨a, rfl, of_decide_eq_true h⟩

/-! ## The stages of a plan -/

theorem Plan.readThreshold_of_site {p : Plan} {site : BridgeSite} (h : p.site = .ok site) :
    p.readThreshold = .await (.getThreshold site) fun
      | .error e => .throw e
      | .ok threshold => p.readCount threshold := by
  cases p
  cases h
  rfl

theorem Plan.readThreshold_of_error {p : Plan} {e : JsError} (h : p.site = .error e) :
    p.readThreshold = .throw e := by
  cases p
  cases h
  rfl

theorem Plan.readMint_of_none {p : Plan} (h : p.mint = none) (reached : Bool) :
    p.readMint reached = p.enqueue reached 0 := by
  cases p
  cases h
  rfl

theorem Plan.readMint_of_some {p : Plan} {mint : PublicKey} (h : p.mint = some mint)
    (reached : Bool) :
    p.readMint reached = .await (.getMint mint) fun
      | .error e => .throw e
      | .ok decimals => p.enqueue reached decimals := by
  cases p
  cases h
  rfl

theorem Plan.enqueue_true (p : Plan) (decimals : ℕ) :
    p.enqueue true decimals = .await (.getJob p.jobId) fun
      | .error _ => .ret ()
      | .ok existing => if existing then .ret () else p.addJob decimals := rfl

/-! ## The calls of the handlers -/

/-- `rpush` never rejects. -/
theorem rpush_bind {α : Type} (key value : String) (f : Unit → Task α) :
    (RedisClientService.rpush key value >>= f) = .await (.rpush key value) fun _ => f () := by
  refine congrArg (Prog.await _) (funext fun r => ?_)
  rcases r with e | n <;> rfl

/-- `llen` never rejects. -/
theorem llen_bind {α : Type} (key : String) (f : Option ℕ → Task α) :
    (RedisClientService.llen key >>= f) = .await (.llen key) fun r => f r.toOption := by
  refine congrArg (Prog.await _) (funext fun r => ?_)
  rcases r with e | n <;> rfl

/-- `addToQueue`, as it is left before its first await. -/
theorem addToQueue_eq (cfg : Config) (p : Plan) (decimals : ℕ) (hopts : p.opts = cfg.jobOptions) :
    QueueService.addToQueue cfg (p.job decimals) p.jobId = p.enqueue true decimals := by
  rw [QueueService.addToQueue, ← hopts, Plan.enqueue, if_pos rfl]
  refine congrArg (Prog.await _) (funext fun r => ?_)
  rcases r with e | existing
  · rfl
  · cases existing with
    | true => rfl
    | false =>
      refine congrArg (Prog.await _) (funext fun r => ?_)
      rcases r with e | u <;> rfl

/-- The threshold that an EVM handler reads. -/
theorem thresholdRead_eq (cfg : Config) (chain : ℕ) :
    (if chain = SOLANA_CHAIN_ID then SolanaClientService.getThreshold
      else EthereumClientService.getThreshold cfg chain) =
      (Prog.ofExcept (thresholdSite cfg chain) >>= fun site => perform (.getThreshold site) :
        Task ℕ) := by
  unfold thresholdSite
  by_cases h : chain = SOLANA_CHAIN_ID
  · rw [if_pos h, if_pos h]; rfl
  · rw [if_neg h, if_neg h, EthereumClientService.getThreshold]
    cases cfg.network? chain with
    | none => rfl
    | some network =>
      by_cases hb : network.bridgeAddress = ""
      · simp only [if_pos hb]; rfl
      · simp only [if_neg hb]; rfl

/-- What an EVM handler does after the push. -/
theorem readThreshold_eq_of_mint_none (cfg : Config) (p : Plan) (hmint : p.mint = none)
    (hopts : p.opts = cfg.jobOptions) :
    (do
      let threshold ← (Prog.ofExcept p.site >>= fun site => perform (.getThreshold site))
      let count ← RedisClientService.llen p.message
      if thresholdReached count threshold then QueueService.addToQueue cfg (p.job 0) p.jobId) =
      p.readThreshold := by
  unfold Plan.readThreshold
  cases p.site with
  | error e => rfl
  | ok site =>
    refine congrArg (Prog.await _) (funext fun r => ?_)
    rcases r with e | threshold
    · rfl
    · show (RedisClientService.llen p.message >>= _) = _
      rw [llen_bind, addToQueue_eq cfg p 0 hopts]
      refine congrArg (Prog.await _) (funext fun c => ?_)
      rw [Plan.readMint_of_none hmint]
      cases thresholdReached c.toOption threshold <;> rfl

/-- What a Solana handler does after the push. -/
theorem readThreshold_eq_of_mint (cfg : Config) (p : Plan) (mint : PublicKey)
    (hsite : p.site = .ok .solana) (hmint : p.mint = some mint) (hopts : p.opts = cfg.jobOptions) :
    (do
      let threshold ← SolanaClientService.getThreshold
      let count ← RedisClientService.llen p.message
      let decimals ← perform (.getMint mint)
      if thresholdReached count threshold then
        QueueService.addToQueue cfg (p.job decimals) p.jobId) = p.readThreshold := by
  rw [Plan.readThreshold_of_site hsite]
  refine congrArg (Prog.await _) (funext fun r => ?_)
  rcases r with e | threshold
  · rfl
  · show (RedisClientService.llen p.message >>= _) = _
    rw [llen_bind]
    refine congrArg (Prog.await _) (funext fun c => ?_)
    rw [Plan.readMint_of_some hmint]
    refine congrArg (Prog.await _) (funext fun r => ?_)
    rcases r with e | decimals
    · rfl
    · show (if _ then QueueService.addToQueue cfg (p.job decimals) p.jobId else _) = _
      rw [addToQueue_eq cfg p decimals hopts]
      cases thresholdReached c.toOption threshold <;> rfl

/-! ## The handlers -/

theorem EthereumClientService.handleEvent_eq (P : Platform) (cfg : Config) (node : Node)
    (type : JobTypes) (originChainId : ℕ) (tokenAddress : String) (amount destinationChainId : ℕ)
    (destinationAddress transactionHash : String) :
    handleEvent P cfg node type originChainId tokenAddress amount destinationChainId
        destinationAddress transactionHash =
      (do
        let p ← Prog.ofExcept (plan P cfg type originChainId tokenAddress amount destinationChainId
          destinationAddress transactionHash)
        let signature ← Prog.ofExcept (sign P cfg node destinationChainId
          (createMessage P transactionHash cfg.murmur3Seed))
        p.start signature) := by
  unfold handleEvent plan
  cases route cfg type originChainId tokenAddress destinationChainId with
  | error e => rfl
  | ok dest =>
    show (Prog.ofExcept (sign P cfg node destinationChainId _) >>= _) = _
    refine congrArg (Prog.bind _) (funext fun signature => ?_)
    refine (rpush_bind _ _ _).trans (congrArg (Prog.await _) (funext fun _ => ?_))
    refine Eq.trans ?_ (readThreshold_eq_of_mint_none cfg _ rfl rfl)
    rw [← thresholdRead_eq, apply_ite (fun q : Task ℕ => q >>= _)]

theorem SolanaClientService.handleEvent_eq (P : Platform) (cfg : Config) (node : Node)
    (type : JobTypes) (tokenMint : PublicKey) (amount : UInt64) (destinationKey : String)
    (destinationChainId : ℕ) (destinationAddress txSignature : String) :
    handleEvent P cfg node type tokenMint amount destinationKey destinationChainId
        destinationAddress txSignature =
      (do
        let p ← Prog.ofExcept (plan P cfg type tokenMint amount destinationKey destinationChainId
          destinationAddress txSignature)
        p.start (signMessage P node (createMessage P txSignature cfg.murmur3Seed))) := by
  unfold handleEvent plan
  cases lookupRoute (cfg.solanaTokens (P.toBase58 tokenMint)) type destinationKey with
  | error e => rfl
  | ok dest =>
    refine (rpush_bind _ _ _).trans (congrArg (Prog.await _) (funext fun _ => ?_))
    refine Eq.trans ?_ (readThreshold_eq_of_mint cfg _ tokenMint rfl rfl rfl)
    rfl

/-- **Every handler follows its plan**: it looks up, signs, and runs through the stages. -/
theorem BridgeEvent.handle_eq (P : Platform) (cfg : Config) (node : Node) (e : BridgeEvent) :
    e.handle P cfg node =
      (do
        let p ← Prog.ofExcept (e.plan P cfg)
        let signature ← Prog.ofExcept (e.sign P cfg node)
        p.start signature) := by
  cases e with
  | tokensLocked chainId log => exact EthereumClientService.handleEvent_eq ..
  | wrappedTokensBurned chainId log => exact EthereumClientService.handleEvent_eq ..
  | solanaTokensLocked txSignature data => exact SolanaClientService.handleEvent_eq ..
  | solanaTokensBurned txSignature data => exact SolanaClientService.handleEvent_eq ..

/-! ## What a plan carries -/

/-- The parts of a plan that its event determines. -/
structure Plan.Of (P : Platform) (cfg : Config) (e : BridgeEvent) (p : Plan) : Prop where
  message : p.message = e.message P cfg
  jobId : p.jobId = e.jobId P cfg
  opts : p.opts = cfg.jobOptions
  job_message : ∀ n, (p.job n).message = e.message P cfg
  job_destination : ∀ n, (p.job n).destinationChainId = e.destination
  job_origin : ∀ n, (p.job n).originChainId = e.origin

theorem Plan.of_plan {P : Platform} {cfg : Config} {e : BridgeEvent} {p : Plan}
    (h : e.plan P cfg = .ok p) : Plan.Of P cfg e p := by
  cases e with
  | tokensLocked chainId log =>
    obtain ⟨dest, -, h⟩ := except_bind_ok h
    cases h
    exact ⟨rfl, rfl, rfl, fun _ => rfl, fun _ => rfl, fun _ => rfl⟩
  | wrappedTokensBurned chainId log =>
    obtain ⟨dest, -, h⟩ := except_bind_ok h
    cases h
    exact ⟨rfl, rfl, rfl, fun _ => rfl, fun _ => rfl, fun _ => rfl⟩
  | solanaTokensLocked txSignature data =>
    obtain ⟨dest, -, h⟩ := except_bind_ok h
    cases h
    exact ⟨rfl, rfl, rfl, fun _ => rfl, fun _ => rfl, fun _ => rfl⟩
  | solanaTokensBurned txSignature data =>
    obtain ⟨dest, -, h⟩ := except_bind_ok h
    cases h
    exact ⟨rfl, rfl, rfl, fun _ => rfl, fun _ => rfl, fun _ => rfl⟩

/-! ## Messages -/

section Messages

variable {P : Platform} {a b text : String} {seed : ℕ}

/-- A message consists of decimal digits. -/
theorem isDigit_of_mem_createMessage {c : Char}
    (hc : c ∈ (createMessage P text seed).toList) : c.isDigit = true := by
  have hdigits : c ∈ Nat.toDigits 10 (P.murmur3 text seed).toNat := by
    rw [← Nat.toList_repr]
    exact hc
  exact Nat.isDigit_of_mem_toDigits (by decide) (by decide) hdigits

/-- Messages are equal only when the hashes of the transactions are. -/
theorem createMessage_eq (h : createMessage P a seed = createMessage P b seed) :
    P.murmur3 a seed = P.murmur3 b seed :=
  UInt32.toNat_inj.1 (Js.toString_injective h)

/-- Job ids are equal only when the hashes of the messages are. -/
theorem createJobId_eq (h : createJobId P a seed = createJobId P b seed) :
    P.murmur3 a seed = P.murmur3 b seed :=
  UInt32.toNat_inj.1 (Js.toString_injective ((String.append_right_inj _).1 h))

end Messages

end Tsunagari
