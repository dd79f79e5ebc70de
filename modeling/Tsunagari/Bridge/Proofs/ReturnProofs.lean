import Tsunagari.Bridge.Proofs.PrecisionProofs
import Tsunagari.Bridge.Returns

/-!
# Proofs: there and back

A transfer from Solana arrives as it was sent, up to the precision of its amount. Together with
the transfers from EVM chains this settles what becomes of tokens that are sent to the other side
and back: nobody gains by it, and what is lost is less than a unit of the mint.
-/

namespace Tsunagari

open Async (Prog)

variable {P : Platform} {cfg : Config} {node : Node} {L : SolanaLibrary} {e : BridgeEvent}
  {s : SolanaTransfer} {tr : Answers} {data : BridgeJob}

/-! ## From Solana -/

theorem BridgeEvent.solanaAmount_of_transfer (hs : e.solanaTransfer? = some s) :
    e.solanaAmount? = some s.amount := by
  cases e with
  | tokensLocked chainId log => cases hs
  | wrappedTokensBurned chainId log => cases hs
  | solanaTokensLocked txSignature data => cases hs; rfl
  | solanaTokensBurned txSignature data => cases hs; rfl

/-- A handler that gets to its job has read the decimals of one mint. -/
theorem Plan.getMint_mem {p : Plan} {signature : String} {site : BridgeSite} {threshold : ℕ}
    {r : Except JsError (Op.rpush p.message signature).Resp}
    {count : Except JsError (Op.llen p.message).Resp} {mint : PublicKey}
    (hmint : p.mint = some mint) (decimals : ℕ) (mint' : PublicKey) (d : ℕ) :
    (⟨.getMint mint', .ok d⟩ : Σ o : Op, Except JsError o.Resp) ∈
        ⟨.rpush p.message signature, r⟩ :: ⟨.getThreshold site, .ok threshold⟩ ::
          ⟨.llen p.message, count⟩ :: (p.mintAnswers decimals ++ [⟨.getJob p.jobId, .ok false⟩]) ↔
      mint' = mint ∧ d = decimals := by
  rw [Plan.mintAnswers_of_some hmint]
  constructor
  · intro h
    simp only [List.mem_cons, List.singleton_append, List.not_mem_nil, or_false] at h
    rcases h with h | h | h | h | h
    · cases h
    · cases h
    · cases h
    · cases h; exact ⟨rfl, rfl⟩
    · cases h
  · rintro ⟨rfl, rfl⟩
    simp

/-- The job of a lock or burn on Solana. -/
theorem solanaJob_of_enqueues (hs : e.solanaTransfer? = some s)
    (hadd : e.Enqueues P cfg node tr data) :
    e.route P cfg = .ok data.destinationTokenAddress ∧ data.type = s.type ∧
      data.recipient = s.destinationAddress ∧ data.destinationChainId = e.destination ∧
        ∃ decimals, data.amount = adjustedAmount s.amount decimals ∧ ∀ mint d,
          (⟨.getMint mint, .ok d⟩ : Σ o : Op, Except JsError o.Resp) ∈ tr ↔
            mint = s.tokenMint ∧ d = decimals := by
  obtain ⟨id, opts, k, hpath⟩ := hadd
  obtain ⟨p, signature, hplan, -, hpath⟩ := BridgeEvent.plan_of_add hpath
  obtain ⟨site, r, threshold, count, decimals, -, -, rfl, -, -, rfl⟩ := Plan.course_of_add hpath
  cases e with
  | tokensLocked chainId log => cases hs
  | wrappedTokensBurned chainId log => cases hs
  | solanaTokensLocked txSignature data =>
    obtain ⟨dest, hroute, hp⟩ := except_bind_ok hplan
    cases hs
    cases hp
    exact ⟨hroute, rfl, rfl, rfl, decimals, rfl, Plan.getMint_mem rfl decimals⟩
  | solanaTokensBurned txSignature data =>
    obtain ⟨dest, hroute, hp⟩ := except_bind_ok hplan
    cases hs
    cases hp
    exact ⟨hroute, rfl, rfl, rfl, decimals, rfl, Plan.getMint_mem rfl decimals⟩

/-- A lookup under the number of a chain finds the counterpart on this chain. -/
theorem lookupRoute_iff {type : JobTypes} {address token : String} {n : ℕ} :
    lookupRoute (cfg.solanaTokens address) type (toString n) = .ok (some token) ↔
      cfg.solanaCounterpart type address n = some token := by
  rw [Config.solanaCounterpart]
  cases cfg.solanaTokens address with
  | none => exact ⟨fun h => (by cases h), fun h => (by cases h)⟩
  | some entry =>
    show _ ↔ entry.counterpart type n = some token
    rw [TokenEntry.counterpart_eq]
    cases hside : entry.side type with
    | none =>
      simp only [lookupRoute, hside]
      exact ⟨fun h => (by cases h), fun h => (by cases h)⟩
    | some side =>
      simp only [lookupRoute, hside, Except.ok.injEq]
      rfl

/-- The handler of a lock or burn on Solana finds the counterpart on the chain that it names. -/
theorem BridgeEvent.route_iff (hs : e.solanaTransfer? = some s) {token : String} :
    e.route P cfg = .ok (some token) ↔
      cfg.solanaCounterpart s.type (P.toBase58 s.tokenMint) s.destinationChain = some token := by
  cases e with
  | tokensLocked chainId log => cases hs
  | wrappedTokensBurned chainId log => cases hs
  | solanaTokensLocked txSignature data =>
    cases hs
    have hkey : chainKey data.destinationChain.toNat = toString data.destinationChain.toNat :=
      Js.numberToString_of_lt ((UInt32.toNat_lt _).trans (by norm_num))
    show lookupRoute _ _ (chainKey _) = _ ↔ _
    rw [hkey]
    exact lookupRoute_iff
  | solanaTokensBurned txSignature data =>
    cases hs
    exact lookupRoute_iff

theorem Config.SafeSolanaChainIds.lt (hcfg : cfg.SafeSolanaChainIds) {type : JobTypes}
    {address token : String} {n : ℕ} (h : cfg.solanaCounterpart type address n = some token) :
    n < 2 ^ 53 := by
  obtain ⟨entry, hentry, h⟩ := Option.bind_eq_some_iff.1 h
  rw [TokenEntry.counterpart_eq] at h
  obtain ⟨side, hside, h⟩ := Option.bind_eq_some_iff.1 h
  obtain ⟨c, hc, hkey⟩ := hcfg address entry side _ token hentry (TokenEntry.side_cases hside) h
  exact Js.toString_injective hkey ▸ hc

theorem BridgeEvent.destination_of_transfer (hs : e.solanaTransfer? = some s)
    (hlt : s.destinationChain < 2 ^ 53) : e.destination = s.destinationChain := by
  cases e with
  | tokensLocked chainId log => cases hs
  | wrappedTokensBurned chainId log => cases hs
  | solanaTokensLocked txSignature data => cases hs; rfl
  | solanaTokensBurned txSignature data => cases hs; exact chainNumber_of_lt hlt

/-- **The transaction with an EVM bridge contract is the one that the event asks for.** -/
theorem solanaTransaction_of_event (hcfg : cfg.SafeSolanaChainIds) (hs : e.solanaTransfer? = some s)
    (hadd : e.Enqueues P cfg node tr data) {token : String}
    (hmapped : e.route P cfg = .ok (some token)) {mint : PublicKey} {d : ℕ}
    (hmint : (⟨.getMint mint, .ok d⟩ : Σ o : Op, Except JsError o.Resp) ∈ tr) (hd : d ≤ 18)
    {c : EvmCall} {chainId : ℕ} {contract : String} {method : SmartContractMethods}
    {args : ContractArguments} (hcall : data.Calls P (.evm c))
    (hsend : c.Sends cfg chainId contract method args) :
    s.AsksForTransaction P cfg d chainId method args := by
  have ha := BridgeEvent.solanaAmount_of_transfer hs
  obtain ⟨hroute, htype, hrecipient, hchain, -⟩ := solanaJob_of_enqueues hs hadd
  have hcounterpart := (BridgeEvent.route_iff hs).1 hmapped
  have hdestination := BridgeEvent.destination_of_transfer hs (hcfg.lt hcounterpart)
  rw [hmapped] at hroute
  obtain ⟨vs, -, hdest⟩ := hcall.destinationCall
  obtain ⟨rfl, rfl, rfl, -⟩ := hsend.course
  by_cases hsolana : data.destinationChainId = SOLANA_CHAIN_ID
  · obtain ⟨tokenMint, amount, -, -, hc⟩ :=
      (QueueProcessor.destinationCall_eq_solana hsolana).1 hdest
    cases hc
  · obtain ⟨amount, hamount, hc⟩ := (QueueProcessor.destinationCall_eq_evm hsolana).1 hdest
    cases hc
    obtain ⟨hlt, v, rfl, hv⟩ := (bigInt_amount ha hadd hmint hd).1 hamount
    refine ⟨(hchain.trans hdestination).symm, fun hlock => ?_, fun hburn => ?_, ⟨token, ?_, ?_⟩, ?_,
      ?_, ?_⟩
    · show QueueProcessor.method data.type = _
      rw [htype, hlock, QueueProcessor.method]
    · show QueueProcessor.method data.type = _
      rw [htype, hburn, QueueProcessor.method]
    · show cfg.solanaCounterpart s.type _ data.destinationChainId = some token
      rw [hchain, hdestination]
      exact hcounterpart
    · exact (Except.ok.inj hroute).symm
    · have hnear := Js.abs_sub_product_le hv.reads
      show |(v : ℤ) - _| * _ ≤ _
      exact_mod_cast hnear
    · intro hdigits
      show (v : ℤ) = _
      rw [Js.eq_of_product_lt (hdigits.imp_left (by omega)) hlt hv]
    · intro padding address haddress
      show "0x" ++ Js.sliceEnd 40 data.recipient = _
      rw [hrecipient, haddress]
      exact sliceEnd_hexlify padding address

/-- **Transfers from Solana are faithful**: if the job of a lock or burn is enqueued for a token of
the configuration, its handler has read the decimals of the mint, and if it is processed up to an
EVM chain, the transaction there is the one that the event asks for. -/
theorem solana_transfer_faithful (hcfg : cfg.SafeSolanaChainIds) (hs : e.solanaTransfer? = some s)
    (hadd : e.Enqueues P cfg node tr data) {token : String}
    (hmapped : e.route P cfg = .ok (some token)) :
    ∃ decimals, (∀ mint d, (⟨.getMint mint, .ok d⟩ : Σ o : Op, Except JsError o.Resp) ∈ tr ↔
        mint = s.tokenMint ∧ d = decimals) ∧
      (decimals ≤ 18 → ∀ (c : EvmCall) (chainId : ℕ) (contract : String)
        (method : SmartContractMethods) (args : ContractArguments), data.Calls P (.evm c) →
          c.Sends cfg chainId contract method args →
            s.AsksForTransaction P cfg decimals chainId method args) := by
  obtain ⟨-, -, -, -, decimals, -, hread⟩ := solanaJob_of_enqueues hs hadd
  exact ⟨decimals, hread, fun hd _ _ _ _ _ hcall hsend =>
    solanaTransaction_of_event hcfg hs hadd hmapped ((hread _ _).2 ⟨rfl, rfl⟩) hd hcall hsend⟩

theorem BridgeEvent.exists_solanaPlan {dest : Option String} (hs : e.solanaTransfer? = some s)
    (hroute : e.route P cfg = .ok dest) : ∃ p signature, e.plan P cfg = .ok p ∧
      e.sign P cfg node = .ok signature ∧ p.site = .ok .solana ∧ p.mint = some s.tokenMint := by
  cases e with
  | tokensLocked chainId log => cases hs
  | wrappedTokensBurned chainId log => cases hs
  | solanaTokensLocked txSignature data =>
    cases hs
    exact ⟨_, _, congrArg (· >>= _) hroute, rfl, rfl, rfl⟩
  | solanaTokensBurned txSignature data =>
    cases hs
    exact ⟨_, _, congrArg (· >>= _) hroute, rfl, rfl, rfl⟩

/-- A lock or burn on Solana whose lookups succeed gets to its job. -/
theorem exists_solanaJob {dest : Option String} (hs : e.solanaTransfer? = some s)
    (hroute : e.route P cfg = .ok dest) (node : Node) (d : ℕ) :
    ∃ tr data, e.Enqueues P cfg node tr data ∧
      (⟨.getMint s.tokenMint, .ok d⟩ : Σ o : Op, Except JsError o.Resp) ∈ tr := by
  obtain ⟨p, signature, hplan, hsign, hsite, hmint⟩ :=
    @BridgeEvent.exists_solanaPlan P cfg node e s dest hs hroute
  obtain ⟨tr, d', hadd, hread⟩ := BridgeEvent.exists_enqueues hplan hsign hsite d
  exact ⟨tr, p.job d', hadd, (hread _ hmint).2⟩

/-! ## There and back -/

variable {type : JobTypes} {origin : ℕ} {log : EvmLog} {d : ℕ}

/-- The counterpart on Solana is the mint of the instruction. -/
theorem EvmLog.AsksForInstruction.mint {answers : ClientAnswers} {ix : Instruction}
    (h : log.AsksForInstruction P cfg type origin answers ix) :
    cfg.mint? P type origin log.tokenAddress = some ix.tokenMint := by
  obtain ⟨token, hcounterpart, hkey⟩ := h.token
  rw [Config.mint?, hcounterpart]
  exact congrArg Except.toOption hkey

/-- A lock or burn on an EVM chain for Solana gets to its job, when its lookups and its signing
succeed. -/
theorem exists_evmJob {dest : Option String} {signature : String}
    (hchain : log.destinationChainId.toNat = 0)
    (hroute : EthereumClientService.route cfg type origin log.tokenAddress
      (chainNumber log.destinationChainId.toNat) = .ok dest)
    (hsign : SolanaClientService.signMessageEVM P
      ((BridgeEvent.ofEvm type origin log).message P cfg) node.privateKey = .ok signature) :
    ∃ tr data, (BridgeEvent.ofEvm type origin log).Enqueues P cfg node tr data ∧
      data.destinationTokenAddress = dest := by
  have hsolana : chainNumber log.destinationChainId.toNat = SOLANA_CHAIN_ID :=
    chainNumber_eq_solana.2 hchain
  have hsite : thresholdSite cfg (chainNumber log.destinationChainId.toNat) = .ok .solana := by
    rw [thresholdSite, if_pos hsolana]
  have hsign' : (BridgeEvent.ofEvm type origin log).sign P cfg node = .ok signature := by
    rw [← hsign]
    cases type <;>
    · show EthereumClientService.sign P cfg node (chainNumber _) _ = _
      rw [EthereumClientService.sign, if_pos hsolana]
  obtain ⟨p, hplan, hp⟩ : ∃ p, (BridgeEvent.ofEvm type origin log).plan P cfg = .ok p ∧
      p.site = .ok .solana := by
    cases type <;> exact ⟨_, congrArg (· >>= _) hroute, hsite⟩
  obtain ⟨tr, d, hadd, -⟩ := BridgeEvent.exists_enqueues hplan hsign' hp 0
  obtain ⟨dest', hroute', hdata⟩ := job_of_enqueues hadd
  cases hroute'.symm.trans hroute
  exact ⟨tr, p.job d, hadd, by rw [hdata]⟩

/-- **From an EVM chain to Solana and back**: what is sent back arrives on the chain it came from,
as the token it was. It is not more than was sent, and less by less than a unit of the mint, as far
as the way back is exact; and else it is more by at most one part in `2 ^ 51`. -/
theorem evm_there_and_back (hcfg : cfg.SafeChainIds) (hsolana : cfg.SafeSolanaChainIds)
    (hmirrored : cfg.Mirrored P)
    (hbase58 : ∀ key : PublicKey, P.publicKey (L.bs58Encode key.toList) = .ok key)
    -- the way there
    (horigin : origin < 2 ^ 53)
    (hadd : (BridgeEvent.ofEvm type origin log).Enqueues P cfg node tr data) {token : String}
    (hmapped : EthereumClientService.route cfg type origin log.tokenAddress
      (chainNumber log.destinationChainId.toNat) = .ok (some token))
    {c : SolanaCall} {answers : ClientAnswers} {ix : Instruction}
    (hcall : data.Calls P (.solana c)) (hsend : c.Sends P L answers ix)
    (hd : (⟨.getMint ix.tokenMint, .ok d⟩ : Σ o : ClientOp, Except JsError o.Resp) ∈ answers)
    (hd18 : d ≤ 18)
    -- the way back
    (hs : e.solanaTransfer? = some s) (htype : s.type = type.opposite)
    (htoken : s.tokenMint = ix.tokenMint) (hchain : s.destinationChain = origin)
    (hamount : (s.amount.toNat : ℤ) = ix.amount) {node' : Node} {tr' : Answers} {data' : BridgeJob}
    (hadd' : e.Enqueues P cfg node' tr' data')
    (hd' : (⟨.getMint s.tokenMint, .ok d⟩ : Σ o : Op, Except JsError o.Resp) ∈ tr')
    {c' : EvmCall} {chainId : ℕ} {contract : String} {method : SmartContractMethods}
    {args : ContractArguments} (hcall' : data'.Calls P (.evm c'))
    (hsend' : c'.Sends cfg chainId contract method args) :
    chainId = origin ∧ (type = .HANDLE_LOCK → method = .UNLOCK_TOKENS) ∧
      (type = .HANDLE_BURN → method = .MINT_WRAPPED_TOKENS) ∧
        args.tokenAddress = some log.tokenAddress ∧
          args.amount * 2 ^ 51 ≤ log.amount.toNat * (2 ^ 51 + 1) ∧
            (d ≤ 12 ∨ s.amount.toNat < 10 ^ 15 →
              args.amount ≤ log.amount.toNat ∧
                log.amount.toNat < args.amount + 10 ^ (18 - d)) := by
  have hthere := instruction_of_event hcfg hbase58 hadd hmapped hcall hsend
  have hback := hmirrored.evm type origin log.tokenAddress ix.tokenMint horigin hthere.mint
  have hcounterpart : cfg.solanaCounterpart s.type (P.toBase58 s.tokenMint) s.destinationChain =
      some log.tokenAddress := by
    rw [htype, htoken, hchain]
    exact hback
  have htx := solanaTransaction_of_event hsolana hs hadd'
    ((BridgeEvent.route_iff hs).2 hcounterpart) hd' hd18 hcall' hsend'
  obtain ⟨token', hcounterpart', htoken'⟩ := htx.token
  rw [← htx.chain, hcounterpart] at hcounterpart'
  cases hcounterpart'
  have hscaled : s.amount.toNat = log.amount.toNat / 10 ^ (18 - d) := by
    have := (hthere.amount _ d hd).2 hd18
    rw [← hamount] at this
    exact_mod_cast this
  have hunit : 0 < 10 ^ (18 - d) := by positivity
  have hle : s.amount.toNat * 10 ^ (18 - d) ≤ log.amount.toNat :=
    hscaled ▸ Nat.div_mul_le_self ..
  refine ⟨htx.chain.symm.trans hchain, fun hlock => htx.unlocks ?_, fun hburn => htx.mints ?_,
    htoken', ?_, fun hdigits => ?_⟩
  · rw [htype, hlock, JobTypes.opposite]
  · rw [htype, hburn, JobTypes.opposite]
  · have hnear := (mul_le_mul_of_nonneg_right (le_abs_self _) (by norm_num)).trans htx.near
    have hle' : ((s.amount.toNat * 10 ^ (18 - d) : ℕ) : ℤ) ≤ log.amount.toNat := by
      exact_mod_cast hle
    linarith
  · have hlt : log.amount.toNat < (s.amount.toNat + 1) * 10 ^ (18 - d) :=
      (Nat.div_lt_iff_lt_mul hunit).1 (hscaled ▸ Nat.lt_succ_self _)
    rw [htx.exact hdigits]
    constructor
    · exact_mod_cast hle
    · rw [Nat.succ_mul] at hlt
      exact_mod_cast hlt

/-- The EVM handlers find the counterpart on Solana. -/
theorem route_of_mint {mint : PublicKey} {tokenAddress : String}
    (h : cfg.mint? P type origin tokenAddress = some mint) :
    ∃ token, EthereumClientService.route cfg type origin tokenAddress (chainNumber 0) =
      .ok (some token) := by
  obtain ⟨token, hcounterpart, -⟩ := Option.bind_eq_some_iff.1 h
  obtain ⟨tokens, htokens, hcounterpart⟩ := Option.bind_eq_some_iff.1 hcounterpart
  obtain ⟨entry, hentry, hcounterpart⟩ := Option.bind_eq_some_iff.1 hcounterpart
  rw [TokenEntry.counterpart_eq] at hcounterpart
  obtain ⟨side, hside, hcounterpart⟩ := Option.bind_eq_some_iff.1 hcounterpart
  have hkey : chainKey (chainNumber 0) = toString 0 := by
    rw [chainNumber_of_lt (by norm_num)]
    exact Js.numberToString_of_lt (by norm_num)
  refine ⟨token, ?_⟩
  rw [EthereumClientService.route, htokens]
  simp only [hentry, lookupRoute, hside, hkey, hcounterpart]

/-- **From Solana to an EVM chain and back**: what is sent back arrives as the token it was, and as
so much, as far as the way there is exact; and else it is more by at most one part in `2 ^ 51`. -/
theorem solana_there_and_back (hcfg : cfg.SafeChainIds) (hsolana : cfg.SafeSolanaChainIds)
    (hmirrored : cfg.Mirrored P)
    (hbase58 : ∀ key : PublicKey, P.publicKey (L.bs58Encode key.toList) = .ok key)
    -- the way there
    (hs : e.solanaTransfer? = some s) (hadd : e.Enqueues P cfg node tr data) {token : String}
    (hmapped : e.route P cfg = .ok (some token))
    (hd : (⟨.getMint s.tokenMint, .ok d⟩ : Σ o : Op, Except JsError o.Resp) ∈ tr) (hd18 : d ≤ 18)
    {c : EvmCall} {chainId : ℕ} {contract : String} {method : SmartContractMethods}
    {args : ContractArguments} (hcall : data.Calls P (.evm c))
    (hsend : c.Sends cfg chainId contract method args)
    -- the way back
    (htoken : args.tokenAddress = some log.tokenAddress)
    (hamount : (log.amount.toNat : ℤ) = args.amount) {node' : Node} {tr' : Answers}
    {data' : BridgeJob}
    (hadd' : (BridgeEvent.ofEvm s.type.opposite chainId log).Enqueues P cfg node' tr' data')
    {c' : SolanaCall} {answers : ClientAnswers} {ix : Instruction}
    (hcall' : data'.Calls P (.solana c')) (hsend' : c'.Sends P L answers ix)
    (hd' : (⟨.getMint s.tokenMint, .ok d⟩ : Σ o : ClientOp, Except JsError o.Resp) ∈ answers) :
    (s.type = .HANDLE_LOCK → ix.method = .UNLOCK_TOKENS) ∧
      (s.type = .HANDLE_BURN → ix.method = .MINT_WRAPPED_TOKENS) ∧ ix.tokenMint = s.tokenMint ∧
        ix.amount * 2 ^ 51 ≤ s.amount.toNat * (2 ^ 51 + 1) ∧
          (d ≤ 12 ∨ s.amount.toNat < 10 ^ 15 → ix.amount = s.amount.toNat) := by
  have hthere := solanaTransaction_of_event hsolana hs hadd hmapped hd hd18 hcall hsend
  obtain ⟨token', hcounterpart, htoken'⟩ := hthere.token
  rw [htoken] at htoken'
  cases htoken'
  have hmint := hmirrored.solana _ _ _ _ hcounterpart
  obtain ⟨hdestination, -⟩ := solanaCall_of_event hadd' hcall'
  obtain ⟨text, hroute⟩ := route_of_mint hmint
  have hback := instruction_of_event hcfg hbase58 hadd' (by rw [hdestination]; exact hroute) hcall'
    hsend'
  have hmint' : ix.tokenMint = s.tokenMint := Option.some.inj (hback.mint.symm.trans hmint)
  have hscaled := (hback.amount _ d hd').2 hd18
  have hunit : 0 < 10 ^ (18 - d) := by positivity
  refine ⟨fun hlock => hback.unlocks ?_, fun hburn => hback.mints ?_, hmint', ?_, fun hdigits => ?_⟩
  · rw [hlock, JobTypes.opposite]
  · rw [hburn, JobTypes.opposite]
  · have hnear := (mul_le_mul_of_nonneg_right (le_abs_self _) (by norm_num)).trans hthere.near
    have hle : ix.amount * (10 ^ (18 - d) : ℕ) ≤ args.amount := by
      rw [hscaled, ← hamount]
      exact_mod_cast Nat.div_mul_le_self ..
    refine le_of_mul_le_mul_right ?_ (Int.natCast_pos.2 hunit)
    push_cast at hnear hle ⊢
    linarith
  · have hexact := hthere.exact hdigits
    rw [← hamount] at hexact
    have hnat : log.amount.toNat = s.amount.toNat * 10 ^ (18 - d) := by exact_mod_cast hexact
    rw [hscaled, hnat, Nat.mul_div_cancel _ hunit]

/-! ## A mirrored configuration -/

namespace Sample

/-- The library functions, where every key has a text and every text a key. -/
def keyPlatform : Platform :=
  { solanaPlatform with toBase58 := fun key => library.bs58Encode key.toList }

/-- The wrapped form of the native token of Solana on the first chain. -/
def wrappedSol : String := "0x7ceB23fD6bC0adD59E62ac25578270cFf1b9f619"

/-- The token of the first chain that is sent to Solana. -/
def evmToken : JobTypes → String
  | .HANDLE_LOCK => token
  | .HANDLE_BURN => wrappedSol

/-- A token of the first chain and a token of Solana, with their counterparts; to keep the sample
small, both use one mint. -/
def mirrored : Config :=
  { config with
    evmTokens := fun chain =>
      if chain = "1" then
        some fun address =>
          if address = token then
            some { wrapped := some fun destination =>
                     if destination = "0" then some "So11111111111111111111111111111111111111112"
                     else none
                   native := none }
          else if address = wrappedSol then
            some { wrapped := none
                   native := some fun destination =>
                     if destination = "0" then some "So11111111111111111111111111111111111111112"
                     else none }
          else none
      else none
    solanaTokens := fun address =>
      if address = "So11111111111111111111111111111111111111112" then
        some { wrapped := some fun destination =>
                 if destination = "1" then some wrappedSol else none
               native := some fun destination =>
                 if destination = "1" then some token else none }
      else none }

theorem publicKey_keyPlatform (key : PublicKey) :
    keyPlatform.publicKey (library.bs58Encode key.toList) = .ok key :=
  publicKey_bs58Encode key

theorem solanaCounterpart_mirrored {type : JobTypes} {key : PublicKey} {chain : ℕ}
    {tokenAddress : String}
    (h : mirrored.solanaCounterpart type (keyPlatform.toBase58 key) chain = some tokenAddress) :
    key = mint ∧ chain = 1 ∧ tokenAddress = evmToken type.opposite := by
  obtain ⟨entry, hentry, h⟩ := Option.bind_eq_some_iff.1 h
  change (if keyPlatform.toBase58 key = _ then some _ else none) = some entry at hentry
  split at hentry
  next htext =>
    have hkey : key = mint := by
      have hread : keyPlatform.publicKey (keyPlatform.toBase58 key) = .ok key :=
        publicKey_keyPlatform key
      rw [htext] at hread
      exact (Except.ok.inj hread).symm
    cases hentry
    cases type <;>
    · change (if toString chain = "1" then some _ else none) = some tokenAddress at h
      split at h
      next hchain => cases h; exact ⟨hkey, Js.toString_injective hchain, rfl⟩
      next => cases h
  next => cases hentry

theorem mint_mirrored {type : JobTypes} {origin : ℕ} {tokenAddress : String} {key : PublicKey}
    (horigin : origin < 2 ^ 53)
    (h : mirrored.mint? keyPlatform type origin tokenAddress = some key) :
    key = mint ∧ origin = 1 ∧ tokenAddress = evmToken type := by
  obtain ⟨text, h, hkey⟩ := Option.bind_eq_some_iff.1 h
  obtain ⟨tokens, htokens, h⟩ := Option.bind_eq_some_iff.1 h
  obtain ⟨entry, hentry, h⟩ := Option.bind_eq_some_iff.1 h
  rw [TokenEntry.counterpart_eq] at h
  obtain ⟨side, hside, h⟩ := Option.bind_eq_some_iff.1 h
  change (if chainKey origin = "1" then some _ else none) = some tokens at htokens
  split at htokens
  next hchain =>
    rw [chainKey, Js.numberToString_of_lt horigin] at hchain
    have horigin : origin = 1 := Js.toString_injective hchain
    cases htokens
    have hmint : text = "So11111111111111111111111111111111111111112" → key = mint := by
      rintro rfl
      exact (Option.some.inj hkey).symm
    change (if tokenAddress = token then some _ else if tokenAddress = wrappedSol then some _
      else none) = some entry at hentry
    split at hentry
    next htoken =>
      cases hentry
      cases type with
      | HANDLE_BURN => cases hside
      | HANDLE_LOCK =>
        cases hside
        cases h
        exact ⟨hmint rfl, horigin, htoken⟩
    next =>
      split at hentry
      next htoken =>
        cases hentry
        cases type with
        | HANDLE_LOCK => cases hside
        | HANDLE_BURN =>
          cases hside
          cases h
          exact ⟨hmint rfl, horigin, htoken⟩
      next => cases hentry
  next => cases htokens

theorem mirrored_mirrored : mirrored.Mirrored keyPlatform where
  evm type origin tokenAddress key horigin h := by
    obtain ⟨rfl, rfl, rfl⟩ := mint_mirrored horigin h
    cases type <;> decide +kernel
  solana type key destination tokenAddress h := by
    obtain ⟨rfl, rfl, rfl⟩ := solanaCounterpart_mirrored h
    cases type <;> decide +kernel

theorem safeChainIds_mirrored : mirrored.SafeChainIds := by
  intro chain tokens address entry side key counterpart htokens hentry hside hkey
  change (if chain = "1" then some _ else none) = some tokens at htokens
  split at htokens
  next =>
    cases htokens
    change (if address = token then some _ else if address = wrappedSol then some _ else none) =
      some entry at hentry
    have hzero : ∀ {text : String}, (if key = "0" then some text else none) = some counterpart →
        ∃ c < 2 ^ 53, key = toString c := by
      intro text h
      split at h
      next h0 => exact ⟨0, by norm_num, h0⟩
      next => cases h
    split at hentry
    next =>
      cases hentry
      rcases hside with hside | hside <;> cases hside
      exact hzero hkey
    next =>
      split at hentry
      next =>
        cases hentry
        rcases hside with hside | hside <;> cases hside
        exact hzero hkey
      next => cases hentry
  next => cases htokens

theorem safeSolanaChainIds_mirrored : mirrored.SafeSolanaChainIds := by
  intro address entry side key counterpart hentry hside hkey
  change (if address = _ then some _ else none) = some entry at hentry
  split at hentry
  next =>
    cases hentry
    rcases hside with hside | hside <;> cases hside <;>
    · change (if key = "1" then some _ else none) = some counterpart at hkey
      split at hkey
      next h1 => exact ⟨1, by norm_num, h1⟩
      next => cases hkey
  next => cases hentry

/-- A burn on Solana that sends 1.5 tokens to the first chain. -/
def burnBack : BridgeEvent :=
  .solanaTokensBurned solanaTransaction
    { amount := 1500000000, burnedTokenMint := mint, destinationChain := 1,
      destinationAddress := "0x000000000000000000000000f39fd6e51aad88f6f4ce6ab8827279cfffb92266" }

/-- It gets to its transaction. -/
theorem exists_burnBack : ∃ tr data c contract method args,
    burnBack.Enqueues keyPlatform mirrored (Sample.node 0) tr data ∧
      (⟨.getMint mint, .ok 9⟩ : Σ o : Op, Except JsError o.Resp) ∈ tr ∧
        data.Calls keyPlatform (.evm c) ∧ c.Sends mirrored 1 contract method args ∧
          args.tokenAddress = some token ∧ args.amount = 1500000000000000000 := by
  obtain ⟨s, hs, hamount, hmint⟩ : ∃ s : SolanaTransfer, burnBack.solanaTransfer? = some s ∧
      s.amount = 1500000000 ∧ s.tokenMint = mint := ⟨_, rfl, rfl, rfl⟩
  have hroute : burnBack.route keyPlatform mirrored = .ok (some token) := by decide +kernel
  obtain ⟨tr, data, hadd, hread⟩ := exists_solanaJob hs hroute (Sample.node 0) 9
  obtain ⟨hdest, -, -, hdestination, -⟩ := solanaJob_of_enqueues hs hadd
  have hchain : data.destinationChainId = 1 := by
    rw [hdestination]
    decide +kernel
  have hbig := bigInt_of_fifteen (BridgeEvent.solanaAmount_of_transfer hs) hadd hread
    (by decide) (by rw [hamount]; decide) (by rw [hamount]; decide)
  obtain ⟨c, args, hcall, hsend, htoken, hargs⟩ := @exists_transaction keyPlatform mirrored data _
    hbig (by rw [hchain]; decide)
    { chainId := 1, bridgeAddress := "0x5FbDB2315678afecb367f032d93F642f64180aa3" }
    (by rw [hchain]; rfl) (by decide)
  rw [hchain] at hsend
  refine ⟨tr, data, c, _, _, args, hadd, hmint ▸ hread, hcall, hsend, ?_, ?_⟩
  · rw [htoken, ← Except.ok.inj (hroute.symm.trans hdest)]
  · rw [hargs, hamount]
    rfl

/-- A lock or burn on the first chain that sends so much to Solana. -/
def sendTo (type : JobTypes) (amount : BitVec 256) : EvmLog :=
  { lockOf amount with tokenAddress := evmToken type }

/-- It arrives there. -/
theorem exists_sendTo (type : JobTypes) (amount : BitVec 256) :
    EthereumClientService.route mirrored type 1 (sendTo type amount).tokenAddress
        (chainNumber (sendTo type amount).destinationChainId.toNat) =
          .ok (some "So11111111111111111111111111111111111111112") ∧
      ∃ tr data c answers ix,
        (BridgeEvent.ofEvm type 1 (sendTo type amount)).Enqueues keyPlatform mirrored
            (Sample.node 0) tr data ∧
          data.Calls keyPlatform (.solana c) ∧ c.Sends keyPlatform library answers ix ∧
            (⟨.getMint mint, .ok 9⟩ : Σ o : ClientOp, Except JsError o.Resp) ∈ answers := by
  have hroute : EthereumClientService.route mirrored type 1 (sendTo type amount).tokenAddress
      (chainNumber (sendTo type amount).destinationChainId.toNat) =
        .ok (some "So11111111111111111111111111111111111111112") := by
    show EthereumClientService.route mirrored type 1 (evmToken type) (chainNumber 0) = _
    cases type <;> decide +kernel
  obtain ⟨tr, data, hadd, hdest⟩ :=
    @exists_evmJob keyPlatform mirrored (Sample.node 0) type 1 (sendTo type amount) _ _ rfl hroute
      rfl
  have hkey : QueueProcessor.newPublicKey keyPlatform data.destinationTokenAddress = .ok mint := by
    rw [hdest]
    exact QueueProcessor.newPublicKey_eq_ok.2 ⟨_, rfl, rfl⟩
  obtain ⟨c, answers, ix, hcall, hsend, hread⟩ :=
    Tsunagari.exists_instruction publicKey_keyPlatform hadd rfl hkey 9
  exact ⟨hroute, tr, data, c, answers, ix, hadd, hcall, hsend, hread⟩

end Sample

theorem solana_transfer_faithful_sample :
    ∃ (s : SolanaTransfer) (method : SmartContractMethods) (args : ContractArguments),
      Sample.burnBack.solanaTransfer? = some s ∧
        s.AsksForTransaction Sample.keyPlatform Sample.mirrored 9 1 method args := by
  obtain ⟨tr, data, c, contract, method, args, hadd, hmint, hcall, hsend, -, -⟩ :=
    Sample.exists_burnBack
  obtain ⟨s, hs, htoken⟩ : ∃ s : SolanaTransfer, Sample.burnBack.solanaTransfer? = some s ∧
      s.tokenMint = Sample.mint := ⟨_, rfl, rfl⟩
  have hroute : Sample.burnBack.route Sample.keyPlatform Sample.mirrored =
      .ok (some Sample.token) := by decide +kernel
  obtain ⟨decimals, hread, hfaithful⟩ :=
    solana_transfer_faithful Sample.safeSolanaChainIds_mirrored hs hadd hroute
  obtain ⟨-, rfl⟩ := (hread _ _).1 hmint
  exact ⟨s, method, args, hs, hfaithful (by decide) c 1 contract method args hcall hsend⟩

/-- 1.5 tokens and a remainder of one are sent to Solana, and the 1.5 tokens back. -/
theorem evm_there_and_back_sample :
    ∃ (c : SolanaCall) (answers : ClientAnswers) (ix : Instruction) (c' : EvmCall)
      (contract : String) (method : SmartContractMethods) (args : ContractArguments),
      c.Sends Sample.keyPlatform Sample.library answers ix ∧
        c'.Sends Sample.mirrored 1 contract method args ∧ method = .UNLOCK_TOKENS ∧
          args.tokenAddress = some Sample.token ∧ args.amount ≤ 1500000000000000001 := by
  obtain ⟨hmapped, tr, data, c, answers, ix, hadd, hcall, hsend, hmint⟩ :=
    Sample.exists_sendTo .HANDLE_LOCK 1500000000000000001
  obtain ⟨tr', data', c', contract, method, args, hadd', hmint', hcall', hsend', -, -⟩ :=
    Sample.exists_burnBack
  have hamount := amount_of_sends hadd hcall hsend hmint (by decide)
  have hix : ix.tokenMint = Sample.mint := by
    have hthere := (instruction_of_event Sample.safeChainIds_mirrored Sample.publicKey_keyPlatform
      hadd hmapped hcall hsend).mint
    exact (Sample.mint_mirrored (by norm_num) hthere).1
  obtain ⟨-, hunlocks, -, htoken, -, hexact⟩ := evm_there_and_back Sample.safeChainIds_mirrored
    Sample.safeSolanaChainIds_mirrored Sample.mirrored_mirrored Sample.publicKey_keyPlatform
    (by norm_num) hadd hmapped hcall hsend (hix ▸ hmint) (by decide) rfl rfl hix.symm rfl
    (by rw [hamount]; rfl) hadd' hmint' hcall' hsend'
  exact ⟨c, answers, ix, c', contract, method, args, hsend, hsend', hunlocks rfl, htoken,
    (hexact (Or.inl (by decide))).1⟩

/-- 1.5 tokens are sent from Solana and back. -/
theorem solana_there_and_back_sample :
    ∃ (c : EvmCall) (contract : String) (method : SmartContractMethods) (args : ContractArguments)
      (c' : SolanaCall) (answers : ClientAnswers) (ix : Instruction),
      c.Sends Sample.mirrored 1 contract method args ∧
        c'.Sends Sample.keyPlatform Sample.library answers ix ∧
          ix.method = .MINT_WRAPPED_TOKENS ∧ ix.tokenMint = Sample.mint ∧
            ix.amount = 1500000000 := by
  obtain ⟨tr, data, c, contract, method, args, hadd, hmint, hcall, hsend, htoken, hargs⟩ :=
    Sample.exists_burnBack
  obtain ⟨-, tr', data', c', answers, ix, hadd', hcall', hsend', hmint'⟩ :=
    Sample.exists_sendTo .HANDLE_LOCK 1500000000000000000
  have hroute : Sample.burnBack.route Sample.keyPlatform Sample.mirrored =
      .ok (some Sample.token) := by decide +kernel
  obtain ⟨-, hmints, hix, -, hexact⟩ := solana_there_and_back Sample.safeChainIds_mirrored
    Sample.safeSolanaChainIds_mirrored Sample.mirrored_mirrored Sample.publicKey_keyPlatform rfl
    hadd hroute hmint (by decide) hcall hsend htoken (by rw [hargs]; rfl) hadd' hcall' hsend' hmint'
  exact ⟨c, contract, method, args, c', answers, ix, hsend, hsend', hmints rfl, hix,
    hexact (Or.inl (by decide))⟩

end Tsunagari
