import Tsunagari.Bridge.Proofs.ClientProofs
import Tsunagari.Bridge.Proofs.CourseProofs
import Tsunagari.Bridge.Routes
import Tsunagari.Bridge.Sample
import Tsunagari.Encoding.Proofs.HexProofs
import Tsunagari.Js.Proofs.DecimalProofs

/-!
# Proofs: a transfer from an EVM chain arrives as it was sent

The event crosses the listener, the handler, the job, the processor and the client of the
destination. Chain ids and amounts are printed and read back, and the destination address is cut or
recoded; none of this loses anything, as long as the chain ids of the configuration are exact.
-/

namespace Tsunagari

open Async (Prog)

variable {P : Platform} {cfg : Config} {node : Node} {L : SolanaLibrary}

/-! ## Chain ids -/

/-- `Number` of an integer is an integer. -/
theorem number_eq_chainNumber (n : ℕ) : Js.roundBinary64 n = chainNumber n := by
  obtain ⟨m, hm⟩ := Js.exists_natCast_roundBinary64 n
  have hfloor : ((m : ℕ) : ℚ).floor = (m : ℤ) := Rat.floor_intCast m
  rw [chainNumber, Js.number, hm, hfloor, Int.toNat_natCast]

theorem chainNumber_of_lt {n : ℕ} (hn : n < 2 ^ 53) : chainNumber n = n := by
  have hround := number_eq_chainNumber n
  rw [Js.roundBinary64_natCast hn] at hround
  exact_mod_cast hround.symm

/-- Only a chain id is looked up as an exact one. -/
theorem eq_of_chainNumber_eq {n c : ℕ} (h : chainNumber n = c) (hc : c < 2 ^ 53) : n = c :=
  Js.eq_of_roundBinary64_lt ((number_eq_chainNumber n).trans (by rw [h])) hc

/-- The key under which a destination is looked up is an exact one only for this destination. -/
theorem eq_of_chainKey_chainNumber {n c : ℕ} (h : chainKey (chainNumber n) = toString c)
    (hc : c < 2 ^ 53) : n = c := by
  have hidem : Js.roundBinary64 (chainNumber n) = chainNumber n := by
    rw [← number_eq_chainNumber, Js.roundBinary64_idem]
  have hround := Js.eq_of_numberToString hidem h
  rw [Js.roundBinary64_natCast hc] at hround
  exact eq_of_chainNumber_eq (by exact_mod_cast hround) hc

/-- A handler reads `wrapped` or `native`. -/
theorem TokenEntry.side_cases {entry : TokenEntry} {type : JobTypes}
    {side : String → Option String} (h : entry.side type = some side) :
    entry.wrapped = some side ∨ entry.native = some side := by
  cases type with
  | HANDLE_LOCK => exact Or.inl h
  | HANDLE_BURN => exact Or.inr h

/-- It reads `wrapped` for a lock and `native` for a burn. -/
theorem TokenEntry.counterpart_eq (entry : TokenEntry) (type : JobTypes) (destination : ℕ) :
    entry.counterpart type destination =
      (entry.side type).bind fun side => side (toString destination) := by
  cases type <;> rfl

/-- What the handler finds is the counterpart on the chain that the event names. -/
theorem Config.SafeChainIds.evmCounterpart (hcfg : cfg.SafeChainIds) {type : JobTypes}
    {origin n : ℕ} {address token : String}
    (h : EthereumClientService.route cfg type origin address (chainNumber n) = .ok (some token)) :
    n < 2 ^ 53 ∧ cfg.evmCounterpart type origin address n = some token := by
  unfold EthereumClientService.route at h
  unfold Config.evmCounterpart
  cases htokens : cfg.evmTokens (chainKey origin) with
  | none => rw [htokens] at h; cases h
  | some tokens =>
    rw [htokens] at h
    cases hentry : tokens address with
    | none => simp only [hentry, lookupRoute] at h; cases h
    | some entry =>
      cases hside : entry.side type with
      | none => simp only [hentry, lookupRoute, hside] at h; cases h
      | some side =>
        simp only [hentry, lookupRoute, hside, Except.ok.injEq] at h
        obtain ⟨c, hc, hkey⟩ :=
          hcfg _ tokens address entry side _ token htokens hentry (TokenEntry.side_cases hside) h
        have hn := eq_of_chainKey_chainNumber hkey hc
        rw [hkey, ← hn] at h
        refine ⟨hn ▸ hc, ?_⟩
        show (tokens address).bind (fun entry => entry.counterpart type n) = some token
        rw [hentry, Option.bind_some, TokenEntry.counterpart_eq, hside]
        exact h

/-! ## Addresses -/

theorem hexlify_toList (bs : Bytes) : (hexlify bs).toList = '0' :: 'x' :: Hex.encode bs := by
  simp only [hexlify, String.toList_append, String.toList_ofList]
  rfl

theorem strip0x_eq {s : String} {cs : List Char} (h : s.toList = '0' :: 'x' :: cs) :
    Js.strip0x s = String.ofList cs := by
  unfold Js.strip0x
  split
  next cs' h' => rw [h] at h'; cases h'; rfl
  next h' => exact absurd h (h' cs)

theorem strip0x_hexlify (bs : Bytes) : Js.strip0x (hexlify bs) = String.ofList (Hex.encode bs) :=
  strip0x_eq (hexlify_toList bs)

theorem length_encode (bs : Bytes) : (Hex.encode bs).length = 2 * bs.length := by
  induction bs with
  | nil => rfl
  | cons b bs ih =>
    rw [Hex.encode_cons, List.length_cons, List.length_cons, List.length_cons, ih]
    omega

theorem encode_append (as bs : Bytes) : Hex.encode (as ++ bs) = Hex.encode as ++ Hex.encode bs :=
  List.flatMap_append

/-- The last forty characters of a padded address are those of the address. -/
theorem sliceEnd_hexlify (padding : Bytes) (address : Vector UInt8 20) :
    "0x" ++ Js.sliceEnd 40 (hexlify (padding ++ address.toList)) = hexlify address.toList := by
  have hlen : (Hex.encode address.toList).length = 40 := by
    rw [length_encode, Vector.length_toList]
  have hdrop : ('0' :: 'x' :: (Hex.encode padding ++ Hex.encode address.toList)).drop
      (('0' :: 'x' :: (Hex.encode padding ++ Hex.encode address.toList)).length - 40) =
        Hex.encode address.toList := by
    rw [← List.cons_append, ← List.cons_append, List.length_append, hlen, Nat.add_sub_cancel,
      List.drop_left]
  rw [Js.sliceEnd, hexlify_toList, encode_append, hdrop, hexlify]

/-- A 32-byte address is recoded to the public key with its bytes. -/
theorem newPublicKey_hexToBase58
    (hbase58 : ∀ key : PublicKey, P.publicKey (L.bs58Encode key.toList) = .ok key)
    (key : PublicKey) :
    QueueProcessor.newPublicKey P (SolanaClientService.hexToBase58 L (hexlify key.toList)) =
      .ok key := by
  rw [SolanaClientService.hexToBase58, strip0x_hexlify, bufferFromHex, String.toList_ofList,
    Hex.decode_encode]
  exact hbase58 key

/-! ## From the event to the transaction -/

variable {type : JobTypes} {origin : ℕ} {log : EvmLog} {tr : Answers} {data : BridgeJob}

/-- The job of a lock or burn on an EVM chain. -/
theorem job_of_enqueues
    (h : (BridgeEvent.ofEvm type origin log).Enqueues P cfg node tr data) :
    ∃ dest, EthereumClientService.route cfg type origin log.tokenAddress
        (chainNumber log.destinationChainId.toNat) = .ok dest ∧
      data = { message := (BridgeEvent.ofEvm type origin log).message P cfg, type
               recipient := hexlify log.destinationAddress.toList
               originTokenAddress := log.tokenAddress, destinationTokenAddress := dest
               amount := toString log.amount.toNat
               destinationChainId := chainNumber log.destinationChainId.toNat
               originChainId := origin } := by
  obtain ⟨id, opts, k, hpath⟩ := h
  obtain ⟨p, signature, hplan, -, hpath⟩ := BridgeEvent.plan_of_add hpath
  obtain ⟨site, r, threshold, count, decimals, -, -, rfl, -, -, -⟩ := Plan.course_of_add hpath
  cases type with
  | HANDLE_LOCK =>
    obtain ⟨dest, hroute, hp⟩ := except_bind_ok hplan
    cases hp
    exact ⟨dest, hroute, rfl⟩
  | HANDLE_BURN =>
    obtain ⟨dest, hroute, hp⟩ := except_bind_ok hplan
    cases hp
    exact ⟨dest, hroute, rfl⟩

theorem chainNumber_eq_solana {n : ℕ} : chainNumber n = SOLANA_CHAIN_ID ↔ n = 0 := by
  constructor
  · intro h
    exact eq_of_chainNumber_eq h (by norm_num [SOLANA_CHAIN_ID])
  · rintro rfl
    exact chainNumber_of_lt (by norm_num)

/-- The printed amount is read back. -/
theorem amount_of_bigInt {n : ℕ} {amount : ℤ}
    (h : QueueProcessor.bigInt (toString n) = .ok amount) : amount = n := by
  rw [QueueProcessor.bigInt_eq_ok, Js.bigInt_toString] at h
  exact (Option.some.inj h).symm

/-- **The transaction with an EVM bridge contract is the one that the event asks for.** -/
theorem transaction_of_event (hcfg : cfg.SafeChainIds)
    (hadd : (BridgeEvent.ofEvm type origin log).Enqueues P cfg node tr data) {token : String}
    (hmapped : EthereumClientService.route cfg type origin log.tokenAddress
      (chainNumber log.destinationChainId.toNat) = .ok (some token))
    {c : EvmCall} {chainId : ℕ} {contract : String} {method : SmartContractMethods}
    {args : ContractArguments} (hcall : data.Calls P (.evm c))
    (hsend : c.Sends cfg chainId contract method args) :
    log.AsksForTransaction cfg type origin chainId method args := by
  obtain ⟨hlt, hcounterpart⟩ := hcfg.evmCounterpart hmapped
  obtain ⟨dest, hroute, rfl⟩ := job_of_enqueues hadd
  cases hroute.symm.trans hmapped
  obtain ⟨vs, -, hdest⟩ := hcall.destinationCall
  obtain ⟨rfl, rfl, rfl, -⟩ := hsend.course
  by_cases hsolana : chainNumber log.destinationChainId.toNat = SOLANA_CHAIN_ID
  · obtain ⟨tokenMint, amount, -, -, hc⟩ :=
      (QueueProcessor.destinationCall_eq_solana hsolana).1 hdest
    cases hc
  · obtain ⟨amount, hamount, hc⟩ := (QueueProcessor.destinationCall_eq_evm hsolana).1 hdest
    cases hc
    refine ⟨(chainNumber_of_lt hlt).symm, ?_, ?_, ⟨token, ?_, rfl⟩, amount_of_bigInt hamount, ?_⟩
    · rintro rfl
      rfl
    · rintro rfl
      rfl
    · show cfg.evmCounterpart type origin log.tokenAddress (chainNumber _) = _
      rw [chainNumber_of_lt hlt]
      exact hcounterpart
    · intro address haddress
      show "0x" ++ Js.sliceEnd 40 (hexlify log.destinationAddress.toList) = _
      rw [haddress]
      exact sliceEnd_hexlify _ address

/-- Scaling down is integer division. -/
theorem scaledAmount_natCast {a d : ℕ} (hd : d ≤ 18) :
    SolanaClientService.scaledAmount a d = (a / 10 ^ (18 - d) : ℕ) := by
  have hexp : (ETH_DECIMALS - (d : ℤ)).natAbs = 18 - d := by
    unfold ETH_DECIMALS
    omega
  have hpow : (10 : ℤ) ^ (18 - d) = ((10 ^ (18 - d) : ℕ) : ℤ) := by push_cast; rfl
  rw [SolanaClientService.scaledAmount, hexp, hpow, Int.tdiv_eq_ediv_of_nonneg (by positivity)]
  push_cast
  rfl

/-- The call of the Solana client for the job of an event. -/
theorem solanaCall_of_event
    (hadd : (BridgeEvent.ofEvm type origin log).Enqueues P cfg node tr data) {c : SolanaCall}
    (hcall : data.Calls P (.solana c)) :
    log.destinationChainId.toNat = SOLANA_CHAIN_ID ∧ c.method = QueueProcessor.method type ∧
      c.receiverString = hexlify log.destinationAddress.toList ∧
        c.amount = log.amount.toNat ∧
          QueueProcessor.newPublicKey P data.destinationTokenAddress = .ok c.tokenMint := by
  obtain ⟨dest, -, rfl⟩ := job_of_enqueues hadd
  obtain ⟨vs, -, hdest⟩ := hcall.destinationCall
  by_cases hsolana : chainNumber log.destinationChainId.toNat = SOLANA_CHAIN_ID
  · obtain ⟨tokenMint, amount, hkey, hamount, hc⟩ :=
      (QueueProcessor.destinationCall_eq_solana hsolana).1 hdest
    cases hc
    exact ⟨chainNumber_eq_solana.1 hsolana, rfl, rfl, amount_of_bigInt hamount, hkey⟩
  · obtain ⟨amount, -, hc⟩ := (QueueProcessor.destinationCall_eq_evm hsolana).1 hdest
    cases hc

/-- **The instruction for Solana is the one that the event asks for.** -/
theorem instruction_of_event (hcfg : cfg.SafeChainIds)
    (hbase58 : ∀ key : PublicKey, P.publicKey (L.bs58Encode key.toList) = .ok key)
    (hadd : (BridgeEvent.ofEvm type origin log).Enqueues P cfg node tr data) {token : String}
    (hmapped : EthereumClientService.route cfg type origin log.tokenAddress
      (chainNumber log.destinationChainId.toNat) = .ok (some token))
    {c : SolanaCall} {answers : ClientAnswers} {ix : Instruction}
    (hcall : data.Calls P (.solana c)) (hsend : c.Sends P L answers ix) :
    log.AsksForInstruction P cfg type origin answers ix := by
  obtain ⟨-, hcounterpart⟩ := hcfg.evmCounterpart hmapped
  obtain ⟨hchain, hmethod, hreceiver, hamount, hkey⟩ := solanaCall_of_event hadd hcall
  obtain ⟨dest, hroute, rfl⟩ := job_of_enqueues hadd
  cases hroute.symm.trans hmapped
  obtain ⟨text, htext, hkey⟩ := QueueProcessor.newPublicKey_eq_ok.1 hkey
  cases htext
  obtain ⟨receiver, ata, d, hnew, rfl, rfl⟩ := hsend.course
  rw [hreceiver, newPublicKey_hexToBase58 hbase58] at hnew
  cases hnew
  rw [hchain] at hcounterpart
  refine ⟨hchain, ?_, ?_, ⟨token, hcounterpart, by simpa using hkey⟩, by simp,
    fun key => c.eq_of_mem_receivers L _ _ _, ⟨d, by simp⟩, ?_⟩
  · rintro rfl
    rw [SolanaCall.instruction_method, hmethod, QueueProcessor.method]
  · rintro rfl
    rw [SolanaCall.instruction_method, hmethod, QueueProcessor.method]
  · intro mint d' hmem
    simp only [List.mem_cons, List.not_mem_nil, or_false] at hmem
    rcases hmem with h | h
    · cases h
    · cases h
      exact ⟨by simp, fun hd => by simp [hamount, scaledAmount_natCast hd]⟩

/-- **Transfers from EVM chains are faithful**: whatever token, amount, destination chain and
destination address a lock or burn has, if its job is enqueued for a token of the configuration and
processed up to the destination, the transaction or the instruction is the one it asks for. -/
theorem transfer_faithful (hcfg : cfg.SafeChainIds)
    (hbase58 : ∀ key : PublicKey, P.publicKey (L.bs58Encode key.toList) = .ok key)
    (hadd : (BridgeEvent.ofEvm type origin log).Enqueues P cfg node tr data) {token : String}
    (hmapped : EthereumClientService.route cfg type origin log.tokenAddress
      (chainNumber log.destinationChainId.toNat) = .ok (some token)) :
    (∀ (c : EvmCall) (chainId : ℕ) (contract : String) (method : SmartContractMethods)
        (args : ContractArguments), data.Calls P (.evm c) →
          c.Sends cfg chainId contract method args →
            log.AsksForTransaction cfg type origin chainId method args) ∧
      ∀ (c : SolanaCall) (answers : ClientAnswers) (ix : Instruction), data.Calls P (.solana c) →
        c.Sends P L answers ix → log.AsksForInstruction P cfg type origin answers ix :=
  ⟨fun _ _ _ _ _ hcall hsend => transaction_of_event hcfg hadd hmapped hcall hsend,
    fun _ _ _ hcall hsend => instruction_of_event hcfg hbase58 hadd hmapped hcall hsend⟩

/-- A job for an EVM chain of the configuration gets to a transaction, if the processor can read its
amount. -/
theorem exists_transaction {amount : ℤ} (hamount : QueueProcessor.bigInt data.amount = .ok amount)
    (hchain : data.destinationChainId ≠ SOLANA_CHAIN_ID) {network : Network}
    (hnetwork : cfg.network? data.destinationChainId = some network)
    (haddress : network.bridgeAddress ≠ "") :
    ∃ c args, data.Calls P (.evm c) ∧
      c.Sends cfg data.destinationChainId network.bridgeAddress (QueueProcessor.method data.type)
        args ∧ args.tokenAddress = data.destinationTokenAddress ∧ args.amount = amount := by
  have hdest := (@QueueProcessor.destinationCall_eq_evm P data [""] _ hchain).2
    ⟨amount, hamount, rfl⟩
  refine ⟨_, _, BridgeJob.calls_of_destinationCall (List.cons_ne_nil "" []) hdest,
    EvmCall.exists_sends hnetwork haddress, rfl, rfl⟩

/-- A job for Solana whose token is a public key gets to an instruction. -/
theorem exists_instruction
    (hbase58 : ∀ key : PublicKey, P.publicKey (L.bs58Encode key.toList) = .ok key)
    (hadd : (BridgeEvent.ofEvm type origin log).Enqueues P cfg node tr data)
    (hchain : log.destinationChainId.toNat = 0) {tokenMint : PublicKey}
    (hkey : QueueProcessor.newPublicKey P data.destinationTokenAddress = .ok tokenMint) (d : ℕ) :
    ∃ c answers ix, data.Calls P (.solana c) ∧ c.Sends P L answers ix ∧
      (⟨.getMint tokenMint, .ok d⟩ : Σ o : ClientOp, Except JsError o.Resp) ∈ answers := by
  obtain ⟨dest, -, hdata⟩ := job_of_enqueues hadd
  have hsolana : data.destinationChainId = SOLANA_CHAIN_ID := by
    rw [hdata]
    exact chainNumber_eq_solana.2 hchain
  have hamount : QueueProcessor.bigInt data.amount = .ok log.amount.toNat := by
    rw [hdata]
    exact QueueProcessor.bigInt_eq_ok.2 (Js.bigInt_toString _)
  have hreceiver : QueueProcessor.newPublicKey P
      (SolanaClientService.hexToBase58 L data.recipient) = .ok log.destinationAddress := by
    rw [hdata]
    exact newPublicKey_hexToBase58 hbase58 _
  have hdest := (@QueueProcessor.destinationCall_eq_solana P data [""] _ hsolana).2
    ⟨tokenMint, _, hkey, hamount, rfl⟩
  obtain ⟨c, hc, hmint, hdest⟩ : ∃ c : SolanaCall, c.receiverString = data.recipient ∧
      c.tokenMint = tokenMint ∧
        QueueProcessor.destinationCall P data [""] = .ok (.solana c) := by
    refine ⟨_, ?_, ?_, hdest⟩ <;> rfl
  rw [← hc] at hreceiver
  refine ⟨c, _, _, BridgeJob.calls_of_destinationCall (List.cons_ne_nil "" []) hdest,
    SolanaCall.exists_sends hreceiver log.destinationAddress d, ?_⟩
  rw [hmint]
  exact List.mem_cons_of_mem _ (List.mem_singleton_self _)

theorem Sample.publicKey_bs58Encode (key : PublicKey) :
    solanaPlatform.publicKey (library.bs58Encode key.toList) = .ok key := by
  have hlen : (String.ofList (Hex.encode key.toList)).toList.length = 64 := by
    rw [String.toList_ofList, length_encode, Vector.length_toList]
  show (if library.bs58Encode key.toList = _ then _ else _) = _
  by_cases hmint : key.toList = mint.toList
  · have htext : library.bs58Encode key.toList = _ := if_pos hmint
    rw [htext, if_pos rfl, Vector.toList_inj.1 hmint]
  · by_cases hreceiver : key.toList = receiver.toList
    · have htext : library.bs58Encode key.toList = _ := (if_neg hmint).trans (if_pos hreceiver)
      rw [htext, if_neg (by decide), if_pos rfl, Vector.toList_inj.1 hreceiver]
    · have htext : library.bs58Encode key.toList = _ :=
        (if_neg hmint).trans (if_neg hreceiver)
      rw [htext, if_neg (fun h => absurd (h ▸ hlen) (by decide)),
        if_neg (fun h => absurd (h ▸ hlen) (by decide)), bufferFromHex, String.toList_ofList,
        Hex.decode_encode]
      refine congrArg Except.ok (Vector.ext fun i hi => ?_)
      simp

/-- The chain ids of the sample configuration are exact. -/
theorem Sample.safeChainIds : config.SafeChainIds := by
  intro chain tokens address entry side key counterpart htokens hentry hside hkey
  change (if chain = "1" then some _ else none) = some tokens at htokens
  split at htokens
  · cases htokens
    change (if address = token then some _ else none) = some entry at hentry
    split at hentry
    · cases hentry
      rcases hside with hside | hside
      · cases hside
        change (if key = "137" then some _ else if key = "0" then some _ else none) = _ at hkey
        by_cases h137 : key = "137"
        · exact ⟨137, by norm_num, h137⟩
        · by_cases h0 : key = "0"
          · exact ⟨0, by norm_num, h0⟩
          · rw [if_neg h137, if_neg h0] at hkey
            cases hkey
      · cases hside
    · cases hentry
  · cases htokens

/-- A node handles a lock of the sample token for Solana up to its job. -/
theorem Sample.enqueues_lock {log : EvmLog} (htoken : log.tokenAddress = token)
    (hchain : log.destinationChainId.toNat = 0) :
    EthereumClientService.route config .HANDLE_LOCK 1 log.tokenAddress
        (chainNumber log.destinationChainId.toNat) =
          .ok (some "So11111111111111111111111111111111111111112") ∧
      ∃ tr data, (BridgeEvent.ofEvm .HANDLE_LOCK 1 log).Enqueues solanaPlatform config
          (Sample.node 0) tr data ∧
        QueueProcessor.newPublicKey solanaPlatform data.destinationTokenAddress = .ok mint := by
  have hroute : EthereumClientService.route config .HANDLE_LOCK 1 log.tokenAddress
      (chainNumber log.destinationChainId.toNat) =
        .ok (some "So11111111111111111111111111111111111111112") := by
    rw [htoken, hchain]
    decide +kernel
  have hsolana : chainNumber log.destinationChainId.toNat = SOLANA_CHAIN_ID :=
    chainNumber_eq_solana.2 hchain
  obtain ⟨p, hplan, hsite⟩ : ∃ p, (BridgeEvent.ofEvm .HANDLE_LOCK 1 log).plan solanaPlatform
      config = .ok p ∧ p.site = .ok .solana := by
    refine ⟨_, congrArg (· >>= _) hroute, ?_⟩
    show thresholdSite config (chainNumber _) = _
    rw [thresholdSite, if_pos hsolana]
  obtain ⟨signature, hsign⟩ : ∃ signature,
      (BridgeEvent.ofEvm .HANDLE_LOCK 1 log).sign solanaPlatform config (Sample.node 0) =
        .ok signature := by
    show ∃ signature, EthereumClientService.sign solanaPlatform config (Sample.node 0)
      (chainNumber _) _ = _
    rw [EthereumClientService.sign, if_pos hsolana]
    exact ⟨_, rfl⟩
  obtain ⟨tr, d, hadd, -⟩ := BridgeEvent.exists_enqueues hplan hsign hsite 9
  refine ⟨hroute, tr, p.job d, hadd, ?_⟩
  obtain ⟨dest, hdest, hdata⟩ := job_of_enqueues hadd
  cases hdest.symm.trans hroute
  rw [hdata]
  exact QueueProcessor.newPublicKey_eq_ok.2 ⟨_, rfl, rfl⟩

/-- A node handles the lock for the second EVM chain up to its job, and the processor gets to the
transaction. -/
theorem Sample.exists_lockTransaction : ∃ tr data c args,
    (BridgeEvent.ofEvm .HANDLE_LOCK 1 (lockLog 137)).Enqueues solanaPlatform config (Sample.node 0)
        tr data ∧
      data.Calls solanaPlatform (.evm c) ∧
        c.Sends config 137 "0xe7f1725E7734CE288F8367e1Bb143E90bb3F0512" .MINT_WRAPPED_TOKENS
          args := by
  obtain ⟨p, hplan, hsite⟩ := exists_ok_of_decide (p := fun p : Plan => p.site = .ok (.evm 137))
    (x := (BridgeEvent.ofEvm .HANDLE_LOCK 1 (lockLog 137)).plan solanaPlatform config)
    (by decide +kernel)
  obtain ⟨signature, hsign, -⟩ := exists_ok_of_decide (p := fun _ : String => True)
    (x := (BridgeEvent.ofEvm .HANDLE_LOCK 1 (lockLog 137)).sign solanaPlatform config
      (Sample.node 0)) (by decide +kernel)
  obtain ⟨tr, d, hadd, -⟩ := BridgeEvent.exists_enqueues hplan hsign hsite 0
  obtain ⟨dest, -, hdata⟩ := job_of_enqueues hadd
  have hchain : (p.job d).destinationChainId = 137 := by
    rw [hdata]
    exact chainNumber_of_lt (n := 137) (by norm_num)
  have htype : (p.job d).type = .HANDLE_LOCK := by rw [hdata]
  have hamount : QueueProcessor.bigInt (p.job d).amount = .ok 1500000000000000000 := by
    rw [hdata]
    exact QueueProcessor.bigInt_eq_ok.2 (Js.bigInt_toString _)
  obtain ⟨c, args, hcall, hsend, -⟩ := @exists_transaction solanaPlatform config _ _ hamount
    (by rw [hchain]; decide)
    { chainId := 137, bridgeAddress := "0xe7f1725E7734CE288F8367e1Bb143E90bb3F0512" }
    (by rw [hchain]; rfl) (by decide)
  rw [hchain, htype] at hsend
  exact ⟨tr, p.job d, c, args, hadd, hcall, hsend⟩

/-- The locks for the second EVM chain and for Solana arrive there. -/
theorem transfer_faithful_sample :
    (∃ (tr : Answers) (data : BridgeJob) (c : EvmCall) (contract : String)
      (method : SmartContractMethods) (args : ContractArguments),
      (BridgeEvent.ofEvm .HANDLE_LOCK 1 (Sample.lockLog 137)).Enqueues Sample.solanaPlatform
          Sample.config (Sample.node 0) tr data ∧
        data.Calls Sample.solanaPlatform (.evm c) ∧
          c.Sends Sample.config 137 contract method args ∧
            (Sample.lockLog 137).AsksForTransaction Sample.config .HANDLE_LOCK 1 137 method args) ∧
      ∃ (tr : Answers) (data : BridgeJob) (c : SolanaCall) (answers : ClientAnswers)
        (ix : Instruction),
        (BridgeEvent.ofEvm .HANDLE_LOCK 1 (Sample.lockLog 0)).Enqueues Sample.solanaPlatform
            Sample.config (Sample.node 0) tr data ∧
          data.Calls Sample.solanaPlatform (.solana c) ∧
            c.Sends Sample.solanaPlatform Sample.library answers ix ∧
              (Sample.lockLog 0).AsksForInstruction Sample.solanaPlatform Sample.config
                .HANDLE_LOCK 1 answers ix := by
  constructor
  · obtain ⟨tr, data, c, args, hadd, hcall, hsend⟩ := Sample.exists_lockTransaction
    have hmapped : EthereumClientService.route Sample.config .HANDLE_LOCK 1
        (Sample.lockLog 137).tokenAddress
        (chainNumber (Sample.lockLog 137).destinationChainId.toNat) =
          .ok (some "0x7ceB23fD6bC0adD59E62ac25578270cFf1b9f619") := by decide +kernel
    refine ⟨tr, data, c, _, _, args, hadd, hcall, hsend, ?_⟩
    exact (transfer_faithful Sample.safeChainIds Sample.publicKey_bs58Encode hadd hmapped).1 _ _ _
      _ _ hcall hsend
  · obtain ⟨hmapped, tr, data, hadd, hkey⟩ := @Sample.enqueues_lock (Sample.lockLog 0) rfl rfl
    obtain ⟨c, answers, ix, hcall, hsend, -⟩ :=
      exists_instruction Sample.publicKey_bs58Encode hadd rfl hkey 9
    refine ⟨tr, data, c, answers, ix, hadd, hcall, hsend, ?_⟩
    exact (transfer_faithful Sample.safeChainIds Sample.publicKey_bs58Encode hadd hmapped).2 _ _ _
      hcall hsend

end Tsunagari
