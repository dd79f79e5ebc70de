import Tsunagari.Bridge.Proofs.FidelityProofs

/-!
# Proofs: when amounts arrive

The Solana handlers scale the amount in binary64 and print the product; the processor reads the text
as an integer literal. Large amounts lose digits on the way, or get a text that is no literal. In
the other direction the Solana client divides, and nothing keeps the quotient within its `u64`
field.
-/

namespace Tsunagari

open Async (Prog)

variable {P : Platform} {cfg : Config} {node : Node} {e : BridgeEvent}

/-! ## From Solana -/

/-- The amount of a lock or burn on Solana. -/
def BridgeEvent.solanaAmount? : BridgeEvent → Option UInt64
  | tokensLocked _ _ => none
  | wrappedTokensBurned _ _ => none
  | solanaTokensLocked _ data => some data.amount
  | solanaTokensBurned _ data => some data.amount

/-- The plan of a Solana event reads the decimals of a mint and scales the amount with them. -/
theorem Plan.amount_of_solana {p : Plan} {a : UInt64} (hplan : e.plan P cfg = .ok p)
    (ha : e.solanaAmount? = some a) :
    (∃ mint, p.mint = some mint) ∧ ∀ d, (p.job d).amount = adjustedAmount a d := by
  cases e with
  | tokensLocked chainId log => cases ha
  | wrappedTokensBurned chainId log => cases ha
  | solanaTokensLocked txSignature data =>
    obtain ⟨dest, -, h⟩ := except_bind_ok hplan
    cases h
    cases ha
    exact ⟨⟨_, rfl⟩, fun _ => rfl⟩
  | solanaTokensBurned txSignature data =>
    obtain ⟨dest, -, h⟩ := except_bind_ok hplan
    cases h
    cases ha
    exact ⟨⟨_, rfl⟩, fun _ => rfl⟩

/-- The job of a Solana event carries the amount, scaled with the decimals that were read. -/
theorem amount_of_enqueues {a : UInt64} (ha : e.solanaAmount? = some a) {tr : Answers}
    {data : BridgeJob} (hadd : e.Enqueues P cfg node tr data) {mint : PublicKey} {d : ℕ}
    (hmint : (⟨.getMint mint, .ok d⟩ : Σ o : Op, Except JsError o.Resp) ∈ tr) :
    data.amount = adjustedAmount a d := by
  obtain ⟨id, opts, k, hpath⟩ := hadd
  obtain ⟨p, signature, hplan, -, hpath⟩ := e.plan_of_add hpath
  obtain ⟨⟨mint', hmint'⟩, hamount⟩ := Plan.amount_of_solana hplan ha
  obtain ⟨site, r, threshold, count, decimals, -, -, rfl, -, -, rfl⟩ := Plan.course_of_add hpath
  rw [Plan.mintAnswers_of_some hmint'] at hmint
  have hd : d = decimals := by
    simp only [List.mem_cons, List.singleton_append, List.not_mem_nil, or_false] at hmint
    rcases hmint with h | h | h | h | h
    · cases h
    · cases h
    · cases h
    · cases h; rfl
    · cases h
  rw [hamount, hd]

/-- **The amount that a Solana event puts into its job is read back as the exact product with the
power of ten, exactly when this product survives the way through binary64 and its text.** -/
theorem amount_exact_iff {a : UInt64} (ha : e.solanaAmount? = some a) {tr : Answers}
    {data : BridgeJob} (hadd : e.Enqueues P cfg node tr data) {mint : PublicKey} {d : ℕ}
    (hmint : (⟨.getMint mint, .ok d⟩ : Σ o : Op, Except JsError o.Resp) ∈ tr) (hd : d ≤ 18) :
    QueueProcessor.bigInt data.amount = .ok ((a.toNat * 10 ^ (18 - d) : ℕ) : ℤ) ↔
      a.toNat = 0 ∨ Js.ExactProduct a.toNat (18 - d) := by
  have hexp : ETH_DECIMALS - (d : ℤ) = ((18 - d : ℕ) : ℤ) := by
    unfold ETH_DECIMALS
    omega
  rw [amount_of_enqueues ha hadd hmint, QueueProcessor.bigInt_eq_ok, adjustedAmount, hexp]
  exact Js.bigInt_mul_pow10_iff (by omega)

/-- A node handles a lock of any amount, of a mint with nine decimals, up to its job. -/
theorem Sample.enqueues_lockData (amount : UInt64) : ∃ tr data,
    (BridgeEvent.solanaTokensLocked solanaTransaction { lockData with amount }).Enqueues platform
        config (Sample.node 0) tr data ∧
      (⟨.getMint Sample.mint, .ok 9⟩ : Σ o : Op, Except JsError o.Resp) ∈ tr := by
  have hroute : lookupRoute (config.solanaTokens (platform.toBase58 mint)) .HANDLE_LOCK
      (chainKey 137) = .ok (some "0x0d500B1d8E8eF31E21C99d1Db9A6444d3ADf1270") := by decide +kernel
  obtain ⟨p, hplan, hsite, hmint⟩ : ∃ p,
      (BridgeEvent.solanaTokensLocked solanaTransaction { lockData with amount }).plan platform
          config = .ok p ∧ p.site = .ok .solana ∧ p.mint = some mint :=
    ⟨_, congrArg (· >>= _) hroute, rfl, rfl⟩
  obtain ⟨tr, d, hadd, hread⟩ := @BridgeEvent.exists_enqueues platform config (Sample.node 0) _ p _
    _ hplan rfl hsite 9
  exact ⟨tr, p.job d, hadd, (hread _ hmint).2⟩

/-- The lock of 2.5 tokens with nine decimals. -/
theorem amount_exact_iff_sample :
    ∃ (tr : Answers) (data : BridgeJob),
      Sample.solanaLock.Enqueues Sample.platform Sample.config (Sample.node 0) tr data ∧
        (QueueProcessor.bigInt data.amount = .ok ((2500000000 * 10 ^ (18 - 9) : ℕ) : ℤ) ↔
          2500000000 = 0 ∨ Js.ExactProduct 2500000000 (18 - 9)) := by
  obtain ⟨tr, data, hadd, hmint⟩ := Sample.enqueues_lockData 2500000000
  exact ⟨tr, data, hadd, amount_exact_iff (a := 2500000000) rfl hadd hmint (Nat.le_add_left 9 9)⟩

/-- A lock of a thousand tokens with nine decimals. -/
def Sample.thousandLock : BridgeEvent :=
  .solanaTokensLocked solanaTransaction { lockData with amount := 1000000000000 }

/-- Its job carries an amount that is no integer literal. -/
theorem not_amount_exact_sample :
    ¬ ∀ (tr : Answers) (data : BridgeJob) (mint : PublicKey) (d : ℕ),
      Sample.thousandLock.Enqueues Sample.platform Sample.config (Sample.node 0) tr data →
        (⟨.getMint mint, .ok d⟩ : Σ o : Op, Except JsError o.Resp) ∈ tr → d ≤ 18 →
          QueueProcessor.bigInt data.amount =
            .ok ((1000000000000 * 10 ^ (18 - d) : ℕ) : ℤ) := by
  intro h
  obtain ⟨tr, data, hadd, hmint⟩ := Sample.enqueues_lockData 1000000000000
  have hexact := h tr data _ 9 hadd hmint (Nat.le_add_left 9 9)
  rw [amount_of_enqueues (a := 1000000000000) rfl hadd hmint,
    QueueProcessor.bigInt_eq_ok] at hexact
  have htext : adjustedAmount 1000000000000 9 = "1e+21" := by decide +kernel
  rw [htext] at hexact
  revert hexact
  decide +kernel

/-! ## To Solana -/

/-- An integer quotient is never too large; it is positive and below a bound when the dividend is
large enough and below the multiple of the bound. -/
theorem Instruction.carriesAmount_iff {ix : Instruction} {a d : ℕ}
    (h : ix.amount = (a / 10 ^ (18 - d) : ℕ)) :
    ix.CarriesAmount a d ↔ 10 ^ (18 - d) ≤ a ∧ a < 2 ^ 64 * 10 ^ (18 - d) := by
  have hunit : 0 < 10 ^ (18 - d) := by positivity
  have hpos : 1 ≤ a / 10 ^ (18 - d) ↔ 10 ^ (18 - d) ≤ a := by
    rw [Nat.le_div_iff_mul_le hunit, one_mul]
  have hfits : a / 10 ^ (18 - d) < 2 ^ 64 ↔ a < 2 ^ 64 * 10 ^ (18 - d) :=
    Nat.div_lt_iff_lt_mul hunit
  constructor
  · intro hc
    have hp := hc.positive
    have hf := hc.fits
    rw [h] at hp hf
    exact ⟨hpos.1 (by omega), hfits.1 (by omega)⟩
  · rintro ⟨hlow, hhigh⟩
    have hp := hpos.2 hlow
    have hf := hfits.2 hhigh
    refine ⟨?_, ?_, by omega, by omega⟩
    · rw [h]
      exact_mod_cast Nat.div_mul_le_self a _
    · rw [h]
      exact_mod_cast (Nat.div_lt_iff_lt_mul hunit).1 (Nat.lt_succ_self _)

variable {type : JobTypes} {origin : ℕ} {log : EvmLog} {tr : Answers} {data : BridgeJob}
  {L : SolanaLibrary} {c : SolanaCall} {answers : ClientAnswers} {ix : Instruction}

/-- The instruction carries the amount of the event, scaled down with the decimals that were
read. -/
theorem amount_of_sends (hadd : (BridgeEvent.ofEvm type origin log).Enqueues P cfg node tr data)
    (hcall : data.Calls P (.solana c)) (hsend : c.Sends P L answers ix) {mint : PublicKey} {d : ℕ}
    (hmint : (⟨.getMint mint, .ok d⟩ : Σ o : ClientOp, Except JsError o.Resp) ∈ answers)
    (hd : d ≤ 18) : ix.amount = (log.amount.toNat / 10 ^ (18 - d) : ℕ) := by
  obtain ⟨-, -, -, hamount, -⟩ := solanaCall_of_event hadd hcall
  obtain ⟨receiver, ata, d', -, rfl, rfl⟩ := hsend.course
  simp only [List.mem_cons, List.not_mem_nil, or_false] at hmint
  rcases hmint with h | h
  · cases h
  · cases h
    rw [SolanaCall.instruction_amount, hamount, scaledAmount_natCast hd]

/-- **The instruction for Solana carries the amount of a lock or burn exactly when the amount is a
unit of the mint at least and below `2 ^ 64` units.** -/
theorem scaled_amount_iff (hadd : (BridgeEvent.ofEvm type origin log).Enqueues P cfg node tr data)
    (hcall : data.Calls P (.solana c)) (hsend : c.Sends P L answers ix) {mint : PublicKey} {d : ℕ}
    (hmint : (⟨.getMint mint, .ok d⟩ : Σ o : ClientOp, Except JsError o.Resp) ∈ answers)
    (hd : d ≤ 18) :
    ix.CarriesAmount log.amount.toNat d ↔
      10 ^ (18 - d) ≤ log.amount.toNat ∧ log.amount.toNat < 2 ^ 64 * 10 ^ (18 - d) :=
  Instruction.carriesAmount_iff (amount_of_sends hadd hcall hsend hmint hd)

/-- A lock of so much of the sample token, for Solana. -/
def Sample.lockOf (amount : BitVec 256) : EvmLog := { lockLog 0 with amount }

/-- It arrives there. -/
theorem Sample.exists_instruction (amount : BitVec 256) :
    ∃ tr data c answers ix,
      (BridgeEvent.ofEvm .HANDLE_LOCK 1 (lockOf amount)).Enqueues solanaPlatform config
          (Sample.node 0) tr data ∧
        data.Calls solanaPlatform (.solana c) ∧ c.Sends solanaPlatform library answers ix ∧
          (⟨.getMint Sample.mint, .ok 9⟩ : Σ o : ClientOp, Except JsError o.Resp) ∈ answers := by
  obtain ⟨-, tr, data, hadd, hkey⟩ := @Sample.enqueues_lock (lockOf amount) rfl rfl
  obtain ⟨c, answers, ix, hcall, hsend, hmint⟩ :=
    Tsunagari.exists_instruction publicKey_bs58Encode hadd rfl hkey 9
  exact ⟨tr, data, c, answers, ix, hadd, hcall, hsend, hmint⟩

/-- A lock of 1.5 tokens, for a mint with nine decimals. -/
theorem scaled_amount_iff_sample :
    ∃ (ix : Instruction) (c : SolanaCall) (answers : ClientAnswers),
      c.Sends Sample.solanaPlatform Sample.library answers ix ∧
        (ix.CarriesAmount 1500000000000000000 9 ↔
          10 ^ (18 - 9) ≤ 1500000000000000000 ∧
            1500000000000000000 < 2 ^ 64 * 10 ^ (18 - 9)) := by
  obtain ⟨tr, data, c, answers, ix, hadd, hcall, hsend, hmint⟩ :=
    Sample.exists_instruction 1500000000000000000
  exact ⟨ix, c, answers, hsend, scaled_amount_iff hadd hcall hsend hmint (Nat.le_add_left 9 9)⟩

/-- A lock of 1 wei is carried out with nothing. -/
theorem not_scaled_amount_sample :
    ¬ ∀ (tr : Answers) (data : BridgeJob) (c : SolanaCall) (answers : ClientAnswers)
        (ix : Instruction) (mint : PublicKey) (d : ℕ),
      (BridgeEvent.ofEvm .HANDLE_LOCK 1 (Sample.lockOf 1)).Enqueues Sample.solanaPlatform
          Sample.config (Sample.node 0) tr data →
        data.Calls Sample.solanaPlatform (.solana c) →
          c.Sends Sample.solanaPlatform Sample.library answers ix →
            (⟨.getMint mint, .ok d⟩ : Σ o : ClientOp, Except JsError o.Resp) ∈ answers →
              d ≤ 18 → ix.CarriesAmount 1 d := by
  intro h
  obtain ⟨tr, data, c, answers, ix, hadd, hcall, hsend, hmint⟩ := Sample.exists_instruction 1
  have hcarries := h tr data c answers ix _ 9 hadd hcall hsend hmint (Nat.le_add_left 9 9)
  have hone : (Sample.lockOf 1).amount.toNat = 1 := rfl
  have hamount := amount_of_sends hadd hcall hsend hmint (Nat.le_add_left 9 9)
  rw [hone] at hamount
  have hpos := hcarries.positive
  rw [hamount] at hpos
  norm_num at hpos

end Tsunagari
