import Tsunagari.Bridge.Proofs.AmountProofs
import Tsunagari.Js.Proofs.RoundingProofs

/-!
# Proofs: how much of an amount arrives

Up to twelve decimals, amounts from Solana arrive exactly until they reach a thousand tokens, from
where on the processor rejects them. With more decimals an amount may be changed in its last digits,
but it stays in order with the others.
-/

namespace Tsunagari

variable {P : Platform} {cfg : Config} {node : Node} {e : BridgeEvent} {a : UInt64} {tr : Answers}
  {data : BridgeJob} {mint : PublicKey} {d : ℕ}

theorem adjustedAmount_eq (hd : d ≤ 18) : adjustedAmount a d =
    Js.numberToString (Js.mul (Js.number a.toNat) (Js.pow10 ((18 - d : ℕ) : ℤ))) := by
  have hexp : ETH_DECIMALS - (d : ℤ) = ((18 - d : ℕ) : ℤ) := by
    unfold ETH_DECIMALS
    omega
  rw [adjustedAmount, hexp]

theorem bigInt_of_fifteen (ha : e.solanaAmount? = some a) (hadd : e.Enqueues P cfg node tr data)
    (hmint : (⟨.getMint mint, .ok d⟩ : Σ o : Op, Except JsError o.Resp) ∈ tr) (hd : d ≤ 18)
    (hfifteen : a.toNat < 10 ^ 15) (hlt : a.toNat * 10 ^ (18 - d) < 10 ^ 21) :
    QueueProcessor.bigInt data.amount = .ok ((a.toNat * 10 ^ (18 - d) : ℕ) : ℤ) := by
  rw [amount_of_enqueues ha hadd hmint, QueueProcessor.bigInt_eq_ok, adjustedAmount_eq hd]
  exact (Js.bigInt_mul_pow10_iff (by omega)).2 (Or.inr (.of_fifteen hfifteen hlt))

/-- **Below a thousand tokens an amount from Solana arrives exactly, and no larger one does**, if
the mint has at most twelve decimals or the amount at most fifteen digits. -/
theorem amount_exact_iff_lt (ha : e.solanaAmount? = some a)
    (hadd : e.Enqueues P cfg node tr data)
    (hmint : (⟨.getMint mint, .ok d⟩ : Σ o : Op, Except JsError o.Resp) ∈ tr) (hd : d ≤ 18)
    (hdigits : d ≤ 12 ∨ a.toNat < 10 ^ 15) :
    QueueProcessor.bigInt data.amount = .ok ((a.toNat * 10 ^ (18 - d) : ℕ) : ℤ) ↔
      a.toNat < 1000 * 10 ^ d := by
  have hunit : 0 < 10 ^ (18 - d) := by positivity
  have hthousand : 1000 * 10 ^ d * 10 ^ (18 - d) = 10 ^ 21 := by
    rw [mul_assoc, ← pow_add, Nat.add_sub_cancel' hd]
    norm_num
  have hplain : a.toNat * 10 ^ (18 - d) < 10 ^ 21 ↔ a.toNat < 1000 * 10 ^ d := by
    rw [← hthousand, Nat.mul_lt_mul_right hunit]
  constructor
  · intro hread
    rw [amount_of_enqueues ha hadd hmint, QueueProcessor.bigInt_eq_ok, adjustedAmount_eq hd,
      Js.bigInt_mul_pow10_iff (by omega)] at hread
    rcases hread with h0 | hexact
    · rw [h0]
      positivity
    · exact hplain.1 hexact.plain
  · intro hlt
    have hfifteen : a.toNat < 10 ^ 15 := by
      rcases hdigits with hd12 | hfew
      · have hpow : 10 ^ d ≤ 10 ^ 12 := Nat.pow_le_pow_right (by norm_num) hd12
        omega
      · exact hfew
    exact bigInt_of_fifteen ha hadd hmint hd hfifteen (hplain.2 hlt)

/-- A lock of 999.999999999 tokens with nine decimals. -/
def Sample.largeLock : BridgeEvent :=
  .solanaTokensLocked solanaTransaction { lockData with amount := 999999999999 }

/-- It arrives. -/
theorem amount_exact_iff_lt_sample : ∃ (tr : Answers) (data : BridgeJob),
    Sample.largeLock.Enqueues Sample.platform Sample.config (Sample.node 0) tr data ∧
      (QueueProcessor.bigInt data.amount = .ok ((999999999999 * 10 ^ (18 - 9) : ℕ) : ℤ) ↔
        999999999999 < 1000 * 10 ^ 9) := by
  obtain ⟨tr, data, hadd, hmint⟩ := Sample.enqueues_lockData 999999999999
  exact ⟨tr, data, hadd, amount_exact_iff_lt (a := 999999999999) rfl hadd hmint (by decide)
    (Or.inl (by decide))⟩

/-- What the processor reads from the amount. -/
theorem bigInt_amount (ha : e.solanaAmount? = some a) (hadd : e.Enqueues P cfg node tr data)
    (hmint : (⟨.getMint mint, .ok d⟩ : Σ o : Op, Except JsError o.Resp) ∈ tr) (hd : d ≤ 18)
    {n : ℤ} : QueueProcessor.bigInt data.amount = .ok n ↔
      Js.product a.toNat (18 - d) < 10 ^ 21 ∧
        ∃ v : ℕ, n = v ∧ Js.ShortestDecimal (Js.product a.toNat (18 - d)) v := by
  rw [amount_of_enqueues ha hadd hmint, QueueProcessor.bigInt_eq_ok, adjustedAmount_eq hd]
  exact Js.bigInt_product (by omega)

/-- **An amount from Solana is rejected or arrives nearly**: it is an integer literal exactly when
the product of the handler is below `10 ^ 21`, and then it is the exact product up to one part in
`2 ^ 51`. -/
theorem amount_near (ha : e.solanaAmount? = some a) (hadd : e.Enqueues P cfg node tr data)
    (hmint : (⟨.getMint mint, .ok d⟩ : Σ o : Op, Except JsError o.Resp) ∈ tr) (hd : d ≤ 18) :
    ((∃ n, QueueProcessor.bigInt data.amount = .ok n) ↔
        Js.mul (Js.number a.toNat) (Js.pow10 (18 - d)) < 10 ^ 21) ∧
      ∀ n, QueueProcessor.bigInt data.amount = .ok n →
        |n - ((a.toNat * 10 ^ (18 - d) : ℕ) : ℤ)| * 2 ^ 51 ≤ (a.toNat * 10 ^ (18 - d) : ℕ) := by
  have hexp : (18 : ℤ) - d = ((18 - d : ℕ) : ℤ) := by omega
  rw [hexp, Js.mul_number_pow10 (by omega)]
  refine ⟨⟨fun ⟨n, h⟩ => ((bigInt_amount ha hadd hmint hd).1 h).1, fun hlt => ?_⟩, fun n h => ?_⟩
  · obtain ⟨v, hv⟩ := Js.exists_shortestDecimal hlt
    exact ⟨v, (bigInt_amount ha hadd hmint hd).2 ⟨hlt, v, rfl, hv⟩⟩
  · obtain ⟨-, v, rfl, hv⟩ := (bigInt_amount ha hadd hmint hd).1 h
    have hnear := Js.abs_sub_product_le hv.reads
    exact_mod_cast hnear

theorem amount_near_sample : ∃ (tr : Answers) (data : BridgeJob),
    Sample.largeLock.Enqueues Sample.platform Sample.config (Sample.node 0) tr data ∧
      ((∃ n, QueueProcessor.bigInt data.amount = .ok n) ↔
        Js.mul (Js.number 999999999999) (Js.pow10 (18 - 9)) < 10 ^ 21) ∧
      ∀ n, QueueProcessor.bigInt data.amount = .ok n →
        |n - ((999999999999 * 10 ^ (18 - 9) : ℕ) : ℤ)| * 2 ^ 51 ≤
          (999999999999 * 10 ^ (18 - 9) : ℕ) := by
  obtain ⟨tr, data, hadd, hmint⟩ := Sample.enqueues_lockData 999999999999
  exact ⟨tr, data, hadd, amount_near (a := 999999999999) rfl hadd hmint (by decide)⟩

/-- **Amounts from Solana keep their order**: if the larger one arrives, so does the smaller one,
and not as more. -/
theorem amount_mono {e' : BridgeEvent} {a' : UInt64} {node' : Node} {tr' : Answers}
    {data' : BridgeJob} {mint' : PublicKey} (ha : e.solanaAmount? = some a)
    (hadd : e.Enqueues P cfg node tr data)
    (hmint : (⟨.getMint mint, .ok d⟩ : Σ o : Op, Except JsError o.Resp) ∈ tr)
    (ha' : e'.solanaAmount? = some a') (hadd' : e'.Enqueues P cfg node' tr' data')
    (hmint' : (⟨.getMint mint', .ok d⟩ : Σ o : Op, Except JsError o.Resp) ∈ tr') (hd : d ≤ 18)
    (hle : a ≤ a') {n' : ℤ} (hn' : QueueProcessor.bigInt data'.amount = .ok n') :
    ∃ n, QueueProcessor.bigInt data.amount = .ok n ∧ n ≤ n' := by
  obtain ⟨hlt', v', rfl, hv'⟩ := (bigInt_amount ha' hadd' hmint' hd).1 hn'
  have hmono := Js.product_mono (UInt64.le_iff_toNat_le.1 hle) (18 - d)
  obtain ⟨v, hv⟩ := Js.exists_shortestDecimal (hmono.trans_lt hlt')
  refine ⟨v, (bigInt_amount ha hadd hmint hd).2 ⟨hmono.trans_lt hlt', v, rfl, hv⟩, ?_⟩
  exact_mod_cast hv.mono hv' hmono

/-- The lock of 2.5 tokens arrives since that of 999.999999999 does, and not as more. -/
theorem amount_mono_sample : ∃ (tr : Answers) (data : BridgeJob) (n : ℤ),
    Sample.solanaLock.Enqueues Sample.platform Sample.config (Sample.node 0) tr data ∧
      QueueProcessor.bigInt data.amount = .ok n ∧ n ≤ (999999999999 * 10 ^ (18 - 9) : ℕ) := by
  obtain ⟨tr, data, hadd, hmint⟩ := Sample.enqueues_lockData 2500000000
  obtain ⟨tr', data', hadd', hmint'⟩ := Sample.enqueues_lockData 999999999999
  have hread := bigInt_of_fifteen (a := 999999999999) rfl hadd' hmint' (by decide) (by decide)
    (by decide)
  obtain ⟨n, hn, hle⟩ := amount_mono (a := 2500000000) rfl hadd hmint rfl hadd' hmint'
    (by decide) (by decide) hread
  exact ⟨tr, data, n, hadd, hn, hle⟩

end Tsunagari
