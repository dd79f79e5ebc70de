import Tsunagari.Js.Proofs.DecimalProofs

/-!
# Proofs: how precise binary64 is

Rounding changes a number by at most one part in `2 ^ 53`. Therefore decimals of fifteen digits are
told apart, and a product that goes through binary64 and its text comes back in order and changed by
at most one part in `2 ^ 51`.
-/

namespace Js

/-! ## The error of rounding -/

/-- **Rounding changes a number by at most one part in `2 ^ 53`.** -/
theorem abs_roundBinary64_sub_le {q : ℚ} (hq : 0 ≤ q) : |roundBinary64 q - q| ≤ q / 2 ^ 53 := by
  rcases hq.eq_or_lt with rfl | hpos
  · rw [roundBinary64_of_nonpos le_rfl, sub_zero, abs_zero, zero_div]
  · set ulp : ℚ := 2 ^ (exponent q - 52) with hulp
    have hulp0 : 0 < ulp := two_zpow_pos _
    have hexp : (2 : ℚ) ^ exponent q = ulp * 2 ^ 52 := by
      rw [hulp, ← zpow_natCast, ← zpow_add₀ (by norm_num)]
      congr 1
      omega
    have hlow : ulp * 2 ^ 52 ≤ q := hexp ▸ (exponent_spec hpos).1
    have hnear : |roundHalfEven (q / ulp) * ulp - q| ≤ 1 / 2 * ulp := by
      have hdiff : roundHalfEven (q / ulp) * ulp - q =
          (roundHalfEven (q / ulp) - q / ulp) * ulp := by
        rw [sub_mul, div_mul_cancel₀ _ hulp0.ne']
      rw [hdiff, abs_mul, abs_of_pos hulp0]
      exact mul_le_mul_of_nonneg_right (abs_roundHalfEven_sub_le (by positivity)) hulp0.le
    rw [roundBinary64_of_pos hpos, ← hulp, le_div_iff₀ (by positivity)]
    calc |roundHalfEven (q / ulp) * ulp - q| * 2 ^ 53
        ≤ 1 / 2 * ulp * 2 ^ 53 := mul_le_mul_of_nonneg_right hnear (by positivity)
      _ = ulp * 2 ^ 52 := by ring
      _ ≤ q := hlow

/-- Numbers that are rounded alike differ by at most one part in `2 ^ 52`. -/
theorem mul_sub_le_of_round_eq {v w : ℚ} (hv : 0 ≤ v) (hvw : v ≤ w)
    (h : roundBinary64 v = roundBinary64 w) : 2 ^ 52 * (w - v) ≤ w := by
  have h1 := (abs_le.1 (abs_roundBinary64_sub_le hv)).2
  have h2 := (abs_le.1 (abs_roundBinary64_sub_le (hv.trans hvw))).1
  rw [h] at h1
  linarith

/-! ## Fifteen digits -/

/-- Decimals of fifteen digits are far apart. -/
theorem lt_mul_sub_of_digits {v w : ℕ} (hv : significantDigits v ≤ 15)
    (hw : significantDigits w ≤ 15) (hlt : v < w) : w < 2 ^ 52 * (w - v) := by
  obtain ⟨s, i, hs, rfl⟩ := significantDigits_le_iff.1 hv
  obtain ⟨t, j, ht, rfl⟩ := significantDigits_le_iff.1 hw
  rcases le_total j i with hji | hij
  · -- both are multiples of the last digit of the larger one
    obtain ⟨r, rfl⟩ := Nat.exists_eq_add_of_le hji
    have hunit : 0 < 10 ^ j := by positivity
    have hsplit : s * 10 ^ (j + r) = s * 10 ^ r * 10 ^ j := by
      rw [pow_add, mul_comm (10 ^ j), mul_assoc]
    rw [hsplit] at hlt ⊢
    have hst : s * 10 ^ r < t := lt_of_mul_lt_mul_right hlt hunit.le
    rw [← Nat.sub_mul, ← mul_assoc]
    exact Nat.mul_lt_mul_of_pos_right (by omega) hunit
  · -- both are multiples of the last digit of the smaller one, which has fifteen digits there
    obtain ⟨r, rfl⟩ := Nat.exists_eq_add_of_le hij
    have hunit : 0 < 10 ^ i := by positivity
    have hsplit : t * 10 ^ (i + r) = t * 10 ^ r * 10 ^ i := by
      rw [pow_add, mul_comm (10 ^ i), mul_assoc]
    rw [hsplit] at hlt ⊢
    have hst : s < t * 10 ^ r := lt_of_mul_lt_mul_right hlt hunit.le
    rw [← Nat.sub_mul, ← mul_assoc]
    exact Nat.mul_lt_mul_of_pos_right (by omega) hunit

/-- **Decimals of fifteen digits are told apart.** -/
theorem eq_of_round_eq {v w : ℕ} (hv : significantDigits v ≤ 15) (hw : significantDigits w ≤ 15)
    (h : roundBinary64 v = roundBinary64 w) : v = w := by
  have hle : ∀ {v w : ℕ}, significantDigits v ≤ 15 → significantDigits w ≤ 15 →
      roundBinary64 v = roundBinary64 w → w ≤ v := by
    intro v w hv hw h
    by_contra hlt
    have hlt := not_le.1 hlt
    have hfar := lt_mul_sub_of_digits hv hw hlt
    have hnear := mul_sub_le_of_round_eq v.cast_nonneg (by exact_mod_cast hlt.le) h
    rw [← Nat.cast_sub hlt.le] at hnear
    exact absurd (by exact_mod_cast hnear) (not_le.2 hfar)
  exact le_antisymm (hle hw hv h.symm) (hle hv hw h)

/-- **Products with a factor of fifteen digits survive.** -/
theorem ExactProduct.of_fifteen {a k : ℕ} (ha : a < 10 ^ 15) (hlt : a * 10 ^ k < 10 ^ 21) :
    ExactProduct a k where
  plain := hlt
  rounds := by
    rw [roundBinary64_natCast (ha.trans (by norm_num))]
    push_cast
    rfl
  best := by
    intro w hw
    have hdigits : significantDigits (a * 10 ^ k) ≤ 15 := significantDigits_le_iff.2 ⟨a, k, ha, rfl⟩
    rcases lt_or_ge 15 (significantDigits w) with hmore | hfew
    · exact Or.inl (hdigits.trans_lt hmore)
    · rw [eq_of_round_eq hfew hdigits hw]
      exact Or.inr ⟨rfl, Or.inr ⟨rfl, le_rfl⟩⟩

/-! ## Reading back -/

theorem roundBinary64_ten_pow {k : ℕ} (hk : k ≤ 22) :
    roundBinary64 ((10 ^ k : ℕ) : ℚ) = ((10 ^ k : ℕ) : ℚ) := by
  have h := pow10_natCast hk
  rw [pow10, zpow_natCast] at h
  exact_mod_cast h

/-- **What a binary64 integer reads back as**: its shortest decimal, unless it is too large. -/
theorem bigInt_numberToString {x : ℕ} (hx : roundBinary64 x = x) :
    (x < 10 ^ 21 → ∃ v : ℕ, ShortestDecimal x v ∧ bigInt (numberToString x) = some (v : ℤ)) ∧
      (10 ^ 21 ≤ x → bigInt (numberToString x) = none) := by
  rcases Nat.eq_zero_or_pos x with rfl | hx0
  · refine ⟨fun _ => ⟨0, ⟨hx, fun w hw => ?_⟩, bigInt_toString 0⟩, fun h => absurd h (by norm_num)⟩
    rw [eq_of_roundBinary64_lt hw (by norm_num)]
    exact Or.inr ⟨rfl, Or.inr ⟨rfl, le_rfl⟩⟩
  · obtain ⟨v, hv, hplain, hexp⟩ := numberToString_natCast hx hx0
    have hten := roundBinary64_ten_pow (k := 21) (by norm_num)
    refine ⟨fun hlt => ⟨v, hv, ?_⟩, fun hge => hexp ?_⟩
    · rw [hplain ?_, bigInt_toString]
      by_contra hge
      have hmono := roundBinary64_mono (Nat.cast_le (α := ℚ).2 (not_lt.1 hge))
      rw [hten, hv.reads] at hmono
      exact absurd (by exact_mod_cast hmono) (not_le.2 hlt)
    · by_contra hlt
      have hmono := roundBinary64_mono (Nat.cast_le (α := ℚ).2 (not_le.1 hlt).le)
      rw [hten, hv.reads] at hmono
      have hxten : x = 10 ^ 21 := le_antisymm (by exact_mod_cast hmono) hge
      -- a power of ten has one digit, and nothing is closer to it
      have hone : significantDigits (10 ^ 21) ≤ 1 :=
        significantDigits_le_iff.2 ⟨1, 21, by norm_num, by norm_num⟩
      have hv0 : 0 < v := by
        by_contra h0
        have hreads := hv.reads
        rw [Nat.eq_zero_of_not_pos h0, Nat.cast_zero, roundBinary64_of_nonpos le_rfl] at hreads
        exact absurd (by exact_mod_cast hreads.symm) hx0.ne'
      have hdigits := significantDigits_pos hv0
      subst hxten
      rcases hv.least (10 ^ 21) hten with h | ⟨-, h | ⟨h, -⟩⟩
      · omega
      · rw [sub_self, abs_zero] at h
        exact absurd h (abs_nonneg _).not_gt
      · rw [sub_self, abs_zero, abs_eq_zero, sub_eq_zero] at h
        have hveq : v = 10 ^ 21 := by exact_mod_cast h
        omega

/-- The shortest decimals are in the order of the numbers. -/
theorem ShortestDecimal.mono {x y : ℚ} {v w : ℕ} (hv : ShortestDecimal x v)
    (hw : ShortestDecimal y w) (h : x ≤ y) : v ≤ w := by
  rcases h.eq_or_lt with rfl | hlt
  · exact (hv.eq hw).le
  · by_contra hwv
    have hmono := roundBinary64_mono (Nat.cast_le (α := ℚ).2 (not_le.1 hwv).le)
    rw [hv.reads, hw.reads] at hmono
    exact absurd hlt (not_lt.2 hmono)

/-! ## Products with powers of ten -/

/-- The product of `Number(a)` and `Math.pow(10, k)`. -/
def product (a k : ℕ) : ℚ := roundBinary64 (roundBinary64 a * 10 ^ k)

theorem mul_number_pow10 {a k : ℕ} (hk : k ≤ 22) : mul (number a) (pow10 k) = product a k := by
  rw [mul, number, pow10_natCast hk, product]

theorem exists_natCast_product (a k : ℕ) : ∃ x : ℕ, product a k = x ∧ roundBinary64 x = x := by
  obtain ⟨m, hm⟩ := exists_natCast_roundBinary64 a
  obtain ⟨x, hx⟩ := exists_natCast_roundBinary64 (m * 10 ^ k)
  have hprod : product a k = x := by
    rw [product, hm, ← hx]
    push_cast
    rfl
  exact ⟨x, hprod, by rw [← hprod, product, roundBinary64_idem]⟩

theorem product_mono {a b : ℕ} (h : a ≤ b) (k : ℕ) : product a k ≤ product b k := by
  have hround := roundBinary64_mono (Nat.cast_le (α := ℚ).2 h)
  exact roundBinary64_mono (mul_le_mul_of_nonneg_right hround (by positivity))

theorem exists_shortestDecimal {a k : ℕ} (h : product a k < 10 ^ 21) :
    ∃ v, ShortestDecimal (product a k) v := by
  obtain ⟨x, hx, hidem⟩ := exists_natCast_product a k
  rw [hx] at h ⊢
  obtain ⟨v, hv, -⟩ := (bigInt_numberToString hidem).1 (by exact_mod_cast h)
  exact ⟨v, hv⟩

/-- The text of a product is an integer literal exactly below `10 ^ 21`, and then it reads back as
the shortest decimal of the product. -/
theorem bigInt_product {a k : ℕ} {n : ℤ} (hk : k ≤ 22) :
    bigInt (numberToString (mul (number a) (pow10 k))) = some n ↔
      product a k < 10 ^ 21 ∧ ∃ v : ℕ, n = v ∧ ShortestDecimal (product a k) v := by
  rw [mul_number_pow10 hk]
  obtain ⟨x, hx, hidem⟩ := exists_natCast_product a k
  obtain ⟨hplain, hexp⟩ := bigInt_numberToString hidem
  rw [hx]
  constructor
  · intro h
    rcases lt_or_ge x (10 ^ 21) with hlt | hge
    · obtain ⟨v, hv, hread⟩ := hplain hlt
      rw [hread] at h
      cases h
      exact ⟨by exact_mod_cast hlt, v, rfl, hv⟩
    · rw [hexp hge] at h
      cases h
  · rintro ⟨hlt, v, rfl, hv⟩
    obtain ⟨w, hw, hread⟩ := hplain (by exact_mod_cast hlt)
    rw [hread, hv.eq hw]

/-- What is below `10 ^ 21` after rounding was so before. -/
theorem lt_of_roundBinary64_lt {n : ℕ} (h : roundBinary64 n < 10 ^ 21) : n < 10 ^ 21 := by
  by_contra hge
  have hmono := roundBinary64_mono (Nat.cast_le (α := ℚ).2 (not_lt.1 hge))
  rw [roundBinary64_ten_pow (by norm_num)] at hmono
  exact absurd h (not_lt.2 (by exact_mod_cast hmono))

/-- A product with a large power of ten has a factor of fifteen digits. -/
theorem lt_of_product_lt {a k : ℕ} (hk : 6 ≤ k) (h : product a k < 10 ^ 21) : a < 10 ^ 15 := by
  by_contra hge
  have hround := roundBinary64_mono (Nat.cast_le (α := ℚ).2 (not_lt.1 hge))
  rw [roundBinary64_ten_pow (by norm_num)] at hround
  have hmul : ((10 ^ 21 : ℕ) : ℚ) ≤ roundBinary64 a * 10 ^ k := by
    have hpow : (10 : ℚ) ^ 6 ≤ 10 ^ k := pow_le_pow_right₀ (by norm_num) hk
    calc ((10 ^ 21 : ℕ) : ℚ) = ((10 ^ 15 : ℕ) : ℚ) * 10 ^ 6 := by norm_num
      _ ≤ roundBinary64 a * 10 ^ k :=
        mul_le_mul hround hpow (by positivity) (roundBinary64_nonneg _)
  have hmono : roundBinary64 ((10 ^ 21 : ℕ) : ℚ) ≤ product a k := roundBinary64_mono hmul
  rw [roundBinary64_ten_pow (by norm_num), Nat.cast_pow, Nat.cast_ofNat] at hmono
  exact absurd h (not_lt.2 hmono)

/-- **What reads back from the text of a product is the product**, if the power of ten is large or
the factor has fifteen digits. -/
theorem eq_of_product_lt {a k v : ℕ} (hdigits : 6 ≤ k ∨ a < 10 ^ 15) (h : product a k < 10 ^ 21)
    (hv : ShortestDecimal (product a k) v) : v = a * 10 ^ k := by
  have ha : a < 10 ^ 15 := by
    rcases hdigits with hk | ha
    · exact lt_of_product_lt hk h
    · exact ha
  have hround : product a k = roundBinary64 (a * 10 ^ k : ℕ) := by
    rw [product, roundBinary64_natCast (ha.trans (by norm_num))]
    push_cast
    rfl
  rw [hround] at h hv
  exact hv.eq ⟨rfl, (ExactProduct.of_fifteen ha (lt_of_roundBinary64_lt h)).best⟩

/-- **What reads back from the text of a product differs from it by at most one part in `2 ^ 51`**:
the factor, the product and its text are each rounded once. -/
theorem abs_sub_product_le {a k v : ℕ} (hv : roundBinary64 v = product a k) :
    |(v : ℚ) - a * 10 ^ k| * 2 ^ 51 ≤ a * 10 ^ k := by
  set u : ℚ := 1 / 2 ^ 53 with hu
  set p : ℚ := a * 10 ^ k with hp
  set q : ℚ := roundBinary64 a * 10 ^ k with hq
  have hten : (0 : ℚ) < 10 ^ k := by positivity
  have hp0 : 0 ≤ p := by positivity
  have hq0 : 0 ≤ q := mul_nonneg (roundBinary64_nonneg _) hten.le
  have hfactor : |q - p| ≤ p * u := by
    have hdiff : q - p = (roundBinary64 a - a) * 10 ^ k := by rw [hq, hp, sub_mul]
    have hround := abs_roundBinary64_sub_le (q := (a : ℚ)) (by positivity)
    rw [hdiff, abs_mul, abs_of_pos hten, hp, mul_right_comm]
    exact mul_le_mul_of_nonneg_right (hround.trans_eq (by rw [hu]; ring)) hten.le
  have hproduct : |product a k - q| ≤ q * u :=
    (abs_roundBinary64_sub_le hq0).trans_eq (by rw [hu]; ring)
  have htext : |product a k - v| ≤ v * u := by
    rw [← hv]
    exact (abs_roundBinary64_sub_le v.cast_nonneg).trans_eq (by rw [hu]; ring)
  rw [abs_le] at hfactor hproduct htext
  have hval : u = 1 / 9007199254740992 := by rw [hu]; norm_num
  rw [hval] at hfactor hproduct htext
  have habs : |(v : ℚ) - p| ≤ p / 2 ^ 51 := by
    rw [abs_le]
    constructor <;> linarith [hfactor.1, hfactor.2, hproduct.1, hproduct.2, htext.1, htext.2]
  rwa [le_div_iff₀ (by positivity)] at habs

end Js
