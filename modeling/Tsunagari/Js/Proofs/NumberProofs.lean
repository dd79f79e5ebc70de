import Mathlib.Algebra.Order.Floor.Ring
import Mathlib.Data.Rat.Floor
import Mathlib.Tactic.FieldSimp
import Mathlib.Tactic.Linarith
import Mathlib.Tactic.Ring
import Tsunagari.Js.Number

/-!
# Proofs: rounding to binary64

Rounding is monotone, and exact on numbers with at most 53 significant bits; therefore everything
between two numbers that round alike rounds alike, and a number that is itself a binary64 number
absorbs what is closer to it than half a unit in the last place.
-/

namespace Js

/-! ## The nearest integer -/

/-- The integer part of a number, as rounding looks at it. -/
theorem natFloor_spec {q : ℚ} (hq : 0 ≤ q) :
    (q.floor.toNat : ℚ) ≤ q ∧ q < (q.floor.toNat : ℚ) + 1 := by
  have hfloor : (q.floor.toNat : ℤ) = ⌊q⌋ := Int.toNat_of_nonneg (Int.floor_nonneg.2 hq)
  have hcast : (q.floor.toNat : ℚ) = ((⌊q⌋ : ℤ) : ℚ) := by exact_mod_cast hfloor
  rw [hcast]
  exact ⟨Int.floor_le q, Int.lt_floor_add_one q⟩

/-- The two integers that rounding chooses from. -/
theorem roundHalfEven_cases (q : ℚ) :
    (q - q.floor.toNat ≤ 1 / 2 ∧ roundHalfEven q = q.floor.toNat) ∨
      (1 / 2 ≤ q - q.floor.toNat ∧ roundHalfEven q = q.floor.toNat + 1) := by
  unfold roundHalfEven
  by_cases hlt : q - q.floor.toNat < 1 / 2
  · exact Or.inl ⟨hlt.le, if_pos hlt⟩
  · by_cases hgt : 1 / 2 < q - q.floor.toNat
    · exact Or.inr ⟨hgt.le, by simp only [if_neg hlt, if_pos hgt]⟩
    · by_cases heven : q.floor.toNat % 2 = 0
      · exact Or.inl ⟨not_lt.1 hgt, by simp only [if_neg hlt, if_neg hgt, if_pos heven]⟩
      · exact Or.inr ⟨not_lt.1 hlt, by simp only [if_neg hlt, if_neg hgt, if_neg heven]⟩

theorem abs_roundHalfEven_sub_le {q : ℚ} (hq : 0 ≤ q) : |(roundHalfEven q : ℚ) - q| ≤ 1 / 2 := by
  obtain ⟨hlo, hhi⟩ := natFloor_spec hq
  rw [abs_le]
  rcases roundHalfEven_cases q with ⟨h, heq⟩ | ⟨h, heq⟩
  · rw [heq]
    constructor <;> linarith
  · rw [heq, Nat.cast_add, Nat.cast_one]
    constructor <;> linarith

/-- An integer that is closer than one half is the result. -/
theorem roundHalfEven_eq {q : ℚ} (hq : 0 ≤ q) {n : ℕ} (h : |(n : ℚ) - q| < 1 / 2) :
    roundHalfEven q = n := by
  have hround := abs_le.1 (abs_roundHalfEven_sub_le hq)
  obtain ⟨h1, h2⟩ := abs_lt.1 h
  have hlt : ((roundHalfEven q : ℤ) : ℚ) < ((n + 1 : ℤ) : ℚ) := by push_cast; linarith [hround.2]
  have hgt : ((n : ℤ) : ℚ) < ((roundHalfEven q + 1 : ℤ) : ℚ) := by push_cast; linarith [hround.1]
  have hlt' := Int.cast_lt.1 hlt
  have hgt' := Int.cast_lt.1 hgt
  omega

theorem roundHalfEven_natCast (n : ℕ) : roundHalfEven n = n :=
  roundHalfEven_eq n.cast_nonneg (by rw [sub_self, abs_zero]; norm_num)

theorem roundHalfEven_mono {q q' : ℚ} (h : q ≤ q') :
    roundHalfEven q ≤ roundHalfEven q' := by
  have hfloor : q.floor.toNat ≤ q'.floor.toNat := Int.toNat_le_toNat (Int.floor_le_floor h)
  rcases hfloor.lt_or_eq with hlt | heq
  · rcases roundHalfEven_cases q with ⟨-, h1⟩ | ⟨-, h1⟩ <;>
      rcases roundHalfEven_cases q' with ⟨-, h2⟩ | ⟨-, h2⟩ <;> omega
  · -- on the same integer part, the fraction decides, and a tie is decided in the same way
    unfold roundHalfEven
    simp only [heq]
    split_ifs <;> first | omega | linarith

/-! ## The exponent -/

theorem two_zpow_pos (e : ℤ) : (0 : ℚ) < 2 ^ e := zpow_pos (by norm_num) e

theorem two_zpow_succ (e : ℤ) : (2 : ℚ) ^ (e + 1) = 2 ^ e * 2 := by
  rw [zpow_add_one₀ (by norm_num)]

theorem exponent_spec {q : ℚ} (hq : 0 < q) :
    (2 : ℚ) ^ exponent q ≤ q ∧ q < (2 : ℚ) ^ (exponent q + 1) := by
  have hnum : 0 < q.num := Rat.num_pos.2 hq
  have hnum' : ((q.num.toNat : ℕ) : ℤ) = q.num := Int.toNat_of_nonneg hnum.le
  have hval : q = (q.num.toNat : ℚ) / (q.den : ℚ) := by
    have hcast : ((q.num.toNat : ℕ) : ℚ) = (q.num : ℚ) := by exact_mod_cast hnum'
    rw [hcast, Rat.num_div_den]
  set a := q.num.toNat
  set b := q.den
  have ha0 : a ≠ 0 := by omega
  have hb0 : b ≠ 0 := q.den_nz
  have hb : (0 : ℚ) < b := by exact_mod_cast Nat.pos_of_ne_zero hb0
  have ha1 : (2 : ℚ) ^ (a.log2 : ℤ) ≤ a := by exact_mod_cast Nat.log2_self_le ha0
  have ha2 : (a : ℚ) < 2 ^ (a.log2 : ℤ) * 2 := by
    rw [← two_zpow_succ]; exact_mod_cast Nat.lt_log2_self (n := a)
  have hb1 : (2 : ℚ) ^ (b.log2 : ℤ) ≤ b := by exact_mod_cast Nat.log2_self_le hb0
  have hb2 : (b : ℚ) < 2 ^ (b.log2 : ℤ) * 2 := by
    rw [← two_zpow_succ]; exact_mod_cast Nat.lt_log2_self (n := b)
  have hquot : (2 : ℚ) ^ ((a.log2 : ℤ) - b.log2) * 2 ^ (b.log2 : ℤ) = 2 ^ (a.log2 : ℤ) := by
    rw [← zpow_add₀ (by norm_num)]; congr 1; omega
  have hp := two_zpow_pos ((a.log2 : ℤ) - b.log2)
  have hlow : (2 : ℚ) ^ ((a.log2 : ℤ) - b.log2 - 1) ≤ q := by
    have hhalf : (2 : ℚ) ^ ((a.log2 : ℤ) - b.log2 - 1) * 2 = 2 ^ ((a.log2 : ℤ) - b.log2) := by
      rw [← two_zpow_succ]; congr 1; omega
    rw [hval, le_div_iff₀ hb]
    nlinarith
  have hhigh : q < (2 : ℚ) ^ ((a.log2 : ℤ) - b.log2) * 2 := by
    rw [hval, div_lt_iff₀ hb]
    nlinarith
  have hexp : exponent q = if (2 : ℚ) ^ ((a.log2 : ℤ) - b.log2) ≤ q then (a.log2 : ℤ) - b.log2
      else (a.log2 : ℤ) - b.log2 - 1 := rfl
  by_cases h : (2 : ℚ) ^ ((a.log2 : ℤ) - b.log2) ≤ q
  · rw [hexp, if_pos h]
    exact ⟨h, by rw [two_zpow_succ]; exact hhigh⟩
  · rw [hexp, if_neg h]
    exact ⟨hlow, by rw [sub_add_cancel]; exact not_le.1 h⟩

theorem exponent_eq {q : ℚ} {e : ℤ} (h1 : (2 : ℚ) ^ e ≤ q) (h2 : q < (2 : ℚ) ^ (e + 1)) :
    exponent q = e := by
  obtain ⟨h3, h4⟩ := exponent_spec ((two_zpow_pos e).trans_le h1)
  have hle := (zpow_lt_zpow_iff_right₀ (by norm_num : (1 : ℚ) < 2)).1 (h3.trans_lt h2)
  have hge := (zpow_lt_zpow_iff_right₀ (by norm_num : (1 : ℚ) < 2)).1 (h1.trans_lt h4)
  omega

/-! ## Rounding -/

theorem roundBinary64_of_nonpos {q : ℚ} (hq : q ≤ 0) : roundBinary64 q = 0 := if_pos hq

theorem roundBinary64_of_pos {q : ℚ} (hq : 0 < q) :
    roundBinary64 q =
      roundHalfEven (q / 2 ^ (exponent q - 52)) * (2 : ℚ) ^ (exponent q - 52) :=
  if_neg (not_le.2 hq)

/-- The significand of a number whose exponent is known has 53 bits before rounding. -/
theorem significand_bounds {q : ℚ} {e : ℤ} (h1 : (2 : ℚ) ^ e ≤ q) (h2 : q < (2 : ℚ) ^ (e + 1)) :
    2 ^ 52 ≤ q / 2 ^ (e - 52) ∧ q / 2 ^ (e - 52) < 2 ^ 53 := by
  have hulp := two_zpow_pos (e - 52)
  have he : (2 : ℚ) ^ e = 2 ^ 52 * 2 ^ (e - 52) := by
    rw [← zpow_natCast, ← zpow_add₀ (by norm_num)]; congr 1; omega
  rw [two_zpow_succ, he] at h2
  rw [he] at h1
  rw [le_div_iff₀ hulp, div_lt_iff₀ hulp]
  exact ⟨h1, by linarith⟩

/-- Rounding stays between the powers of two. -/
theorem roundBinary64_bounds {q : ℚ} {e : ℤ} (h1 : (2 : ℚ) ^ e ≤ q) (h2 : q < (2 : ℚ) ^ (e + 1)) :
    (2 : ℚ) ^ e ≤ roundBinary64 q ∧ roundBinary64 q ≤ (2 : ℚ) ^ (e + 1) := by
  have hulp := two_zpow_pos (e - 52)
  have he : (2 : ℚ) ^ e = 2 ^ 52 * 2 ^ (e - 52) := by
    rw [← zpow_natCast, ← zpow_add₀ (by norm_num)]; congr 1; omega
  obtain ⟨hlo, hhi⟩ := significand_bounds h1 h2
  have hlo' : 2 ^ 52 ≤ roundHalfEven (q / 2 ^ (e - 52)) := by
    rw [← roundHalfEven_natCast (2 ^ 52)]
    exact roundHalfEven_mono (by push_cast; exact hlo)
  have hhi' : roundHalfEven (q / 2 ^ (e - 52)) ≤ 2 ^ 53 := by
    rw [← roundHalfEven_natCast (2 ^ 53)]
    exact roundHalfEven_mono (by push_cast; exact hhi.le)
  rw [roundBinary64_of_pos ((two_zpow_pos e).trans_le h1), exponent_eq h1 h2, two_zpow_succ, he]
  constructor
  · exact mul_le_mul_of_nonneg_right (by exact_mod_cast hlo') hulp.le
  · have hcast : ((roundHalfEven (q / 2 ^ (e - 52)) : ℕ) : ℚ) ≤ 2 ^ 53 := by exact_mod_cast hhi'
    have hmul := mul_le_mul_of_nonneg_right hcast hulp.le
    linarith

theorem roundBinary64_nonneg (q : ℚ) : 0 ≤ roundBinary64 q := by
  rcases le_or_gt q 0 with hq | hq
  · rw [roundBinary64_of_nonpos hq]
  · obtain ⟨h1, h2⟩ := exponent_spec hq
    exact (two_zpow_pos _).le.trans (roundBinary64_bounds h1 h2).1

theorem roundBinary64_pos {q : ℚ} (hq : 0 < q) : 0 < roundBinary64 q := by
  obtain ⟨h1, h2⟩ := exponent_spec hq
  exact (two_zpow_pos _).trans_le (roundBinary64_bounds h1 h2).1

/-- **Rounding is monotone.** -/
theorem roundBinary64_mono {q q' : ℚ} (h : q ≤ q') : roundBinary64 q ≤ roundBinary64 q' := by
  rcases le_or_gt q 0 with hq | hq
  · rw [roundBinary64_of_nonpos hq]
    exact roundBinary64_nonneg q'
  · have hq' := hq.trans_le h
    obtain ⟨h1, h2⟩ := exponent_spec hq
    obtain ⟨h3, h4⟩ := exponent_spec hq'
    have hle : exponent q < exponent q' + 1 :=
      (zpow_lt_zpow_iff_right₀ (by norm_num : (1 : ℚ) < 2)).1 (h1.trans_lt (h.trans_lt h4))
    rcases (Int.lt_add_one_iff.1 hle).lt_or_eq with hlt | heq
    · calc roundBinary64 q ≤ 2 ^ (exponent q + 1) := (roundBinary64_bounds h1 h2).2
        _ ≤ 2 ^ exponent q' := zpow_le_zpow_right₀ (by norm_num) (by omega)
        _ ≤ roundBinary64 q' := (roundBinary64_bounds h3 h4).1
    · have hulp := two_zpow_pos (exponent q' - 52)
      have hround := roundHalfEven_mono (div_le_div_of_nonneg_right h hulp.le)
      rw [roundBinary64_of_pos hq, roundBinary64_of_pos hq', heq]
      exact mul_le_mul_of_nonneg_right (by exact_mod_cast hround) hulp.le

/-- Between two numbers that round alike, everything rounds alike. -/
theorem roundBinary64_eq_of_between {a b c : ℚ} (hab : a ≤ b) (hbc : b ≤ c)
    (h : roundBinary64 a = roundBinary64 c) : roundBinary64 b = roundBinary64 c :=
  le_antisymm (roundBinary64_mono hbc) (h ▸ roundBinary64_mono hab)

/-- **Rounding is exact** on numbers with at most 53 significant bits. -/
theorem roundBinary64_of_dyadic {m : ℕ} (hm : m < 2 ^ 53) (j : ℤ) :
    roundBinary64 (m * 2 ^ j) = m * 2 ^ j := by
  rcases Nat.eq_zero_or_pos m with rfl | hpos
  · rw [Nat.cast_zero, zero_mul, roundBinary64_of_nonpos le_rfl]
  · have hj := two_zpow_pos j
    have hlog : m.log2 < 53 := (Nat.log2_lt hpos.ne').2 hm
    have h1 : (2 : ℚ) ^ ((m.log2 : ℤ) + j) ≤ m * 2 ^ j := by
      rw [zpow_add₀ (by norm_num)]
      exact mul_le_mul_of_nonneg_right (by exact_mod_cast Nat.log2_self_le hpos.ne') hj.le
    have h2 : (m : ℚ) * 2 ^ j < 2 ^ ((m.log2 : ℤ) + j + 1) := by
      have hlt : (m : ℚ) < 2 ^ ((m.log2 : ℤ) + 1) := by exact_mod_cast Nat.lt_log2_self (n := m)
      rw [show (m.log2 : ℤ) + j + 1 = (m.log2 : ℤ) + 1 + j by omega, zpow_add₀ (by norm_num)]
      exact mul_lt_mul_of_pos_right hlt hj
    have hsig : (m : ℚ) * 2 ^ j = ((m * 2 ^ (52 - m.log2) : ℕ) : ℚ) *
        2 ^ ((m.log2 : ℤ) + j - 52) := by
      push_cast
      rw [mul_assoc, ← zpow_natCast (2 : ℚ), ← zpow_add₀ (by norm_num)]
      congr 2
      omega
    have hulp := two_zpow_pos ((m.log2 : ℤ) + j - 52)
    rw [roundBinary64_of_pos ((two_zpow_pos _).trans_le h1), exponent_eq h1 h2]
    conv_lhs => rw [hsig, mul_div_cancel_right₀ _ hulp.ne', roundHalfEven_natCast]
    exact hsig.symm

theorem roundBinary64_natCast {n : ℕ} (hn : n < 2 ^ 53) : roundBinary64 n = n := by
  have h := roundBinary64_of_dyadic hn 0
  rwa [zpow_zero, mul_one] at h

theorem roundBinary64_two_pow (e : ℤ) : roundBinary64 (2 ^ e) = 2 ^ e := by
  have h := roundBinary64_of_dyadic (m := 1) (by norm_num) e
  rwa [Nat.cast_one, one_mul] at h

/-- A rounded number has at most 53 significant bits. -/
theorem roundBinary64_idem (q : ℚ) : roundBinary64 (roundBinary64 q) = roundBinary64 q := by
  rcases le_or_gt q 0 with hq | hq
  · rw [roundBinary64_of_nonpos hq, roundBinary64_of_nonpos le_rfl]
  · obtain ⟨h1, h2⟩ := exponent_spec hq
    obtain ⟨-, hhi⟩ := roundBinary64_bounds h1 h2
    rcases hhi.lt_or_eq with hlt | heq
    · have hulp := two_zpow_pos (exponent q - 52)
      have hm : roundHalfEven (q / 2 ^ (exponent q - 52)) < 2 ^ 53 := by
        have he : (2 : ℚ) ^ (exponent q + 1) = 2 ^ 53 * 2 ^ (exponent q - 52) := by
          rw [← zpow_natCast, ← zpow_add₀ (by norm_num)]; congr 1; omega
        rw [roundBinary64_of_pos hq, he] at hlt
        exact_mod_cast lt_of_mul_lt_mul_right hlt hulp.le
      rw [roundBinary64_of_pos hq, roundBinary64_of_dyadic hm]
    · rw [heq, roundBinary64_two_pow]

/-- A binary64 number is a multiple of its unit in the last place. -/
theorem exists_significand {x : ℚ} {e : ℤ} (hx : roundBinary64 x = x) (h1 : (2 : ℚ) ^ e ≤ x)
    (h2 : x < (2 : ℚ) ^ (e + 1)) : ∃ m : ℕ, m < 2 ^ 53 ∧ x = m * 2 ^ (e - 52) := by
  have hulp := two_zpow_pos (e - 52)
  have hval : x = roundHalfEven (x / 2 ^ (e - 52)) * (2 : ℚ) ^ (e - 52) := by
    conv_lhs => rw [← hx, roundBinary64_of_pos ((two_zpow_pos e).trans_le h1), exponent_eq h1 h2]
  refine ⟨_, ?_, hval⟩
  have hhi := (significand_bounds h1 h2).2
  rw [hval, mul_div_cancel_right₀ _ hulp.ne'] at hhi
  exact_mod_cast hhi

/-- **A binary64 number absorbs** what is closer to it than half a unit in the last place, on this
side of the power of two below it. -/
theorem roundBinary64_eq_of_close {x y : ℚ} {e : ℤ} (hx : roundBinary64 x = x)
    (h1 : (2 : ℚ) ^ e ≤ x) (h2 : x < (2 : ℚ) ^ (e + 1)) (hy : (2 : ℚ) ^ e ≤ y)
    (hclose : |x - y| < 2 ^ (e - 52) / 2) : roundBinary64 y = x := by
  have hulp := two_zpow_pos (e - 52)
  obtain ⟨m, hm, hval⟩ := exists_significand hx h1 h2
  obtain ⟨h3, h4⟩ := abs_lt.1 hclose
  have hm' : (m : ℚ) + 1 ≤ 2 ^ 53 := by exact_mod_cast hm
  have hy2 : y < (2 : ℚ) ^ (e + 1) := by
    have he : (2 : ℚ) ^ (e + 1) = 2 ^ 53 * 2 ^ (e - 52) := by
      rw [← zpow_natCast, ← zpow_add₀ (by norm_num)]; congr 1; omega
    rw [he]
    nlinarith
  have hround : roundHalfEven (y / 2 ^ (e - 52)) = m := by
    refine roundHalfEven_eq (div_nonneg ((two_zpow_pos e).le.trans hy) hulp.le) ?_
    have hsub : (m : ℚ) - y / 2 ^ (e - 52) = (x - y) / 2 ^ (e - 52) := by
      rw [sub_div, hval, mul_div_cancel_right₀ _ hulp.ne']
    rw [hsub, abs_div, abs_of_pos hulp, div_lt_iff₀ hulp]
    linarith
  rw [roundBinary64_of_pos ((two_zpow_pos e).trans_le hy), exponent_eq hy hy2, hround, ← hval]

/-- Rounding an integer gives an integer. -/
theorem exists_natCast_roundBinary64 (n : ℕ) : ∃ m : ℕ, roundBinary64 n = m := by
  rcases lt_or_ge n (2 ^ 53) with hn | hn
  · exact ⟨n, roundBinary64_natCast hn⟩
  · have hpos : (0 : ℚ) < n := by exact_mod_cast (by norm_num : 0 < 2 ^ 53).trans_le hn
    have hexp : 52 < exponent n := by
      have h53 : (2 : ℚ) ^ (53 : ℤ) ≤ n := by exact_mod_cast hn
      have hlt := (zpow_lt_zpow_iff_right₀ (by norm_num : (1 : ℚ) < 2)).1
        (h53.trans_lt (exponent_spec hpos).2)
      omega
    obtain ⟨k, hk⟩ : ∃ k : ℕ, exponent n - 52 = k := ⟨_, (Int.toNat_of_nonneg (by omega)).symm⟩
    refine ⟨roundHalfEven (n / 2 ^ (exponent n - 52)) * 2 ^ k, ?_⟩
    rw [roundBinary64_of_pos hpos, hk]
    push_cast
    rw [zpow_natCast]

/-- Only an integer below `2 ^ 53` is rounded to itself there. -/
theorem eq_of_roundBinary64_lt {n m : ℕ} (h : roundBinary64 n = m) (hm : m < 2 ^ 53) : n = m := by
  have hn : n < 2 ^ 53 := by
    by_contra hge
    have hmono : roundBinary64 ((2 : ℚ) ^ (53 : ℤ)) ≤ roundBinary64 n :=
      roundBinary64_mono (by exact_mod_cast not_lt.1 hge)
    rw [roundBinary64_two_pow, h] at hmono
    exact absurd hmono (not_le.2 (by exact_mod_cast hm))
  rw [roundBinary64_natCast hn] at h
  exact_mod_cast h

end Js
