import Tsunagari.Js.Proofs.LiteralProofs
import Tsunagari.Js.Proofs.NumberProofs

/-!
# Proofs: what a number prints as, and how the text reads back

A number that is an integer prints as the integer with the fewest significant digits that is rounded
to it; from `10 ^ 21` on it prints in exponent notation, which is not an integer literal.
-/

namespace Js

/-! ## Significant digits -/

/-- The number of digits without the zeros at the end. -/
def significantDigits (n : ℕ) : ℕ := ((Nat.toDigits 10 n).reverse.dropWhile (· = '0')).length

theorem significantDigits_mul_ten (n : ℕ) : significantDigits (10 * n) = significantDigits n := by
  rcases Nat.eq_zero_or_pos n with rfl | hn
  · rfl
  · unfold significantDigits
    rw [toDigits_mul_ten hn, List.reverse_append]
    rfl

theorem significantDigits_le_length (n : ℕ) :
    significantDigits n ≤ (Nat.toDigits 10 n).length := by
  unfold significantDigits
  refine (List.IsSuffix.length_le (List.dropWhile_suffix _)).trans ?_
  rw [List.length_reverse]

/-- A number that does not end in zero has only significant digits. -/
theorem significantDigits_of_mod_ne {n : ℕ} (h : n % 10 ≠ 0) :
    significantDigits n = (Nat.toDigits 10 n).length := by
  have hlast : ∃ cs : List Char, Nat.toDigits 10 n = cs ++ [Nat.digitChar (n % 10)] := by
    rcases Nat.eq_zero_or_pos (n / 10) with h0 | h0
    · exact ⟨[], by rw [Nat.toDigits_of_lt_base (by omega), Nat.mod_eq_of_lt (by omega)]; rfl⟩
    · refine ⟨Nat.toDigits 10 (n / 10), ?_⟩
      have happ := Nat.toDigits_append_toDigits (b := 10) (n := n / 10) (d := n % 10)
        (by norm_num) h0 (Nat.mod_lt _ (by norm_num))
      rw [Nat.toDigits_of_lt_base (Nat.mod_lt _ (by norm_num)), Nat.div_add_mod] at happ
      exact happ.symm
  obtain ⟨cs, hcs⟩ := hlast
  have hne : Nat.digitChar (n % 10) ≠ '0' := digitChar_ne_zero h (Nat.mod_lt _ (by norm_num))
  unfold significantDigits
  rw [hcs, List.reverse_append, List.reverse_singleton, List.singleton_append,
    List.dropWhile_cons_of_neg (by simpa using hne)]
  simp

/-- At most `k` significant digits: a number of at most `k` digits, followed by zeros. -/
theorem significantDigits_le_iff {n k : ℕ} :
    significantDigits n ≤ k ↔ ∃ s j, s < 10 ^ k ∧ n = s * 10 ^ j := by
  constructor
  · intro h
    induction n using Nat.strong_induction_on with
    | _ n ih =>
      rcases Nat.eq_zero_or_pos n with rfl | hn
      · exact ⟨0, 0, by positivity, rfl⟩
      · by_cases hmod : n % 10 = 0
        · have hdiv : n = 10 * (n / 10) := by omega
          rw [hdiv, significantDigits_mul_ten] at h
          obtain ⟨s, j, hs, hj⟩ := ih (n / 10) (by omega) h
          refine ⟨s, j + 1, hs, ?_⟩
          rw [pow_succ, ← mul_assoc, ← hj]
          omega
        · rw [significantDigits_of_mod_ne hmod] at h
          have hk : 0 < k := Nat.length_toDigits_pos.trans_le h
          exact ⟨n, 0, (Nat.length_toDigits_le_iff (by norm_num) hk).1 h, by ring⟩
  · rintro ⟨s, j, hs, rfl⟩
    induction j with
    | zero =>
      rw [pow_zero, mul_one]
      rcases Nat.eq_zero_or_pos k with rfl | hk
      · have hs0 : s = 0 := by simpa using hs
        rw [hs0]
        exact le_of_eq rfl
      · exact (significantDigits_le_length s).trans
          ((Nat.length_toDigits_le_iff (by norm_num) hk).2 hs)
    | succ j ih =>
      have hsucc : s * 10 ^ (j + 1) = 10 * (s * 10 ^ j) := by ring
      rw [hsucc, significantDigits_mul_ten]
      exact ih

theorem significantDigits_pos {n : ℕ} (hn : 0 < n) : 0 < significantDigits n := by
  by_contra h
  obtain ⟨s, j, hs, hj⟩ := significantDigits_le_iff.1 (not_lt.1 h)
  have hs0 : s = 0 := by simpa using hs
  rw [hs0, zero_mul] at hj
  omega

/-! ## The shortest decimal -/

/-- As a decimal for `x`, the integer `v` is not worse than `w`: it has fewer significant digits, or
as many and is closer, or is as close and not larger. -/
def Precedes (x : ℚ) (v w : ℕ) : Prop :=
  significantDigits v < significantDigits w ∨
    significantDigits v = significantDigits w ∧
      (|(v : ℚ) - x| < |(w : ℚ) - x| ∨ |(v : ℚ) - x| = |(w : ℚ) - x| ∧ v ≤ w)

/-- Of all integers that are rounded to `x`, the integer `v` is the best decimal for it. -/
structure ShortestDecimal (x : ℚ) (v : ℕ) : Prop where
  reads : roundBinary64 v = x
  least : ∀ w : ℕ, roundBinary64 w = x → Precedes x v w

theorem Precedes.antisymm {x : ℚ} {v w : ℕ} (h1 : Precedes x v w) (h2 : Precedes x w v) :
    v = w := by
  rcases h1 with h1 | ⟨e1, h1⟩ <;> rcases h2 with h2 | ⟨e2, h2⟩
  · omega
  · omega
  · omega
  · rcases h1 with h1 | ⟨d1, h1⟩ <;> rcases h2 with h2 | ⟨d2, h2⟩
    · linarith
    · linarith
    · linarith
    · omega

theorem ShortestDecimal.eq {x : ℚ} {v w : ℕ} (hv : ShortestDecimal x v)
    (hw : ShortestDecimal x w) : v = w :=
  (hv.least w hw.reads).antisymm (hw.least v hv.reads)

/-! ## The digits of a given length -/

section DigitsAt

variable {x n k : ℕ} {s t : ℕ}

/-- The last digit that is printed, when `k` of `n` digits are. -/
theorem unit_eq (hk : k ≤ n) : (10 : ℚ) ^ ((n : ℤ) - k) = ((10 ^ (n - k) : ℕ) : ℚ) := by
  rw [← Nat.cast_sub hk, zpow_natCast]
  push_cast
  rfl

/-- The lower neighbour. -/
theorem floor_div_unit (hk : k ≤ n) :
    ((x : ℚ) / (10 : ℚ) ^ ((n : ℤ) - k)).floor.toNat = x / 10 ^ (n - k) := by
  rw [unit_eq hk]
  have hfloor : ((x : ℚ) / ((10 ^ (n - k) : ℕ) : ℚ)).floor = ((x / 10 ^ (n - k) : ℕ) : ℤ) :=
    Rat.floor_natCast_div_natCast x (10 ^ (n - k))
  rw [hfloor, Int.toNat_natCast]

/-- The choice between the two neighbours. -/
inductive Chosen (x u : ℕ) : Option ℕ → Prop where
  | neither (hlo : roundBinary64 ((x / u * u : ℕ) : ℚ) ≠ x)
      (hhi : roundBinary64 (((x / u + 1) * u : ℕ) : ℚ) ≠ x) : Chosen x u none
  | lower (hlo : roundBinary64 ((x / u * u : ℕ) : ℚ) = x)
      (hhi : roundBinary64 (((x / u + 1) * u : ℕ) : ℚ) = x →
        2 * x ≤ x / u * u + (x / u + 1) * u) : Chosen x u (some (x / u))
  | upper (hhi : roundBinary64 (((x / u + 1) * u : ℕ) : ℚ) = x)
      (hlo : roundBinary64 ((x / u * u : ℕ) : ℚ) = x →
        x / u * u + (x / u + 1) * u < 2 * x) : Chosen x u (some (x / u + 1))

theorem digitsAt_chosen (hk : k ≤ n) : Chosen x (10 ^ (n - k)) (digitsAt x n k) := by
  have hlo : ((x / 10 ^ (n - k) : ℕ) : ℚ) * ((10 ^ (n - k) : ℕ) : ℚ) =
      ((x / 10 ^ (n - k) * 10 ^ (n - k) : ℕ) : ℚ) := by push_cast; rfl
  have hhi : ((x / 10 ^ (n - k) + 1 : ℕ) : ℚ) * ((10 ^ (n - k) : ℕ) : ℚ) =
      (((x / 10 ^ (n - k) + 1) * 10 ^ (n - k) : ℕ) : ℚ) := by push_cast; rfl
  have hup : ((x / 10 ^ (n - k) * 10 ^ (n - k) : ℕ) : ℚ) +
      (((x / 10 ^ (n - k) : ℕ) : ℚ) + 1) * ((10 ^ (n - k) : ℕ) : ℚ) < 2 * x ↔
      x / 10 ^ (n - k) * 10 ^ (n - k) + (x / 10 ^ (n - k) + 1) * 10 ^ (n - k) < 2 * x := by
    exact_mod_cast Iff.rfl
  unfold digitsAt
  simp only [floor_div_unit hk]
  rw [unit_eq hk]
  by_cases h1 : roundBinary64 ((x / 10 ^ (n - k) * 10 ^ (n - k) : ℕ) : ℚ) = x <;>
    by_cases h2 : roundBinary64 (((x / 10 ^ (n - k) + 1) * 10 ^ (n - k) : ℕ) : ℚ) = x
  all_goals simp only [hlo, hhi, h1, h2, hup, decide_true, decide_false]
  · by_cases h : x / 10 ^ (n - k) * 10 ^ (n - k) + (x / 10 ^ (n - k) + 1) * 10 ^ (n - k) < 2 * x
    · rw [if_pos (decide_eq_true h)]
      exact .upper h2 fun _ => h
    · rw [if_neg (by simpa using h)]
      exact .lower h1 fun _ => not_lt.1 h
  · exact .lower h1 fun h => absurd h h2
  · exact .upper h2 fun h => absurd h h1
  · exact .neither h1 h2

/-- The neighbours of `x` among the multiples of a unit. -/
theorem neighbours {u : ℕ} (hu : 0 < u) :
    ((x / u * u : ℕ) : ℚ) ≤ x ∧ (x : ℚ) < ((x / u + 1) * u : ℕ) := by
  have hdiv := Nat.div_add_mod x u
  have hmod := Nat.mod_lt x hu
  have hlo : x / u * u ≤ x := Nat.div_mul_le_self x u
  have hhi : x < (x / u + 1) * u := by nlinarith
  exact ⟨by exact_mod_cast hlo, by exact_mod_cast hhi⟩

/-- If a multiple of the unit below `x` is rounded to `x`, so is the lower neighbour. -/
theorem reads_lower {u : ℕ} (hu : 0 < u) (hx : roundBinary64 x = x) (hle : t ≤ x / u)
    (ht : roundBinary64 ((t * u : ℕ) : ℚ) = x) : roundBinary64 ((x / u * u : ℕ) : ℚ) = x := by
  have hle' : ((t * u : ℕ) : ℚ) ≤ ((x / u * u : ℕ) : ℚ) := by
    exact_mod_cast Nat.mul_le_mul_right u hle
  rw [roundBinary64_eq_of_between hle' (neighbours hu).1 (ht.trans hx.symm), hx]

/-- If a multiple of the unit above `x` is rounded to `x`, so is the upper neighbour. -/
theorem reads_upper {u : ℕ} (hu : 0 < u) (hx : roundBinary64 x = x) (hlt : x / u < t)
    (ht : roundBinary64 ((t * u : ℕ) : ℚ) = x) :
    roundBinary64 (((x / u + 1) * u : ℕ) : ℚ) = x := by
  have hle : (((x / u + 1) * u : ℕ) : ℚ) ≤ ((t * u : ℕ) : ℚ) := by
    exact_mod_cast Nat.mul_le_mul_right u hlt
  rw [roundBinary64_eq_of_between (neighbours hu).2.le hle (hx.trans ht.symm), ht]

/-- Nothing is chosen only if no multiple of the unit reads back. -/
theorem Chosen.none_spec {u : ℕ} (hu : 0 < u) (hx : roundBinary64 x = x) (h : Chosen x u none)
    (t : ℕ) : roundBinary64 ((t * u : ℕ) : ℚ) ≠ x := by
  intro ht
  cases h with
  | neither hlo hhi =>
    rcases le_or_gt t (x / u) with hle | hlt
    · exact hlo (reads_lower hu hx hle ht)
    · exact hhi (reads_upper hu hx hlt ht)

/-- What is chosen reads back, and is the best of the multiples of the unit that do. -/
theorem Chosen.some_spec {u : ℕ} (hu : 0 < u) (hx : roundBinary64 x = x)
    (h : Chosen x u (some s)) :
    roundBinary64 ((s * u : ℕ) : ℚ) = x ∧ ∀ t, roundBinary64 ((t * u : ℕ) : ℚ) = x →
      |((s * u : ℕ) : ℚ) - x| < |((t * u : ℕ) : ℚ) - x| ∨
        |((s * u : ℕ) : ℚ) - x| = |((t * u : ℕ) : ℚ) - x| ∧ s * u ≤ t * u := by
  obtain ⟨hL, hH⟩ := neighbours (x := x) hu
  cases h with
  | lower hlo hhi =>
    refine ⟨hlo, fun t ht => ?_⟩
    rw [abs_of_nonpos (sub_nonpos.2 hL)]
    rcases lt_trichotomy t (x / u) with hlt | rfl | hgt
    · have htu : ((t * u : ℕ) : ℚ) < ((x / u * u : ℕ) : ℚ) := by
        exact_mod_cast Nat.mul_lt_mul_of_pos_right hlt hu
      rw [abs_of_nonpos (by linarith)]
      exact Or.inl (by linarith)
    · rw [abs_of_nonpos (sub_nonpos.2 hL)]
      exact Or.inr ⟨rfl, le_rfl⟩
    · have htu : (((x / u + 1) * u : ℕ) : ℚ) ≤ ((t * u : ℕ) : ℚ) := by
        exact_mod_cast Nat.mul_le_mul_right u hgt
      have hup : 2 * (x : ℚ) ≤ ((x / u * u : ℕ) : ℚ) + (((x / u + 1) * u : ℕ) : ℚ) := by
        exact_mod_cast hhi (reads_upper hu hx hgt ht)
      rw [abs_of_nonneg (by linarith)]
      have hle : -(((x / u * u : ℕ) : ℚ) - x) ≤ ((t * u : ℕ) : ℚ) - x := by linarith
      rcases hle.lt_or_eq with h | h
      · exact Or.inl h
      · exact Or.inr ⟨h, Nat.mul_le_mul_right u hgt.le⟩
  | upper hhi hlo =>
    refine ⟨hhi, fun t ht => ?_⟩
    rw [abs_of_nonneg (sub_nonneg.2 hH.le)]
    rcases le_or_gt t (x / u) with hle | hgt
    · have htu : ((t * u : ℕ) : ℚ) ≤ ((x / u * u : ℕ) : ℚ) := by
        exact_mod_cast Nat.mul_le_mul_right u hle
      have hup : ((x / u * u : ℕ) : ℚ) + (((x / u + 1) * u : ℕ) : ℚ) < 2 * x := by
        exact_mod_cast hlo (reads_lower hu hx hle ht)
      rw [abs_of_nonpos (by linarith)]
      exact Or.inl (by linarith)
    · have htu : (((x / u + 1) * u : ℕ) : ℚ) ≤ ((t * u : ℕ) : ℚ) := by
        exact_mod_cast Nat.mul_le_mul_right u hgt
      rw [abs_of_nonneg (by linarith)]
      rcases (sub_le_sub_right htu (x : ℚ)).lt_or_eq with h | h
      · exact Or.inl h
      · exact Or.inr ⟨h, Nat.mul_le_mul_right u hgt⟩

theorem Chosen.neighbour {u : ℕ} (h : Chosen x u (some s)) : s = x / u ∨ s = x / u + 1 := by
  cases h with
  | lower hlo hhi => exact Or.inl rfl
  | upper hhi hlo => exact Or.inr rfl

/-- **Seventeen digits always read back.** -/
theorem reads_seventeen (hx : roundBinary64 x = x) (hn : 17 ≤ n) (h1 : 10 ^ (n - 1) ≤ x) :
    ∃ t : ℕ, roundBinary64 ((t * 10 ^ (n - 17) : ℕ) : ℚ) = x := by
  have hx0 : (0 : ℚ) < x := by exact_mod_cast (by positivity : 0 < 10 ^ (n - 1)).trans_le h1
  obtain ⟨he1, he2⟩ := exponent_spec hx0
  obtain ⟨m, hm, hval⟩ := exists_significand hx he1 he2
  set e := exponent (x : ℚ)
  have hulp := two_zpow_pos (e - 52)
  have he : (2 : ℚ) ^ e = 2 ^ 52 * 2 ^ (e - 52) := by
    rw [← zpow_natCast, ← zpow_add₀ (by norm_num)]; congr 1; omega
  have hu : 0 < 10 ^ (n - 17) := by positivity
  obtain ⟨hL, hH⟩ := neighbours (x := x) hu
  have hgap : (((x / 10 ^ (n - 17) + 1) * 10 ^ (n - 17) : ℕ) : ℚ) =
      ((x / 10 ^ (n - 17) * 10 ^ (n - 17) : ℕ) : ℚ) + (10 ^ (n - 17) : ℕ) := by push_cast; ring
  -- the unit of seventeen digits is smaller than a unit in the last place
  have hunit : (10 : ℚ) ^ 16 * (10 ^ (n - 17) : ℕ) ≤ x := by
    have hpow : 10 ^ 16 * 10 ^ (n - 17) ≤ x := by
      rw [← pow_add, show 16 + (n - 17) = n - 1 by omega]; exact h1
    exact_mod_cast hpow
  have hxulp : (x : ℚ) < 2 ^ 53 * 2 ^ (e - 52) := by rw [two_zpow_succ, he] at he2; linarith
  set u : ℚ := ((10 ^ (n - 17) : ℕ) : ℚ)
  set L : ℚ := ((x / 10 ^ (n - 17) * 10 ^ (n - 17) : ℕ) : ℚ)
  set H : ℚ := (((x / 10 ^ (n - 17) + 1) * 10 ^ (n - 17) : ℕ) : ℚ)
  have hupper : H - x < 2 ^ (e - 52) / 2 → roundBinary64 H = x := fun h =>
    roundBinary64_eq_of_close hx he1 he2 (he1.trans hH.le)
      (by rw [abs_of_nonpos (by linarith)]; linarith)
  rcases he1.lt_or_eq with hlt | heq
  · have hm' : (2 : ℚ) ^ 52 + 1 ≤ m := by
      have hm52 : (2 : ℚ) ^ 52 < m := by
        rw [hval, he] at hlt
        exact lt_of_mul_lt_mul_right hlt hulp.le
      exact_mod_cast hm52
    have hstep : (2 : ℚ) ^ e + 2 ^ (e - 52) ≤ x := by rw [hval, he]; nlinarith
    rcases lt_or_ge ((x : ℚ) - L) (2 ^ (e - 52) / 2) with hclose | hfar
    · exact ⟨_, roundBinary64_eq_of_close hx he1 he2 (by linarith)
        (by rw [abs_of_nonneg (by linarith)]; exact hclose)⟩
    · exact ⟨_, hupper (by linarith)⟩
  · exact ⟨_, hupper (by linarith)⟩

/-! ## The shortest digits -/

/-- A decimal with at most `k` significant digits that reads back is a multiple of the last of `k`
digits, or one of these multiples is closer. -/
theorem exists_multiple (hx : roundBinary64 x = x) (hn : 10 ^ (n - 1) ≤ x) (hk : 1 ≤ k)
    (hkn : k ≤ n) {w : ℕ} (hw : roundBinary64 w = x) (hd : significantDigits w ≤ k) :
    ∃ t, roundBinary64 ((t * 10 ^ (n - k) : ℕ) : ℚ) = x ∧
      (t * 10 ^ (n - k) = w ∨ |((t * 10 ^ (n - k) : ℕ) : ℚ) - x| < |(w : ℚ) - x|) := by
  obtain ⟨s, j, hs, rfl⟩ := significantDigits_le_iff.1 hd
  rcases le_or_gt (n - k) j with hj | hj
  · have heq : s * 10 ^ (j - (n - k)) * 10 ^ (n - k) = s * 10 ^ j := by
      rw [mul_assoc, ← pow_add, Nat.sub_add_cancel hj]
    exact ⟨_, by rw [heq]; exact hw, Or.inl heq⟩
  · -- such a decimal is below the power of ten, which lies between it and `x`
    have hlt : s * 10 ^ j < 10 ^ (n - 1) := by
      calc s * 10 ^ j < 10 ^ k * 10 ^ j := Nat.mul_lt_mul_of_pos_right hs (by positivity)
        _ = 10 ^ (k + j) := (pow_add ..).symm
        _ ≤ 10 ^ (n - 1) := Nat.pow_le_pow_right (by norm_num) (by omega)
    have heq : 10 ^ (k - 1) * 10 ^ (n - k) = 10 ^ (n - 1) := by
      rw [← pow_add]; congr 1; omega
    have hlt' : ((s * 10 ^ j : ℕ) : ℚ) < ((10 ^ (n - 1) : ℕ) : ℚ) := by exact_mod_cast hlt
    have hle' : ((10 ^ (n - 1) : ℕ) : ℚ) ≤ x := by exact_mod_cast hn
    refine ⟨10 ^ (k - 1), ?_, Or.inr ?_⟩
    · rw [heq, roundBinary64_eq_of_between hlt'.le hle' (hw.trans hx.symm), hx]
    · rw [heq, abs_of_nonpos (by linarith), abs_of_nonpos (by linarith)]
      linarith

/-- The first length at which digits read back gives the shortest decimal. -/
theorem shortestDecimal_of_digitsAt (hx : roundBinary64 x = x) (hx0 : 0 < x)
    (hn : 10 ^ (n - 1) ≤ x) (hk : 1 ≤ k) (hkn : k ≤ n)
    (hnone : ∀ j, 1 ≤ j → j < k → digitsAt x n j = none)
    (hs : digitsAt x n k = some s) (hsk : s ≤ 10 ^ k) :
    ShortestDecimal x (s * 10 ^ (n - k)) := by
  have hpos : ∀ w : ℕ, roundBinary64 w = x → 0 < w := by
    intro w hw
    rcases Nat.eq_zero_or_pos w with rfl | h
    · rw [Nat.cast_zero, roundBinary64_of_nonpos le_rfl] at hw
      exact absurd hw (by exact_mod_cast hx0.ne)
    · exact h
  have hmin : ∀ w : ℕ, roundBinary64 w = x → k ≤ significantDigits w := by
    intro w hw
    by_contra hlt
    have hw1 := significantDigits_pos (hpos w hw)
    obtain ⟨t, ht, -⟩ := exists_multiple hx hn hw1 (by omega) hw le_rfl
    have hchosen := digitsAt_chosen (x := x) (n := n) (k := significantDigits w) (by omega)
    rw [hnone _ hw1 (not_le.1 hlt)] at hchosen
    exact hchosen.none_spec (by positivity) hx t ht
  have hchosen := digitsAt_chosen (x := x) hkn
  rw [hs] at hchosen
  obtain ⟨hreads, hbest⟩ := hchosen.some_spec (by positivity) hx
  have hsd : significantDigits (s * 10 ^ (n - k)) ≤ k := by
    rcases hsk.lt_or_eq with hlt | heq
    · exact significantDigits_le_iff.2 ⟨s, _, hlt, rfl⟩
    · refine significantDigits_le_iff.2 ⟨1, k + (n - k), ?_, ?_⟩
      · exact Nat.one_lt_pow (by omega) (by norm_num)
      · rw [heq, one_mul, pow_add]
  refine ⟨hreads, fun w hw => ?_⟩
  have hle := hsd.trans (hmin w hw)
  rcases hle.lt_or_eq with hlt | heq
  · exact Or.inl hlt
  · refine Or.inr ⟨heq, ?_⟩
    obtain ⟨t, ht, hor⟩ := exists_multiple hx hn hk hkn hw (heq ▸ hsd)
    rcases hor with rfl | hcloser
    · exact hbest t ht
    · rcases hbest t ht with h | ⟨h, -⟩
      · exact Or.inl (h.trans hcloser)
      · exact Or.inl (h.trans_lt hcloser)

/-- The digits that are chosen have the length that was asked for, or are a power of ten. -/
theorem digitsAt_length (h1 : 10 ^ (n - 1) ≤ x) (h2 : x < 10 ^ n) (hk : 1 ≤ k) (hkn : k ≤ n)
    (hs : digitsAt x n k = some s) : 10 ^ (k - 1) ≤ s ∧ s ≤ 10 ^ k := by
  have hlo : 10 ^ (k - 1) ≤ x / 10 ^ (n - k) := by
    rw [Nat.le_div_iff_mul_le (by positivity), ← pow_add, show k - 1 + (n - k) = n - 1 by omega]
    exact h1
  have hhi : x / 10 ^ (n - k) < 10 ^ k := by
    rw [Nat.div_lt_iff_lt_mul (by positivity), ← pow_add, Nat.add_sub_cancel' hkn]
    exact h2
  have hchosen := digitsAt_chosen (x := x) hkn
  rw [hs] at hchosen
  rcases hchosen.neighbour with rfl | rfl <;> omega

/-- **The digits that are printed are those of the shortest decimal.** -/
theorem shortest_spec (hx : roundBinary64 x = x) (hx0 : 0 < x) (h1 : 10 ^ (n - 1) ≤ x)
    (h2 : x < 10 ^ n) {fuel : ℕ} (hk : 1 ≤ k)
    (hnone : ∀ j, 1 ≤ j → j < k → digitsAt x n j = none)
    (hsome : ∃ j, k ≤ j ∧ j < k + fuel ∧ j ≤ n ∧ digitsAt x n j ≠ none) :
    ∃ s n' : ℕ, shortest x n fuel k = (s, (n' : ℤ)) ∧ 0 < s ∧
      (Nat.toDigits 10 s).length ≤ n' ∧
        ShortestDecimal x (s * 10 ^ (n' - (Nat.toDigits 10 s).length)) := by
  induction fuel generalizing k with
  | zero =>
    obtain ⟨j, hkj, hj, -⟩ := hsome
    omega
  | succ fuel ih =>
    have hkn : k ≤ n := by
      obtain ⟨j, hkj, -, hjn, -⟩ := hsome
      omega
    cases hdigits : digitsAt x n k with
    | none =>
      rw [shortest, hdigits]
      refine ih (by omega) (fun j hj1 hj => ?_) ?_
      · rcases Nat.lt_succ_iff_lt_or_eq.1 hj with hlt | rfl
        · exact hnone j hj1 hlt
        · exact hdigits
      · obtain ⟨j, hkj, hj, hjn, hne⟩ := hsome
        refine ⟨j, ?_, by omega, hjn, hne⟩
        rcases hkj.lt_or_eq with hlt | rfl
        · exact hlt
        · exact absurd hdigits hne
    | some s =>
      obtain ⟨hs1, hs2⟩ := digitsAt_length h1 h2 hk hkn hdigits
      have hbest := shortestDecimal_of_digitsAt hx hx0 h1 hk hkn hnone hdigits hs2
      rw [shortest, hdigits]
      by_cases hpow : s = 10 ^ k
      · have hlen : (Nat.toDigits 10 (10 ^ (k - 1))).length = k :=
          length_toDigits_eq le_rfl (Nat.pow_lt_pow_right (by norm_num) (by omega))
        refine ⟨10 ^ (k - 1), n + 1, ?_, by positivity, by omega, ?_⟩
        · simp only [if_pos hpow]
          push_cast
          rfl
        · have hval : 10 ^ (k - 1) * 10 ^ (n + 1 - k) = s * 10 ^ (n - k) := by
            rw [hpow, ← pow_add, ← pow_add]; congr 1; omega
          rw [hlen, hval]
          exact hbest
      · have hlen : (Nat.toDigits 10 s).length = k :=
          length_toDigits_eq hs1 (lt_of_le_of_ne hs2 hpow)
        refine ⟨s, n, ?_, (by positivity : 0 < 10 ^ (k - 1)).trans_le hs1, by omega, ?_⟩
        · simp only [if_neg hpow]
        · rw [hlen]
          exact hbest

end DigitsAt

/-! ## Printing -/

/-- A text with an exponent is not an integer literal. -/
theorem bigInt_of_mem_exponent {text : String} {c : Char} {cs : List Char}
    (htext : text.toList = c :: cs) (hspace : ∀ d ∈ c :: cs, isSpace d = false)
    (hdigit : c.isDigit = true) (hc : c ≠ '0') (he : 'e' ∈ cs) : bigInt text = none := by
  rw [bigInt_eq htext hspace hdigit (fun h => absurd h hc),
    digitsVal_eq_none (c := 'e') (List.mem_cons_of_mem _ he) (by decide)]
  rfl

/-- The text of a number from `10 ^ 21` on is not an integer literal. -/
theorem bigInt_exponent {s : ℕ} (hs : 0 < s) (e : ℕ) :
    bigInt ((if ((toString s).length : ℤ) = 1 then toString s
        else String.ofList ((toString s).toList.take 1) ++ "." ++
          String.ofList ((toString s).toList.drop 1)) ++ "e" ++ "+" ++ toString e) = none := by
  obtain ⟨c, cs, hcs, hc⟩ := toDigits_head hs
  have hdigit : ∀ d ∈ c :: cs, d.isDigit = true := fun d hd =>
    isDigit_of_mem_toDigits (hcs ▸ hd)
  have hstart : c.isDigit = true := hdigit c (List.mem_cons_self ..)
  have hc' : isSpace c = false := isSpace_of_isDigit hstart
  have hcs' : ∀ d ∈ cs, isSpace d = false := fun d hd =>
    isSpace_of_isDigit (hdigit d (List.mem_cons_of_mem _ hd))
  have hexp : ∀ d ∈ 'e' :: '+' :: Nat.toDigits 10 e, isSpace d = false :=
    List.forall_mem_cons.2 ⟨by decide, List.forall_mem_cons.2 ⟨by decide, fun d hd =>
      isSpace_of_isDigit (isDigit_of_mem_toDigits hd)⟩⟩
  split
  · have htext : (toString s ++ "e" ++ "+" ++ toString e).toList =
        c :: (cs ++ 'e' :: '+' :: Nat.toDigits 10 e) := by simp [hcs]
    refine bigInt_of_mem_exponent htext ?_ hstart hc (by simp)
    exact List.forall_mem_cons.2 ⟨hc', List.forall_mem_append.2 ⟨hcs', hexp⟩⟩
  · have htext : (String.ofList ((toString s).toList.take 1) ++ "." ++
        String.ofList ((toString s).toList.drop 1) ++ "e" ++ "+" ++ toString e).toList =
          c :: ('.' :: cs ++ 'e' :: '+' :: Nat.toDigits 10 e) := by simp [hcs]
    refine bigInt_of_mem_exponent htext ?_ hstart hc (by simp)
    exact List.forall_mem_cons.2 ⟨hc', List.forall_mem_append.2
      ⟨List.forall_mem_cons.2 ⟨by decide, hcs'⟩, hexp⟩⟩

theorem decimalPoint_natCast {x : ℕ} (hx0 : 0 < x) :
    decimalPoint x = ((Nat.toDigits 10 x).length : ℤ) := by
  have h1 : (1 : ℚ) ≤ x := by exact_mod_cast hx0
  have hfloor : (x : ℚ).floor.toNat = x := by
    have hcast : (x : ℚ).floor = (x : ℤ) := Rat.floor_intCast x
    rw [hcast, Int.toNat_natCast]
  unfold decimalPoint
  rw [if_pos h1, hfloor]

/-- **What an integer prints as**: its shortest decimal, in plain digits below `10 ^ 21` and else
in a form that is not an integer literal. -/
theorem numberToString_natCast {x : ℕ} (hx : roundBinary64 x = x) (hx0 : 0 < x) :
    ∃ v : ℕ, ShortestDecimal x v ∧ (v < 10 ^ 21 → numberToString x = toString v) ∧
      (10 ^ 21 ≤ v → bigInt (numberToString x) = none) := by
  obtain ⟨h1, h2⟩ := pow_length_toDigits hx0
  set n := (Nat.toDigits 10 x).length with hn
  have hn0 : 0 < n := Nat.length_toDigits_pos
  have hsome : ∃ j, 1 ≤ j ∧ j < 1 + 17 ∧ j ≤ n ∧ digitsAt x n j ≠ none := by
    rcases le_or_gt n 17 with hle | hgt
    · -- all digits are printed
      refine ⟨n, hn0, by omega, le_rfl, fun hnone => ?_⟩
      have hchosen := digitsAt_chosen (x := x) (n := n) (k := n) le_rfl
      rw [hnone] at hchosen
      refine hchosen.none_spec (by positivity) hx x ?_
      rw [Nat.sub_self, pow_zero, mul_one, hx]
    · refine ⟨17, by norm_num, by norm_num, by omega, fun hnone => ?_⟩
      have hchosen := digitsAt_chosen (x := x) (n := n) (k := 17) (by omega)
      rw [hnone] at hchosen
      obtain ⟨t, ht⟩ := reads_seventeen hx (by omega) h1
      exact hchosen.none_spec (by positivity) hx t ht
  obtain ⟨s, n', hshort, hs, hlen, hbest⟩ :=
    shortest_spec hx hx0 h1 h2 le_rfl (fun j hj1 hj => absurd hj (by omega)) hsome
  refine ⟨_, hbest, ?_⟩
  have hpoint : (Nat.toDigits 10 (s * 10 ^ (n' - (Nat.toDigits 10 s).length))).length = n' := by
    rw [toDigits_mul_pow hs, List.length_append, List.length_replicate]
    omega
  have hlt : s * 10 ^ (n' - (Nat.toDigits 10 s).length) < 10 ^ 21 ↔ n' ≤ 21 := by
    rw [← Nat.length_toDigits_le_iff (by norm_num) (by norm_num), hpoint]
  have hstr : ((toString s).length : ℤ) = (Nat.toDigits 10 s).length := by
    rw [← String.length_toList]
    exact congrArg _ (congrArg List.length Nat.toList_repr)
  have hpos : ¬ (x : ℚ) ≤ 0 := not_le.2 (by exact_mod_cast hx0)
  unfold numberToString
  simp only [if_neg hpos, decimalPoint_natCast hx0, ← hn, hshort, hstr]
  constructor
  · intro h
    have h21 := hlt.1 h
    rw [if_pos ⟨by exact_mod_cast hlen, by exact_mod_cast h21⟩]
    refine String.toList_inj.1 ?_
    have hzeros : ((n' : ℤ) - (Nat.toDigits 10 s).length).toNat =
        n' - (Nat.toDigits 10 s).length := by omega
    rw [String.toList_append, String.toList_ofList, hzeros]
    exact (congrArg (· ++ _) Nat.toList_repr).trans
      ((toDigits_mul_pow hs _).symm.trans Nat.toList_repr.symm)
  · intro h
    have h21 : 21 < n' := by
      by_contra hle
      exact absurd (hlt.2 (not_lt.1 hle)) (not_lt.2 h)
    have hn'0 : (0 : ℤ) ≤ (n' : ℤ) - 1 := by omega
    rw [if_neg (by omega), if_neg (by omega), if_neg (by omega), if_pos hn'0]
    have hexp := bigInt_exponent hs ((n' : ℤ) - 1).natAbs
    rw [hstr] at hexp
    exact hexp

theorem numberToString_zero : numberToString 0 = "0" := rfl

/-- **Integers below `2 ^ 53` print as they are.** -/
theorem numberToString_of_lt {n : ℕ} (hn : n < 2 ^ 53) : numberToString n = toString n := by
  rcases Nat.eq_zero_or_pos n with rfl | h0
  · exact numberToString_zero
  · obtain ⟨v, hv, hplain, -⟩ := numberToString_natCast (roundBinary64_natCast hn) h0
    have hvn : v = n := eq_of_roundBinary64_lt hv.reads hn
    rw [hplain (by rw [hvn]; exact hn.trans (by norm_num)), hvn]

/-- A number that prints as an integer is what this integer is rounded to. -/
theorem eq_of_numberToString {x n : ℕ} (hx : roundBinary64 x = x)
    (h : numberToString x = toString n) : (x : ℚ) = roundBinary64 n := by
  rcases Nat.eq_zero_or_pos x with rfl | h0
  · have hn : n = 0 := by
      have hread := bigInt_toString n
      rw [← h] at hread
      have hzero : bigInt (toString 0) = some ((0 : ℕ) : ℤ) := bigInt_toString 0
      exact_mod_cast (Option.some.inj (hzero.symm.trans hread)).symm
    rw [hn, Nat.cast_zero, roundBinary64_of_nonpos le_rfl]
  · obtain ⟨v, hv, hplain, hexp⟩ := numberToString_natCast hx h0
    have hread := bigInt_toString n
    rw [← h] at hread
    rcases lt_or_ge v (10 ^ 21) with hlt | hge
    · rw [hplain hlt, bigInt_toString] at hread
      have hvn : v = n := by exact_mod_cast Option.some.inj hread
      rw [← hvn, hv.reads]
    · rw [hexp hge] at hread
      cases hread

/-! ## Products with powers of ten -/

theorem pow10_natCast {k : ℕ} (hk : k ≤ 22) : pow10 k = 10 ^ k := by
  have h5 : 5 ^ k < 2 ^ 53 :=
    (Nat.pow_le_pow_right (by norm_num) hk).trans_lt (by norm_num : 5 ^ 22 < 2 ^ 53)
  have hval : (10 : ℚ) ^ (k : ℤ) = ((5 ^ k : ℕ) : ℚ) * 2 ^ (k : ℤ) := by
    rw [zpow_natCast, zpow_natCast]
    push_cast
    rw [← mul_pow]
    norm_num
  unfold pow10
  rw [hval, roundBinary64_of_dyadic h5, ← hval, zpow_natCast]

/-- The product of the integer `a` and `10 ^ k` survives the way through binary64 and its text. -/
structure ExactProduct (a k : ℕ) : Prop where
  /-- It has a text in plain digits. -/
  plain : a * 10 ^ k < 10 ^ 21
  /-- Rounding the factor does not matter for the product. -/
  rounds : roundBinary64 (roundBinary64 a * 10 ^ k) = roundBinary64 (a * 10 ^ k : ℕ)
  /-- No other integer that is rounded to the same number is a better decimal for it. -/
  best : ∀ w : ℕ, roundBinary64 w = roundBinary64 (a * 10 ^ k : ℕ) →
    Precedes (roundBinary64 (a * 10 ^ k : ℕ)) (a * 10 ^ k) w

/-- **A product with a power of ten reads back from its text exactly when it survives.** -/
theorem bigInt_mul_pow10_iff {a k : ℕ} (hk : k ≤ 22) :
    bigInt (numberToString (mul (number a) (pow10 k))) = some ((a * 10 ^ k : ℕ) : ℤ) ↔
      a = 0 ∨ ExactProduct a k := by
  unfold mul number
  rw [pow10_natCast hk]
  rcases Nat.eq_zero_or_pos a with rfl | ha
  · refine ⟨fun _ => Or.inl rfl, fun _ => ?_⟩
    rw [Nat.cast_zero, roundBinary64_of_nonpos le_rfl, zero_mul, roundBinary64_of_nonpos le_rfl,
      zero_mul, numberToString_zero]
    exact bigInt_toString 0
  · have ha' : (0 : ℚ) < a := by exact_mod_cast ha
    obtain ⟨m, hm⟩ := exists_natCast_roundBinary64 a
    obtain ⟨x, hx⟩ := exists_natCast_roundBinary64 (m * 10 ^ k)
    have hprod : roundBinary64 (roundBinary64 a * 10 ^ k) = x := by
      rw [hm, ← hx]
      push_cast
      rfl
    have hx0 : 0 < x := by
      have hpos := roundBinary64_pos
        (mul_pos (roundBinary64_pos ha') (by positivity : (0 : ℚ) < 10 ^ k))
      rw [hprod] at hpos
      exact_mod_cast hpos
    have hidem : roundBinary64 x = x := by rw [← hprod, roundBinary64_idem]
    obtain ⟨v, hv, hplain, hexp⟩ := numberToString_natCast hidem hx0
    rw [hprod]
    constructor
    · intro h
      rcases lt_or_ge v (10 ^ 21) with hlt | hge
      · rw [hplain hlt, bigInt_toString] at h
        have hveq : v = a * 10 ^ k := by exact_mod_cast Option.some.inj h
        rw [hveq] at hlt hv
        refine Or.inr ⟨hlt, hprod.trans hv.reads.symm, fun w hw => ?_⟩
        rw [hv.reads] at hw ⊢
        exact hv.least w hw
      · rw [hexp hge] at h
        cases h
    · rintro (rfl | ⟨hlt, hround, hbest⟩)
      · exact absurd ha (lt_irrefl 0)
      · have hreads : roundBinary64 (a * 10 ^ k : ℕ) = x := hround.symm.trans hprod
        rw [hreads] at hbest
        have hveq : v = a * 10 ^ k := hv.eq ⟨hreads, hbest⟩
        rw [hplain (hveq ▸ hlt), hveq, bigInt_toString]

end Js
