import Mathlib.Tactic.Ring
import Tsunagari.Js.Number

/-!
# Proofs: decimal numbers and integer literals

The digits of a natural number, and how `BigInt` reads them.
-/

namespace Js

/-! ## Decimal digits -/

theorem toDigits_mul_ten {n : ℕ} (hn : 0 < n) :
    Nat.toDigits 10 (10 * n) = Nat.toDigits 10 n ++ ['0'] :=
  (Nat.toDigits_append_toDigits (d := 0) (by norm_num) hn (by norm_num)).symm

theorem toDigits_mul_pow {n : ℕ} (hn : 0 < n) (j : ℕ) :
    Nat.toDigits 10 (n * 10 ^ j) = Nat.toDigits 10 n ++ List.replicate j '0' := by
  induction j with
  | zero => simp
  | succ j ih =>
    have hpos : 0 < n * 10 ^ j := Nat.mul_pos hn (by positivity)
    have hsucc : n * 10 ^ (j + 1) = 10 * (n * 10 ^ j) := by ring
    rw [hsucc, toDigits_mul_ten hpos, ih, List.append_assoc, List.replicate_succ']

/-- The number of digits is the position of the decimal point. -/
theorem pow_length_toDigits {n : ℕ} (hn : 0 < n) :
    10 ^ ((Nat.toDigits 10 n).length - 1) ≤ n ∧ n < 10 ^ (Nat.toDigits 10 n).length := by
  have hlen : 0 < (Nat.toDigits 10 n).length := Nat.length_toDigits_pos
  refine ⟨?_, (Nat.length_toDigits_le_iff (by norm_num) hlen).1 le_rfl⟩
  rcases Nat.eq_zero_or_pos ((Nat.toDigits 10 n).length - 1) with h0 | h0
  · rw [h0]; exact hn
  · by_contra hlt
    have hle := (Nat.length_toDigits_le_iff (by norm_num) h0).2 (not_le.1 hlt)
    omega

theorem length_toDigits_eq {n k : ℕ} (h1 : 10 ^ (k - 1) ≤ n) (h2 : n < 10 ^ k) :
    (Nat.toDigits 10 n).length = k := by
  have hn : 0 < n := (by positivity : 0 < 10 ^ (k - 1)).trans_le h1
  have hk : 0 < k := by
    rcases Nat.eq_zero_or_pos k with rfl | hk
    · exact absurd h2 (by omega)
    · exact hk
  obtain ⟨h3, h4⟩ := pow_length_toDigits hn
  have hle : (Nat.toDigits 10 n).length ≤ k := (Nat.length_toDigits_le_iff (by norm_num) hk).2 h2
  have hge : k - 1 < (Nat.toDigits 10 n).length :=
    (Nat.pow_lt_pow_iff_right (by norm_num)).1 (h1.trans_lt h4)
  omega

theorem toString_injective : Function.Injective (toString : ℕ → String) := by
  intro m n h
  have hdigits : Nat.toDigits 10 m = Nat.toDigits 10 n := by
    rw [← Nat.toList_repr, ← Nat.toList_repr]
    exact congrArg String.toList h
  rw [← Nat.ofDigitChars_ten_toDigits (n := m), hdigits, Nat.ofDigitChars_ten_toDigits]

theorem digitChar_ne_zero {d : ℕ} (h0 : d ≠ 0) (h : d < 10) : Nat.digitChar d ≠ '0' := by
  have hcases : d = 1 ∨ d = 2 ∨ d = 3 ∨ d = 4 ∨ d = 5 ∨ d = 6 ∨ d = 7 ∨ d = 8 ∨ d = 9 := by omega
  rcases hcases with rfl | rfl | rfl | rfl | rfl | rfl | rfl | rfl | rfl <;> decide

/-- A decimal number does not begin with zero, unless it is zero. -/
theorem toDigits_head {n : ℕ} (hn : 0 < n) :
    ∃ c cs, Nat.toDigits 10 n = c :: cs ∧ c ≠ '0' := by
  induction n using Nat.strong_induction_on with
  | _ n ih =>
    rcases Nat.eq_zero_or_pos (n / 10) with h0 | h0
    · refine ⟨Nat.digitChar n, [], Nat.toDigits_of_lt_base (by omega), ?_⟩
      exact digitChar_ne_zero hn.ne' (by omega)
    · obtain ⟨c, cs, hcs, hc⟩ := ih (n / 10) (by omega) h0
      have happ := Nat.toDigits_append_toDigits (b := 10) (n := n / 10) (d := n % 10)
        (by norm_num) h0 (Nat.mod_lt _ (by norm_num))
      rw [Nat.div_add_mod, hcs] at happ
      exact ⟨c, _, happ.symm, hc⟩

/-! ## Integer literals -/

theorem digitVal_of_isDigit {c : Char} (h : c.isDigit = true) :
    digitVal 10 c = some (c.toNat - '0'.toNat) := by
  have hc : '0' ≤ c ∧ c ≤ '9' := by
    simp only [Char.isDigit, Bool.and_eq_true, decide_eq_true_eq] at h
    exact h
  have hlt : c.toNat - 48 < 10 := by
    have h9 : c.toNat ≤ 57 := hc.2
    omega
  unfold digitVal
  rw [if_pos hc]
  simp [Option.filter, hlt]

theorem foldlM_digitVal {cs : List Char} (h : ∀ c ∈ cs, c.isDigit = true) (acc : ℕ) :
    cs.foldlM (fun acc c => (digitVal 10 c).map fun d => acc * 10 + d) acc =
      some (Nat.ofDigitChars 10 cs acc) := by
  induction cs generalizing acc with
  | nil => rfl
  | cons c cs ih =>
    rw [List.foldlM_cons, digitVal_of_isDigit (h c (List.mem_cons_self ..))]
    have hrest := ih (fun c' hc' => h c' (List.mem_cons_of_mem _ hc'))
      (acc * 10 + (c.toNat - '0'.toNat))
    rw [mul_comm acc] at hrest
    simpa [Nat.ofDigitChars, mul_comm acc] using hrest

theorem isDigit_of_mem_toDigits {n : ℕ} {c : Char} (h : c ∈ Nat.toDigits 10 n) :
    c.isDigit = true := Nat.isDigit_of_mem_toDigits (by norm_num) (by norm_num) h

theorem digitsVal_toDigits (n : ℕ) : digitsVal 10 (Nat.toDigits 10 n) = some n := by
  have hfold := foldlM_digitVal (fun c (hc : c ∈ Nat.toDigits 10 n) => isDigit_of_mem_toDigits hc) 0
  rw [Nat.ofDigitChars_ten_toDigits] at hfold
  unfold digitsVal
  split
  next h => exact absurd h Nat.toDigits_ne_nil
  next h => exact hfold

theorem isSpace_of_isDigit {c : Char} (h : c.isDigit = true) : isSpace c = false := by
  have hc : '0' ≤ c ∧ c ≤ '9' := by
    simp only [Char.isDigit, Bool.and_eq_true, decide_eq_true_eq] at h
    exact h
  have h0 : 48 ≤ c.toNat := hc.1
  have h9 : c.toNat ≤ 57 := hc.2
  unfold isSpace
  rw [decide_eq_false_iff_not]
  simp only [List.mem_cons, List.not_mem_nil, or_false]
  omega

theorem dropWhile_isSpace {cs : List Char} (h : ∀ c ∈ cs, isSpace c = false) :
    cs.dropWhile isSpace = cs := by
  cases cs with
  | nil => rfl
  | cons c cs =>
    rw [List.dropWhile_cons_of_neg (by rw [h c (List.mem_cons_self ..)]; decide)]

/-- A text without white space that begins like a decimal number is read as one. -/
theorem bigInt_eq {text : String} {c : Char} {cs : List Char} (htext : text.toList = c :: cs)
    (hspace : ∀ d ∈ c :: cs, isSpace d = false) (hc : c.isDigit = true)
    (hzero : c = '0' → ∀ d ∈ cs, d.isDigit = true) :
    bigInt text = (digitsVal 10 (c :: cs)).map Int.ofNat := by
  have htrim : ((text.toList.dropWhile isSpace).reverse.dropWhile isSpace).reverse = c :: cs := by
    rw [htext, dropWhile_isSpace hspace, dropWhile_isSpace, List.reverse_reverse]
    exact fun d hd => hspace d (List.mem_reverse.1 hd)
  unfold bigInt
  simp only [htrim]
  split
  next h => cases h
  next h => cases h; exact absurd (hzero rfl 'x' (List.mem_cons_self ..)) (by decide)
  next h => cases h; exact absurd (hzero rfl 'X' (List.mem_cons_self ..)) (by decide)
  next h => cases h; exact absurd (hzero rfl 'o' (List.mem_cons_self ..)) (by decide)
  next h => cases h; exact absurd (hzero rfl 'O' (List.mem_cons_self ..)) (by decide)
  next h => cases h; exact absurd (hzero rfl 'b' (List.mem_cons_self ..)) (by decide)
  next h => cases h; exact absurd (hzero rfl 'B' (List.mem_cons_self ..)) (by decide)
  next h => cases h; exact absurd hc (by decide)
  next h => cases h; exact absurd hc (by decide)
  next => rfl

/-- **A printed integer reads back.** -/
theorem bigInt_toString (n : ℕ) : bigInt (toString n) = some (n : ℤ) := by
  have htext : (toString n).toList = Nat.toDigits 10 n := Nat.toList_repr
  obtain ⟨c, cs, hcs⟩ := List.exists_cons_of_ne_nil (Nat.toDigits_ne_nil (n := n) (b := 10))
  have hdigit : ∀ d ∈ c :: cs, d.isDigit = true := fun d hd =>
    isDigit_of_mem_toDigits (hcs ▸ hd)
  rw [bigInt_eq (htext.trans hcs) (fun d hd => isSpace_of_isDigit (hdigit d hd))
    (hdigit c (List.mem_cons_self ..)) (fun _ d hd => hdigit d (List.mem_cons_of_mem _ hd)),
    ← hcs, digitsVal_toDigits]
  rfl

theorem digitsVal_eq_none {cs : List Char} {c : Char} (hc : c ∈ cs) (h : digitVal 10 c = none) :
    digitsVal 10 cs = none := by
  have hfold : ∀ (cs : List Char) (acc : ℕ), c ∈ cs →
      cs.foldlM (fun acc c => (digitVal 10 c).map fun d => acc * 10 + d) acc = none := by
    intro cs
    induction cs with
    | nil => intro acc hc; cases hc
    | cons d cs ih =>
      intro acc hc
      rw [List.foldlM_cons]
      rcases List.mem_cons.1 hc with rfl | hc
      · rw [h]; rfl
      · cases digitVal 10 d with
        | none => rfl
        | some v => exact ih _ hc
  unfold digitsVal
  split
  next => rfl
  next => exact hfold cs 0 hc

end Js
