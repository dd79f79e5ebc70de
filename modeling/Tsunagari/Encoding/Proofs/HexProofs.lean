import Tsunagari.Encoding.Hex

/-!
# Proofs: hexadecimal text reads back
-/

namespace Hex

theorem digitVal_digitChar {n : ℕ} (h : n < 16) : digitVal (Nat.digitChar n) = some n := by
  rcases n with _ | _ | _ | _ | _ | _ | _ | _ | _ | _ | _ | _ | _ | _ | _ | _ | n
  all_goals first | rfl | omega

theorem encode_cons (b : UInt8) (bs : List UInt8) :
    encode (b :: bs) =
      Nat.digitChar (b.toNat / 16) :: Nat.digitChar (b.toNat % 16) :: encode bs := rfl

/-- Decoding what was encoded gives the bytes back. -/
theorem decode_encode (bs : List UInt8) : decode (encode bs) = bs := by
  induction bs with
  | nil => rfl
  | cons b bs ih =>
    have hb : b.toNat < 256 := b.toNat_lt
    have hhigh : digitVal (Nat.digitChar (b.toNat / 16)) = some (b.toNat / 16) :=
      digitVal_digitChar (by omega)
    have hlow : digitVal (Nat.digitChar (b.toNat % 16)) = some (b.toNat % 16) :=
      digitVal_digitChar (by omega)
    have hbyte : 16 * (b.toNat / 16) + b.toNat % 16 = b.toNat := by omega
    rw [encode_cons]
    simp only [decode, hhigh, hlow, hbyte, ih, UInt8.ofNat_toNat]

/-- Every digit of an encoded byte is a hexadecimal digit. -/
theorem digitVal_isSome_of_mem_encode {bs : List UInt8} {c : Char} (hc : c ∈ encode bs) :
    (digitVal c).isSome := by
  obtain ⟨b, -, hb⟩ := List.mem_flatMap.1 hc
  have hlt : b.toNat < 256 := b.toNat_lt
  simp only [encodeByte, List.mem_cons, List.not_mem_nil, or_false] at hb
  rcases hb with rfl | rfl
  · rw [digitVal_digitChar (by omega)]; rfl
  · rw [digitVal_digitChar (by omega)]; rfl

theorem encode_injective : Function.Injective encode := fun as bs h => by
  rw [← decode_encode as, h, decode_encode]

/-! ## Decimal digits -/

theorem digitVal_of_isDigit {c : Char} (h : c.isDigit = true) :
    digitVal c = some (c.toNat - 48) ∧ 48 ≤ c.toNat ∧ c.toNat ≤ 57 := by
  obtain ⟨h1, h2⟩ : '0' ≤ c ∧ c ≤ '9' := by
    simpa [Char.isDigit, Char.le_def, and_comm] using h
  exact ⟨if_pos ⟨h1, h2⟩, h1, h2⟩

/-- The first two digits can be read off the byte that they are decoded to. -/
theorem decode_cons_cons_inj {a b c d : Char} {cs ds : List Char} (ha : a.isDigit = true)
    (hb : b.isDigit = true) (hc : c.isDigit = true) (hd : d.isDigit = true) :
    decode (a :: b :: cs) = decode (c :: d :: ds) ↔ a = c ∧ b = d ∧ decode cs = decode ds := by
  obtain ⟨hva, ha1, ha2⟩ := digitVal_of_isDigit ha
  obtain ⟨hvb, hb1, hb2⟩ := digitVal_of_isDigit hb
  obtain ⟨hvc, hc1, hc2⟩ := digitVal_of_isDigit hc
  obtain ⟨hvd, hd1, hd2⟩ := digitVal_of_isDigit hd
  simp only [decode, hva, hvb, hvc, hvd, List.cons.injEq]
  constructor
  · rintro ⟨hbyte, hrest⟩
    have hval := congrArg UInt8.toNat hbyte
    rw [UInt8.toNat_ofNat', UInt8.toNat_ofNat', Nat.mod_eq_of_lt (by omega),
      Nat.mod_eq_of_lt (by omega)] at hval
    exact ⟨Char.toNat_inj.1 (by omega), Char.toNat_inj.1 (by omega), hrest⟩
  · rintro ⟨rfl, rfl, hrest⟩
    exact ⟨rfl, hrest⟩

theorem decode_cons_cons_ne_nil {a b : Char} {cs : List Char} (ha : a.isDigit = true)
    (hb : b.isDigit = true) : decode (a :: b :: cs) ≠ [] := by
  simp only [decode, (digitVal_of_isDigit ha).1, (digitVal_of_isDigit hb).1]
  exact List.cons_ne_nil _ _

/-- **Decimal digits are decoded alike exactly when they agree up to an unpaired last one.** -/
theorem decode_inj_of_isDigit {cs ds : List Char} (hcs : ∀ c ∈ cs, c.isDigit = true)
    (hds : ∀ d ∈ ds, d.isDigit = true) : decode cs = decode ds ↔ paired cs = paired ds := by
  induction cs using paired.induct generalizing ds with
  | case1 a b cs ih =>
    simp only [List.forall_mem_cons] at hcs
    obtain ⟨ha, hb, hcs⟩ := hcs
    match ds, hds with
    | [], _ => exact ⟨fun h => absurd h (decode_cons_cons_ne_nil ha hb), fun h => by cases h⟩
    | [d], _ => exact ⟨fun h => absurd h (decode_cons_cons_ne_nil ha hb), fun h => by cases h⟩
    | c :: d :: ds, hds =>
      simp only [List.forall_mem_cons] at hds
      obtain ⟨hc, hd, hds⟩ := hds
      rw [decode_cons_cons_inj ha hb hc hd, ih hcs hds]
      simp only [paired, List.cons.injEq]
  | case2 cs hshort =>
    have hnil : decode cs = [] ∧ paired cs = [] := by
      match cs, hshort with
      | [], _ => exact ⟨rfl, rfl⟩
      | [a], _ => exact ⟨rfl, rfl⟩
      | a :: b :: cs, h => exact absurd rfl (h a b cs)
    rw [hnil.1, hnil.2]
    match ds, hds with
    | [], _ => exact ⟨fun _ => rfl, fun _ => rfl⟩
    | [d], _ => exact ⟨fun _ => rfl, fun _ => rfl⟩
    | c :: d :: ds, hds =>
      simp only [List.forall_mem_cons] at hds
      exact ⟨fun h => absurd h.symm (decode_cons_cons_ne_nil hds.1 hds.2.1), fun h => by cases h⟩

/-- A byte that was decoded from decimal digits has two of them. -/
theorem mod_lt_of_mem_decode {cs : List Char} (hcs : ∀ c ∈ cs, c.isDigit = true) {b : UInt8}
    (hb : b ∈ decode cs) : b.toNat % 16 < 10 := by
  induction cs using paired.induct with
  | case1 x y cs ih =>
    simp only [List.forall_mem_cons] at hcs
    obtain ⟨hx, hy, hcs⟩ := hcs
    obtain ⟨hvx, hx1, hx2⟩ := digitVal_of_isDigit hx
    obtain ⟨hvy, hy1, hy2⟩ := digitVal_of_isDigit hy
    simp only [decode, hvx, hvy, List.mem_cons] at hb
    rcases hb with rfl | hb
    · have hlt : 16 * (x.toNat - 48) + (y.toNat - 48) < 2 ^ 8 := by omega
      rw [UInt8.toNat_ofNat', Nat.mod_eq_of_lt hlt]
      omega
    · exact ih hcs hb
  | case2 cs hshort =>
    match cs, hshort with
    | [], _ => cases hb
    | [a], _ => cases hb
    | a :: b :: cs, h => exact absurd rfl (h a b cs)

end Hex
