import Tsunagari.Encoding.Eip191
import Tsunagari.Encoding.Proofs.HexProofs
import Tsunagari.Js.Proofs.LiteralProofs

/-!
# Proofs: a signed message determines the message
-/

namespace Eip191

/-- A decimal number takes one byte for every digit. -/
theorem length_toUtf8Bytes_toString (n : ℕ) :
    (Js.toUtf8Bytes (toString n)).length = (Nat.toDigits 10 n).length := by
  have hbytes : ∀ cs : List Char, (∀ c ∈ cs, c.isDigit = true) →
      (cs.flatMap String.utf8EncodeChar).length = cs.length := by
    intro cs hcs
    induction cs with
    | nil => rfl
    | cons c cs ih =>
      rw [List.forall_mem_cons] at hcs
      have hc : c.utf8Size = 1 := by
        obtain ⟨-, -, h⟩ := Hex.digitVal_of_isDigit hcs.1
        rw [Char.utf8Size_eq_one_iff, UInt32.le_iff_toNat_le]
        exact h.trans (by decide)
      rw [List.flatMap_cons, List.length_append, ih hcs.2, String.length_utf8EncodeChar, hc,
        List.length_cons, Nat.add_comm]
  have hlist : (toString n).toList = Nat.toDigits 10 n := Nat.toList_repr
  rw [Js.toUtf8Bytes, hlist]
  exact hbytes _ fun c hc => Js.isDigit_of_mem_toDigits hc

/-- A larger number has no fewer digits. -/
theorem length_toDigits_mono {n m : ℕ} (h : n ≤ m) :
    (Nat.toDigits 10 n).length ≤ (Nat.toDigits 10 m).length := by
  have hpos : 0 < (Nat.toDigits 10 m).length := Nat.length_toDigits_pos
  have hm : m < 10 ^ (Nat.toDigits 10 m).length :=
    (Nat.length_toDigits_le_iff (by norm_num) hpos).1 le_rfl
  exact (Nat.length_toDigits_le_iff (by norm_num) hpos).2 (h.trans_lt hm)

theorem preimage_injective : Function.Injective preimage := by
  intro m₁ m₂ h
  have hrest := List.append_cancel_left h
  have hlen := congrArg List.length hrest
  rw [List.length_append, List.length_append, length_toUtf8Bytes_toString,
    length_toUtf8Bytes_toString] at hlen
  -- the length of the whole grows with the length of the message
  have heq : m₁.length = m₂.length := by
    rcases le_total m₁.length m₂.length with hle | hle
    · have := length_toDigits_mono hle
      omega
    · have := length_toDigits_mono hle
      omega
  rw [heq] at hrest
  exact List.append_cancel_left hrest

/-- The text of a signed message has the letter `m`. -/
theorem mem_preimage (message : List UInt8) : 0x6d ∈ preimage message :=
  List.mem_append_left _ (by decide)

end Eip191
