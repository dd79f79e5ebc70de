import Mathlib.Data.List.Basic

/-!
# Hexadecimal text

Bytes as lower-case hexadecimal digits, and a lenient decoder: it reads pairs of digits up to the
first pair that is not one, and drops an unpaired last digit.
-/

namespace Hex

/-- The value of a hexadecimal digit of either case. -/
def digitVal (c : Char) : Option ℕ :=
  if '0' ≤ c ∧ c ≤ '9' then some (c.toNat - 48)
  else if 'a' ≤ c ∧ c ≤ 'f' then some (c.toNat - 87)
  else if 'A' ≤ c ∧ c ≤ 'F' then some (c.toNat - 55)
  else none

/-- The two digits of a byte, the high one first. -/
def encodeByte (b : UInt8) : List Char :=
  [Nat.digitChar (b.toNat / 16), Nat.digitChar (b.toNat % 16)]

/-- The digits of a sequence of bytes. -/
def encode (bs : List UInt8) : List Char := bs.flatMap encodeByte

/-- The bytes of the leading digit pairs. -/
def decode : List Char → List UInt8
  | a :: b :: cs =>
    match digitVal a, digitVal b with
    | some x, some y => UInt8.ofNat (16 * x + y) :: decode cs
    | _, _ => []
  | _ => []

/-- The text without an unpaired last character. -/
def paired : List Char → List Char
  | a :: b :: cs => a :: b :: paired cs
  | _ => []

end Hex
