import Mathlib.Data.Rat.Floor

/-!
# Numbers of the language runtime

`Number` values are IEEE binary64. A non-negative finite one is represented by the rational number
that it stands for; all numbers that are computed here lie well inside the normal range, so that
neither overflow nor subnormal numbers occur. `BigInt` values are integers.
-/

namespace Js

/-- The integer nearest to `q ≥ 0`, ties to even. -/
def roundHalfEven (q : ℚ) : ℕ :=
  let n := q.floor.toNat
  let r := q - n
  if r < 1 / 2 then n else if 1 / 2 < r then n + 1 else if n % 2 = 0 then n else n + 1

/-- The exponent `e` with `2 ^ e ≤ q < 2 ^ (e + 1)`, for `q > 0`. -/
def exponent (q : ℚ) : ℤ :=
  let e : ℤ := (Nat.log2 q.num.toNat : ℤ) - (Nat.log2 q.den : ℤ)
  if (2 : ℚ) ^ e ≤ q then e else e - 1

/-- The binary64 number nearest to `q ≥ 0`: 53 significant bits, ties to even. -/
def roundBinary64 (q : ℚ) : ℚ :=
  if q ≤ 0 then 0
  else
    let ulp : ℚ := (2 : ℚ) ^ (exponent q - 52)
    roundHalfEven (q / ulp) * ulp

/-- `Number(n)` for a non-negative big integer `n`. -/
def number (n : ℕ) : ℚ := roundBinary64 n

/-- `Math.pow(10, k)`. -/
def pow10 (k : ℤ) : ℚ := roundBinary64 ((10 : ℚ) ^ k)

/-- The product of two `Number` values. -/
def mul (x y : ℚ) : ℚ := roundBinary64 (x * y)

/-- The `n` with `10 ^ (n - 1) ≤ x < 10 ^ n`, for `x > 0`. -/
def decimalPoint (x : ℚ) : ℤ :=
  if 1 ≤ x then (Nat.toDigits 10 x.floor.toNat).length
  else
    -- below one, the number of leading zeros after the point is read off the integer part of `1/x`
    let m := (1 / x).ceil.toNat
    1 - ((Nat.toDigits 10 (m - 1)).length : ℤ)

/-- The digits of `x` when printed with `k` significant digits at decimal point `n`, if these digits
read back as `x`: of the two neighbours, the one that does and is closer to `x`. -/
def digitsAt (x : ℚ) (n : ℤ) (k : ℕ) : Option ℕ :=
  let unit : ℚ := (10 : ℚ) ^ (n - k)
  let lo := (x / unit).floor.toNat
  let reads (s : ℕ) : Bool := roundBinary64 (s * unit) = x
  let up : Bool := lo * unit + (lo + 1) * unit < 2 * x
  match reads lo, reads (lo + 1) with
  | true, true => some (if up then lo + 1 else lo)
  | true, false => some lo
  | false, true => some (lo + 1)
  | false, false => none

/-- The shortest digits that read back as `x`, with their decimal point, among the lengths from `k`
on; seventeen digits always do. -/
def shortest (x : ℚ) (n : ℤ) : ℕ → ℕ → ℕ × ℤ
  | 0, _ => (0, n)
  | fuel + 1, k =>
    match digitsAt x n k with
    | some s => if s = 10 ^ k then (10 ^ (k - 1), n + 1) else (s, n)
    | none => shortest x n fuel (k + 1)

/-- `Number.prototype.toString` on a non-negative finite number. -/
def numberToString (x : ℚ) : String :=
  if x ≤ 0 then "0"
  else
    let (s, n) := shortest x (decimalPoint x) 17 1
    let digits := toString s
    let k : ℤ := digits.length
    if k ≤ n ∧ n ≤ 21 then digits ++ String.ofList (List.replicate (n - k).toNat '0')
    else if 0 < n ∧ n ≤ 21 then
      String.ofList (digits.toList.take n.toNat) ++ "." ++
        String.ofList (digits.toList.drop n.toNat)
    else if -6 < n ∧ n ≤ 0 then "0." ++ String.ofList (List.replicate (-n).toNat '0') ++ digits
    else
      let e := n - 1
      let sign := if 0 ≤ e then "+" else "-"
      let mantissa :=
        if k = 1 then digits
        else String.ofList (digits.toList.take 1) ++ "." ++ String.ofList (digits.toList.drop 1)
      mantissa ++ "e" ++ sign ++ toString e.natAbs

/-! ## `BigInt` -/

/-- White space and line terminators. -/
def isSpace (c : Char) : Bool :=
  c.toNat ∈ [0x09, 0x0A, 0x0B, 0x0C, 0x0D, 0x20, 0xA0, 0x1680, 0x2000, 0x2001, 0x2002, 0x2003,
    0x2004, 0x2005, 0x2006, 0x2007, 0x2008, 0x2009, 0x200A, 0x2028, 0x2029, 0x202F, 0x205F,
    0x3000, 0xFEFF]

/-- The value of a digit in a radix of at most sixteen. -/
def digitVal (radix : ℕ) (c : Char) : Option ℕ :=
  let v :=
    if '0' ≤ c ∧ c ≤ '9' then some (c.toNat - 48)
    else if 'a' ≤ c ∧ c ≤ 'f' then some (c.toNat - 87)
    else if 'A' ≤ c ∧ c ≤ 'F' then some (c.toNat - 55)
    else none
  v.filter fun d => d < radix

/-- A non-empty sequence of digits in the given radix. -/
def digitsVal (radix : ℕ) : List Char → Option ℕ
  | [] => none
  | cs => cs.foldlM (fun acc c => (digitVal radix c).map fun d => acc * radix + d) 0

/-- `BigInt(text)`: surrounding white space is dropped, the empty text is zero, otherwise the text
is an integer literal; `none` stands for the `SyntaxError`. -/
def bigInt (text : String) : Option ℤ :=
  let cs := ((text.toList.dropWhile isSpace).reverse.dropWhile isSpace).reverse
  match cs with
  | [] => some 0
  | '0' :: 'x' :: ds => (digitsVal 16 ds).map Int.ofNat
  | '0' :: 'X' :: ds => (digitsVal 16 ds).map Int.ofNat
  | '0' :: 'o' :: ds => (digitsVal 8 ds).map Int.ofNat
  | '0' :: 'O' :: ds => (digitsVal 8 ds).map Int.ofNat
  | '0' :: 'b' :: ds => (digitsVal 2 ds).map Int.ofNat
  | '0' :: 'B' :: ds => (digitsVal 2 ds).map Int.ofNat
  | '-' :: ds => (digitsVal 10 ds).map fun n => -Int.ofNat n
  | '+' :: ds => (digitsVal 10 ds).map Int.ofNat
  | ds => (digitsVal 10 ds).map Int.ofNat

/-! ## Strings -/

/-- `s.slice(-n)`: the last `n` characters. -/
def sliceEnd (n : ℕ) (s : String) : String := String.ofList (s.toList.drop (s.toList.length - n))

/-- `s.startsWith('0x') ? s.slice(2) : s`. -/
def strip0x (s : String) : String :=
  match s.toList with
  | '0' :: 'x' :: cs => String.ofList cs
  | _ => s

/-- The UTF-8 bytes of a string. -/
def toUtf8Bytes (s : String) : List UInt8 := s.toList.flatMap String.utf8EncodeChar

end Js
