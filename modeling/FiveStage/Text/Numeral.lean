/-
  FiveStage.Text.Numeral
  ──────────────────────
  **WRITTEN NUMBERS.**

  The texts of this library write words in hexadecimal, bare (`0x1f`) or
  padded with zeros to a fixed number of digits (`0x0000001f`), and align
  columns with blanks.  The numbers it reads are unsigned: one optional plus
  sign, then at least one digit of the base, in either case.
-/
import FiveStage.Word

namespace FiveStage

/-! ## §1. Writing. -/

/-- `s` filled up on the right with blanks to `width` characters. -/
def padRight (width : Nat) (s : String) : String :=
  s.pushn ' ' (width - s.length)

/-- The hexadecimal digits of `n`, lower case, `0` for zero. -/
def hexDigits (n : Nat) : String :=
  String.ofList (Nat.toDigits 16 n)

/-- `0x` and the hexadecimal digits of `n`. -/
def hex (n : Nat) : String :=
  "0x" ++ hexDigits n

/-- `0x` and the hexadecimal digits of `n`, at least `digits` of them. -/
def hexPadded (digits n : Nat) : String :=
  let s := hexDigits n
  "0x" ++ "".pushn '0' (digits - s.length) ++ s

/-- A word as `0x` and its digits, without leading zeros. -/
def Word.hex (w : Word) : String :=
  FiveStage.hex w.toNat

/-- A word as `0x` and exactly eight digits. -/
def Word.hex8 (w : Word) : String :=
  hexPadded 8 w.toNat

/-! ## §2. Reading. -/

/-- The value of an ASCII letter or digit as a digit, whatever the base. -/
def digitValue? (c : Char) : Option Nat :=
  if '0' ≤ c ∧ c ≤ '9' then some (c.toNat - '0'.toNat)
  else if 'a' ≤ c ∧ c ≤ 'z' then some (c.toNat - 'a'.toNat + 10)
  else if 'A' ≤ c ∧ c ≤ 'Z' then some (c.toNat - 'A'.toNat + 10)
  else none

/-- The value of `c` as a digit of the given base. -/
def digit? (base : Nat) (c : Char) : Option Nat :=
  (digitValue? c).filter (· < base)

/-- The value of a non-empty run of digits of the given base. -/
def digits? (base : Nat) : List Char → Option Nat
  | [] => none
  | c :: cs => (c :: cs).foldlM (fun n d => (digit? base d).map (base * n + ·)) 0

/-- An unsigned number of the given base: an optional plus sign and digits. -/
def unsigned? (base : Nat) : List Char → Option Nat
  | '+' :: cs => digits? base cs
  | cs => digits? base cs

/-- An unsigned number of the given base that fits in `bits` bits. -/
def unsignedBits? (base bits : Nat) (cs : List Char) : Option Nat :=
  (unsigned? base cs).filter (· < Nat.pow 2 bits)

end FiveStage
