/-
  FiveStage.Text.Ratio
  ────────────────────
  **RATIOS IN DOUBLE PRECISION.**

  Ratios of counters are computed as a double-precision unit computes them:
  every result is the nearest number with 53 significant bits, an exact half
  going to the even neighbour.  All of it is exact arithmetic on natural
  numbers.  Counters have 64 bits, so their ratios and percentages are far
  from the ends of the exponent range, and no other rule is needed.
-/

namespace FiveStage

/-! ## §1. Rounding. -/

/-- `num / den` rounded to the nearest whole number, a half to the even one. -/
def roundDiv (num den : Nat) : Nat :=
  let q := num / den
  let r := 2 * (num % den)
  if r < den || (r = den && q % 2 = 0) then q else q + 1

/-- The quotient `num / den` divided by `2 ^ e`, as numerator and denominator. -/
def scaleDown (num den : Nat) (e : Int) : Nat × Nat :=
  if 0 ≤ e then (num, den * Nat.pow 2 e.toNat) else (num * Nat.pow 2 (-e).toNat, den)

/-! ## §2. Numbers of double precision. -/

/-- The number `significand * 2 ^ exponent`; the significand is zero or has
exactly 53 bits. -/
structure Double where
  /-- Significand. -/
  significand : Nat
  /-- Exponent. -/
  exponent : Int
  deriving Repr, DecidableEq

namespace Double

/-- The double nearest to `num / den`. -/
def nearest (num den : Nat) : Double :=
  if num = 0 then ⟨0, 0⟩
  else
    let guess : Int := (num.log2 : Int) - (den.log2 : Int) - 52
    -- at this scale the quotient lies between 2 ^ 51 and 2 ^ 53
    let (n, d) := scaleDown num den guess
    let e := if n / d < Nat.pow 2 52 then guess - 1 else guess
    let (n, d) := scaleDown num den e
    let m := roundDiv n d
    -- rounding up may have carried into one more bit
    if m = Nat.pow 2 53 then ⟨Nat.pow 2 52, e + 1⟩ else ⟨m, e⟩

/-- The double nearest to a whole number. -/
def ofNat (n : Nat) : Double :=
  nearest n 1

/-- The exact value, as numerator and denominator. -/
def fraction (x : Double) : Nat × Nat :=
  scaleDown x.significand 1 (-x.exponent)

/-- Quotient. -/
def div (x y : Double) : Double :=
  let (a, b) := x.fraction
  let (c, d) := y.fraction
  nearest (a * d) (b * c)

/-- Product. -/
def mul (x y : Double) : Double :=
  let (a, b) := x.fraction
  let (c, d) := y.fraction
  nearest (a * c) (b * d)

/-- The 64 bits of the number in the interchange format. -/
def bits (x : Double) : Nat :=
  if x.significand = 0 then 0
  else (x.exponent + 1075).toNat * Nat.pow 2 52 + (x.significand - Nat.pow 2 52)

/-- The exact value with a fixed number of decimal places, a half going to
the even last digit. -/
def fixed (places : Nat) (x : Double) : String :=
  let (a, b) := x.fraction
  let scale := Nat.pow 10 places
  let n := roundDiv (a * scale) b
  let decimals := toString (n % scale)
  toString (n / scale) ++ "." ++ "".pushn '0' (places - decimals.length) ++ decimals

end Double

end FiveStage
