import StarlarkPrinter.Text.Scientific

/-! Numbers of double precision: 53 significant bits, exponents from -1074, and
nothing from `2 ^ 1024` on. A decimal spelling stands for the nearest of them, and a
tie goes to the even significand. -/

namespace StarlarkPrinter

namespace Number

/-- The whole number nearest to a quotient; a tie goes to the even one. -/
def roundQuotient (numerator denominator : Nat) : Nat :=
  let quotient := numerator / denominator
  let remainder := numerator % denominator
  if 2 * remainder < denominator then quotient
  else if denominator < 2 * remainder then quotient + 1
  else if quotient % 2 = 0 then quotient
  else quotient + 1

/-- The greatest power of two, by its exponent, that is not above a quotient. -/
def floorLog (numerator denominator : Nat) : Int :=
  let guess : Int := (Nat.log2 numerator : Int) - Nat.log2 denominator
  if denominator <<< guess.toNat ≤ numerator <<< (-guess).toNat then guess else guess - 1

end Number

/-- A number of double precision. A finite one is `significand * 2 ^ exponent`. -/
inductive Binary64 where
  | nan
  | infinite
  | finite (significand exponent : Int)
deriving DecidableEq, Repr

namespace Binary64

/-- The whole part of `significand * 2 ^ exponent`, and whether that is all of it. -/
def wholePart (significand : Nat) : Int → Nat × Bool
  | .ofNat power => (significand <<< power, true)
  | .negSucc power =>
    (significand >>> (power + 1), significand % (1 <<< (power + 1)) = 0)

/-- The finite or infinite number nearest to a quotient, with the sign of `sign`. -/
def ofQuotient (sign : Int) (numerator denominator : Nat) : Binary64 :=
  if numerator = 0 then .finite 0 0
  else
    let exponent := max (Number.floorLog numerator denominator - 52) (-1074)
    let significand :=
      Number.roundQuotient (numerator <<< (-exponent).toNat) (denominator <<< exponent.toNat)
    if 1 <<< 1024 ≤ (wholePart significand exponent).1 then .infinite
    else .finite (sign * significand) exponent

def ofScientific (number : Text.Scientific) : Binary64 :=
  ofQuotient number.mantissa.sign (number.mantissa.natAbs * Nat.pow 10 number.exponent.toNat)
    (Nat.pow 10 (-number.exponent).toNat)

def ofSpelling? : String → Option Binary64
  | "nan" => some .nan
  | "inf" => some .infinite
  | "-inf" => some .infinite
  | spelling => (Text.Scientific.read? spelling.toList).map ofScientific

/-- The number without its fraction. -/
def truncated (significand exponent : Int) : Int :=
  significand.sign * (wholePart significand.natAbs exponent).1

/-- The integer that a number equals, if it equals one. -/
def whole? : Binary64 → Option Int
  | .finite significand exponent =>
    if (wholePart significand.natAbs exponent).2 then some (truncated significand exponent)
    else none
  | _ => none

example : (ofSpelling? "-0.0").bind whole? = some 0 := by decide +kernel
example : (ofSpelling? "4.0").bind whole? = some 4 := by decide +kernel
example : (ofSpelling? "4.5").bind whole? = none := by decide +kernel
example : (ofSpelling? "1e+23").bind whole? = some 99999999999999991611392 := by decide +kernel

end Binary64

end StarlarkPrinter
