namespace StarlarkPrinter.Text

/-- Cut a text at the first occurrence of a character, which is dropped. -/
def cutAt (mark : Char) (text : List Char) : List Char × Option (List Char) :=
  match text.span (· != mark) with
  | (before, []) => (before, none)
  | (before, _ :: after) => (before, some after)

def readDigits? (text : List Char) : Option Nat :=
  if text ≠ [] ∧ text.all Char.isDigit then
    some (text.foldl (fun total digit => 10 * total + (digit.toNat - '0'.toNat)) 0)
  else none

/-- Read digits with an optional sign in front. -/
def readSigned? : List Char → Option Int
  | '-' :: digits => (readDigits? digits).map fun number => -(number : Int)
  | '+' :: digits => (readDigits? digits).map Int.ofNat
  | digits => (readDigits? digits).map Int.ofNat

/-- A decimal number `mantissa * 10 ^ exponent`. -/
structure Scientific where
  mantissa : Int
  exponent : Int
deriving DecidableEq, Repr

/-- Read digits, an optional fraction and an optional exponent. -/
def Scientific.read? (text : List Char) : Option Scientific := do
  let (significand, power) := cutAt 'e' text
  let (whole, fraction) := cutAt '.' significand
  let fraction := fraction.getD []
  let mantissa ← readSigned? (whole ++ fraction)
  let exponent ← power.elim (some 0) readSigned?
  return { mantissa, exponent := exponent - fraction.length }

example : (Scientific.read? "1e+22".toList) = some ⟨1, 22⟩ := by decide +kernel
example : (Scientific.read? "-4.50".toList) = some ⟨-450, -2⟩ := by decide +kernel
example : (Scientific.read? "inf".toList) = none := by decide +kernel

end StarlarkPrinter.Text
