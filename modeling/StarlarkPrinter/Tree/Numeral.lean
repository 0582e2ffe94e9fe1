import StarlarkPrinter.Text.Integer
import StarlarkPrinter.Tree.Value

namespace StarlarkPrinter

inductive NumeralError where
  | notNumeric (typeName : String)
  | malformed (shown : String)
  | tooManyDigitsToRead (count : Nat)
  | notANumber
  | infinite
  | tooManyDigits
deriving DecidableEq, Repr

namespace NumeralError

/-- How much of a malformed text is shown. -/
def shownLength : Nat := 200

/-- The error for a malformed text, which is shown cut off after `shownLength`. -/
def ofMalformed (shown : String) : NumeralError :=
  .malformed (String.ofList (shown.toList.take shownLength))

def message : NumeralError → String
  | .notNumeric typeName =>
    "int() argument must be a string, a bytes-like object or a real number, not '" ++
      typeName ++ "'"
  | .malformed shown => "invalid literal for int() with base 10: " ++ shown
  | .tooManyDigitsToRead count =>
    "Exceeds the limit (4300 digits) for integer string conversion: value has " ++
      Text.decimal count ++ " digits; use sys.set_int_max_str_digits() to increase the limit"
  | .notANumber => "cannot convert float NaN to integer"
  | .infinite => "cannot convert float infinity to integer"
  | .tooManyDigits => Text.digitLimitMessage

end NumeralError

/-- The integer part of a number of double precision. -/
def Binary64.toInteger : Binary64 → Except NumeralError Int
  | .nan => .error .notANumber
  | .infinite => .error .infinite
  | .finite significand exponent => .ok (truncated significand exponent)

namespace Value

def integerOfText (text : String) : Except NumeralError Int :=
  match Text.readInteger text.toList with
  | .ok number => .ok number
  | .error .malformed => .error (.ofMalformed (Text.displayed text))
  | .error (.tooManyDigits count) => .error (.tooManyDigitsToRead count)

/-- The integer that a decimal spelling is cut off to. -/
def integerOfSpelling (spelling : String) : Except NumeralError Int :=
  match Binary64.ofSpelling? spelling with
  | some number => number.toInteger
  | none => .error (.ofMalformed (Text.displayed spelling))

/-- A truth value counts as zero or one, a text is read, and a fraction is cut off. -/
def toInteger : Value → Except NumeralError Int
  | .bool value | .fixedBool value => .ok (if value then 1 else 0)
  | .int value => .ok value
  | .fixedInt number => .ok number.value
  | .float spelling | .fixedFloat spelling => integerOfSpelling spelling
  | .text spelled => integerOfText spelled
  -- Bytes are read as a text, but they never get as far as the printer.
  | .other "bytes" (.shown content) _ => .error (.ofMalformed content)
  | value => .error (.notNumeric value.typeName)

def numeral (value : Value) : Except NumeralError String := do
  let number ← value.toInteger
  match Text.numeral? number with
  | none => .error .tooManyDigits
  | some numeral => .ok numeral

end Value

end StarlarkPrinter
