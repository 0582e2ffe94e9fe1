import StarlarkPrinter.Text.Character
import StarlarkPrinter.Text.Decimal

namespace StarlarkPrinter.Text

inductive IntegerError where
  | malformed
  | tooManyDigits (count : Nat)
deriving DecidableEq, Repr

/-- The values of a run of digits. An underscore stands between two of them. -/
def digitRun? : List Char → Option (List Nat)
  | [] => none
  | [digit] => (digitValue? digit).map ([·])
  | digit :: '_' :: rest => do
    let value ← digitValue? digit
    let values ← digitRun? rest
    return value :: values
  | digit :: rest => do
    let value ← digitValue? digit
    let values ← digitRun? rest
    return value :: values

/-- The number that decimal digits stand for, most significant first. -/
def ofDigits (digits : List Nat) : Nat :=
  digits.foldl (fun total digit => 10 * total + digit) 0

/-- Read digits up to the end of the text. Digits past the limit are reported
before anything that follows them. -/
def readUnsigned (text : List Char) : Except IntegerError Nat :=
  let (run, rest) := text.span fun char => (digitValue? char).isSome || char = '_'
  match digitRun? run with
  | none => .error .malformed
  | some digits =>
    if digitLimit < digits.length then .error (.tooManyDigits digits.length)
    else if rest.all isBlank then .ok (ofDigits digits)
    else .error .malformed

/-- Read an integer: blanks, a sign, digits of any script with single underscores between
them, and blanks. No more than `digitLimit` digits are read. -/
def readInteger (text : List Char) : Except IntegerError Int :=
  match text.dropWhile isBlank with
  | '-' :: digits => (readUnsigned digits).map fun number => -(number : Int)
  | '+' :: digits => (readUnsigned digits).map Int.ofNat
  | digits => (readUnsigned digits).map Int.ofNat

end StarlarkPrinter.Text
