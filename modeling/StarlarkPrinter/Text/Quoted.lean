import StarlarkPrinter.Text.CodePoint
import StarlarkPrinter.Text.Printable

namespace StarlarkPrinter.Text

/-- The lowest `width` hexadecimal digits of a number, in lower case. -/
def hexDigits : Nat → Nat → List Char
  | 0, _ => []
  | width + 1, number => hexDigits width (number / 16) ++ [Nat.digitChar (number % 16)]

/-- A backslash, a letter for the width, and that many digits. -/
def hexEscape (letter : Char) (width number : Nat) : List Char :=
  '\\' :: letter :: hexDigits width number

@[simp]
theorem length_hexDigits (width number : Nat) :
    (hexDigits width number).length = width := by
  induction width generalizing number with
  | zero => rfl
  | succ width ih => simp [hexDigits, ih]

example : hexEscape 'u' 4 0x2028 = "\\u2028".toList := by decide
example : hexEscape 'x' 2 0x1b = "\\x1b".toList := by decide

/-- Single quotes, unless the text holds a single quote and no double quote. -/
def displayMark (text : List Char) : Char :=
  if text.contains '\x27' && !text.contains '"' then '"' else '\x27'

/-- How one character is displayed between a given pair of marks. -/
def displayChar (mark char : Char) : List Char :=
  if char = mark ∨ char = '\\' then ['\\', char]
  else if char = '\n' then ['\\', 'n']
  else if char = '\r' then ['\\', 'r']
  else if char = '\t' then ['\\', 't']
  else if isPrintable char then [char]
  else if char.toNat < 0x100 then hexEscape 'x' 2 char.toNat
  else if char.toNat < 0x10000 then hexEscape 'u' 4 char.toNat
  else hexEscape 'U' 8 char.toNat

def displayed (text : String) : String :=
  let mark := displayMark text.toList
  String.ofList (mark :: (text.toList.flatMap (displayChar mark) ++ [mark]))

example : displayed "it's" = "\"it's\"" := by decide +kernel
example : displayed "a\x00\t\\" = "'a\\x00\\t\\\\'" := by decide +kernel

/-- The letter that escapes a control character after a backslash. -/
def escapeLetter? : Char → Option Char
  | '\x07' => some 'a'
  | '\x08' => some 'b'
  | '\x0c' => some 'f'
  | '\n' => some 'n'
  | '\r' => some 'r'
  | '\t' => some 't'
  | '\x0b' => some 'v'
  | _ => none

/-- The escape of an unprintable character: two digits for the control
characters of ASCII, else four or eight. -/
def quoteUnprintable (char : Char) : List Char :=
  match escapeLetter? char with
  | some letter => ['\\', letter]
  | none =>
    if char.toNat < 0x20 ∨ char.toNat = 0x7f then hexEscape 'x' 2 char.toNat
    else if char.toNat < 0x10000 then hexEscape 'u' 4 char.toNat
    else hexEscape 'U' 8 char.toNat

/-- How one character is written inside a string literal. -/
def quoteChar (char : Char) : List Char :=
  if char = '"' ∨ char = '\\' then ['\\', char]
  else if isPrintable char then [char]
  else quoteUnprintable char

/-- How one code point is written inside a string literal. A surrogate is
written as the escape of the replacement character. -/
def quotePoint : CodePoint → List Char
  | .scalar char => quoteChar char
  | .surrogate _ => quoteUnprintable '\uFFFD'

/-- The string literal of a sequence of code points. -/
def quotePoints (points : List CodePoint) : List Char :=
  '"' :: (points.flatMap quotePoint ++ ['"'])

def quoteChars (chars : List Char) : List Char :=
  '"' :: (chars.flatMap quoteChar ++ ['"'])

def quoted (text : String) : String :=
  String.ofList (quoteChars text.toList)

theorem quotePoints_map_scalar (chars : List Char) :
    quotePoints (chars.map .scalar) = quoteChars chars := by
  simp [quotePoints, quoteChars, List.flatMap_map, quotePoint]

example : quoteChars "say \"hi\"\n".toList = "\"say \\\"hi\\\"\\n\"".toList := by decide +kernel
example : quotePoint (.surrogate 0) = "\\ufffd".toList := by decide

end StarlarkPrinter.Text
