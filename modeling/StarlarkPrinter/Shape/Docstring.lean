import StarlarkPrinter.Step.Basic

/-! Docstrings: a text between triple quotes on lines of its own. Lines after the
first are re-indented to the current depth. A literal that was read from a source
keeps the source's indentation in those lines; where its column is known, that
much is taken off first. -/

namespace StarlarkPrinter

namespace Text

/-- Put a backslash in front of each quote of every run of three, from the left. -/
def escapeTriples : List Char → List Char
  | [] => []
  | '"' :: '"' :: '"' :: rest => '\\' :: '"' :: '\\' :: '"' :: '\\' :: '"' :: escapeTriples rest
  | char :: rest => char :: escapeTriples rest

/-- The first line of a text and the lines after it. -/
def splitLines : List Char → List Char × List (List Char)
  | [] => ([], [])
  | '\n' :: rest =>
    let (first, further) := splitLines rest
    ([], first :: further)
  | char :: rest =>
    let (first, further) := splitLines rest
    (char :: first, further)

/-- A text without `width` spaces at its start, if it has that many. -/
def dropSpaces? : Nat → List Char → Option (List Char)
  | 0, line => some line
  | width + 1, ' ' :: line => dropSpaces? width line
  | _ + 1, _ => none

/-- Take `width` spaces off a line, or leave it as it is if it has fewer. -/
def stripSpaces (width : Nat) (line : List Char) : List Char :=
  (dropSpaces? width line).getD line

end Text

/-- How many spaces the source put in front of a literal's further lines. -/
def Literal.sourceIndent (literal : Literal) : Nat :=
  match literal.token, literal.position with
  | some .stringLiteral, some position => (position.column - 1).toNat
  | _, _ => 0

/-- The margin that is built to be taken off the lines of a docstring after the first: none
if there is no such line. -/
def Literal.margin (literal : Literal) (text : String) : Nat :=
  if (Text.splitLines (Text.escapeTriples text.toList)).2.isEmpty then 0
  else literal.sourceIndent

namespace Shape

variable {α : Type}

/-- The lines after the first, numbered from `index`. An empty line stays empty,
except that the last one holds the indentation of the closing quotes. -/
def furtherLines (width : Nat) : Nat → List (List Char) → List (Step α)
  | _, [] => []
  | index, line :: rest =>
    let line := Text.stripSpaces width line
    .newline ::
      (if !line.isEmpty || rest.isEmpty then
        [.indent, .text (String.ofList line) ("docstring line " ++ Text.decimal index)]
      else []) ++
      furtherLines width (index + 1) rest

/-- The steps of a docstring for a text, as written by a literal. -/
def docstring (literal : Literal) (text : String) : List (Step α) :=
  let lines := Text.splitLines (Text.escapeTriples text.toList)
  [.indent, .text "\"\"\"" "TRIPLE QUOTE", .text (String.ofList lines.1) "docstring line 1"] ++
    furtherLines literal.sourceIndent 2 lines.2 ++
    [.text "\"\"\"" "TRIPLE QUOTE", .newline]

end Shape

end StarlarkPrinter
