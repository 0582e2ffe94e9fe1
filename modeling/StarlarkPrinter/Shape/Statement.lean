import StarlarkPrinter.Shape.Sequence

namespace StarlarkPrinter.Shape

variable {α : Type}

def assign (lhs : α) (op : Option Token) (rhs : α) : List (Step α) :=
  [.indent, .here lhs "LHS", .space, .token op "Op", .space, .here rhs "RHS", .newline]

def branch (token : Option Token) : List (Step α) :=
  [.indent, .token token "Token", .newline]

/-- The end of a block's head and the block. -/
def body (label : String) (members : List α) : List (Step α) :=
  [.colon, .newline, .block members label 1]

/-- A function definition. Its parameters always stand on one line. -/
def define (name : α) (params members : List α) : List (Step α) :=
  [.indent, .mark .kwDef, .space, .here name "Name", .mark .leftParen] ++
    onOneLine "param" params ++ [.mark .rightParen] ++ body "Body" members

def exprStmt (x : α) : List (Step α) :=
  [.indent, .here x "X", .newline]

def forLoop (vars x : α) (members : List α) : List (Step α) :=
  [.indent, .mark .kwFor, .space, .here vars "Vars", .space, .mark .kwIn, .space, .here x "X"] ++
    body "Body" members

def whileLoop (cond : α) (members : List α) : List (Step α) :=
  [.indent, .mark .kwWhile, .space, .here cond "Cond"] ++ body "Body" members

/-- A conditional. Without members the second branch is left out. -/
def ifThen (cond : α) (onTrue onFalse : List α) : List (Step α) :=
  [.indent, .mark .kwIf, .space, .here cond "Cond"] ++ body "True" onTrue ++
    (if onFalse.isEmpty then [] else [.indent, .mark .kwElse] ++ body "False" onFalse)

/-- The name that a load binds, where it is written: it is given, and it differs
from the name in the loaded file. -/
def writtenName? : Option Ident → Option Ident → Option Ident
  | _, none => none
  | none, some bound => some bound
  | some source, some bound => if bound.name = source.name then none else some bound

/-- One name of a load: the bound name with an equals sign, where it is written, and
the source name between quotes. `leaf` makes parts of identifiers. -/
def binding (spaceEqBinary : Bool) (leaf : Option Ident → α) (index : Nat)
    (source bound : Option Ident) : List (Step α) :=
  [.comma, .space] ++
    (match writtenName? source bound with
      | none => []
      | some name =>
        .here (leaf (some name)) ("To[" ++ Text.decimal index ++ "]") ::
          Step.padded spaceEqBinary (.mark .eq)) ++
    [.quote, .here (leaf source) ("From[" ++ Text.decimal index ++ "]"), .quote]

def bindings (spaceEqBinary : Bool) (leaf : Option Ident → α) :
    Nat → List (Option Ident × Option Ident) → List (Step α)
  | _, [] => []
  | index, (source, bound) :: rest =>
    binding spaceEqBinary leaf index source bound ++
      bindings spaceEqBinary leaf (index + 1) rest

def load (spaceEqBinary : Bool) (leaf : Option Ident → α) (path : α)
    (sources locals : List (Option Ident)) : List (Step α) :=
  [.indent, .mark .kwLoad, .mark .leftParen, .here path "Module"] ++
    bindings spaceEqBinary leaf 0 (sources.zip locals) ++ [.mark .rightParen, .newline]

def returns (result : Option α) : List (Step α) :=
  [.indent, .mark .kwReturn] ++
    (result.elim [] fun result => [.space, .here result "Result"]) ++ [.newline]

end StarlarkPrinter.Shape
