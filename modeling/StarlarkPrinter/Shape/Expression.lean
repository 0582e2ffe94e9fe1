import StarlarkPrinter.Shape.Sequence

namespace StarlarkPrinter.Shape

variable {α : Type}

/-- Two operands and an operator between spaces. The equals sign of a keyword
argument or a default value has spaces only on request. -/
def binary (spaceEqBinary : Bool) (x : α) (op : Option Token) (y : α) : List (Step α) :=
  [.here x "X"] ++ Step.padded (op ≠ some .eq || spaceEqBinary) (.token op "Op") ++
    [.here y "Y"]

def operator (op : Option Token) : List (Step α) :=
  [.token op ("writing \"" ++ Token.shown op ++ "\"")]

/-- The operand of a unary expression; a space follows a word. -/
def operand (op : Option Token) (x : α) : List (Step α) :=
  (if op.any Token.isKeyword then [.space] else []) ++ [.here x "X"]

def call (layout : Layout) (fn : α) (args : List α) : List (Step α) :=
  [.here fn "Fn", .mark .leftParen] ++ sequence layout args ++ [.mark .rightParen]

def forClause (vars x : α) : List (Step α) :=
  [.space, .mark .kwFor, .space, .here vars "for clause Vars", .space, .mark .kwIn, .space,
   .here x "for clause X"]

def ifClause (cond : α) : List (Step α) :=
  [.space, .mark .kwIf, .space, .here cond "if clause Cond"]

def comprehension (curly : Bool) (body : α) (clauses : List (Step α)) : List (Step α) :=
  [.token (some (if curly then .leftBrace else .leftBracket)) "left", .here body "Body"] ++
    clauses ++ [.token (some (if curly then .rightBrace else .rightBracket)) "right"]

def cond (cond onTrue onFalse : α) : List (Step α) :=
  [.here onTrue "True", .space, .mark .kwIf, .space, .here cond "Cond", .space, .mark .kwElse,
   .space, .here onFalse "False"]

def dictEntry (key value : α) : List (Step α) :=
  [.here key "Key", .colon, .space, .here value "Value"]

def dict (layout : Layout) (elements : List α) : List (Step α) :=
  [.mark .leftBrace] ++ sequence layout elements ++ [.mark .rightBrace]

def dot (x name : α) : List (Step α) :=
  [.here x "X", .mark .dot, .here name "Name"]

def ident (ident : Ident) : List (Step α) :=
  [.text ident.name "Name"]

def index (x y : α) : List (Step α) :=
  [.here x "X", .mark .leftBracket, .here y "Y", .mark .rightBracket]

def list (layout : Layout) (elements : List α) : List (Step α) :=
  [.mark .leftBracket] ++ sequence layout elements ++ [.mark .rightBracket]

/-- Brackets around an expression, if there is one. -/
def paren (x : Option α) : List (Step α) :=
  [.mark .leftParen] ++ (x.map (Step.here · "X")).toList ++ [.mark .rightParen]

/-- Bounds that are left out leave their colon, but a step takes its colon along. -/
def slice (x : α) (lo hi step : Option α) : List (Step α) :=
  [.here x "X", .mark .leftBracket] ++ (lo.map (Step.here · "Lo")).toList ++ [.colon] ++
    (hi.map (Step.here · "Hi")).toList ++
    (step.elim [] fun step => [.colon, .here step "Step"]) ++ [.mark .rightBracket]

/-- Elements without brackets, except that the empty tuple is a pair of them. -/
def tuple (layout : Layout) (elements : List α) : List (Step α) :=
  if elements.isEmpty then [.mark .leftParen, .mark .rightParen]
  else sequence layout elements

end StarlarkPrinter.Shape
