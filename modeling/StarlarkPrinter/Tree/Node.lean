import StarlarkPrinter.Tree.Literal

/-! Syntax trees. Expressions, statements and the clauses of comprehensions are
nodes of one type, and a part of a node may be any node, because a tree is only
checked when it is printed. A part that is left out is the node `missing`. The names
of a load statement are no such parts: they are compared while the statement is laid
out, and each of them is an identifier or left out. -/

namespace StarlarkPrinter

inductive Node where
  | missing
  | ident (ident : Ident)
  | literal (literal : Literal)
  | binary (x : Node) (op : Option Token) (y : Node)
  | unary (op : Option Token) (x : Node)
  | call (fn : Node) (args : List Node)
  | forClause (vars x : Node)
  | ifClause (cond : Node)
  | comprehension (body : Node) (clauses : List Node) (curly : Bool)
  | cond (cond onTrue onFalse : Node)
  | dictEntry (key value : Node)
  | dict (elements : List Node)
  | dot (x name : Node)
  | index (x y : Node)
  | slice (x lo hi step : Node)
  | list (elements : List Node)
  | tuple (elements : List Node)
  | paren (x : Node)
  | lambda (params : List Node) (body : Node)
  | assign (lhs : Node) (op : Option Token) (rhs : Node)
  | branch (token : Option Token)
  | define (name : Node) (params body : List Node)
  | exprStmt (x : Node)
  | forLoop (vars x : Node) (body : List Node)
  | whileLoop (cond : Node) (body : List Node)
  | ifThen (cond : Node) (onTrue onFalse : List Node)
  | load (path : Node) (sources locals : List (Option Ident))
  | returns (result : Node)
deriving Repr

inductive Kind where
  | missing | ident | literal | binary | unary | call | forClause | ifClause
  | comprehension | cond | dictEntry | dict | dot | index | slice | list | tuple
  | paren | lambda | assign | branch | define | exprStmt | forLoop | whileLoop
  | ifThen | load | returns
deriving DecidableEq, Repr

namespace Kind

def typeName : Kind → String
  | .missing => "NoneType"
  | .ident => "Ident"
  | .literal => "Literal"
  | .binary => "BinaryExpr"
  | .unary => "UnaryExpr"
  | .call => "CallExpr"
  | .forClause => "ForClause"
  | .ifClause => "IfClause"
  | .comprehension => "Comprehension"
  | .cond => "CondExpr"
  | .dictEntry => "DictEntry"
  | .dict => "DictExpr"
  | .dot => "DotExpr"
  | .index => "IndexExpr"
  | .slice => "SliceExpr"
  | .list => "ListExpr"
  | .tuple => "TupleExpr"
  | .paren => "ParenExpr"
  | .lambda => "LambdaExpr"
  | .assign => "AssignStmt"
  | .branch => "BranchStmt"
  | .define => "DefStmt"
  | .exprStmt => "ExprStmt"
  | .forLoop => "ForStmt"
  | .whileLoop => "WhileStmt"
  | .ifThen => "IfStmt"
  | .load => "LoadStmt"
  | .returns => "ReturnStmt"

/-- What a node of a kind is called in the account of a failure. -/
def phrase : Kind → String
  | .ident => "ident"
  | .literal => "literal"
  | .binary => "binary expression"
  | .unary => "unary expression"
  | .call => "call expression"
  | .comprehension => "comprehension"
  | .cond => "condition expression"
  | .dictEntry => "dict entry"
  | .dict => "dict expression"
  | .dot => "dot expression"
  | .index => "index expression"
  | .slice => "slice expression"
  | .list => "list expression"
  | .tuple => "tuple expression"
  | .paren => "paren expression"
  | .assign => "assign statement"
  | .branch => "branch statement"
  | .define => "def statement"
  | .exprStmt => "expression statement"
  | .forLoop => "for statement"
  | .whileLoop => "while statement"
  | .ifThen => "if statement"
  | .load => "load statement"
  | .returns => "return statement"
  -- Nodes of these kinds are refused, or rendered as a part of the node around them.
  | .missing | .forClause | .ifClause | .lambda => ""

/-- What is being done while a node of a kind is rendered. -/
def scope (kind : Kind) : String := "rendering " ++ kind.phrase

/-- Whether nodes of a kind stand on lines of their own. -/
def isStatement : Kind → Bool
  | .assign | .branch | .define | .exprStmt | .forLoop | .whileLoop | .ifThen | .load
  | .returns => true
  | _ => false

end Kind

namespace Node

def kind : Node → Kind
  | .missing => .missing
  | .ident .. => .ident
  | .literal .. => .literal
  | .binary .. => .binary
  | .unary .. => .unary
  | .call .. => .call
  | .forClause .. => .forClause
  | .ifClause .. => .ifClause
  | .comprehension .. => .comprehension
  | .cond .. => .cond
  | .dictEntry .. => .dictEntry
  | .dict .. => .dict
  | .dot .. => .dot
  | .index .. => .index
  | .slice .. => .slice
  | .list .. => .list
  | .tuple .. => .tuple
  | .paren .. => .paren
  | .lambda .. => .lambda
  | .assign .. => .assign
  | .branch .. => .branch
  | .define .. => .define
  | .exprStmt .. => .exprStmt
  | .forLoop .. => .forLoop
  | .whileLoop .. => .whileLoop
  | .ifThen .. => .ifThen
  | .load .. => .load
  | .returns .. => .returns

def typeName (node : Node) : String := node.kind.typeName

def isMissing : Node → Bool
  | .missing => true
  | _ => false

def isEmptyTuple : Node → Bool
  | .tuple [] => true
  | _ => false

/-- The node of an identifier that may be left out. -/
def ofIdent? : Option Ident → Node
  | none => .missing
  | some leaf => .ident leaf

@[simp]
theorem isMissing_iff (node : Node) : node.isMissing = true ↔ node = .missing := by
  cases node <;> simp [isMissing]

end Node

end StarlarkPrinter
