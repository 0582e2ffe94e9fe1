import StarlarkPrinter.Printing.Expression
import StarlarkPrinter.Shape.Docstring
import StarlarkPrinter.Shape.Statement

namespace StarlarkPrinter

/-- A text as a docstring, in the place of a literal. Its lines are made before the first
of them is written. -/
def Literal.docstring (literal : Literal) (text : String) (options : Options) : Emission :=
  .andThen (.margin (literal.margin text))
    (perform "rendering docstring expression statement" options (Shape.docstring literal text))

/-- The literal and the text of a node that is printed as a docstring when it is a
statement: a literal with a text. -/
def Node.docstring? : Node → Option (Literal × String)
  | .literal leaf =>
    match leaf.value with
    | .text text => some (leaf, text)
    | _ => none
  | _ => none

/-- The emission of an identifier that may be left out. -/
def Node.leafEmission (leaf : Option Ident) : Options → Emission :=
  (Node.ofIdent? leaf).asExpression

mutual

/-- The emission of a node in the place of a statement. -/
def Node.asStatement : Node → Options → Emission
  | .assign lhs op rhs, options =>
    if op.any (· ∈ Token.assignments) then
      perform "rendering assignment statement" options
        (Shape.assign lhs.asExpression op rhs.asExpression)
    else .fail (.notAssignment op)
  | .branch token, options =>
    if token.any (· ∈ Token.branches) then
      perform Kind.branch.scope options (Shape.branch token)
    else .fail (.notBranch token)
  | .define name params body, options =>
    perform Kind.define.scope options
      (Shape.define name.asExpression (params.map Node.asExpression) (Node.asStatements body))
  | .exprStmt x, options =>
    match x.docstring? with
    | some (leaf, text) => leaf.docstring text options
    | none => perform Kind.exprStmt.scope options (Shape.exprStmt x.asExpression)
  | .forLoop vars x body, options =>
    perform Kind.forLoop.scope options
      (Shape.forLoop vars.asExpression x.asExpression (Node.asStatements body))
  | .whileLoop test body, options =>
    perform Kind.whileLoop.scope options
      (Shape.whileLoop test.asExpression (Node.asStatements body))
  | .ifThen test onTrue onFalse, options =>
    perform Kind.ifThen.scope options
      (Shape.ifThen test.asExpression (Node.asStatements onTrue) (Node.asStatements onFalse))
  | .load path sources locals, options =>
    if sources.length = locals.length then
      perform Kind.load.scope options
        (Shape.load options.spaceEqBinary Node.leafEmission path.asExpression sources locals)
    else .fail (.unevenLoad sources.length locals.length)
  | .returns result, options =>
    perform Kind.returns.scope options
      (Shape.returns (result.unlessMissing result.asExpression))
  | .missing, _ => .fail (.notStatement .missing)
  | .ident _, _ => .fail (.notStatement .ident)
  | .literal _, _ => .fail (.notStatement .literal)
  | .binary _ _ _, _ => .fail (.notStatement .binary)
  | .unary _ _, _ => .fail (.notStatement .unary)
  | .call _ _, _ => .fail (.notStatement .call)
  | .forClause _ _, _ => .fail (.notStatement .forClause)
  | .ifClause _, _ => .fail (.notStatement .ifClause)
  | .comprehension _ _ _, _ => .fail (.notStatement .comprehension)
  | .cond _ _ _, _ => .fail (.notStatement .cond)
  | .dictEntry _ _, _ => .fail (.notStatement .dictEntry)
  | .dict _, _ => .fail (.notStatement .dict)
  | .dot _ _, _ => .fail (.notStatement .dot)
  | .index _ _, _ => .fail (.notStatement .index)
  | .slice _ _ _ _, _ => .fail (.notStatement .slice)
  | .list _, _ => .fail (.notStatement .list)
  | .tuple _, _ => .fail (.notStatement .tuple)
  | .paren _, _ => .fail (.notStatement .paren)
  | .lambda _ _, _ => .fail (.notStatement .lambda)

def Node.asStatements : List Node → List (Options → Emission)
  | [] => []
  | node :: rest => node.asStatement :: Node.asStatements rest

end

@[simp]
theorem Node.asStatements_eq_map (nodes : List Node) :
    Node.asStatements nodes = nodes.map Node.asStatement := by
  induction nodes with
  | nil => rfl
  | cons node rest ih => simp [Node.asStatements, ih]

end StarlarkPrinter
