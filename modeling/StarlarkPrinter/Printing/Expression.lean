import StarlarkPrinter.Shape.Expression

namespace StarlarkPrinter

/-- A literal writes its payload, or its raw text if it has none. -/
def Literal.emission (literal : Literal) (options : Options) : Emission :=
  if literal.value = .absent then
    perform Kind.literal.scope options [.text literal.raw "raw payload"]
  else
    match literal.value.payload with
    | .error error => .fail (.payload error)
    | .ok (kind, text) =>
      perform (Kind.literal.scope ++ " " ++ kind.name ++ " value") options
        [.text text (kind.name ++ " payload")]

/-- A unary expression. Only a star may stand without an operand, to mark the
parameters after it as keywords. -/
def unaryEmission (options : Options) (op : Option Token) (x : Option (Options → Emission)) :
    Emission :=
  match x with
  | some operand =>
    .andThen (perform (Kind.unary.scope ++ ",") options (Shape.operator op))
      (perform Kind.unary.scope options (Shape.operand op operand))
  | none =>
    if op = some .star then perform (Kind.unary.scope ++ ",") options (Shape.operator op)
    else .fail (.missingOperand op)

/-- A part, unless it is left out. -/
def Node.unlessMissing {α : Type} (node : Node) (part : α) : Option α :=
  if node.isMissing then none else some part

/-- The first element of a dict that is no entry. -/
def Node.strayElement? (elements : List Node) : Option Node :=
  elements.find? (·.kind ≠ .dictEntry)

mutual

/-- The emission of a node in the place of an expression. -/
def Node.asExpression : Node → Options → Emission
  | .ident leaf, options => perform Kind.ident.scope options (Shape.ident leaf)
  | .literal leaf, options => leaf.emission options
  | .binary x op y, options =>
    perform Kind.binary.scope options
      (Shape.binary options.spaceEqBinary x.asExpression op y.asExpression)
  | .unary op x, options => unaryEmission options op (x.unlessMissing x.asExpression)
  | .call fn args, options =>
    perform Kind.call.scope options
      (Shape.call options.call fn.asExpression (Node.asExpressions args))
  | .comprehension body clauses curly, options =>
    match Node.asClauses clauses with
    | .error stray => .fail (.notClause stray)
    | .ok steps =>
      perform Kind.comprehension.scope options
        (Shape.comprehension curly body.asExpression steps)
  | .cond test onTrue onFalse, options =>
    perform Kind.cond.scope options
      (Shape.cond test.asExpression onTrue.asExpression onFalse.asExpression)
  | .dictEntry key value, options =>
    perform Kind.dictEntry.scope options (Shape.dictEntry key.asExpression value.asExpression)
  | .dict elements, options =>
    match Node.strayElement? elements with
    | some stray => .fail (.notDictEntry stray.kind)
    | none =>
      perform Kind.dict.scope options (Shape.dict options.dict (Node.asExpressions elements))
  | .dot x name, options =>
    perform Kind.dot.scope options (Shape.dot x.asExpression name.asExpression)
  | .index x y, options =>
    perform Kind.index.scope options (Shape.index x.asExpression y.asExpression)
  | .slice x lo hi step, options =>
    perform Kind.slice.scope options
      (Shape.slice x.asExpression (lo.unlessMissing lo.asExpression)
        (hi.unlessMissing hi.asExpression) (step.unlessMissing step.asExpression))
  | .list elements, options =>
    perform Kind.list.scope options (Shape.list options.list (Node.asExpressions elements))
  | .tuple elements, options =>
    perform Kind.tuple.scope options (Shape.tuple options.tuple (Node.asExpressions elements))
  | .paren x, options =>
    perform Kind.paren.scope options
      (Shape.paren (if x.isEmptyTuple then none else some x.asExpression))
  | .missing, _ => .fail (.notExpression .missing)
  | .forClause _ _, _ => .fail (.notExpression .forClause)
  | .ifClause _, _ => .fail (.notExpression .ifClause)
  | .lambda _ _, _ => .fail (.notExpression .lambda)
  | .assign _ _ _, _ => .fail (.notExpression .assign)
  | .branch _, _ => .fail (.notExpression .branch)
  | .define _ _ _, _ => .fail (.notExpression .define)
  | .exprStmt _, _ => .fail (.notExpression .exprStmt)
  | .forLoop _ _ _, _ => .fail (.notExpression .forLoop)
  | .whileLoop _ _, _ => .fail (.notExpression .whileLoop)
  | .ifThen _ _ _, _ => .fail (.notExpression .ifThen)
  | .load _ _ _, _ => .fail (.notExpression .load)
  | .returns _, _ => .fail (.notExpression .returns)

def Node.asExpressions : List Node → List (Options → Emission)
  | [] => []
  | node :: rest => node.asExpression :: Node.asExpressions rest

/-- The steps of a clause of a comprehension; other nodes are no clauses. -/
def Node.asClause : Node → Option (List (Step (Options → Emission)))
  | .forClause vars x => some (Shape.forClause vars.asExpression x.asExpression)
  | .ifClause test => some (Shape.ifClause test.asExpression)
  | _ => none

/-- The steps of the clauses of a comprehension, or the kind of the first node that is
no clause. -/
def Node.asClauses : List Node → Except Kind (List (Step (Options → Emission)))
  | [] => .ok []
  | node :: rest =>
    match node.asClause with
    | none => .error node.kind
    | some steps => (Node.asClauses rest).map (steps ++ ·)

end

@[simp]
theorem Node.asExpressions_eq_map (nodes : List Node) :
    Node.asExpressions nodes = nodes.map Node.asExpression := by
  induction nodes with
  | nil => rfl
  | cons node rest ih => simp [Node.asExpressions, ih]

end StarlarkPrinter
