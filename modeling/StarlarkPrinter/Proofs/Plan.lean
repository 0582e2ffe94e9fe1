import StarlarkPrinter.Printing.Printer
import StarlarkPrinter.Proofs.Naturality
import StarlarkPrinter.Proofs.Trace

/-! Plans: what a node does in a role, one level deep. A node refuses, or it takes
steps whose parts are nodes again, each step in a scope. The emission of a node has
the trace of its plan, so a fact about all trees needs one look at the plans and one
at the steps. -/

namespace StarlarkPrinter

/-- A step and the scope that it is taken in. -/
structure Action where
  scope : String
  step : Step Node
deriving Repr

/-- What a node does, one level deep. -/
inductive Plan where
  | refuse (reason : Reason)
  | act (actions : List Action)
deriving Repr

/-- Take all steps in one scope. -/
def Plan.inScope (scope : String) (steps : List (Step Node)) : Plan :=
  .act (steps.map (Action.mk scope))

def Literal.plan (literal : Literal) : Plan :=
  if literal.value = .absent then .inScope Kind.literal.scope [.text literal.raw "raw payload"]
  else
    match literal.value.payload with
    | .error error => .refuse (.payload error)
    | .ok (kind, text) =>
      .inScope (Kind.literal.scope ++ " " ++ kind.name ++ " value")
        [.text text (kind.name ++ " payload")]

/-- The plan of a unary expression, whose operator has a scope of its own. -/
def Plan.unary (op : Option Token) (x : Node) : Plan :=
  if x.isMissing then
    if op = some .star then .inScope (Kind.unary.scope ++ ",") (Shape.operator op)
    else .refuse (.missingOperand op)
  else
    .act ((Shape.operator op).map (Action.mk (Kind.unary.scope ++ ",")) ++
      (Shape.operand op x).map (Action.mk Kind.unary.scope))

namespace Node

/-- The steps of a clause, if the node is one. -/
def clauseSteps? : Node → Option (List (Step Node))
  | .forClause vars x => some (Shape.forClause vars x)
  | .ifClause test => some (Shape.ifClause test)
  | _ => none

/-- The steps of clauses, or the kind of the first node that is no clause. -/
def clausesSteps : List Node → Except Kind (List (Step Node))
  | [] => .ok []
  | node :: rest =>
    match node.clauseSteps? with
    | none => .error node.kind
    | some steps => (clausesSteps rest).map (steps ++ ·)

def expressionPlan : Node → Options → Plan
  | .ident leaf, _ => .inScope Kind.ident.scope (Shape.ident leaf)
  | .literal leaf, _ => leaf.plan
  | .binary x op y, options =>
    .inScope Kind.binary.scope (Shape.binary options.spaceEqBinary x op y)
  | .unary op x, _ => .unary op x
  | .call fn args, options => .inScope Kind.call.scope (Shape.call options.call fn args)
  | .comprehension body clauses curly, _ =>
    match clausesSteps clauses with
    | .error stray => .refuse (.notClause stray)
    | .ok steps => .inScope Kind.comprehension.scope (Shape.comprehension curly body steps)
  | .cond test onTrue onFalse, _ => .inScope Kind.cond.scope (Shape.cond test onTrue onFalse)
  | .dictEntry key value, _ => .inScope Kind.dictEntry.scope (Shape.dictEntry key value)
  | .dict elements, options =>
    match strayElement? elements with
    | some stray => .refuse (.notDictEntry stray.kind)
    | none => .inScope Kind.dict.scope (Shape.dict options.dict elements)
  | .dot x name, _ => .inScope Kind.dot.scope (Shape.dot x name)
  | .index x y, _ => .inScope Kind.index.scope (Shape.index x y)
  | .slice x lo hi step, _ =>
    .inScope Kind.slice.scope
      (Shape.slice x (lo.unlessMissing lo) (hi.unlessMissing hi) (step.unlessMissing step))
  | .list elements, options => .inScope Kind.list.scope (Shape.list options.list elements)
  | .tuple elements, options => .inScope Kind.tuple.scope (Shape.tuple options.tuple elements)
  | .paren x, _ =>
    .inScope Kind.paren.scope (Shape.paren (if x.isEmptyTuple then none else some x))
  | node, _ => .refuse (.notExpression node.kind)

def statementPlan : Node → Options → Plan
  | .assign lhs op rhs, _ =>
    if op.any (· ∈ Token.assignments) then
      .inScope "rendering assignment statement" (Shape.assign lhs op rhs)
    else .refuse (.notAssignment op)
  | .branch token, _ =>
    if token.any (· ∈ Token.branches) then .inScope Kind.branch.scope (Shape.branch token)
    else .refuse (.notBranch token)
  | .define name params body, _ => .inScope Kind.define.scope (Shape.define name params body)
  | .exprStmt x, _ =>
    match x.docstring? with
    | some (leaf, text) =>
      .inScope "rendering docstring expression statement" (Shape.docstring leaf text)
    | none => .inScope Kind.exprStmt.scope (Shape.exprStmt x)
  | .forLoop vars x body, _ => .inScope Kind.forLoop.scope (Shape.forLoop vars x body)
  | .whileLoop test body, _ => .inScope Kind.whileLoop.scope (Shape.whileLoop test body)
  | .ifThen test onTrue onFalse, _ =>
    .inScope Kind.ifThen.scope (Shape.ifThen test onTrue onFalse)
  | .load path sources locals, options =>
    if sources.length = locals.length then
      .inScope Kind.load.scope (Shape.load options.spaceEqBinary ofIdent? path sources locals)
    else .refuse (.unevenLoad sources.length locals.length)
  | .returns result, _ =>
    .inScope Kind.returns.scope (Shape.returns (result.unlessMissing result))
  | node, _ => .refuse (.notStatement node.kind)

end Node

def Role.plan : Role → Node → Options → Plan
  | .expression, node => node.expressionPlan
  | .statement, node => node.statementPlan

def Step.trace (scope : String) (options : Options) (step : Step Node) : Trace :=
  ((step.map Node.asExpression Node.asStatement).emission scope options).trace

def Action.trace (options : Options) (action : Action) : Trace :=
  action.step.trace action.scope options

def Plan.trace (options : Options) : Plan → Trace
  | .refuse reason => ⟨[], .failed (.ofReason reason)⟩
  | .act actions => .concat (actions.map (Action.trace options))

def Role.trace (role : Role) (node : Node) (options : Options) : Trace :=
  (role.emission node options).trace

section StepTrace

variable (scope : String) (options : Options)

theorem Step.trace_part (tree : Node) (label : String) (levels : Nat) :
    (Step.part tree label levels).trace scope options =
      (Role.expression.trace tree (options.deeper levels)).within (.part scope label) := rfl

theorem Step.trace_block (trees : List Node) (label : String) (levels : Nat) :
    (Step.block trees label levels).trace scope options =
      .concat ((trees.zipIdx).map fun (tree, index) =>
        (Role.statement.trace tree (options.deeper levels)).within
          (.statement scope label index)) := by
  have numbered (index : Nat) :
      (Step.blockEmission scope label (options.deeper levels) index
          (trees.map Node.asStatement)).trace =
        .concat ((trees.zipIdx index).map fun (tree, index) =>
          (Role.statement.trace tree (options.deeper levels)).within
            (.statement scope label index)) := by
    induction trees generalizing index with
    | nil => rfl
    | cons tree rest ih =>
      simp only [List.map_cons, Step.blockEmission, Emission.trace, ih, List.zipIdx_cons]
      rfl
  exact numbered 0

theorem Step.trace_indent :
    (Step.indent : Step Node).trace scope options =
      ⟨[⟨options.indentation 0, [.indent scope]⟩], .done⟩ := rfl

theorem Step.trace_innerIndent :
    (Step.innerIndent : Step Node).trace scope options =
      ⟨[⟨options.indentation 1, [.indent scope]⟩], .done⟩ := rfl

theorem Step.trace_text (content label : String) :
    (Step.text content label : Step Node).trace scope options =
      ⟨[⟨content, [.part scope label]⟩], .done⟩ := rfl

theorem Step.trace_token (symbol : Option Token) (label : String) :
    (Step.token symbol label : Step Node).trace scope options =
      (Step.tokenEmission symbol).trace.within (.token scope label) := rfl

-- The digit limit is a power that must not be computed to compare two emissions.
attribute [local irreducible] Text.numeral? in
theorem Step.trace_unknown (code : Int) :
    (Step.unknown code : Step Node).trace scope options =
      ⟨[], (Text.numeral? code).elim (.escaped .digitLimit)
        fun shown => .failed (.ofReason (.unknownStep scope shown))⟩ := by
  have emitted : (Step.unknown code : Step Node).trace scope options =
      (Step.unknownEmission scope code).trace := rfl
  delta Step.unknownEmission at emitted
  rw [emitted]
  cases Text.numeral? code <;> rfl

end StepTrace

theorem trace_perform (scope : String) (options : Options) (steps : List (Step Node)) :
    (perform scope options (steps.map (Step.map Node.asExpression Node.asStatement))).trace =
      (Plan.inScope scope steps).trace options := by
  simp only [perform, Plan.inScope, Plan.trace, Emission.trace_all, List.map_map]
  rfl

private theorem Node.map_unlessMissing {α β : Type} (node : Node) (part : α) (change : α → β) :
    (node.unlessMissing part).map change = node.unlessMissing (change part) := by
  unfold Node.unlessMissing
  split <;> rfl

private theorem Node.asClause_eq_steps (node : Node) :
    node.asClause =
      node.clauseSteps?.map (List.map (Step.map Node.asExpression Node.asStatement)) := by
  cases node <;>
    simp [Node.asClause, Node.clauseSteps?, Shape.forClause, Shape.ifClause]

private theorem Node.asClauses_eq_steps (clauses : List Node) :
    Node.asClauses clauses =
      (Node.clausesSteps clauses).map
        (List.map (Step.map Node.asExpression Node.asStatement)) := by
  induction clauses with
  | nil => rfl
  | cons clause rest ih =>
    simp only [Node.asClauses, Node.clausesSteps, Node.asClause_eq_steps, ih]
    cases clause.clauseSteps? with
    | none => rfl
    | some steps => cases Node.clausesSteps rest <;> simp [Except.map]

private theorem Literal.trace_eq_plan (literal : Literal) (options : Options) :
    (literal.emission options).trace = literal.plan.trace options := by
  unfold Literal.emission Literal.plan
  split
  · exact trace_perform _ _ [.text _ _]
  · cases literal.value.payload with
    | error error => rfl
    | ok payload => exact trace_perform _ _ [.text _ _]

private theorem Plan.trace_unary (op : Option Token) (x : Node) (options : Options) :
    (unaryEmission options op (x.unlessMissing x.asExpression)).trace =
      (Plan.unary op x).trace options := by
  have first : (perform (Kind.unary.scope ++ ",") options (Shape.operator op)).trace =
      (Plan.inScope (Kind.unary.scope ++ ",") (Shape.operator op)).trace options :=
    trace_perform _ _ (Shape.operator op)
  have second : (perform Kind.unary.scope options (Shape.operand op x.asExpression)).trace =
      (Plan.inScope Kind.unary.scope (Shape.operand op x)).trace options := by
    rw [← trace_perform, Shape.map_operand]
  unfold unaryEmission Plan.unary Node.unlessMissing
  by_cases missing : x.isMissing
  · by_cases star : op = some .star
    · subst star
      simpa [missing] using first
    · simp [missing, star, Emission.trace, Plan.trace]
  · simp [missing, Emission.trace, first, second, Plan.trace, Plan.inScope,
      Trace.concat_append]

private theorem Node.trace_eq_expressionPlan (node : Node) (options : Options) :
    (node.asExpression options).trace = (node.expressionPlan options).trace options := by
  cases node with
  | ident leaf => exact trace_perform _ _ (Shape.ident leaf)
  | literal leaf => exact leaf.trace_eq_plan options
  | unary op x => exact Plan.trace_unary op x options
  | comprehension body clauses curly =>
    simp only [Node.asExpression, Node.expressionPlan, Node.asClauses_eq_steps]
    cases Node.clausesSteps clauses with
    | error stray => rfl
    | ok steps =>
      simp only [Except.map]
      rw [← trace_perform]
      simp [Shape.comprehension]
  | dict elements =>
    simp only [Node.asExpression, Node.expressionPlan]
    cases Node.strayElement? elements with
    | some stray => rfl
    | none =>
      rw [← trace_perform]
      simp [Shape.dict]
  | slice x lo hi step =>
    simp only [Node.asExpression, Node.expressionPlan]
    rw [← trace_perform, Shape.map_slice]
    simp only [Node.map_unlessMissing]
  | paren x =>
    simp only [Node.asExpression, Node.expressionPlan]
    rw [← trace_perform]
    split <;> simp [Shape.paren]
  | binary | call | cond | dictEntry | dot | index | list | tuple =>
    simp only [Node.asExpression, Node.expressionPlan]
    rw [← trace_perform]
    simp [Shape.binary, Shape.call, Shape.cond, Shape.dictEntry, Shape.dot, Shape.index,
      Shape.list]
  | _ => rfl

private theorem Node.trace_eq_statementPlan (node : Node) (options : Options) :
    (node.asStatement options).trace = (node.statementPlan options).trace options := by
  cases node with
  | assign lhs op rhs =>
    simp only [Node.asStatement, Node.statementPlan]
    split
    · rw [← trace_perform]
      simp [Shape.assign]
    · rfl
  | branch token =>
    simp only [Node.asStatement, Node.statementPlan]
    split
    · rw [← trace_perform]
      simp [Shape.branch]
    · rfl
  | exprStmt x =>
    simp only [Node.asStatement, Node.statementPlan]
    cases x.docstring? with
    | some found =>
      simp only
      rw [← trace_perform, Shape.map_docstring]
      rfl
    | none =>
      simp only
      rw [← trace_perform]
      simp [Shape.exprStmt]
  | load path sources locals =>
    simp only [Node.asStatement, Node.statementPlan]
    split
    · rw [← trace_perform, Shape.map_load]
      rfl
    · rfl
  | returns result =>
    simp only [Node.asStatement, Node.statementPlan]
    rw [← trace_perform, Shape.map_returns, Node.map_unlessMissing]
  | define | forLoop | whileLoop | ifThen =>
    simp only [Node.asStatement, Node.statementPlan]
    rw [← trace_perform]
    simp [Shape.define, Shape.forLoop, Shape.whileLoop]
  | _ => rfl

theorem Role.trace_eq_plan (role : Role) (node : Node) (options : Options) :
    role.trace node options = (role.plan node options).trace options := by
  cases role with
  | expression => exact node.trace_eq_expressionPlan options
  | statement => exact node.trace_eq_statementPlan options

end StarlarkPrinter
