import StarlarkPrinter.Proofs.Chars
import StarlarkPrinter.Proofs.Grammar

namespace StarlarkPrinter

/-- The parameters of a definition: a name, a name and its default, a name behind stars,
or a star alone. -/
inductive FormedParam : Node → Prop where
  | ident {leaf : Ident} (name : Text.isName leaf.name.toList = true) :
      FormedParam (.ident leaf)
  | default {leaf : Ident} {value : Node} (name : Text.isName leaf.name.toList = true)
      (right : Formed .expression value) :
      FormedParam (.binary (.ident leaf) (some .eq) value)
  | others {op : Token} {leaf : Ident} (sign : op = .star ∨ op = .starStar)
      (name : Text.isName leaf.name.toList = true) :
      FormedParam (.unary (some op) (.ident leaf))
  | star : FormedParam (.unary (some .star) .missing)

/-- The statements of the grammar. What is printed as a docstring is left out. -/
inductive FormedStatement : Node → Prop where
  | assign {lhs rhs : Node} {op : Token} (left : Formed .primary lhs)
      (sign : op ∈ Token.assignments) (right : Formed .expression rhs) :
      FormedStatement (.assign lhs (some op) rhs)
  | branch {token : Token} (word : token ∈ Token.branches) :
      FormedStatement (.branch (some token))
  | returns {result : Node} (given : result ≠ .missing → Formed .expression result) :
      FormedStatement (.returns result)
  | exprStmt {x : Node} (alone : Formed .expression x) (plain : x.docstring? = none) :
      FormedStatement (.exprStmt x)
  | define {leaf : Ident} {params body : List Node} (name : Text.isName leaf.name.toList = true)
      (each : ∀ param ∈ params, FormedParam param) (present : body ≠ [])
      (inner : ∀ member ∈ body, FormedStatement member) :
      FormedStatement (.define (.ident leaf) params body)
  | forLoop {vars x : Node} {body : List Node} (left : Formed .primary vars)
      (right : Formed .expression x) (present : body ≠ [])
      (inner : ∀ member ∈ body, FormedStatement member) :
      FormedStatement (.forLoop vars x body)
  | whileLoop {test : Node} {body : List Node} (head : Formed .expression test)
      (present : body ≠ []) (inner : ∀ member ∈ body, FormedStatement member) :
      FormedStatement (.whileLoop test body)
  | ifThen {test : Node} {onTrue onFalse : List Node} (head : Formed .expression test)
      (present : onTrue ≠ []) (inner : ∀ member ∈ onTrue, FormedStatement member)
      (other : ∀ member ∈ onFalse, FormedStatement member) :
      FormedStatement (.ifThen test onTrue onFalse)

/-- A parameter is an argument, unless it is a star alone. -/
theorem FormedParam.argument {param : Node} (formed : FormedParam param) :
    Formed .argument param ∨ param = .unary (some .star) .missing := by
  cases formed with
  | ident name => exact .inl (.expression (.primary (.ident name)))
  | default name right => exact .inl (.keyword name right)
  | others sign name => exact .inl (.star sign (.ident name))
  | star => exact .inr rfl

theorem FormedParam.renders {param : Node} (formed : FormedParam param) :
    param.rendersAsExpression = true := by
  rcases formed.argument with argument | rfl
  · exact argument.renders
  · rfl

/-- Whatever the grammar of statements allows can be printed. -/
theorem FormedStatement.renders {node : Node} (formed : FormedStatement node) :
    node.rendersAsStatement = true := by
  have expression {x : Node} (formed : Formed .expression x) : x.rendersAsExpression = true :=
    formed.renders
  have primary {x : Node} (formed : Formed .primary x) : x.rendersAsExpression = true :=
    formed.renders
  induction formed with
  | assign left sign right =>
    simp [Node.rendersAsStatement, sign, primary left, expression right]
  | branch word => simp [Node.rendersAsStatement, word]
  | @returns result given =>
    by_cases missing : result = .missing
    · simp [Node.rendersAsStatement, missing]
    · simp [Node.rendersAsStatement, expression (given missing)]
  | exprStmt alone plain => exact expression alone
  | define name each present inner ih =>
    have params := fun param member => (each param member).renders
    simpa [Node.rendersAsStatement, Node.renderAsStatements_iff, Node.rendersAsExpression]
      using ⟨params, ih⟩
  | forLoop left right present inner ih =>
    simpa [Node.rendersAsStatement, Node.renderAsStatements_iff, primary left, expression right]
      using ih
  | whileLoop head present inner ih =>
    simpa [Node.rendersAsStatement, Node.renderAsStatements_iff, expression head] using ih
  | ifThen head present inner other ih otherIh =>
    simpa [Node.rendersAsStatement, Node.renderAsStatements_iff, expression head]
      using ⟨ih, otherIh⟩

namespace Node

@[simp]
theorem bare_returns (result : Node) : (returns result).bare = .returns result.bare := rfl

@[simp]
theorem bare_define (leaf : Ident) (params body : List Node) :
    (define (ident leaf) params body).bare =
      .define (.ident leaf.bare) (params.map bare) (body.map bare) := by
  rw [← bareAll_eq_map, ← bareAll_eq_map]
  rfl

@[simp]
theorem bare_forLoop (vars x : Node) (body : List Node) :
    (forLoop vars x body).bare = .forLoop vars.bare x.bare (body.map bare) :=
  congrArg (forLoop vars.bare x.bare) (bareAll_eq_map body)

@[simp]
theorem bare_whileLoop (test : Node) (body : List Node) :
    (whileLoop test body).bare = .whileLoop test.bare (body.map bare) :=
  congrArg (whileLoop test.bare) (bareAll_eq_map body)

@[simp]
theorem bare_ifThen (test : Node) (onTrue onFalse : List Node) :
    (ifThen test onTrue onFalse).bare =
      .ifThen test.bare (onTrue.map bare) (onFalse.map bare) := by
  rw [← bareAll_eq_map, ← bareAll_eq_map]
  rfl

end Node

namespace Node

/-- The characters of statements one after the other. -/
def blockChars (options : Options) (members : List Node) : List Char :=
  members.flatMap fun member => Role.statement.chars member options

variable (options : Options)

/-- The characters of the end of a head and the block under it. -/
def bodyChars (members : List Node) : List Char :=
  ":\n".toList ++ blockChars (options.deeper 1) members

/-- The characters of a statement after its margin. -/
def lineChars : Node → List Char
  | .assign lhs op rhs =>
    lhs.chars options ++ [' '] ++ Token.chars op ++ [' '] ++ rhs.chars options ++ ['\n']
  | .branch token => Token.chars token ++ ['\n']
  | .define name params body =>
    Token.chars (some .kwDef) ++ [' '] ++ name.chars options ++ ['('] ++
      Text.separated [' '] (params.map (·.chars options)) ++ [')'] ++ bodyChars options body
  | .exprStmt x => x.chars options ++ ['\n']
  | .forLoop vars x body =>
    Token.chars (some .kwFor) ++ [' '] ++ vars.chars options ++ " in ".toList ++
      x.chars options ++ bodyChars options body
  | .whileLoop test body =>
    Token.chars (some .kwWhile) ++ [' '] ++ test.chars options ++ bodyChars options body
  | .ifThen test onTrue onFalse =>
    Token.chars (some .kwIf) ++ [' '] ++ test.chars options ++ bodyChars options onTrue ++
      if onFalse.isEmpty then []
      else (options.indentation 0).toList ++ "else".toList ++ bodyChars options onFalse
  | .returns result =>
    Token.chars (some .kwReturn) ++
      (if result.isMissing then [] else ' ' :: result.chars options) ++ ['\n']
  | _ => []

private theorem chars_body (label : String) (members : List Node) :
    (Shape.body label members).flatMap (Step.chars options) = bodyChars options members := by
  have block : (Step.block members label 1).chars options =
      blockChars (options.deeper 1) members := rfl
  simp [Shape.body, block, bodyChars]

private theorem chars_onOneLine (label : String) (elements : List Node) :
    (Shape.onOneLine label elements).flatMap (Step.chars options) =
      Text.separated [' '] (elements.map (·.chars options)) :=
  Shape.chars_numbered options (by simp) (Step.chars_here options) label elements

end Node

/-- The text of a statement is its margin and its line, with the block under it. -/
theorem FormedStatement.chars {node : Node} (formed : FormedStatement node) (options : Options) :
    Role.statement.chars node options =
      (options.indentation 0).toList ++ node.lineChars options := by
  have renders : Role.statement.renders node = true := formed.renders
  rw [Role.chars_eq_plan renders]
  cases formed with
  | assign left sign right =>
    simp [Role.plan, Node.statementPlan, sign, Shape.assign, Node.lineChars]
  | branch word => simp [Role.plan, Node.statementPlan, word, Shape.branch, Node.lineChars]
  | @returns result given =>
    cases missing : result.isMissing <;>
      simp [Role.plan, Node.statementPlan, Shape.returns, Node.unlessMissing, missing,
        Node.lineChars]
  | exprStmt alone plain =>
    simp [Role.plan, Node.statementPlan, plain, Shape.exprStmt, Node.lineChars]
  | define name each present inner =>
    simp [Role.plan, Node.statementPlan, Shape.define, Node.lineChars, Node.chars_body,
      Node.chars_onOneLine, Token.chars_marks]
  | forLoop left right present inner =>
    simp [Role.plan, Node.statementPlan, Shape.forLoop, Node.lineChars, Node.chars_body,
      Token.chars_marks]
  | whileLoop head present inner =>
    simp [Role.plan, Node.statementPlan, Shape.whileLoop, Node.lineChars, Node.chars_body]
  | @ifThen test onTrue onFalse head present inner other =>
    cases onFalse <;>
      simp [Role.plan, Node.statementPlan, Shape.ifThen, Node.lineChars, Node.chars_body,
        Token.chars_marks]

end StarlarkPrinter
