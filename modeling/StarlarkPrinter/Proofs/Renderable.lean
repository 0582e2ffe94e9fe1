import StarlarkPrinter.Proofs.Factorisation

namespace StarlarkPrinter

/-- Whether a token is present and has a spelling of its own. -/
def Token.isWritable (token : Option Token) : Bool :=
  token.any (!·.isDescriptive)

/-- Whether a value can be written as the payload of a literal. The raw text stands in
for a payload that is left out. -/
def Value.isWritable : Value → Bool
  | .absent | .text _ | .fixedInt _ => true
  | .int number => (Nat.toDigits 10 number.natAbs).length ≤ Text.digitLimit
  | _ => false

mutual

def Node.rendersAsExpression : Node → Bool
  | .ident _ => true
  | .literal leaf => leaf.value.isWritable
  | .binary x op y => x.rendersAsExpression && Token.isWritable op && y.rendersAsExpression
  | .unary op x =>
    (Token.isWritable op && x.rendersAsExpression) || (x.isMissing && op = some .star)
  | .call fn args => fn.rendersAsExpression && Node.renderAsExpressions args
  | .comprehension body clauses _ =>
    body.rendersAsExpression && Node.renderAsClauses clauses
  | .cond test onTrue onFalse =>
    test.rendersAsExpression && onTrue.rendersAsExpression && onFalse.rendersAsExpression
  | .dictEntry key value => key.rendersAsExpression && value.rendersAsExpression
  | .dict elements =>
    elements.all (·.kind = .dictEntry) && Node.renderAsExpressions elements
  | .dot x name => x.rendersAsExpression && name.rendersAsExpression
  | .index x y => x.rendersAsExpression && y.rendersAsExpression
  | .slice x lo hi step =>
    x.rendersAsExpression && (lo.isMissing || lo.rendersAsExpression) &&
      (hi.isMissing || hi.rendersAsExpression) && (step.isMissing || step.rendersAsExpression)
  | .list elements | .tuple elements => Node.renderAsExpressions elements
  | .paren x => x.rendersAsExpression
  | _ => false

def Node.renderAsExpressions : List Node → Bool
  | [] => true
  | node :: rest => node.rendersAsExpression && Node.renderAsExpressions rest

/-- Whether a node is a clause of a comprehension and its parts can be rendered. -/
def Node.rendersAsClause : Node → Bool
  | .forClause vars x => vars.rendersAsExpression && x.rendersAsExpression
  | .ifClause test => test.rendersAsExpression
  | _ => false

def Node.renderAsClauses : List Node → Bool
  | [] => true
  | node :: rest => node.rendersAsClause && Node.renderAsClauses rest

end

mutual

def Node.rendersAsStatement : Node → Bool
  | .assign lhs op rhs =>
    op.any (· ∈ Token.assignments) && lhs.rendersAsExpression && rhs.rendersAsExpression
  | .branch token => token.any (· ∈ Token.branches)
  | .define name params body =>
    name.rendersAsExpression && params.all Node.rendersAsExpression &&
      Node.renderAsStatements body
  | .exprStmt x => x.rendersAsExpression
  | .forLoop vars x body =>
    vars.rendersAsExpression && x.rendersAsExpression && Node.renderAsStatements body
  | .whileLoop test body => test.rendersAsExpression && Node.renderAsStatements body
  | .ifThen test onTrue onFalse =>
    test.rendersAsExpression && Node.renderAsStatements onTrue && Node.renderAsStatements onFalse
  | .load path sources locals =>
    sources.length = locals.length && sources.all Option.isSome && path.rendersAsExpression
  | .returns result => result.isMissing || result.rendersAsExpression
  | _ => false

def Node.renderAsStatements : List Node → Bool
  | [] => true
  | node :: rest => node.rendersAsStatement && Node.renderAsStatements rest

end

def Role.renders : Role → Node → Bool
  | .expression, node => node.rendersAsExpression
  | .statement, node => node.rendersAsStatement

namespace Node

theorem renderAsExpressions_iff (nodes : List Node) :
    renderAsExpressions nodes = true ↔ ∀ node ∈ nodes, node.rendersAsExpression = true := by
  induction nodes with
  | nil => simp [renderAsExpressions]
  | cons node rest ih => simp [renderAsExpressions, ih]

theorem renderAsClauses_iff (nodes : List Node) :
    renderAsClauses nodes = true ↔ ∀ node ∈ nodes, node.rendersAsClause = true := by
  induction nodes with
  | nil => simp [renderAsClauses]
  | cons node rest ih => simp [renderAsClauses, ih]

theorem renderAsStatements_iff (nodes : List Node) :
    renderAsStatements nodes = true ↔ ∀ node ∈ nodes, node.rendersAsStatement = true := by
  induction nodes with
  | nil => simp [renderAsStatements]
  | cons node rest ih => simp [renderAsStatements, ih]

end Node

namespace Step

/-- A step has something to write: its token has a spelling, and it is known. -/
def Spelled : Step Node → Prop
  | .token symbol _ => Token.isWritable symbol = true
  | .unknown _ => False
  | _ => True

@[simp]
theorem spelled_token (symbol : Option Token) (label : String) :
    (token symbol label).Spelled ↔ Token.isWritable symbol = true := Iff.rfl

@[simp]
theorem spelled_mark (symbol : Token) :
    (mark symbol).Spelled ↔ symbol.isDescriptive = false := by
  simp [mark, Token.isWritable]

@[simp]
theorem spelled_here (tree : Node) (label : String) : (here tree label).Spelled := trivial

@[simp]
theorem spelled_block (trees : List Node) (label : String) (levels : Nat) :
    (block trees label levels).Spelled := trivial

@[simp]
theorem spelled_text (content label : String) : (text content label).Spelled := trivial

@[simp]
theorem spelled_indent : indent.Spelled := trivial

@[simp]
theorem spelled_space : space.Spelled := trivial

@[simp]
theorem spelled_colon : colon.Spelled := rfl

@[simp]
theorem spelled_newline : newline.Spelled := rfl

@[simp]
theorem spelled_comma : comma.Spelled := rfl

end Step

namespace Shape

@[simp]
theorem spelled_padded (spaced : Bool) (step : Step Node) :
    (∀ other ∈ Step.padded spaced step, other.Spelled) ↔ step.Spelled :=
  forall_mem_padded trivial

theorem spelled_sequence (layout : Layout) (elements : List Node) :
    ∀ step ∈ sequence layout elements, step.Spelled := by
  have always : (∀ step ∈ sequence layout elements, step.Spelled) ↔ ∀ tree ∈ elements, True :=
    forall_mem_sequence Step.spelled_comma trivial rfl trivial trivial (fun _ _ _ => Iff.rfl)
      layout elements
  exact always.mpr fun _ _ => trivial

theorem spelled_onOneLine (label : String) (elements : List Node) :
    ∀ step ∈ onOneLine label elements, step.Spelled := by
  have always : (∀ step ∈ onOneLine label elements, step.Spelled) ↔ ∀ tree ∈ elements, True :=
    forall_mem_onOneLine Step.spelled_comma trivial (fun _ _ _ => Iff.rfl) label elements
  exact always.mpr fun _ _ => trivial

theorem spelled_docstring (literal : Literal) (content : String) :
    ∀ step ∈ docstring literal content, step.Spelled :=
  forall_mem_docstring Step.spelled_newline trivial (fun _ _ => trivial) literal content

theorem spelled_bindings (spaceEqBinary : Bool) (leaf : Option Ident → Node) (index : Nat)
    (pairs : List (Option Ident × Option Ident)) :
    ∀ step ∈ bindings spaceEqBinary leaf index pairs, step.Spelled := by
  have always : (∀ step ∈ bindings spaceEqBinary leaf index pairs, step.Spelled) ↔
      ∀ pair ∈ pairs, True ∧ ∀ name, writtenName? pair.1 pair.2 = some name → True :=
    forall_mem_bindings Step.spelled_comma (fun _ _ => trivial) rfl (fun _ _ _ => Iff.rfl)
      spaceEqBinary leaf index pairs
  exact always.mpr fun _ _ => ⟨trivial, fun _ _ => trivial⟩

-- Only the tokens that a tree brings along can lack a spelling.

@[simp]
theorem spelled_binary (spaceEqBinary : Bool) (x : Node) (op : Option Token) (y : Node) :
    (∀ step ∈ binary spaceEqBinary x op y, step.Spelled) ↔ Token.isWritable op = true := by
  simp only [binary, List.forall_mem_append, List.forall_mem_cons, spelled_padded]
  simp

@[simp]
theorem spelled_operand (op : Option Token) (x : Node) :
    ∀ step ∈ operand op x, step.Spelled := by
  unfold operand
  split <;> simp

@[simp]
theorem spelled_call (layout : Layout) (fn : Node) (args : List Node) :
    ∀ step ∈ call layout fn args, step.Spelled := by
  simp only [call, List.forall_mem_append, List.forall_mem_cons]
  exact ⟨⟨⟨trivial, rfl, by simp⟩, spelled_sequence layout args⟩, rfl, by simp⟩

@[simp]
theorem spelled_comprehension (curly : Bool) (body : Node) (clauses : List (Step Node)) :
    (∀ step ∈ comprehension curly body clauses, step.Spelled) ↔
      ∀ step ∈ clauses, step.Spelled := by
  simp only [comprehension, List.forall_mem_append, List.forall_mem_cons]
  cases curly <;> simp +decide

@[simp]
theorem spelled_dict (layout : Layout) (elements : List Node) :
    ∀ step ∈ dict layout elements, step.Spelled := by
  simp only [dict, List.forall_mem_append, List.forall_mem_cons]
  exact ⟨⟨⟨rfl, by simp⟩, spelled_sequence layout elements⟩, rfl, by simp⟩

@[simp]
theorem spelled_list (layout : Layout) (elements : List Node) :
    ∀ step ∈ list layout elements, step.Spelled := by
  simp only [list, List.forall_mem_append, List.forall_mem_cons]
  exact ⟨⟨⟨rfl, by simp⟩, spelled_sequence layout elements⟩, rfl, by simp⟩

@[simp]
theorem spelled_tuple (layout : Layout) (elements : List Node) :
    ∀ step ∈ tuple layout elements, step.Spelled := by
  unfold tuple
  split
  · simp +decide
  · exact spelled_sequence layout elements

@[simp]
theorem spelled_paren (x : Option Node) : ∀ step ∈ paren x, step.Spelled := by
  cases x <;> simp +decide [paren]

@[simp]
theorem spelled_slice (x : Node) (lo hi step : Option Node) :
    ∀ other ∈ slice x lo hi step, other.Spelled := by
  cases lo <;> cases hi <;> cases step <;> simp +decide [slice]

@[simp]
theorem spelled_define (name : Node) (params members : List Node) :
    ∀ step ∈ define name params members, step.Spelled := by
  simp only [define, List.forall_mem_append]
  exact ⟨⟨⟨by simp +decide, spelled_onOneLine _ params⟩,
    by simp +decide⟩, by simp [body]⟩

@[simp]
theorem spelled_ifThen (cond : Node) (onTrue onFalse : List Node) :
    ∀ step ∈ ifThen cond onTrue onFalse, step.Spelled := by
  cases onFalse <;> simp +decide [ifThen, body]

@[simp]
theorem spelled_load (spaceEqBinary : Bool) (leaf : Option Ident → Node) (path : Node)
    (sources locals : List (Option Ident)) :
    ∀ step ∈ load spaceEqBinary leaf path sources locals, step.Spelled := by
  simp only [load, List.forall_mem_append]
  exact ⟨⟨by simp +decide, spelled_bindings _ leaf 0 _⟩,
    by simp +decide⟩

@[simp]
theorem spelled_returns (result : Option Node) : ∀ step ∈ returns result, step.Spelled := by
  cases result <;> simp +decide [returns]

end Shape

/-- A plan goes ahead, and each of its steps has something to write. -/
def Plan.Spelled : Plan → Prop
  | .refuse _ => False
  | .act actions => ∀ action ∈ actions, action.step.Spelled

@[simp]
theorem Plan.spelled_inScope (scope : String) (steps : List (Step Node)) :
    (inScope scope steps).Spelled ↔ ∀ step ∈ steps, step.Spelled := by
  simp [inScope, Spelled]

/-- A plan whose steps have something to write and whose parts can be rendered. -/
def Plan.Renders (plan : Plan) : Prop :=
  plan.Spelled ∧ plan.Every fun role node => role.renders node = true

theorem Plan.renders_inScope (scope : String) (steps : List (Step Node)) :
    (inScope scope steps).Renders ↔
      (∀ step ∈ steps, step.Spelled) ∧
        ∀ step ∈ steps, step.Every fun role node => role.renders node = true := by
  simp [Renders]

/-- Where nothing lacks a spelling, only the parts count. -/
theorem Plan.renders_inScope_iff {steps : List (Step Node)}
    (spelled : ∀ step ∈ steps, step.Spelled) (scope : String) :
    (inScope scope steps).Renders ↔
      ∀ step ∈ steps, step.Every fun role node => role.renders node = true := by
  rw [renders_inScope]
  exact and_iff_right spelled

theorem Plan.not_renders_refuse (reason : Reason) : ¬ (refuse reason).Renders :=
  fun renders => renders.1

/-- A token from a list without descriptive tokens is writable. -/
theorem Token.isWritable_of_any {tokens : List Token} {token : Option Token}
    (spelled : ∀ symbol ∈ tokens, symbol.isDescriptive = false)
    (legal : token.any (· ∈ tokens) = true) : Token.isWritable token = true := by
  obtain ⟨symbol, rfl, member⟩ := (Option.any_eq_true _ _).mp legal
  have own : symbol.isDescriptive = false := spelled symbol (by simpa using member)
  simp [Token.isWritable, own]

theorem FixedInt.numeral_isSome (number : FixedInt) : (Text.numeral? number.value).isSome := by
  obtain ⟨type, value, bounds⟩ := number
  have small : value.natAbs < 10 ^ 20 := by
    cases type <;>
      simp [IntType.least, IntType.greatest, IntType.isSigned, IntType.bits] at bounds <;> omega
  have below : value.natAbs < Text.numeralBound := Text.lt_numeralBound small (by decide)
  simp [Text.numeral?, below]

theorem Value.numeral_isSome_iff (number : Int) :
    (Text.numeral? number).isSome ↔ (Value.int number).isWritable = true := by
  simp only [Value.isWritable, decide_eq_true_eq, Text.length_toDigits_le_digitLimit_iff,
    Text.numeral?]
  split <;> simp_all

theorem Value.isWritable_of_lt {number : Nat} (short : number < Text.numeralBound) :
    (Value.int number).isWritable = true := by
  have numeral : Text.numeral? number = some (Text.decimal number) :=
    (Text.numeral?_eq_some_iff _ _).mpr ⟨short, rfl⟩
  rw [← numeral_isSome_iff, numeral]
  rfl

theorem Value.payload_ok_iff (value : Value) (present : value ≠ .absent) :
    value.isWritable = true ↔ ∃ payload, value.payload = .ok payload := by
  cases value with
  | absent => exact absurd rfl present
  | text content => simp [isWritable, payload_text]
  | int number =>
    rw [← numeral_isSome_iff, payload_int]
    cases Text.numeral? number <;> simp
  | fixedInt number =>
    obtain ⟨numeral, found⟩ := Option.isSome_iff_exists.mp number.numeral_isSome
    simp [isWritable, payload_fixedInt, found]
  | _ =>
    constructor
    · intro writable
      cases writable
    · rintro ⟨payload, same⟩
      cases same

private theorem Literal.renders_iff_plan (literal : Literal) :
    literal.value.isWritable = true ↔ literal.plan.Renders := by
  unfold plan
  split
  · rename_i absent
    simp [absent, Value.isWritable, Plan.renders_inScope]
  · rename_i present
    rw [Value.payload_ok_iff literal.value present]
    cases literal.value.payload with
    | error error => simp [Plan.not_renders_refuse]
    | ok payload => simp [Plan.renders_inScope]

private theorem Plan.renders_unary (op : Option Token) (x : Node) :
    (unary op x).Renders ↔
      (Token.isWritable op = true ∧ x.rendersAsExpression = true) ∨
        (x = .missing ∧ op = some .star) := by
  unfold unary
  by_cases missing : x = .missing
  · subst missing
    by_cases star : op = some .star
    · subst star
      simp +decide [renders_inScope, Shape.operator]
    · simp [Node.isMissing, star, not_renders_refuse, Node.rendersAsExpression]
  · have spelled : (∀ step ∈ Shape.operator op, step.Spelled) ↔ Token.isWritable op = true := by
      simp [Shape.operator]
    have partless (holds : Role → Node → Prop) : ∀ step ∈ Shape.operator op, step.Every holds := by
      simp [Shape.operator]
    simp only [Node.isMissing_iff, missing, if_false, false_and, or_false, Renders, Spelled, Every,
      List.forall_mem_append, List.forall_mem_map, spelled, Shape.every_operand, Role.renders]
    constructor
    · intro both
      exact ⟨both.1.1, both.2.2⟩
    · intro both
      exact ⟨⟨both.1, Shape.spelled_operand op x⟩, partless _, both.2⟩

namespace Node

theorem isEmptyTuple_iff {node : Node} : node.isEmptyTuple = true ↔ node = .tuple [] := by
  unfold isEmptyTuple
  split <;> simp_all

/-- A node that has the steps of a clause renders as one if the parts of the steps do. -/
theorem rendersAsClause_iff (clause : Node) :
    clause.rendersAsClause = true ↔ clause.clauseSteps?.isSome ∧
      (∀ step ∈ clause.clauseSteps, step.Spelled) ∧
        ∀ step ∈ clause.clauseSteps, step.Every fun role node => role.renders node = true := by
  cases clause <;>
    simp +decide [rendersAsClause, clauseSteps, clauseSteps?, Shape.forClause, Shape.ifClause,
      Role.renders]

private theorem renders_iff_expressionPlan (node : Node) (options : Options) :
    node.rendersAsExpression = true ↔ (node.expressionPlan options).Renders := by
  cases node with
  | literal leaf => exact leaf.renders_iff_plan
  | unary op x =>
    rw [expressionPlan, Plan.renders_unary]
    simp [rendersAsExpression]
  | comprehension body clauses curly =>
    simp only [rendersAsExpression, expressionPlan, Bool.and_eq_true, renderAsClauses_iff,
      rendersAsClause_iff]
    split
    · rename_i stray found
      have stuck : ¬ ∀ clause ∈ clauses, clause.clauseSteps?.isSome := fun all => by
        rw [(clausesSteps_eq_ok_iff _ _).mpr ⟨all, rfl⟩] at found
        cases found
      constructor
      · intro renders
        exact absurd (fun clause member => (renders.2 clause member).1) stuck
      · intro renders
        exact absurd renders (Plan.not_renders_refuse _)
    · rename_i steps found
      obtain ⟨all, rfl⟩ := (clausesSteps_eq_ok_iff _ _).mp found
      rw [Plan.renders_inScope, Shape.spelled_comprehension, Shape.every_comprehension,
        List.forall_mem_flatMap, List.forall_mem_flatMap]
      constructor
      · rintro ⟨renders, each⟩
        exact ⟨fun clause member => (each clause member).2.1, renders,
          fun clause member => (each clause member).2.2⟩
      · rintro ⟨spelled, renders, parts⟩
        exact ⟨renders, fun clause member =>
          ⟨all clause member, spelled clause member, parts clause member⟩⟩
  | dict elements =>
    simp only [rendersAsExpression, expressionPlan, Bool.and_eq_true, renderAsExpressions_iff,
      List.all_eq_true, decide_eq_true_eq]
    split
    · rename_i stray found
      have other : stray.kind ≠ .dictEntry := by simpa using List.find?_some found
      constructor
      · intro renders
        exact absurd (renders.1 stray (List.mem_of_find?_eq_some found)) other
      · intro renders
        exact absurd renders (Plan.not_renders_refuse _)
    · rename_i entries
      rw [Plan.renders_inScope_iff (Shape.spelled_dict _ _), Shape.every_dict]
      simp only [strayElement?, List.find?_eq_none, decide_eq_true_eq, ne_eq,
        Decidable.not_not] at entries
      exact and_iff_right entries
  | slice x lo hi step =>
    simp only [expressionPlan, Plan.renders_inScope_iff (Shape.spelled_slice _ _ _ _),
      Shape.every_slice, mem_unlessMissing, rendersAsExpression, Role.renders, Bool.and_eq_true,
      Bool.or_eq_true, isMissing_iff]
    grind
  | paren x =>
    simp only [expressionPlan, Plan.renders_inScope_iff (Shape.spelled_paren _),
      Shape.every_paren, rendersAsExpression, Role.renders]
    split
    · rename_i empty
      rw [isEmptyTuple_iff.mp empty]
      simp [rendersAsExpression, renderAsExpressions]
    · simp
  | binary x op y =>
    simp [expressionPlan, Plan.renders_inScope, rendersAsExpression, Role.renders]
    grind
  | call fn args =>
    rw [expressionPlan, Plan.renders_inScope_iff (Shape.spelled_call _ _ _), Shape.every_call]
    simp [rendersAsExpression, renderAsExpressions_iff, Role.renders]
  | list elements =>
    rw [expressionPlan, Plan.renders_inScope_iff (Shape.spelled_list _ _), Shape.every_list]
    simp [rendersAsExpression, renderAsExpressions_iff, Role.renders]
  | tuple elements =>
    rw [expressionPlan, Plan.renders_inScope_iff (Shape.spelled_tuple _ _), Shape.every_tuple]
    simp [rendersAsExpression, renderAsExpressions_iff, Role.renders]
  | cond test onTrue onFalse =>
    simp +decide [expressionPlan, Plan.renders_inScope, Shape.cond, rendersAsExpression,
      Role.renders]
    grind
  | ident | dictEntry | dot | index =>
    simp +decide [expressionPlan, Plan.renders_inScope, Shape.ident, Shape.dictEntry, Shape.dot,
      Shape.index, rendersAsExpression, Role.renders]
  | _ => simp [rendersAsExpression, expressionPlan, Plan.not_renders_refuse]

private theorem rendersAsExpression_of_docstring? {node : Node} {found : Literal × String}
    (docstring : node.docstring? = some found) : node.rendersAsExpression = true := by
  cases node with
  | literal leaf =>
    simp only [docstring?] at docstring
    split at docstring
    · rename_i text isText
      simp [rendersAsExpression, isText, Value.isWritable]
    · cases docstring
  | _ => cases docstring

/-- Of the names of a load only a missing source can fail. -/
private theorem rendersAsExpression_ofIdent? (leaf : Option Ident) :
    (ofIdent? leaf).rendersAsExpression = leaf.isSome := by
  cases leaf <;> rfl

private theorem forall_mem_zip_fst {sources locals : List (Option Ident)}
    (even : sources.length = locals.length) (holds : Option Ident → Prop) :
    (∀ pair ∈ sources.zip locals, holds pair.1) ↔ ∀ source ∈ sources, holds source := by
  have firsts : (sources.zip locals).map Prod.fst = sources := List.map_fst_zip (by omega)
  rw [← firsts, List.forall_mem_map]
  simp only [firsts]

private theorem renders_iff_statementPlan (node : Node) (options : Options) :
    node.rendersAsStatement = true ↔ (node.statementPlan options).Renders := by
  cases node with
  | assign lhs op rhs =>
    simp only [rendersAsStatement, statementPlan]
    split
    · rename_i legal
      have writable : Token.isWritable op = true := Token.isWritable_of_any (by decide) legal
      simp [legal, writable, Plan.renders_inScope, Shape.assign, Role.renders]
    · rename_i illegal
      simp [illegal, Plan.not_renders_refuse]
  | branch token =>
    simp only [rendersAsStatement, statementPlan]
    split
    · rename_i legal
      have writable : Token.isWritable token = true := Token.isWritable_of_any (by decide) legal
      simp [legal, writable, Plan.renders_inScope, Shape.branch]
    · rename_i illegal
      simp [illegal, Plan.not_renders_refuse]
  | exprStmt x =>
    simp only [rendersAsStatement, statementPlan]
    split
    · rename_i leaf text found
      rw [Plan.renders_inScope_iff (Shape.spelled_docstring _ _)]
      exact iff_of_true (rendersAsExpression_of_docstring? found) (Shape.every_docstring _ _ _)
    · simp [Plan.renders_inScope, Shape.exprStmt, Role.renders]
  | load path sources locals =>
    simp only [rendersAsStatement, statementPlan]
    split
    · rename_i even
      rw [Plan.renders_inScope_iff (Shape.spelled_load _ _ _ _ _), Shape.every_load]
      simp only [Role.renders, rendersAsExpression_ofIdent?, Option.isSome_some, implies_true,
        and_true]
      rw [forall_mem_zip_fst even (·.isSome = true)]
      simp [even, and_comm]
    · rename_i uneven
      simp [uneven, Plan.not_renders_refuse]
  | returns result =>
    simp only [rendersAsStatement, statementPlan,
      Plan.renders_inScope_iff (Shape.spelled_returns _), Shape.every_returns, mem_unlessMissing,
      Role.renders, Bool.or_eq_true, isMissing_iff]
    grind
  | define name params body =>
    rw [statementPlan, Plan.renders_inScope_iff (Shape.spelled_define _ _ _), Shape.every_define]
    simp [rendersAsStatement, renderAsStatements_iff, Role.renders, and_assoc]
  | ifThen test onTrue onFalse =>
    rw [statementPlan, Plan.renders_inScope_iff (Shape.spelled_ifThen _ _ _), Shape.every_ifThen]
    simp [rendersAsStatement, renderAsStatements_iff, Role.renders, and_assoc]
  | forLoop | whileLoop =>
    simp +decide [statementPlan, Plan.renders_inScope, Shape.forLoop, Shape.whileLoop, Shape.body,
      rendersAsStatement, renderAsStatements_iff, Role.renders, and_assoc]
  | _ => simp [rendersAsStatement, statementPlan, Plan.not_renders_refuse]

end Node

/-- A node renders exactly if its plan goes ahead and its parts render. -/
theorem Role.renders_iff_plan (role : Role) (node : Node) (options : Options) :
    role.renders node = true ↔ (role.plan node options).Renders := by
  cases role with
  | expression => exact node.renders_iff_expressionPlan options
  | statement => exact node.renders_iff_statementPlan options

/-- The trace of a node ends well under all options exactly if the node renders. -/
def Role.Decides (role : Role) (node : Node) : Prop :=
  ∀ options, (role.trace node options).ending = .done ↔ role.renders node = true

private theorem Step.tokenEmission_ending_iff (symbol : Option Token) :
    (tokenEmission symbol).trace.ending = .done ↔ Token.isWritable symbol = true := by
  have spelled : Token.isWritable symbol = (symbol.bind Token.spelling?).isSome := by
    cases symbol with
    | none => rfl
    | some symbol => cases symbol <;> rfl
  rw [spelled]
  unfold tokenEmission
  cases symbol.bind Token.spelling? <;> simp [Emission.trace]

/-- A step ends well exactly if it has something to write and its parts render. -/
theorem Step.ending_iff (scope : String) (options : Options) (step : Step Node)
    (parts : step.Every Role.Decides) :
    (step.trace scope options).ending = .done ↔
      step.Spelled ∧ step.Every fun role node => role.renders node = true := by
  cases step with
  | part tree label levels =>
    rw [trace_part, Trace.within_ending_iff, parts]
    exact (and_iff_right trivial).symm
  | block trees label levels =>
    simp only [trace_block, Trace.concat_ending_iff, List.forall_mem_map,
      Trace.within_ending_iff]
    have each : ∀ tree ∈ trees,
        ((Role.statement.trace tree (options.deeper levels)).ending = .done ↔
          Role.statement.renders tree = true) := fun tree member => parts tree member _
    constructor
    · intro done
      refine ⟨trivial, fun tree member => ?_⟩
      obtain ⟨index, inside, rfl⟩ := List.mem_iff_getElem.mp member
      exact (each _ member).mp (done (trees[index], index) (by simp [List.mem_zipIdx_iff_getElem?]))
    · rintro ⟨_, renders⟩ ⟨tree, index⟩ numbered
      have member := List.fst_mem_of_mem_zipIdx numbered
      exact (each tree member).mpr (renders tree member)
  | token symbol label =>
    rw [trace_token, Trace.within_ending_iff, tokenEmission_ending_iff]
    exact (and_iff_left trivial).symm
  | unknown code => exact parts.elim
  | _ => exact iff_of_true rfl ⟨trivial, trivial⟩

theorem Plan.ending_iff (plan : Plan) (options : Options) (parts : plan.Every Role.Decides) :
    (plan.trace options).ending = .done ↔ plan.Renders := by
  cases plan with
  | refuse reason => simp [trace, not_renders_refuse]
  | act actions =>
    simp only [trace, Trace.concat_ending_iff, List.forall_mem_map, Renders, Spelled, Every,
      Action.trace]
    constructor
    · intro done
      have both := fun (action : Action) (member : action ∈ actions) =>
        (action.step.ending_iff action.scope options (parts action member)).mp (done action member)
      exact ⟨fun action member => (both action member).1,
        fun action member => (both action member).2⟩
    · rintro ⟨spelled, renders⟩ action member
      exact (action.step.ending_iff action.scope options (parts action member)).mpr
        ⟨spelled action member, renders action member⟩

theorem Role.ending_iff (role : Role) (node : Node) (options : Options) :
    (role.trace node options).ending = .done ↔ role.renders node = true := by
  suffices decides : role.Decides node from decides options
  induction role, node using Role.induction_on_parts with
  | inherit role node parts =>
    intro options
    rw [role.trace_eq_plan, Plan.ending_iff _ _ (parts options)]
    exact (role.renders_iff_plan node options).symm

end StarlarkPrinter
