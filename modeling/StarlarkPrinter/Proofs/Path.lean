import StarlarkPrinter.Proofs.Renderable

/-! Paths into trees. A hop leads from a node to one of the parts that it prints: it
names the kind of the node, the field and, where the field is a list, the index in it.
The parts of a node, each with its hop, are the parts of its plan in the order in which
they are printed, and the hop says which crumb the plan puts in front of the part. -/

namespace StarlarkPrinter

/-- The fields that hold parts. A part of a clause is named by the clause as well. -/
inductive Field where
  | x | y | fn | args | body | forVars | forX | ifCond | cond | onTrue | onFalse | key | value
  | elements | name | lo | hi | step | lhs | rhs | params | vars | path | sources | locals
  | result
deriving DecidableEq, Repr

namespace Field

/-- The name of a field in the account of a failure. -/
def label : Field → String
  | .x => "X"
  | .y => "Y"
  | .fn => "Fn"
  | .args | .elements => "element"
  | .body => "Body"
  | .forVars => "for clause Vars"
  | .forX => "for clause X"
  | .ifCond => "if clause Cond"
  | .cond => "Cond"
  | .onTrue => "True"
  | .onFalse => "False"
  | .key => "Key"
  | .value => "Value"
  | .name => "Name"
  | .lo => "Lo"
  | .hi => "Hi"
  | .step => "Step"
  | .lhs => "LHS"
  | .rhs => "RHS"
  | .params => "param"
  | .vars => "Vars"
  | .path => "Module"
  | .sources => "From"
  | .locals => "To"
  | .result => "Result"

/-- Whether a field belongs to a clause of a comprehension. -/
def inClause : Field → Bool
  | .forVars | .forX | .ifCond => true
  | _ => false

end Field

/-- The fields of each kind of node, and whether they are lists. -/
def Kind.slots : List (Kind × Field × Bool) :=
  [(.binary, .x, false), (.binary, .y, false), (.unary, .x, false), (.call, .fn, false),
   (.call, .args, true), (.comprehension, .body, false), (.comprehension, .forVars, true),
   (.comprehension, .forX, true), (.comprehension, .ifCond, true), (.cond, .cond, false),
   (.cond, .onTrue, false), (.cond, .onFalse, false), (.dictEntry, .key, false),
   (.dictEntry, .value, false), (.dict, .elements, true), (.dot, .x, false),
   (.dot, .name, false), (.index, .x, false), (.index, .y, false), (.slice, .x, false),
   (.slice, .lo, false), (.slice, .hi, false), (.slice, .step, false), (.list, .elements, true),
   (.tuple, .elements, true), (.paren, .x, false), (.assign, .lhs, false),
   (.assign, .rhs, false), (.define, .name, false), (.define, .params, true),
   (.define, .body, true), (.exprStmt, .x, false), (.forLoop, .vars, false),
   (.forLoop, .x, false), (.forLoop, .body, true), (.whileLoop, .cond, false),
   (.whileLoop, .body, true), (.ifThen, .cond, false), (.ifThen, .onTrue, true),
   (.ifThen, .onFalse, true), (.load, .path, false), (.load, .sources, true),
   (.load, .locals, true), (.returns, .result, false)]

/-- What is being done while a node of a kind prints its parts. -/
def Kind.partScope (kind : Kind) : String :=
  if kind = .assign then "rendering assignment statement" else kind.scope

/-- One step into a tree: a field of a kind of node, with the index of the part if the
field is a list. The parts of clauses have the index of their clause. -/
structure Hop where
  kind : Kind
  field : Field
  index : Option Nat := none
  known : Kind.slots.contains (kind, field, index.isSome) = true := by decide
deriving DecidableEq

namespace Hop

/-- The crumb of a field: members of a block are statements, members of other lists
show their index in their own way, and the index of a clause is not shown. -/
def crumbOf (kind : Kind) (field : Field) (index : Option Nat) : Crumb :=
  match field, index with
  | .args, some index | .elements, some index | .params, some index =>
    .part kind.partScope (field.label ++ " " ++ Text.decimal index)
  | .sources, some index | .locals, some index =>
    .part kind.partScope (field.label ++ "[" ++ Text.decimal index ++ "]")
  | .body, some index | .onTrue, some index | .onFalse, some index =>
    .statement kind.partScope field.label index
  | _, _ => .part kind.partScope field.label

def crumb (hop : Hop) : Crumb :=
  crumbOf hop.kind hop.field hop.index

end Hop

/-- A part of a node and the hop to it. -/
structure Part where
  hop : Hop
  tree : Node

namespace Part

def single (kind : Kind) (field : Field) (tree : Node)
    (known : Kind.slots.contains (kind, field, false) = true := by decide) : Part :=
  ⟨⟨kind, field, none, known⟩, tree⟩

/-- The part of a list, or of a clause, at an index. -/
def member (kind : Kind) (field : Field) (index : Nat) (tree : Node)
    (known : Kind.slots.contains (kind, field, true) = true := by decide) : Part :=
  ⟨⟨kind, field, some index, known⟩, tree⟩

/-- The parts of a list, numbered from `index`. -/
def members (kind : Kind) (field : Field) (index : Nat) (trees : List Node)
    (known : Kind.slots.contains (kind, field, true) = true := by decide) : List Part :=
  (trees.zipIdx index).map fun (tree, index) => member kind field index tree known

def ofClause (index : Nat) : Node → List Part
  | .forClause vars x =>
    [member .comprehension .forVars index vars, member .comprehension .forX index x]
  | .ifClause test => [member .comprehension .ifCond index test]
  | _ => []

/-- The parts of one name of a load: the bound name, where it is written, and the
source. -/
def ofBinding (index : Nat) (source bound : Option Ident) : List Part :=
  ((Shape.writtenName? source bound).map fun name =>
    member .load .locals index (.ident name)).toList ++
    [member .load .sources index (Node.ofIdent? source)]

end Part

namespace Node

/-- The parts that a node prints, in this order. A part that is left out, a docstring
and the empty tuple in brackets are not printed as parts. -/
def parts : Node → List Part
  | .binary x _ y => [.single .binary .x x, .single .binary .y y]
  | .unary _ x => (x.unlessMissing (.single .unary .x x)).toList
  | .call fn args => .single .call .fn fn :: Part.members .call .args 0 args
  | .comprehension body clauses _ =>
    .single .comprehension .body body ::
      clauses.zipIdx.flatMap fun (clause, number) => Part.ofClause number clause
  | .cond test onTrue onFalse =>
    [.single .cond .onTrue onTrue, .single .cond .cond test, .single .cond .onFalse onFalse]
  | .dictEntry key value => [.single .dictEntry .key key, .single .dictEntry .value value]
  | .dict elements => Part.members .dict .elements 0 elements
  | .dot x name => [.single .dot .x x, .single .dot .name name]
  | .index x y => [.single .index .x x, .single .index .y y]
  | .slice x lo hi step =>
    .single .slice .x x :: (lo.unlessMissing (.single .slice .lo lo)).toList ++
      (hi.unlessMissing (.single .slice .hi hi)).toList ++
      (step.unlessMissing (.single .slice .step step)).toList
  | .list elements => Part.members .list .elements 0 elements
  | .tuple elements => Part.members .tuple .elements 0 elements
  | .paren x => if x.isEmptyTuple then [] else [.single .paren .x x]
  | .assign lhs _ rhs => [.single .assign .lhs lhs, .single .assign .rhs rhs]
  | .define name params body =>
    .single .define .name name :: Part.members .define .params 0 params ++
      Part.members .define .body 0 body
  | .exprStmt x => if x.docstring?.isSome then [] else [.single .exprStmt .x x]
  | .forLoop vars x body =>
    .single .forLoop .vars vars :: .single .forLoop .x x :: Part.members .forLoop .body 0 body
  | .whileLoop test body => .single .whileLoop .cond test :: Part.members .whileLoop .body 0 body
  | .ifThen test onTrue onFalse =>
    .single .ifThen .cond test :: Part.members .ifThen .onTrue 0 onTrue ++
      Part.members .ifThen .onFalse 0 onFalse
  | .load path sources locals =>
    .single .load .path path ::
      (sources.zip locals).zipIdx.flatMap fun ((source, bound), number) =>
        Part.ofBinding number source bound
  | .returns result => (result.unlessMissing (.single .returns .result result)).toList
  | _ => []

end Node

def Part.placed (part : Part) : Crumb × Node :=
  (part.hop.crumb, part.tree)

@[simp]
theorem Part.placed_single (kind : Kind) (field : Field) (tree : Node)
    (known : Kind.slots.contains (kind, field, false) = true) :
    (single kind field tree known).placed = (Hop.crumbOf kind field none, tree) := rfl

@[simp]
theorem Part.placed_members (kind : Kind) (field : Field) (index : Nat) (trees : List Node)
    (known : Kind.slots.contains (kind, field, true) = true) :
    (members kind field index trees known).map placed =
      (trees.zipIdx index).map fun (tree, index) =>
        (Hop.crumbOf kind field (some index), tree) := by
  simp only [members, List.map_map]
  rfl

/-- The steps of a plan, whatever their scopes. -/
def Plan.steps : Plan → List (Step Node)
  | .refuse _ => []
  | .act actions => actions.map (·.step)

@[simp]
theorem Plan.steps_inScope (scope : String) (steps : List (Step Node)) :
    (inScope scope steps).steps = steps := by
  simp [inScope, Plan.steps, Function.comp_def]

/-- The parts of a step, each with the crumb that the step puts in front of it. -/
def Step.parts (scope : String) : Step Node → List (Crumb × Node)
  | .part tree label _ => [(.part scope label, tree)]
  | .block trees label _ =>
    trees.zipIdx.map fun (tree, index) => (.statement scope label index, tree)
  | _ => []

def Plan.parts : Plan → List (Crumb × Node)
  | .refuse _ => []
  | .act actions => actions.flatMap fun action => action.step.parts action.scope

@[simp]
theorem Plan.parts_inScope (scope : String) (steps : List (Step Node)) :
    (inScope scope steps).parts = steps.flatMap (Step.parts scope) := by
  simp [inScope, parts, List.flatMap_map]

namespace Step

variable (scope : String)

@[simp]
theorem parts_here (tree : Node) (label : String) :
    (here tree label).parts scope = [(.part scope label, tree)] := rfl

@[simp]
theorem parts_inside (tree : Node) (label : String) :
    (inside tree label).parts scope = [(.part scope label, tree)] := rfl

@[simp]
theorem parts_block (trees : List Node) (label : String) (levels : Nat) :
    (block trees label levels).parts scope =
      trees.zipIdx.map fun (tree, index) => (.statement scope label index, tree) := rfl

@[simp]
theorem parts_mark (symbol : Token) : (mark symbol).parts scope = [] := rfl

@[simp]
theorem parts_token (symbol : Option Token) (label : String) :
    (token symbol label).parts scope = [] := rfl

@[simp]
theorem parts_text (content label : String) : (text content label).parts scope = [] := rfl

@[simp]
theorem parts_indent : indent.parts scope = [] := rfl

@[simp]
theorem parts_innerIndent : innerIndent.parts scope = [] := rfl

@[simp]
theorem parts_space : space.parts scope = [] := rfl

@[simp]
theorem parts_colon : colon.parts scope = [] := rfl

@[simp]
theorem parts_newline : newline.parts scope = [] := rfl

end Step

namespace Shape

variable (scope : String)

@[simp]
theorem parts_padded (spaced : Bool) (step : Step Node) :
    (Step.padded spaced step).flatMap (Step.parts scope) = step.parts scope := by
  cases spaced <;> simp [Step.padded]

theorem parts_numbered {separator : List (Step Node)}
    (bare : separator.flatMap (Step.parts scope) = []) {step : Node → String → Step Node}
    (part : ∀ tree label, (step tree label).parts scope = [(.part scope label, tree)])
    (label : String) (index : Nat) (trees : List Node) :
    (numbered separator step label index trees).flatMap (Step.parts scope) =
      (trees.zipIdx index).map fun (tree, index) =>
        (.part scope (label ++ " " ++ Text.decimal index), tree) := by
  induction trees generalizing index with
  | nil => rfl
  | cons tree rest ih =>
    have front : (if index = 0 then [] else separator).flatMap (Step.parts scope) = [] := by
      split
      · rfl
      · exact bare
    simp [numbered, front, part, ih]

@[simp]
theorem parts_onOneLine (label : String) (trees : List Node) :
    (onOneLine label trees).flatMap (Step.parts scope) =
      trees.zipIdx.map fun (tree, index) =>
        (.part scope (label ++ " " ++ Text.decimal index), tree) :=
  parts_numbered scope rfl (Step.parts_here scope) label 0 trees

/-- The parts of a sequence are its elements, under every layout. -/
@[simp]
theorem parts_sequence (layout : Layout) (trees : List Node) :
    (sequence layout trees).flatMap (Step.parts scope) =
      trees.zipIdx.map fun (tree, index) =>
        (.part scope ("element" ++ " " ++ Text.decimal index), tree) := by
  have ending (present : Bool) :
      (if present then [.comma] else [] : List (Step Node)).flatMap (Step.parts scope) = [] := by
    cases present <;> rfl
  have lines : (numbered [.comma, .newline, .innerIndent] .inside "element" 0
        trees).flatMap (Step.parts scope) =
      trees.zipIdx.map fun (tree, index) =>
        (.part scope ("element" ++ " " ++ Text.decimal index), tree) :=
    parts_numbered scope rfl (Step.parts_inside scope) "element" 0 trees
  simp only [sequence]
  split
  · simp [onLines, lines, ending]
  · simp [ending]

theorem parts_furtherLines (width index : Nat) (lines : List (List Char)) :
    (furtherLines width index lines).flatMap (Step.parts scope) = [] := by
  induction lines generalizing index with
  | nil => rfl
  | cons line rest ih =>
    simp only [furtherLines, List.flatMap_append, ih]
    split <;> rfl

@[simp]
theorem parts_docstring (literal : Literal) (content : String) :
    (docstring literal content).flatMap (Step.parts scope) = [] := by
  simp [docstring, parts_furtherLines]

theorem parts_binding (spaceEqBinary : Bool) (index : Nat) (source bound : Option Ident) :
    (binding spaceEqBinary Node.ofIdent? index source bound).flatMap
        (Step.parts Kind.load.scope) =
      (Part.ofBinding index source bound).map Part.placed := by
  simp only [binding, Part.ofBinding]
  cases writtenName? source bound with
  | none => rfl
  | some name => cases spaceEqBinary <;> rfl

theorem parts_bindings (spaceEqBinary : Bool) (index : Nat)
    (pairs : List (Option Ident × Option Ident)) :
    (bindings spaceEqBinary Node.ofIdent? index pairs).flatMap (Step.parts Kind.load.scope) =
      ((pairs.zipIdx index).flatMap fun ((source, bound), index) =>
        Part.ofBinding index source bound).map Part.placed := by
  induction pairs generalizing index with
  | nil => rfl
  | cons pair rest ih =>
    obtain ⟨source, bound⟩ := pair
    simp only [bindings, List.flatMap_append, List.zipIdx_cons, List.flatMap_cons,
      List.map_append, parts_binding, ih]

end Shape

namespace Node

/-- The parts of clauses, numbered from any index, which leaves no trace. -/
theorem parts_clauses (clauses : List Node) (number : Nat) :
    (clauses.flatMap clauseSteps).flatMap (Step.parts Kind.comprehension.scope) =
      ((clauses.zipIdx number).flatMap fun (clause, number) =>
        Part.ofClause number clause).map Part.placed := by
  induction clauses generalizing number with
  | nil => rfl
  | cons clause rest ih =>
    have own : clause.clauseSteps.flatMap (Step.parts Kind.comprehension.scope) =
        (Part.ofClause number clause).map Part.placed := by
      cases clause <;> rfl
    simp only [List.flatMap_cons, List.flatMap_append, List.zipIdx_cons, List.map_append, own,
      ih (number + 1)]

private theorem expressionPlan_parts {node : Node} (renders : node.rendersAsExpression = true)
    (options : Options) :
    (node.expressionPlan options).parts = node.parts.map Part.placed := by
  cases node with
  | literal leaf =>
    simp only [expressionPlan, Literal.plan]
    split
    · rfl
    · split <;> rfl
  | unary op x =>
    simp only [expressionPlan, Plan.unary, parts, unlessMissing]
    by_cases missing : x.isMissing = true
    · by_cases star : op = some .star
      · simp [missing, star, Shape.operator]
      · simp [missing, star, Plan.parts]
    · simp only [missing, Bool.false_eq_true, if_false, Plan.parts, Shape.operator, Shape.operand]
      split <;> rfl
  | comprehension body clauses curly =>
    rw [rendersAsExpression, Bool.and_eq_true, renderAsClauses_iff] at renders
    have steps : clausesSteps clauses = .ok (clauses.flatMap clauseSteps) :=
      (clausesSteps_eq_ok_iff _ _).mpr
        ⟨fun clause member => ((rendersAsClause_iff clause).mp (renders.2 clause member)).1, rfl⟩
    simp [expressionPlan, steps, Shape.comprehension, parts, parts_clauses clauses 0, Hop.crumbOf,
      Kind.partScope, Field.label]
  | dict elements =>
    have entries : strayElement? elements = none := by
      simp_all [rendersAsExpression, strayElement?]
    simp [expressionPlan, entries, Shape.dict, parts, Hop.crumbOf, Kind.partScope, Field.label]
  | slice x lo hi step =>
    cases noLo : lo.isMissing <;> cases noHi : hi.isMissing <;> cases noStep : step.isMissing <;>
      simp [expressionPlan, Shape.slice, parts, unlessMissing, noLo, noHi, noStep, Hop.crumbOf,
        Kind.partScope, Field.label]
  | paren x =>
    simp only [expressionPlan, parts, Plan.parts_inScope, Shape.paren]
    split <;> rfl
  | tuple elements =>
    cases elements <;>
      simp [expressionPlan, Shape.tuple, parts, Hop.crumbOf, Kind.partScope, Field.label]
  | binary | call | list =>
    simp [expressionPlan, Shape.binary, Shape.call, Shape.list, parts, Hop.crumbOf,
      Kind.partScope, Field.label]
  | cond | dictEntry | dot | index | ident => rfl
  | _ => cases renders

private theorem statementPlan_parts {node : Node} (renders : node.rendersAsStatement = true)
    (options : Options) :
    (node.statementPlan options).parts = node.parts.map Part.placed := by
  cases node with
  | assign lhs op rhs =>
    simp only [rendersAsStatement, Bool.and_eq_true] at renders
    simp only [statementPlan, renders.1.1, if_true]
    rfl
  | branch token =>
    simp only [rendersAsStatement] at renders
    simp only [statementPlan, renders, if_true]
    rfl
  | exprStmt x =>
    simp only [statementPlan, parts]
    cases x.docstring? with
    | some found => simp
    | none => rfl
  | load path sources locals =>
    simp only [rendersAsStatement, Bool.and_eq_true, decide_eq_true_eq] at renders
    simp [statementPlan, renders.1.1, Shape.load, Shape.parts_bindings, parts, Hop.crumbOf,
      Kind.partScope, Field.label]
  | returns result =>
    cases missing : result.isMissing <;>
      simp [statementPlan, Shape.returns, parts, unlessMissing, missing, Hop.crumbOf,
        Kind.partScope, Field.label]
  | ifThen test onTrue onFalse =>
    cases onFalse <;>
      simp [statementPlan, Shape.ifThen, Shape.body, parts, Hop.crumbOf, Kind.partScope,
        Field.label]
  | define | forLoop | whileLoop =>
    simp [statementPlan, Shape.define, Shape.forLoop, Shape.whileLoop, Shape.body, parts,
      Hop.crumbOf, Kind.partScope, Field.label]
  | _ => cases renders

end Node

/-- The parts of a plan are the parts of its node, in order, each behind the crumb of its
hop. -/
theorem Role.plan_parts {role : Role} {node : Node} (renders : role.renders node = true)
    (options : Options) : (role.plan node options).parts = node.parts.map Part.placed := by
  cases role with
  | expression => exact Node.expressionPlan_parts renders options
  | statement => exact Node.statementPlan_parts renders options

/-- A property holds of a node and of everything that is printed below it. -/
inductive Node.Throughout (holds : Node → Prop) : Node → Prop where
  | intro {node : Node} (own : holds node)
      (parts : ∀ part ∈ node.parts, Throughout holds part.tree) : Throughout holds node

theorem Node.throughout_iff (holds : Node → Prop) (node : Node) :
    node.Throughout holds ↔ holds node ∧ ∀ part ∈ node.parts, part.tree.Throughout holds := by
  constructor
  · rintro ⟨own, parts⟩
    exact ⟨own, parts⟩
  · rintro ⟨own, parts⟩
    exact ⟨own, parts⟩

/-- Check a property down to a depth; a tree that goes on below it does not pass. -/
def Node.checks (holds : Node → Prop) [DecidablePred holds] : Nat → Node → Bool
  | 0, _ => false
  | depth + 1, node => decide (holds node) && node.parts.all (checks holds depth ·.tree)

theorem Node.throughout_of_checks {holds : Node → Prop} [DecidablePred holds] {depth : Nat}
    {node : Node} (passes : node.checks holds depth = true) : node.Throughout holds := by
  induction depth generalizing node with
  | zero => cases passes
  | succ depth ih =>
    simp only [checks, Bool.and_eq_true, decide_eq_true_eq, List.all_eq_true] at passes
    exact .intro passes.1 fun part member => ih (passes.2 part member)

namespace Node

/-- The texts that a node brings along: a name, or a raw text without a payload. -/
def ownTexts : Node → List String
  | .ident leaf => [leaf.name]
  | .literal leaf => if leaf.value = .absent then [leaf.raw] else []
  | _ => []

def ownOperators : Node → List Token
  | .binary _ op _ | .unary op _ => op.toList
  | _ => []

/-- What a node brings along is as given. -/
def Brings (text : String → Prop) (operator : Token → Prop) (node : Node) : Prop :=
  (∀ own ∈ node.ownTexts, text own) ∧ ∀ own ∈ node.ownOperators, operator own

instance (text : String → Prop) (operator : Token → Prop) [DecidablePred text]
    [DecidablePred operator] : DecidablePred (Brings text operator) :=
  fun node => inferInstanceAs (Decidable
    ((∀ own ∈ node.ownTexts, text own) ∧ ∀ own ∈ node.ownOperators, operator own))

variable {text : String → Prop} {operator : Token → Prop}

theorem Brings.name {leaf : Ident} (brings : (ident leaf).Brings text operator) :
    text leaf.name :=
  brings.1 leaf.name (List.mem_singleton.mpr rfl)

theorem Brings.raw {leaf : Literal} (brings : (literal leaf).Brings text operator)
    (absent : leaf.value = .absent) : text leaf.raw :=
  brings.1 leaf.raw (by simp [ownTexts, absent])

theorem Brings.binary {x y : Node} {op : Token}
    (brings : (binary x (some op) y).Brings text operator) : operator op :=
  brings.2 op (List.mem_singleton.mpr rfl)

theorem Brings.unary {x : Node} {op : Token} (brings : (unary (some op) x).Brings text operator) :
    operator op :=
  brings.2 op (List.mem_singleton.mpr rfl)

end Node

namespace Plan

/-- What holds of the parts of a plan of known steps holds of every part in its role. -/
theorem every_of_parts {holds : Node → Prop} {plan : Plan} (known : plan.Every fun _ _ => True)
    (all : ∀ placed ∈ plan.parts, holds placed.2) : plan.Every fun _ tree => holds tree := by
  cases plan with
  | refuse reason => trivial
  | act actions =>
    intro action member
    have own : ∀ placed ∈ action.step.parts action.scope, holds placed.2 :=
      fun placed inside => all placed (List.mem_flatMap.mpr ⟨action, member, inside⟩)
    obtain ⟨scope, step⟩ := action
    cases step with
    | part tree label levels => exact own _ (List.mem_singleton.mpr rfl)
    | block trees label levels =>
      intro tree present
      obtain ⟨index, below, rfl⟩ := List.mem_iff_getElem.mp present
      refine own (.statement scope label index, trees[index]) (List.mem_map.mpr ?_)
      exact ⟨(trees[index], index), by simp [List.mem_zipIdx_iff_getElem?], rfl⟩
    | unknown code => exact known _ member
    | _ => trivial

theorem Every.mp {holds other : Role → Node → Prop} {plan : Plan}
    (implies : plan.Every fun role node => holds role node → other role node)
    (every : plan.Every holds) : plan.Every other := by
  cases plan with
  | refuse reason => trivial
  | act actions =>
    intro action member
    have first := implies action member
    have second := every action member
    obtain ⟨scope, step⟩ := action
    cases step with
    | part tree label levels => exact first second
    | block trees label levels => exact fun tree present => first tree present (second tree present)
    | unknown code => exact second
    | _ => trivial

end Plan

/-- What a node that renders inherits from the parts of its plans, where a property holds
throughout, holds of every node that renders and has the property throughout. -/
theorem Role.induction_on_rendered {own : Node → Prop} {holds : Role → Node → Prop}
    (inherit : ∀ role node, role.renders node = true → own node →
      (∀ options, (role.plan node options).Every holds) → holds role node)
    (role : Role) (node : Node) (renders : role.renders node = true)
    (throughout : node.Throughout own) : holds role node := by
  induction role, node using Role.induction_on_parts with
  | inherit role node parts =>
    obtain ⟨here, below⟩ := (node.throughout_iff own).mp throughout
    refine inherit role node renders here fun options => ?_
    have render := ((role.renders_iff_plan node options).mp renders).2
    have inside : (role.plan node options).Every fun _ tree => tree.Throughout own := by
      apply Plan.every_of_parts ((parts options).imp fun _ _ _ => trivial)
      rw [Role.plan_parts renders options]
      intro placed member
      obtain ⟨part, present, rfl⟩ := List.mem_map.mp member
      exact below part present
    exact ((parts options).mp render).mp inside

/-- The writes of a plan, each behind the crumb of its step. -/
def Plan.writes (options : Options) : Plan → List Write
  | .refuse _ => []
  | .act actions => actions.flatMap fun action => (action.trace options).writes

/-- A node that renders has the writes of its plan. -/
theorem Role.writes_eq_plan {role : Role} {node : Node} (renders : role.renders node = true)
    (options : Options) :
    (role.trace node options).writes = (role.plan node options).writes options := by
  have well := (role.ending_iff node options).mpr renders
  rw [role.trace_eq_plan] at well ⊢
  cases planned : role.plan node options with
  | refuse reason => rfl
  | act actions =>
    rw [planned] at well
    have each := (Trace.concat_ending_iff _).mp well
    rw [Plan.trace, Trace.concat_writes _ each, List.flatMap_map]
    rfl

end StarlarkPrinter
