import StarlarkPrinter.Proofs.Plan

namespace StarlarkPrinter

namespace Step

/-- Every part of a step has a property in the role that the step gives it, and the step is
a known one. -/
def Every (holds : Role → Node → Prop) : Step Node → Prop
  | .part tree _ _ => holds .expression tree
  | .block trees _ _ => ∀ tree ∈ trees, holds .statement tree
  | .unknown _ => False
  | _ => True

variable (holds : Role → Node → Prop)

theorem Every.imp {holds other : Role → Node → Prop} {step : Step Node}
    (every : step.Every holds) (implies : ∀ role node, holds role node → other role node) :
    step.Every other := by
  cases step with
  | part tree label levels => exact implies _ _ every
  | block trees label levels => exact fun tree member => implies _ _ (every tree member)
  | unknown code => exact every
  | _ => trivial

@[simp]
theorem every_here (tree : Node) (label : String) :
    (here tree label).Every holds ↔ holds .expression tree := Iff.rfl

@[simp]
theorem every_block (trees : List Node) (label : String) (levels : Nat) :
    (block trees label levels).Every holds ↔ ∀ tree ∈ trees, holds .statement tree := Iff.rfl

@[simp]
theorem every_token (symbol : Option Token) (label : String) :
    (token symbol label).Every holds := trivial

@[simp]
theorem every_mark (symbol : Token) : (mark symbol).Every holds := trivial

@[simp]
theorem every_text (content label : String) : (text content label).Every holds := trivial

@[simp]
theorem every_indent : indent.Every holds := trivial

@[simp]
theorem every_space : space.Every holds := trivial

@[simp]
theorem every_colon : colon.Every holds := trivial

@[simp]
theorem every_newline : newline.Every holds := trivial

end Step

namespace Shape

variable {α : Type} {holds : Step α → Prop} {good : α → Prop}

theorem forall_mem_padded {spaced : Bool} {step : Step α} (space : holds .space) :
    (∀ other ∈ Step.padded spaced step, holds other) ↔ holds step := by
  cases spaced <;> simp [Step.padded, space]

theorem forall_mem_numbered {separator : List (Step α)} {step : α → String → Step α}
    (between : ∀ other ∈ separator, holds other)
    (parts : ∀ tree label, holds (step tree label) ↔ good tree)
    (label : String) (index : Nat) (trees : List α) :
    (∀ other ∈ numbered separator step label index trees, holds other) ↔
      ∀ tree ∈ trees, good tree := by
  induction trees generalizing index with
  | nil => simp [numbered]
  | cons tree rest ih =>
    have front : ∀ other ∈ (if index = 0 then [] else separator), holds other := by
      split
      · simp
      · exact between
    simp only [numbered, List.forall_mem_append, List.forall_mem_cons, parts, ih]
    exact and_iff_right front

theorem forall_mem_onOneLine (comma : holds .comma) (space : holds .space)
    (parts : ∀ tree label levels, holds (.part tree label levels) ↔ good tree)
    (label : String) (elements : List α) :
    (∀ other ∈ onOneLine label elements, holds other) ↔ ∀ tree ∈ elements, good tree :=
  forall_mem_numbered (by simp [comma, space]) (fun tree label => parts tree label 0) label 0
    elements

/-- What holds of all the layout in a sequence holds of all its steps exactly if it
holds of the elements, under every layout. -/
theorem forall_mem_sequence (comma : holds .comma) (space : holds .space)
    (newline : holds .newline) (indent : holds .indent) (innerIndent : holds .innerIndent)
    (parts : ∀ tree label levels, holds (.part tree label levels) ↔ good tree)
    (layout : Layout) (elements : List α) :
    (∀ other ∈ sequence layout elements, holds other) ↔ ∀ tree ∈ elements, good tree := by
  have ending (present : Bool) :
      ∀ other ∈ (if present then [Step.comma] else [] : List (Step α)), holds other := by
    cases present <;> simp [comma]
  have lines : (∀ other ∈ numbered [.comma, .newline, .innerIndent] .inside "element" 0 elements,
      holds other) ↔ ∀ tree ∈ elements, good tree :=
    forall_mem_numbered (by simp [comma, newline, innerIndent])
      (fun tree label => parts tree label 1) "element" 0 elements
  simp only [sequence]
  split
  · simp only [onLines, List.forall_mem_append, List.forall_mem_cons, lines]
    simp [newline, indent, innerIndent, ending]
  · simp only [List.forall_mem_append, forall_mem_onOneLine comma space parts]
    simp [ending]

theorem forall_mem_furtherLines (newline : holds .newline) (indent : holds .indent)
    (text : ∀ content label, holds (.text content label)) (width index : Nat)
    (lines : List (List Char)) :
    ∀ other ∈ furtherLines width index lines, holds other := by
  induction lines generalizing index with
  | nil => simp [furtherLines]
  | cons line rest ih =>
    have lineSteps (present : Bool) : ∀ other ∈ (if present then
        [.indent, .text (String.ofList (Text.stripSpaces width line))
          ("docstring line " ++ Text.decimal index)]
        else [] : List (Step α)), holds other := by
      cases present <;> simp [indent, text]
    simp only [furtherLines, List.forall_mem_append, List.forall_mem_cons]
    exact ⟨⟨newline, lineSteps _⟩, ih (index + 1)⟩

theorem forall_mem_docstring (newline : holds .newline) (indent : holds .indent)
    (text : ∀ content label, holds (.text content label)) (literal : Literal)
    (content : String) :
    ∀ other ∈ docstring literal content, holds other := by
  simp only [docstring, List.forall_mem_append, List.forall_mem_cons]
  refine ⟨⟨⟨indent, text _ _, text _ _, ?_⟩, ?_⟩, text _ _, newline, ?_⟩
  · simp
  · exact forall_mem_furtherLines newline indent text _ _ _
  · simp

theorem eq_of_writtenName? {source bound : Option Ident} {name : Ident}
    (written : writtenName? source bound = some name) : bound = some name := by
  cases source <;> cases bound <;> simp_all [writtenName?]

/-- The names of a load all hold exactly if all sources and all written names do. -/
theorem forall_mem_bindings (comma : holds .comma)
    (text : ∀ content label, holds (.text content label)) (eq : holds (.mark .eq))
    (parts : ∀ tree label levels, holds (.part tree label levels) ↔ good tree)
    (spaceEqBinary : Bool) (leaf : Option Ident → α) (index : Nat)
    (pairs : List (Option Ident × Option Ident)) :
    (∀ other ∈ bindings spaceEqBinary leaf index pairs, holds other) ↔
      ∀ pair ∈ pairs, good (leaf pair.1) ∧
        ∀ name, writtenName? pair.1 pair.2 = some name → good (leaf (some name)) := by
  induction pairs generalizing index with
  | nil => simp [bindings]
  | cons pair rest ih =>
    obtain ⟨source, bound⟩ := pair
    have space : holds .space := text _ _
    have quote : holds .quote := text _ _
    have here (tree : α) (label : String) : holds (.here tree label) ↔ good tree :=
      parts tree label 0
    simp only [bindings, binding, List.forall_mem_append, List.forall_mem_cons, ih, here]
    cases written : writtenName? source bound with
    | none => simp [comma, space, quote]
    | some name =>
      simp [comma, space, quote, here, forall_mem_padded space, eq, and_comm]

section Every

variable (every : Role → Node → Prop)

@[simp]
theorem every_sequence (layout : Layout) (elements : List Node) :
    (∀ step ∈ sequence layout elements, step.Every every) ↔
      ∀ tree ∈ elements, every .expression tree :=
  forall_mem_sequence trivial trivial trivial trivial trivial (fun _ _ _ => Iff.rfl) layout
    elements

@[simp]
theorem every_onOneLine (label : String) (elements : List Node) :
    (∀ step ∈ onOneLine label elements, step.Every every) ↔
      ∀ tree ∈ elements, every .expression tree :=
  forall_mem_onOneLine trivial trivial (fun _ _ _ => Iff.rfl) label elements

theorem every_docstring (literal : Literal) (content : String) :
    ∀ step ∈ docstring literal content, step.Every every :=
  forall_mem_docstring trivial trivial (fun _ _ => trivial) literal content

@[simp]
theorem every_bindings (spaceEqBinary : Bool) (leaf : Option Ident → Node) (index : Nat)
    (pairs : List (Option Ident × Option Ident)) :
    (∀ step ∈ bindings spaceEqBinary leaf index pairs, step.Every every) ↔
      ∀ pair ∈ pairs, every .expression (leaf pair.1) ∧
        ∀ name, writtenName? pair.1 pair.2 = some name → every .expression (leaf (some name)) :=
  forall_mem_bindings trivial (fun _ _ => trivial) trivial (fun _ _ _ => Iff.rfl) spaceEqBinary
    leaf index pairs

-- One equivalence per shape: its parts, in the order in which they are printed.

@[simp]
theorem every_padded (spaced : Bool) (step : Step Node) :
    (∀ other ∈ Step.padded spaced step, other.Every every) ↔ step.Every every :=
  forall_mem_padded trivial

@[simp]
theorem every_binary (spaceEqBinary : Bool) (x : Node) (op : Option Token) (y : Node) :
    (∀ step ∈ binary spaceEqBinary x op y, step.Every every) ↔
      every .expression x ∧ every .expression y := by
  simp only [binary, List.forall_mem_append, List.forall_mem_cons,
    every_padded every]
  simp

@[simp]
theorem every_operand (op : Option Token) (x : Node) :
    (∀ step ∈ operand op x, step.Every every) ↔ every .expression x := by
  unfold operand
  split <;> simp

@[simp]
theorem every_call (layout : Layout) (fn : Node) (args : List Node) :
    (∀ step ∈ call layout fn args, step.Every every) ↔
      every .expression fn ∧ ∀ tree ∈ args, every .expression tree := by
  simp only [call, List.forall_mem_append, List.forall_mem_cons, every_sequence]
  simp

@[simp]
theorem every_comprehension (curly : Bool) (body : Node) (clauses : List (Step Node)) :
    (∀ step ∈ comprehension curly body clauses, step.Every every) ↔
      every .expression body ∧ ∀ step ∈ clauses, step.Every every := by
  simp only [comprehension, List.forall_mem_append, List.forall_mem_cons]
  simp

@[simp]
theorem every_dict (layout : Layout) (elements : List Node) :
    (∀ step ∈ dict layout elements, step.Every every) ↔
      ∀ tree ∈ elements, every .expression tree := by
  simp only [dict, List.forall_mem_append, every_sequence]
  simp

@[simp]
theorem every_list (layout : Layout) (elements : List Node) :
    (∀ step ∈ list layout elements, step.Every every) ↔
      ∀ tree ∈ elements, every .expression tree := by
  simp only [list, List.forall_mem_append, every_sequence]
  simp

@[simp]
theorem every_tuple (layout : Layout) (elements : List Node) :
    (∀ step ∈ tuple layout elements, step.Every every) ↔
      ∀ tree ∈ elements, every .expression tree := by
  cases elements with
  | nil => simp [tuple]
  | cons first rest =>
    simp only [tuple, List.isEmpty_cons, Bool.false_eq_true, if_false, every_sequence]

@[simp]
theorem every_paren (x : Option Node) :
    (∀ step ∈ paren x, step.Every every) ↔ ∀ tree ∈ x, every .expression tree := by
  cases x <;> simp [paren]

@[simp]
theorem every_slice (x : Node) (lo hi step : Option Node) :
    (∀ other ∈ slice x lo hi step, other.Every every) ↔
      every .expression x ∧ (∀ tree ∈ lo, every .expression tree) ∧
        (∀ tree ∈ hi, every .expression tree) ∧ ∀ tree ∈ step, every .expression tree := by
  cases lo <;> cases hi <;> cases step <;> simp [slice]

@[simp]
theorem every_define (name : Node) (params members : List Node) :
    (∀ step ∈ define name params members, step.Every every) ↔
      every .expression name ∧ (∀ tree ∈ params, every .expression tree) ∧
        ∀ tree ∈ members, every .statement tree := by
  simp only [define, List.forall_mem_append, every_onOneLine]
  simp [body, and_assoc]

@[simp]
theorem every_ifThen (cond : Node) (onTrue onFalse : List Node) :
    (∀ step ∈ ifThen cond onTrue onFalse, step.Every every) ↔
      every .expression cond ∧ (∀ tree ∈ onTrue, every .statement tree) ∧
        ∀ tree ∈ onFalse, every .statement tree := by
  cases onFalse <;> simp [ifThen, body]

@[simp]
theorem every_load (spaceEqBinary : Bool) (leaf : Option Ident → Node) (path : Node)
    (sources locals : List (Option Ident)) :
    (∀ step ∈ load spaceEqBinary leaf path sources locals, step.Every every) ↔
      every .expression path ∧ ∀ pair ∈ sources.zip locals, every .expression (leaf pair.1) ∧
        ∀ name, writtenName? pair.1 pair.2 = some name →
          every .expression (leaf (some name)) := by
  simp only [load, List.forall_mem_append, every_bindings]
  simp

@[simp]
theorem every_returns (result : Option Node) :
    (∀ step ∈ returns result, step.Every every) ↔ ∀ tree ∈ result, every .expression tree := by
  cases result <;> simp [returns]

end Every

end Shape

namespace Plan

/-- Every part of a plan has a property in the role that the plan gives it. -/
def Every (holds : Role → Node → Prop) : Plan → Prop
  | .refuse _ => True
  | .act actions => ∀ action ∈ actions, action.step.Every holds

theorem Every.imp {holds other : Role → Node → Prop} {plan : Plan} (every : plan.Every holds)
    (implies : ∀ role node, holds role node → other role node) : plan.Every other := by
  cases plan with
  | refuse reason => trivial
  | act actions => exact fun action member => (every action member).imp implies

@[simp]
theorem every_inScope (holds : Role → Node → Prop) (scope : String) (steps : List (Step Node)) :
    (inScope scope steps).Every holds ↔ ∀ step ∈ steps, step.Every holds := by
  simp [inScope, Every]

@[simp]
theorem every_refuse (holds : Role → Node → Prop) (reason : Reason) :
    (refuse reason).Every holds := trivial

end Plan

namespace Node

/-- The steps of a clause; other nodes have none. -/
def clauseSteps (node : Node) : List (Step Node) :=
  node.clauseSteps?.getD []

/-- Clauses have steps exactly if all of them are clauses. -/
theorem clausesSteps_eq_ok_iff (clauses : List Node) (steps : List (Step Node)) :
    clausesSteps clauses = .ok steps ↔
      (∀ clause ∈ clauses, clause.clauseSteps?.isSome) ∧
        steps = clauses.flatMap clauseSteps := by
  induction clauses generalizing steps with
  | nil => exact ⟨fun same => ⟨by simp, (Except.ok.inj same).symm⟩, fun same => by
      rw [same.2]
      rfl⟩
  | cons clause rest ih =>
    cases own : clause.clauseSteps? with
    | none => simp [clausesSteps, own]
    | some first =>
      have head : clause.clauseSteps = first := by simp [clauseSteps, own]
      simp only [clausesSteps, own, List.forall_mem_cons, List.flatMap_cons, head]
      cases further : clausesSteps rest with
      | error stray =>
        have stuck : ¬ ∀ clause ∈ rest, clause.clauseSteps?.isSome := fun all => by
          have ready := (ih (rest.flatMap clauseSteps)).mpr ⟨all, rfl⟩
          rw [further] at ready
          cases ready
        simp [Except.map, stuck]
      | ok others =>
        obtain ⟨all, rfl⟩ := (ih others).mp further
        constructor
        · intro same
          exact ⟨⟨rfl, all⟩, (Except.ok.inj same).symm⟩
        · rintro ⟨_, rfl⟩
          rfl

theorem mem_unlessMissing (node part tree : Node) :
    tree ∈ node.unlessMissing part ↔ node ≠ .missing ∧ part = tree := by
  by_cases missing : node = .missing <;> simp [unlessMissing, missing]

private theorem clauseSteps_smaller (clause : Node) :
    ∀ step ∈ clause.clauseSteps, step.Every fun _ part => sizeOf part < sizeOf clause := by
  cases clause with
  | forClause vars x =>
    simp [clauseSteps, clauseSteps?, Shape.forClause]
    omega
  | ifClause test => simp [clauseSteps, clauseSteps?, Shape.ifClause]
  | _ => simp [clauseSteps, clauseSteps?]

private theorem expressionPlan_smaller (node : Node) (options : Options) :
    (node.expressionPlan options).Every fun _ part => sizeOf part < sizeOf node := by
  have member (elements : List Node) : ∀ element ∈ elements, sizeOf element < sizeOf elements :=
    fun _ => List.sizeOf_lt_of_mem
  cases node with
  | literal leaf =>
    simp only [expressionPlan, Literal.plan]
    split
    · simp
    · split <;> simp
  | unary op x =>
    simp only [expressionPlan, Plan.unary]
    split
    · split <;> simp [Shape.operator]
    · simp only [Plan.Every, List.forall_mem_append, List.forall_mem_map, Shape.every_operand]
      simp only [unary.sizeOf_spec]
      exact ⟨by simp [Shape.operator], by omega⟩
  | comprehension body clauses curly =>
    simp only [expressionPlan]
    split
    · trivial
    · rename_i steps found
      obtain ⟨_, rfl⟩ := (clausesSteps_eq_ok_iff _ _).mp found
      simp only [Plan.every_inScope, Shape.every_comprehension, List.forall_mem_flatMap,
        comprehension.sizeOf_spec]
      refine ⟨by omega, fun clause present step own => ?_⟩
      have smaller := member clauses clause present
      exact (clause.clauseSteps_smaller step own).imp fun _ part below => by omega
  | dict elements =>
    simp only [expressionPlan]
    split
    · trivial
    · simp only [Plan.every_inScope, Shape.every_dict, dict.sizeOf_spec]
      intro element present
      have smaller := member elements element present
      omega
  | slice x lo hi step =>
    simp only [expressionPlan, Plan.every_inScope, Shape.every_slice, mem_unlessMissing,
      slice.sizeOf_spec]
    refine ⟨by omega, ?_, ?_, ?_⟩ <;> (rintro tree ⟨_, rfl⟩; omega)
  | paren x => simp [expressionPlan]
  | binary | call | cond | dictEntry | dot | index | list | ident | tuple =>
    simp [expressionPlan, Shape.cond, Shape.dictEntry, Shape.dot, Shape.index, Shape.ident]
    all_goals grind
  | _ => trivial

theorem ofIdent?_smaller {leaf : Option Ident} {leaves : List (Option Ident)}
    (member : leaf ∈ leaves) : sizeOf (ofIdent? leaf) < 1 + sizeOf leaves := by
  have smaller := List.sizeOf_lt_of_mem member
  cases leaf with
  | none => simp [ofIdent?]; omega
  | some leaf => simp [ofIdent?] at *; omega

private theorem statementPlan_smaller (node : Node) (options : Options) :
    (node.statementPlan options).Every fun _ part => sizeOf part < sizeOf node := by
  have member (elements : List Node) : ∀ element ∈ elements, sizeOf element < sizeOf elements :=
    fun _ => List.sizeOf_lt_of_mem
  cases node with
  | assign lhs op rhs =>
    simp only [statementPlan]
    split
    · simp [Shape.assign]
      omega
    · trivial
  | branch token =>
    simp only [statementPlan]
    split
    · simp [Shape.branch]
    · trivial
  | exprStmt x =>
    simp only [statementPlan]
    split
    · simp only [Plan.every_inScope]
      exact Shape.every_docstring _ _ _
    · simp [Shape.exprStmt]
  | load path sources locals =>
    simp only [statementPlan]
    split
    · simp only [Plan.every_inScope, Shape.every_load, load.sizeOf_spec]
      refine ⟨by omega, fun pair present => ⟨?_, fun name written => ?_⟩⟩
      · have smaller := ofIdent?_smaller (List.of_mem_zip present).1
        omega
      · have bound : pair.2 = some name := Shape.eq_of_writtenName? written
        have smaller := ofIdent?_smaller (List.of_mem_zip present).2
        rw [bound] at smaller
        omega
    · trivial
  | returns result =>
    simp only [statementPlan, Plan.every_inScope, Shape.every_returns, mem_unlessMissing]
    rintro tree ⟨_, rfl⟩
    simp
  | define | forLoop | whileLoop | ifThen =>
    simp [statementPlan, Shape.forLoop, Shape.whileLoop, Shape.body]
    all_goals grind
  | _ => trivial

end Node

theorem Role.plan_smaller (role : Role) (node : Node) (options : Options) :
    (role.plan node options).Every fun _ part => sizeOf part < sizeOf node := by
  cases role with
  | expression => exact node.expressionPlan_smaller options
  | statement => exact node.statementPlan_smaller options

/-- What every node inherits from the parts of its plans holds of every node. -/
theorem Role.induction_on_parts {holds : Role → Node → Prop}
    (inherit : ∀ role node, (∀ options, (role.plan node options).Every holds) → holds role node)
    (role : Role) (node : Node) : holds role node :=
  inherit role node fun options =>
    (role.plan_smaller node options).imp fun role part _ => induction_on_parts inherit role part
termination_by sizeOf node

end StarlarkPrinter
