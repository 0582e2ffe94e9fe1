import StarlarkPrinter.Proofs.LayoutIndependence
import StarlarkPrinter.Proofs.Printing
import StarlarkPrinter.Proofs.Renderable

namespace StarlarkPrinter

def Trace.chars (trace : Trace) : List Char :=
  trace.texts.flatMap String.toList

@[simp]
theorem Trace.toList_text (trace : Trace) : trace.text.toList = trace.chars := by
  simp [text, chars, texts, String.toList_join]

theorem Trace.chars_within (crumb : Crumb) (trace : Trace) :
    (trace.within crumb).chars = trace.chars := by
  simp [chars]

theorem Trace.chars_concat {traces : List Trace}
    (well : ∀ trace ∈ traces, trace.ending = .done) :
    (concat traces).chars = traces.flatMap chars := by
  rw [chars, texts_concat well, List.flatMap_assoc]
  rfl

def Role.chars (role : Role) (node : Node) (options : Options) : List Char :=
  (role.trace node options).chars

def Node.chars (node : Node) (options : Options) : List Char :=
  Role.expression.chars node options

/-- The characters of a token, none if it has no spelling. -/
def Token.chars (token : Option Token) : List Char :=
  ((token.bind Token.spelling?).map String.toList).getD []

/-- The characters of the tokens that an expression writes by itself. -/
theorem Token.chars_marks :
    chars (some .leftParen) = ['('] ∧ chars (some .rightParen) = [')'] ∧
    chars (some .leftBracket) = ['['] ∧ chars (some .rightBracket) = [']'] ∧
    chars (some .leftBrace) = ['\x7b'] ∧ chars (some .rightBrace) = ['\x7d'] ∧
    chars (some .dot) = ['.'] ∧ chars (some .eq) = ['='] ∧
    chars (some .kwIf) = ['i', 'f'] ∧ chars (some .kwElse) = ['e', 'l', 's', 'e'] ∧
    chars (some .kwFor) = ['f', 'o', 'r'] ∧ chars (some .kwIn) = ['i', 'n'] :=
  ⟨rfl, rfl, rfl, rfl, rfl, rfl, rfl, rfl, rfl, rfl, rfl, rfl⟩

namespace Step

def chars (options : Options) : Step Node → List Char
  | .part tree _ levels => tree.chars (options.deeper levels)
  | .block trees _ levels =>
    trees.flatMap fun tree => Role.statement.chars tree (options.deeper levels)
  | .indent => (options.indentation 0).toList
  | .innerIndent => (options.indentation 1).toList
  | .token symbol _ => Token.chars symbol
  | .text content _ => content.toList
  | .unknown _ => []

theorem chars_trace (scope : String) (options : Options) (step : Step Node)
    (well : (step.trace scope options).ending = .done) :
    (step.trace scope options).chars = step.chars options := by
  cases step with
  | part tree label levels => rw [trace_part, Trace.chars_within]; rfl
  | block trees label levels =>
    rw [trace_block] at well ⊢
    rw [Trace.chars_concat ((Trace.concat_ending_iff _).mp well), List.flatMap_map]
    have numberless (numbered : Node × Nat) :
        ((Role.statement.trace numbered.1 (options.deeper levels)).within
          (.statement scope label numbered.2)).chars =
        Role.statement.chars numbered.1 (options.deeper levels) := Trace.chars_within _ _
    simp only [numberless, chars]
    rw [← List.flatMap_map Prod.fst (Role.statement.chars · (options.deeper levels)),
      List.zipIdx_map_fst]
  | token symbol label =>
    rw [trace_token, Trace.chars_within, chars, Token.chars, tokenEmission]
    cases symbol.bind Token.spelling? <;> simp [Emission.trace, Trace.chars, Trace.texts]
  | text content label => simp [trace_text, chars, Trace.chars, Trace.texts]
  | indent => simp [trace_indent, chars, Trace.chars, Trace.texts]
  | innerIndent => simp [trace_innerIndent, chars, Trace.chars, Trace.texts]
  | unknown code =>
    rw [trace_unknown]
    rfl

variable (options : Options)

@[simp]
theorem chars_here (tree : Node) (label : String) :
    (here tree label).chars options = tree.chars options := rfl

@[simp]
theorem chars_inside (tree : Node) (label : String) :
    (inside tree label).chars options = tree.chars (options.deeper 1) := rfl

@[simp]
theorem chars_mark (symbol : Token) : (mark symbol).chars options = Token.chars (some symbol) :=
  rfl

@[simp]
theorem chars_token (symbol : Option Token) (label : String) :
    (token symbol label).chars options = Token.chars symbol := rfl

@[simp]
theorem chars_text (content label : String) :
    (text content label).chars options = content.toList := rfl

@[simp]
theorem chars_space : space.chars options = [' '] := rfl

@[simp]
theorem chars_comma : comma.chars options = [','] := rfl

@[simp]
theorem chars_colon : colon.chars options = [':'] := rfl

@[simp]
theorem chars_newline : newline.chars options = ['\n'] := rfl

@[simp]
theorem chars_indent : indent.chars options = (options.indentation 0).toList := rfl

@[simp]
theorem chars_innerIndent : innerIndent.chars options = (options.indentation 1).toList := rfl

end Step

def Plan.chars (options : Options) : Plan → List Char
  | .refuse _ => []
  | .act actions => actions.flatMap (·.step.chars options)

@[simp]
theorem Plan.chars_inScope (options : Options) (scope : String) (steps : List (Step Node)) :
    (inScope scope steps).chars options = steps.flatMap (Step.chars options) := by
  simp [inScope, chars, List.flatMap_map]

/-- A node that renders has the characters of its plan. -/
theorem Role.chars_eq_plan {role : Role} {node : Node} (renders : role.renders node = true)
    (options : Options) : role.chars node options = (role.plan node options).chars options := by
  have well := (role.ending_iff node options).mpr renders
  rw [chars, role.trace_eq_plan]
  rw [role.trace_eq_plan] at well
  cases planned : role.plan node options with
  | refuse reason => rfl
  | act actions =>
    rw [planned] at well
    have each := (Trace.concat_ending_iff _).mp well
    simp only [Plan.trace, Plan.chars, Trace.chars_concat each, List.flatMap_map]
    rw [List.flatMap_def, List.flatMap_def]
    congr 1
    apply List.map_congr_left
    intro action member
    exact action.step.chars_trace action.scope options (each _ (List.mem_map_of_mem member))

/-- A buffer takes a node to the end exactly if the node renders. -/
theorem Role.buffer_ending_iff (role : Role) (node : Node) (options : Options) :
    ((role.emission node options).run Sink.buffer "").ending = .done ↔
      role.renders node = true := by
  rw [Emission.run_buffer]
  exact role.ending_iff node options

theorem Role.toList_buffer (role : Role) (node : Node) (options : Options) :
    ((role.emission node options).run Sink.buffer "").state.toList = role.chars node options := by
  rw [Emission.run_buffer, String.empty_append, Trace.toList_text]
  rfl

/-- A printed text consists of the characters of the node. -/
theorem Role.chars_of_print {role : Role} {options : Options} {node : Node}
    {settings : List Setting} {text : String}
    (built : Options.ofSettings settings = .ok options)
    (printed : role.print settings node = .ok text) : text.toList = role.chars node options := by
  obtain ⟨_, rfl⟩ := trace_of_print built printed
  exact Trace.toList_text _

/-- Texts with a comma and a gap between them. -/
def Text.separated (gap : List Char) : List (List Char) → List Char
  | [] => []
  | text :: rest => text ++ rest.flatMap fun other => ',' :: gap ++ other

/-- The gaps of a sequence, and the options of its elements. -/
structure Spacing where
  inner : Options
  lead : List Char
  gap : List Char
  ending : List Char
  tail : List Char

namespace Spacing

/-- The gaps of a sequence of a length under a layout. -/
def ofLayout (options : Options) (layout : Layout) (count : Nat) : Spacing :=
  let decision := layout.decision count
  let ending := if decision.trailingComma then [','] else []
  if decision.breakLines then
    let line := '\n' :: (options.indentation 1).toList
    ⟨options.deeper 1, line, line, ending, '\n' :: (options.indentation 0).toList⟩
  else ⟨options, [], [' '], ending, []⟩

/-- The characters of elements with gaps between them. -/
def chars (spacing : Spacing) (elements : List Node) : List Char :=
  spacing.lead ++ Text.separated spacing.gap (elements.map (·.chars spacing.inner)) ++
    spacing.ending ++ spacing.tail

end Spacing

namespace Shape

variable (options : Options)

private theorem chars_numbered_succ {separator : List (Step Node)} {gap : List Char}
    (spelled : separator.flatMap (Step.chars options) = ',' :: gap)
    {step : Node → String → Step Node} {inner : Options}
    (part : ∀ tree label, (step tree label).chars options = tree.chars inner)
    (label : String) (index : Nat) (elements : List Node) :
    (numbered separator step label (index + 1) elements).flatMap (Step.chars options) =
      (elements.map (·.chars inner)).flatMap fun text => ',' :: gap ++ text := by
  induction elements generalizing index with
  | nil => rfl
  | cons tree rest ih => simp [numbered, spelled, part, ih]

theorem chars_numbered {separator : List (Step Node)} {gap : List Char}
    (spelled : separator.flatMap (Step.chars options) = ',' :: gap)
    {step : Node → String → Step Node} {inner : Options}
    (part : ∀ tree label, (step tree label).chars options = tree.chars inner)
    (label : String) (elements : List Node) :
    (numbered separator step label 0 elements).flatMap (Step.chars options) =
      Text.separated gap (elements.map (·.chars inner)) := by
  cases elements with
  | nil => rfl
  | cons tree rest =>
    have further := chars_numbered_succ options spelled part label 0 rest
    simp [numbered, part, further, Text.separated]

theorem chars_sequence (layout : Layout) (elements : List Node) :
    (sequence layout elements).flatMap (Step.chars options) =
      (Spacing.ofLayout options layout elements.length).chars elements := by
  have ending (present : Bool) :
      (if present then [.comma] else [] : List (Step Node)).flatMap (Step.chars options) =
        if present then [','] else [] := by
    cases present <;> simp
  have oneLine : (onOneLine "element" elements).flatMap (Step.chars options) =
      Text.separated [' '] (elements.map (·.chars options)) :=
    chars_numbered options (by simp) (Step.chars_here options) "element" elements
  have lines : (numbered [.comma, .newline, .innerIndent] .inside "element" 0
        elements).flatMap (Step.chars options) =
      Text.separated ('\n' :: (options.indentation 1).toList)
        (elements.map (·.chars (options.deeper 1))) :=
    chars_numbered options (by simp) (Step.chars_inside options) "element" elements
  simp only [sequence, Spacing.ofLayout, Spacing.chars]
  split
  · simp [onLines, lines, ending]
  · simp [oneLine, ending]

end Shape

namespace Node

variable (options : Options)

theorem chars_eq_plan {node : Node} (renders : node.rendersAsExpression = true) :
    node.chars options = (node.expressionPlan options).chars options :=
  Role.chars_eq_plan (show Role.expression.renders node = true from renders) options

-- One equation per kind of expression, for the nodes that render.

theorem chars_ident (leaf : Ident) : (ident leaf).chars options = leaf.name.toList := by
  rw [chars_eq_plan options rfl]
  simp [expressionPlan, Shape.ident]

theorem chars_text {leaf : Literal} {content : String} (value : leaf.value = .text content) :
    (literal leaf).chars options = Text.quoteChars content.toList := by
  have renders : (literal leaf).rendersAsExpression = true := by
    simp [rendersAsExpression, value, Value.isWritable]
  rw [chars_eq_plan options renders]
  simp [expressionPlan, Literal.plan, value, Value.payload_text, Text.quoted]

theorem chars_number {leaf : Literal} {number : Nat} (value : leaf.value = .int number)
    (short : number < Text.numeralBound) :
    (literal leaf).chars options = Nat.toDigits 10 number := by
  have numeral : Text.numeral? number = some (Text.decimal number) :=
    (Text.numeral?_eq_some_iff _ _).mpr ⟨short, rfl⟩
  have renders : (literal leaf).rendersAsExpression = true := by
    rw [rendersAsExpression, value]
    exact Value.isWritable_of_lt short
  rw [chars_eq_plan options renders]
  simp [expressionPlan, Literal.plan, value, Value.payload_int, numeral, Text.decimal]

theorem chars_binary {x y : Node} {op : Token}
    (renders : (binary x (some op) y).rendersAsExpression = true) (notEq : op ≠ .eq) :
    (binary x (some op) y).chars options =
      x.chars options ++ ' ' :: Token.chars (some op) ++ ' ' :: y.chars options := by
  rw [chars_eq_plan options renders]
  simp [expressionPlan, Shape.binary, Step.padded, notEq]

/-- The equals sign of a keyword has spaces around it on request. -/
theorem chars_keyword {x y : Node}
    (renders : (binary x (some .eq) y).rendersAsExpression = true) :
    (binary x (some .eq) y).chars options =
      x.chars options ++ (if options.spaceEqBinary then [' ', '=', ' '] else ['=']) ++
        y.chars options := by
  rw [chars_eq_plan options renders]
  cases spaced : options.spaceEqBinary <;>
    simp [expressionPlan, Shape.binary, Step.padded, spaced, Token.chars_marks]

theorem chars_unary {op : Token} {x : Node}
    (renders : (unary (some op) x).rendersAsExpression = true) (present : x ≠ .missing) :
    (unary (some op) x).chars options =
      Token.chars (some op) ++ (if op.isKeyword then [' '] else []) ++ x.chars options := by
  rw [chars_eq_plan options renders]
  cases word : op.isKeyword <;>
    simp [expressionPlan, Plan.unary, present, Plan.chars, Shape.operator, Shape.operand, word]

theorem chars_call {fn : Node} {args : List Node}
    (renders : (call fn args).rendersAsExpression = true) :
    (call fn args).chars options =
      fn.chars options ++
        '(' :: (Spacing.ofLayout options options.call args.length).chars args ++ [')'] := by
  rw [chars_eq_plan options renders]
  simp [expressionPlan, Shape.call, Shape.chars_sequence, Token.chars_marks]

theorem chars_cond {test onTrue onFalse : Node}
    (renders : (cond test onTrue onFalse).rendersAsExpression = true) :
    (cond test onTrue onFalse).chars options =
      onTrue.chars options ++ " if ".toList ++ test.chars options ++ " else ".toList ++
        onFalse.chars options := by
  rw [chars_eq_plan options renders]
  simp [expressionPlan, Shape.cond, Token.chars_marks]

theorem chars_dictEntry {key value : Node}
    (renders : (dictEntry key value).rendersAsExpression = true) :
    (dictEntry key value).chars options =
      key.chars options ++ ':' :: ' ' :: value.chars options := by
  rw [chars_eq_plan options renders]
  simp [expressionPlan, Shape.dictEntry]

theorem chars_dict {elements : List Node}
    (renders : (dict elements).rendersAsExpression = true) :
    (dict elements).chars options =
      '\x7b' :: (Spacing.ofLayout options options.dict elements.length).chars elements ++
        ['\x7d'] := by
  rw [chars_eq_plan options renders]
  have entries : strayElement? elements = none := by
    simp_all [rendersAsExpression, strayElement?]
  simp [expressionPlan, entries, Shape.dict, Shape.chars_sequence, Token.chars_marks]

theorem chars_dot {x name : Node} (renders : (dot x name).rendersAsExpression = true) :
    (dot x name).chars options = x.chars options ++ '.' :: name.chars options := by
  rw [chars_eq_plan options renders]
  simp [expressionPlan, Shape.dot, Token.chars_marks]

theorem chars_index {x y : Node} (renders : (index x y).rendersAsExpression = true) :
    (index x y).chars options = x.chars options ++ '[' :: y.chars options ++ [']'] := by
  rw [chars_eq_plan options renders]
  simp [expressionPlan, Shape.index, Token.chars_marks]

def optionalChars (node : Node) : List Char :=
  if node.isMissing then [] else node.chars options

theorem chars_slice {x lo hi step : Node}
    (renders : (slice x lo hi step).rendersAsExpression = true) :
    (slice x lo hi step).chars options =
      x.chars options ++ '[' :: optionalChars options lo ++ ':' :: optionalChars options hi ++
        (if step.isMissing then [] else ':' :: step.chars options) ++ [']'] := by
  rw [chars_eq_plan options renders]
  cases noLo : lo.isMissing <;> cases noHi : hi.isMissing <;> cases noStep : step.isMissing <;>
    simp [expressionPlan, Shape.slice, unlessMissing, optionalChars, noLo, noHi, noStep,
      Token.chars_marks]

theorem chars_list {elements : List Node}
    (renders : (list elements).rendersAsExpression = true) :
    (list elements).chars options =
      '[' :: (Spacing.ofLayout options options.list elements.length).chars elements ++ [']'] := by
  rw [chars_eq_plan options renders]
  simp [expressionPlan, Shape.list, Shape.chars_sequence, Token.chars_marks]

theorem chars_tuple {elements : List Node} (present : elements ≠ [])
    (renders : (tuple elements).rendersAsExpression = true) :
    (tuple elements).chars options =
      (Spacing.ofLayout options options.tuple elements.length).chars elements := by
  rw [chars_eq_plan options renders]
  simp [expressionPlan, Shape.tuple, present, Shape.chars_sequence]

theorem chars_paren {x : Node} (present : x.isEmptyTuple = false)
    (renders : (paren x).rendersAsExpression = true) :
    (paren x).chars options = '(' :: x.chars options ++ [')'] := by
  rw [chars_eq_plan options renders]
  simp [expressionPlan, Shape.paren, present, Token.chars_marks]

def clauseChars (clause : Node) : List Char :=
  clause.clauseSteps.flatMap (Step.chars options)

theorem clauseChars_for (vars x : Node) :
    clauseChars options (forClause vars x) =
      " for ".toList ++ vars.chars options ++ " in ".toList ++ x.chars options := by
  simp [clauseChars, clauseSteps, clauseSteps?, Shape.forClause, Token.chars_marks]

theorem clauseChars_if (test : Node) :
    clauseChars options (ifClause test) = " if ".toList ++ test.chars options := by
  simp [clauseChars, clauseSteps, clauseSteps?, Shape.ifClause, Token.chars_marks]

theorem chars_comprehension {body : Node} {clauses : List Node} {curly : Bool}
    (renders : (comprehension body clauses curly).rendersAsExpression = true) :
    (comprehension body clauses curly).chars options =
      (if curly then '\x7b' else '[') :: body.chars options ++
        clauses.flatMap (clauseChars options) ++ [if curly then '\x7d' else ']'] := by
  rw [chars_eq_plan options renders]
  have steps : clausesSteps clauses = .ok (clauses.flatMap clauseSteps) := by
    rw [rendersAsExpression, Bool.and_eq_true, renderAsClauses_iff] at renders
    exact (clausesSteps_eq_ok_iff _ _).mpr
      ⟨fun clause member => ((rendersAsClause_iff clause).mp (renders.2 clause member)).1, rfl⟩
  have chars : (clauses.flatMap clauseSteps).flatMap (Step.chars options) =
      clauses.flatMap (clauseChars options) := List.flatMap_assoc
  cases curly <;>
    simp [expressionPlan, steps, Shape.comprehension, chars, Token.chars_marks]

end Node

end StarlarkPrinter
