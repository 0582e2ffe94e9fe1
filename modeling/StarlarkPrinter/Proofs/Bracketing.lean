import StarlarkPrinter.Proofs.DepthLinearity

/-! Line breaks and brackets. A simple statement is one logical line as long as every line
feed before its end stands inside brackets. All brackets of a statement are balanced, and
its line feeds stand inside them exactly if no tuple outside of brackets is split: calls,
lists and dicts split their elements between brackets of their own, tuples have none. -/

namespace StarlarkPrinter

/-- What a write does to the line: it opens or closes a bracket, it breaks the line, or it
does nothing of the kind. -/
inductive Sign where
  | opening | closing | lineBreak | other
deriving DecidableEq, Repr

def Text.sign (text : String) : Sign :=
  if text = "(" ∨ text = "[" ∨ text = "\x7b" then .opening
  else if text = ")" ∨ text = "]" ∨ text = "\x7d" then .closing
  else if text = "\n" then .lineBreak
  else .other

/-- What a write does to the line. An indentation does nothing, whatever its text is. -/
def Write.sign (write : Write) : Sign :=
  if write.path.getLast?.any Crumb.isIndent then .other else Text.sign write.text

/-- How many brackets are open behind signs. -/
def Sign.level (signs : List Sign) : Int :=
  signs.count .opening - signs.count .closing

namespace Sign

@[simp]
theorem level_append (first second : List Sign) :
    level (first ++ second) = level first + level second := by
  simp only [level, List.count_append]
  omega

theorem level_opening (signs : List Sign) : level (.opening :: signs) = 1 + level signs := by
  simp only [level, List.count_cons_self, List.count_cons_of_ne (show opening ≠ closing by decide)]
  omega

/-- Every line break among signs has an open bracket in front. -/
def Encloses (signs : List Sign) : Prop :=
  ∀ before after, signs = before ++ .lineBreak :: after → 0 < level before

end Sign

/-- Signs whose brackets are balanced, and whose line breaks are enclosed exactly under a
condition. -/
structure Bracketed (condition : Prop) (signs : List Sign) : Prop where
  settled : Sign.level signs = 0
  above : ∀ before after, signs = before ++ after → 0 ≤ Sign.level before
  encloses_iff : Sign.Encloses signs ↔ condition

namespace Bracketed

variable {condition other : Prop} {signs further : List Sign}

theorem congr (bracketed : Bracketed condition signs) (same : condition ↔ other) :
    Bracketed other signs :=
  ⟨bracketed.settled, bracketed.above, bracketed.encloses_iff.trans same⟩

theorem nothing : Bracketed True [] := by
  refine ⟨rfl, ?_, iff_of_true ?_ trivial⟩
  · intro before after same
    rw [(List.append_eq_nil_iff.mp same.symm).1]
    exact Int.le_refl 0
  · intro before after same
    cases before <;> cases same

private theorem single {sign : Sign} (flat : Sign.level [sign] = 0) :
    Bracketed (sign ≠ .lineBreak) [sign] := by
  refine ⟨flat, ?_, ?_⟩
  · intro before after same
    rcases List.singleton_eq_append_iff.mp same with ⟨rfl, _⟩ | ⟨rfl, _⟩
    · exact Int.le_refl 0
    · exact Int.le_of_eq flat.symm
  · constructor
    · rintro encloses rfl
      exact absurd (encloses [] [] rfl) (by decide)
    · intro harmless before after same
      cases before with
      | nil =>
        injection same with first
        exact absurd first harmless
      | cons first rest => cases rest <;> cases same

theorem plain : Bracketed True [.other] :=
  (single (by decide)).congr (by decide)

theorem lineBreak : Bracketed False [.lineBreak] :=
  (single (by decide)).congr (by decide)

theorem append (first : Bracketed condition signs) (second : Bracketed other further) :
    Bracketed (condition ∧ other) (signs ++ further) := by
  refine ⟨by rw [Sign.level_append, first.settled, second.settled]; rfl, ?_, ?_⟩
  · intro before after same
    rcases List.append_eq_append_iff.mp same with ⟨middle, rfl, split⟩ | ⟨middle, rfl, split⟩
    · have rest := second.above middle after split
      rw [Sign.level_append, first.settled]
      omega
    · exact first.above before middle rfl
  · rw [← first.encloses_iff, ← second.encloses_iff]
    constructor
    · intro encloses
      constructor
      · intro before after same
        exact encloses before (after ++ further) (by simp [same])
      · intro before after same
        have inside := encloses (signs ++ before) after (by simp [same])
        rw [Sign.level_append, first.settled] at inside
        omega
    · rintro ⟨early, late⟩ before after same
      rcases List.append_eq_append_iff.mp same with ⟨middle, rfl, split⟩ | ⟨middle, rfl, split⟩
      · have inside := late middle after split
        rw [Sign.level_append, first.settled]
        omega
      · cases middle with
        | nil =>
          have inside := late [] after split.symm
          exact absurd inside (by decide)
        | cons sign rest =>
          injection split with head tail
          subst head
          exact early before rest rfl

/-- Brackets around signs enclose all of their line breaks. -/
theorem enclose (inside : Bracketed condition signs) :
    Bracketed True (.opening :: (signs ++ [.closing])) := by
  have early : ∀ before after, signs ++ [.closing] = before ++ after → after ≠ [] →
      0 ≤ Sign.level before := by
    intro before after same present
    rcases List.append_eq_append_iff.mp same with ⟨middle, rfl, split⟩ | ⟨middle, rfl, split⟩
    · rcases List.singleton_eq_append_iff.mp split with ⟨rfl, _⟩ | ⟨_, nothing⟩
      · rw [List.append_nil]
        exact Int.le_of_eq inside.settled.symm
      · exact absurd nothing present
    · exact inside.above before middle rfl
  have whole : Sign.level (.opening :: (signs ++ [.closing])) = 0 := by
    rw [Sign.level_opening, Sign.level_append, inside.settled]
    rfl
  refine ⟨whole, ?_, iff_of_true ?_ trivial⟩
  · intro before after same
    cases before with
    | nil => exact Int.le_refl 0
    | cons sign rest =>
      by_cases last : after = []
      · rw [last, List.append_nil] at same
        rw [← same]
        exact Int.le_of_eq whole.symm
      · injection same with head tail
        have inner := early rest after tail last
        rw [← head, Sign.level_opening]
        omega
  · intro before after same
    cases before with
    | nil => cases same
    | cons sign rest =>
      injection same with head tail
      have inner := early rest (.lineBreak :: after) tail (by simp)
      rw [← head, Sign.level_opening]
      omega

theorem flatMap {α : Type} {holds : α → Prop} {part : α → List Sign} {items : List α}
    (each : ∀ item ∈ items, Bracketed (holds item) (part item)) :
    Bracketed (∀ item ∈ items, holds item) (items.flatMap part) := by
  induction items with
  | nil => exact nothing.congr (by simp)
  | cons item rest ih =>
    have first := each item (by simp)
    have further := ih fun other member => each other (by simp [member])
    rw [List.flatMap_cons]
    exact (first.append further).congr List.forall_mem_cons.symm

end Bracketed

def Token.brackets : List Token :=
  [.leftParen, .rightParen, .leftBracket, .rightBracket, .leftBrace, .rightBrace]

/-- The brackets, each left one with its right one. -/
def Token.bracketPairs : List (Token × Token) :=
  [(.leftParen, .rightParen), (.leftBracket, .rightBracket), (.leftBrace, .rightBrace)]

/-- Spellings of other tokens open and close nothing. -/
theorem Token.sign_spelling {symbol : Token} (spelled : symbol.isDescriptive = false)
    (bracketless : symbol ∉ brackets) :
    symbol.spelling?.map Text.sign = some (if symbol = .newline then .lineBreak else .other) := by
  have table : ∀ symbol ∈ all, symbol.isDescriptive = false → symbol ∉ brackets →
      symbol.spelling?.map Text.sign =
        some (if symbol = .newline then .lineBreak else .other) := by decide +kernel
  exact table symbol symbol.mem_all spelled bracketless

/-- A text that has no line feed and no bracket. -/
def Text.IsPlain (text : String) : Prop :=
  ∀ char ∈ text.toList, char ∉ ['\n', '(', ')', '[', ']', '\x7b', '\x7d']

instance : DecidablePred Text.IsPlain :=
  fun text => List.decidableBAll _ text.toList

theorem Text.sign_eq_other {text : String}
    (none : text ∉ ["(", "[", "\x7b", ")", "]", "\x7d", "\n"]) : sign text = .other := by
  simp only [List.mem_cons, List.not_mem_nil, or_false, not_or] at none
  simp [sign, none]

theorem Text.IsPlain.sign_eq {text : String} (plain : IsPlain text) : sign text = .other := by
  apply sign_eq_other
  intro member
  have table : ∀ text ∈ ["(", "[", "\x7b", ")", "]", "\x7d", "\n"], ¬ IsPlain text := by decide
  exact table text member plain

theorem Text.IsPayload.sign_eq {text : String} (payload : IsPayload text) :
    sign text = .other := by
  obtain ⟨first, rest, shown, start, _⟩ := payload
  apply sign_eq_other
  intro member
  have table : ∀ text ∈ ["(", "[", "\x7b", ")", "]", "\x7d", "\n"],
      ¬ text.toList.any fun first => first = '"' ∨ first = '-' ∨ first.isDigit := by decide
  exact table text member (List.any_eq_true.mpr ⟨first, by simp [shown], by simpa using start⟩)

theorem Write.sign_within {write : Write} (placed : write.path ≠ []) (crumb : Crumb) :
    (write.within crumb).sign = write.sign := by
  rw [sign, within, List.getLast?_cons_of_ne_nil placed, sign]

private theorem Text.isPlain_repeated {text : String} (plain : IsPlain text) (count : Nat) :
    IsPlain (String.join (List.replicate count text)) := by
  intro char member
  rw [String.toList_join, List.mem_flatMap] at member
  obtain ⟨copy, repeated, inside⟩ := member
  rw [List.eq_of_mem_replicate repeated] at inside
  exact plain char inside

/-- Under a plain indent every write does to the line what its text does. -/
theorem Role.signs_eq_texts {options : Options} (plain : Text.IsPlain options.indent) (role : Role)
    (node : Node) :
    (role.trace node options).writes.map Write.sign =
      (role.trace node options).texts.map Text.sign := by
  rw [Trace.texts, List.map_map]
  apply List.map_congr_left
  intro write member
  change (if write.isIndentation then Sign.other else Text.sign write.text) = Text.sign write.text
  split
  · rename_i indented
    obtain ⟨count, _, same⟩ := role.text_of_indentation member indented
    rw [same, (Text.isPlain_repeated plain count).sign_eq]
  · rfl

def Role.signs (role : Role) (node : Node) (options : Options) : List Sign :=
  (role.trace node options).writes.map Write.sign

namespace Step

variable (scope : String) (options : Options)

def signs (step : Step Node) : List Sign :=
  (step.trace scope options).writes.map Write.sign

theorem signs_part (tree : Node) (label : String) (levels : Nat) :
    (part tree label levels).signs scope options =
      Role.expression.signs tree (options.deeper levels) := by
  have placed := (Role.expression.accountable tree (options.deeper levels)).placed
  rw [signs, trace_part, Trace.within, List.map_map, Role.signs]
  apply List.map_congr_left
  intro write member
  exact Write.sign_within (placed write member) _

theorem signs_text (content label : String) :
    (text content label).signs scope options = [Text.sign content] := rfl

theorem signs_token {symbol : Token} {spelling : String}
    (spelled : symbol.spelling? = some spelling) (label : String) :
    (token (some symbol) label).signs scope options = [Text.sign spelling] := by
  rw [signs, trace_token, tokenEmission, Option.bind_some, spelled]
  rfl

/-- A step that opens and closes nothing by itself and has no block. -/
def IsFlat : Step Node → Prop
  | .part _ _ _ | .indent | .innerIndent => True
  | .token symbol _ => ∀ own ∈ symbol, own ∉ Token.brackets
  | .text content _ => Text.sign content = .other
  | .block _ _ _ | .unknown _ => False

end Step

mutual

/-- Whether a node has a tuple that is split and stands in no brackets of the node. -/
def Node.splitsOpenly (layout : Layout) : Node → Bool
  | .tuple elements =>
    (layout.decision elements.length).breakLines || Node.anySplitsOpenly layout elements
  | .binary x _ y | .dictEntry x y | .dot x y | .assign x _ y =>
    x.splitsOpenly layout || y.splitsOpenly layout
  | .cond test onTrue onFalse =>
    onTrue.splitsOpenly layout || test.splitsOpenly layout || onFalse.splitsOpenly layout
  | .unary _ x | .call x _ | .index x _ | .slice x _ _ _ | .exprStmt x | .returns x =>
    x.splitsOpenly layout
  | _ => false

def Node.anySplitsOpenly (layout : Layout) : List Node → Bool
  | [] => false
  | node :: rest => node.splitsOpenly layout || Node.anySplitsOpenly layout rest

end

theorem Node.anySplitsOpenly_eq_false_iff (layout : Layout) (nodes : List Node) :
    anySplitsOpenly layout nodes = false ↔ ∀ node ∈ nodes, node.splitsOpenly layout = false := by
  induction nodes with
  | nil => simp [anySplitsOpenly]
  | cons node rest ih => simp [anySplitsOpenly, ih]

namespace Step

/-- A step breaks no line outside of brackets. -/
def KeepsLine (layout : Layout) : Step Node → Prop
  | .part tree _ _ => tree.splitsOpenly layout = false
  | .token symbol _ => symbol ≠ some .newline
  | _ => True

end Step

/-- A statement on a line of its own: an assignment, an expression that is no docstring, a
load or a return. -/
def Node.isSimple : Node → Bool
  | .assign _ _ _ | .load _ _ _ | .returns _ => true
  | .exprStmt x => x.docstring?.isNone
  | _ => false

/-- An expression is balanced, and it breaks a line outside of its brackets exactly if it
has an open split. A simple statement is so up to the end of its line. -/
def Role.Balances : Role → Node → Prop
  | .expression, node => ∀ options : Options,
    Bracketed (node.splitsOpenly options.tuple = false) (Role.expression.signs node options)
  | .statement, node => node.isSimple = true → ∀ options : Options,
    ∃ front, Role.statement.signs node options = front ++ [.lineBreak] ∧
      Bracketed (node.splitsOpenly options.tuple = false) front

namespace Step

theorem bracketed {step : Step Node} (flat : step.IsFlat) (spelled : step.Spelled)
    (parts : step.Every Role.Balances) (scope : String) (options : Options) :
    Bracketed (step.KeepsLine options.tuple) (step.signs scope options) := by
  cases step with
  | part tree label levels =>
    rw [signs_part]
    exact parts (options.deeper levels)
  | block trees label levels => cases flat
  | token symbol label =>
    obtain ⟨symbol, rfl, own⟩ := (Option.any_eq_true _ _).mp spelled
    obtain ⟨spelling, found, sign⟩ := Option.map_eq_some_iff.mp
      (Token.sign_spelling (by simpa using own) (flat symbol rfl))
    rw [signs_token scope options found, sign]
    by_cases breaks : symbol = .newline
    · rw [if_pos breaks, breaks]
      exact Bracketed.lineBreak.congr (by simp [KeepsLine])
    · rw [if_neg breaks]
      exact Bracketed.plain.congr (by simp [KeepsLine, breaks])
  | text content label =>
    rw [signs_text, show Text.sign content = .other from flat]
    exact Bracketed.plain
  | indent | innerIndent => exact Bracketed.plain
  | unknown code => cases flat

/-- A step has something to write, and its parts are balanced. -/
def Ready (step : Step Node) : Prop :=
  step.Spelled ∧ step.Every Role.Balances

variable {scope : String} {options : Options}

theorem bracketed_all {steps : List (Step Node)} (flat : ∀ step ∈ steps, step.IsFlat)
    (ready : ∀ step ∈ steps, step.Ready) :
    Bracketed (∀ step ∈ steps, step.KeepsLine options.tuple)
      (steps.flatMap (signs scope options)) :=
  .flatMap fun step member =>
    bracketed (flat step member) (ready step member).1 (ready step member).2 scope options

/-- Steps between two brackets break no line outside of them. -/
theorem bracketed_between {left right : Token} (pair : (left, right) ∈ Token.bracketPairs)
    {leftLabel rightLabel : String} {steps : List (Step Node)}
    (flat : ∀ step ∈ steps, step.IsFlat) (ready : ∀ step ∈ steps, step.Ready) :
    Bracketed True (([token (some left) leftLabel] ++ steps ++
      [token (some right) rightLabel]).flatMap (signs scope options)) := by
  have table : ∀ pair ∈ Token.bracketPairs, pair.1.spelling?.map Text.sign = some .opening ∧
      pair.2.spelling?.map Text.sign = some .closing := by decide +kernel
  obtain ⟨opens, closes⟩ := table (left, right) pair
  obtain ⟨_, opening, opens⟩ := Option.map_eq_some_iff.mp opens
  obtain ⟨_, closing, closes⟩ := Option.map_eq_some_iff.mp closes
  have inside : Bracketed _ (steps.flatMap (signs scope options)) := bracketed_all flat ready
  simpa [signs_token scope options opening, signs_token scope options closing, opens, closes]
    using inside.enclose

section Layout

variable (layout : Layout)

@[simp]
theorem flat_here (tree : Node) (label : String) : (here tree label).IsFlat := trivial

@[simp]
theorem flat_text (content label : String) :
    (text content label).IsFlat ↔ Text.sign content = .other := Iff.rfl

@[simp]
theorem flat_token (symbol : Option Token) (label : String) :
    (token symbol label).IsFlat ↔ ∀ own ∈ symbol, own ∉ Token.brackets := Iff.rfl

@[simp]
theorem flat_mark (symbol : Token) : (mark symbol).IsFlat ↔ symbol ∉ Token.brackets := by
  simp [mark]

@[simp]
theorem flat_indent : indent.IsFlat := trivial

@[simp]
theorem flat_space : space.IsFlat := rfl

@[simp]
theorem flat_quote : quote.IsFlat := rfl

@[simp]
theorem flat_comma : comma.IsFlat := (flat_mark .comma).mpr (by decide)

@[simp]
theorem flat_colon : colon.IsFlat := (flat_mark .colon).mpr (by decide)

@[simp]
theorem flat_newline : newline.IsFlat := (flat_mark .newline).mpr (by decide)

@[simp]
theorem keepsLine_here (tree : Node) (label : String) :
    (here tree label).KeepsLine layout ↔ tree.splitsOpenly layout = false := Iff.rfl

@[simp]
theorem keepsLine_text (content label : String) : (text content label).KeepsLine layout := trivial

@[simp]
theorem keepsLine_token (symbol : Option Token) (label : String) :
    (token symbol label).KeepsLine layout ↔ symbol ≠ some .newline := Iff.rfl

@[simp]
theorem keepsLine_mark (symbol : Token) :
    (mark symbol).KeepsLine layout ↔ symbol ≠ .newline := by
  simp [mark]

@[simp]
theorem keepsLine_indent : indent.KeepsLine layout := trivial

@[simp]
theorem keepsLine_space : space.KeepsLine layout := trivial

@[simp]
theorem keepsLine_colon : colon.KeepsLine layout := (keepsLine_mark layout .colon).mpr (by decide)

@[simp]
theorem keepsLine_comma : comma.KeepsLine layout := (keepsLine_mark layout .comma).mpr (by decide)

end Layout

end Step

namespace Shape

theorem flat_padded (spaced : Bool) {step : Step Node} (flat : step.IsFlat) :
    ∀ other ∈ Step.padded spaced step, other.IsFlat :=
  (forall_mem_padded Step.flat_space).mpr flat

theorem flat_sequence (layout : Layout) (elements : List Node) :
    ∀ step ∈ sequence layout elements, step.IsFlat := by
  have flat : (∀ step ∈ sequence layout elements, step.IsFlat) ↔ ∀ tree ∈ elements, True :=
    forall_mem_sequence Step.flat_comma Step.flat_space Step.flat_newline trivial trivial
      (fun _ _ _ => Iff.rfl) layout elements
  exact flat.mpr fun _ _ => trivial

theorem flat_bindings (spaceEqBinary : Bool) (leaf : Option Ident → Node) (index : Nat)
    (pairs : List (Option Ident × Option Ident)) :
    ∀ step ∈ bindings spaceEqBinary leaf index pairs, step.IsFlat := by
  induction pairs generalizing index with
  | nil => simp [bindings]
  | cons pair rest ih =>
    obtain ⟨source, bound⟩ := pair
    have equals := flat_padded spaceEqBinary ((Step.flat_mark .eq).mpr (by decide))
    simp only [bindings, List.forall_mem_append]
    refine ⟨?_, ih (index + 1)⟩
    unfold binding
    cases writtenName? source bound with
    | none => simp
    | some name =>
      simp only [List.forall_mem_append, List.forall_mem_cons]
      simpa using equals

/-- A sequence keeps its line exactly if it is not split and none of its elements is. -/
theorem keepsLine_sequence (own layout : Layout) (elements : List Node) :
    (∀ step ∈ sequence own elements, step.KeepsLine layout) ↔
      (own.decision elements.length).breakLines = false ∧
        ∀ element ∈ elements, element.splitsOpenly layout = false := by
  have line : (∀ step ∈ onOneLine "element" elements, step.KeepsLine layout) ↔
      ∀ element ∈ elements, element.splitsOpenly layout = false :=
    forall_mem_onOneLine (Step.keepsLine_comma layout) (Step.keepsLine_space layout)
      (fun _ _ _ => Iff.rfl) "element" elements
  unfold sequence
  obtain ⟨breakLines, trailingComma⟩ := own.decision elements.length
  cases breakLines with
  | true => simp [onLines, Step.newline]
  | false =>
    simp only [Bool.false_eq_true, if_false, List.forall_mem_append, line]
    cases trailingComma <;> simp

end Shape

def Plan.signs (options : Options) (plan : Plan) : List Sign :=
  (plan.writes options).map Write.sign

theorem Plan.signs_act (options : Options) (actions : List Action) :
    (act actions).signs options =
      actions.flatMap fun action => action.step.signs action.scope options := by
  simp only [signs, writes, List.map_flatMap]
  rfl

theorem Plan.signs_inScope (options : Options) (scope : String) (steps : List (Step Node)) :
    (inScope scope steps).signs options = steps.flatMap (Step.signs scope options) := by
  rw [inScope, signs_act, List.flatMap_map]

/-- What a node brings along breaks no line, and opens and closes nothing. -/
abbrev Node.BringsNoSign : Node → Prop :=
  Node.Brings Text.IsPlain (· ∉ Token.newline :: Token.brackets)

namespace Node

variable {options : Options}

private theorem bracketed_flat {condition : Prop} {scope : String} {steps : List (Step Node)}
    (ready : ∀ step ∈ steps, step.Ready) (flat : ∀ step ∈ steps, step.IsFlat)
    (same : (∀ step ∈ steps, step.KeepsLine options.tuple) ↔ condition) :
    Bracketed condition ((Plan.inScope scope steps).signs options) := by
  rw [Plan.signs_inScope]
  exact (Step.bracketed_all flat ready).congr same

private theorem bracketed_enclosed {condition : Prop} {scope leftLabel rightLabel : String}
    (front : List (Step Node)) (left : Token) (steps : List (Step Node)) (right : Token)
    (pair : (left, right) ∈ Token.bracketPairs)
    (ready : ∀ step ∈ front ++ ([Step.token (some left) leftLabel] ++ steps ++
      [Step.token (some right) rightLabel]), step.Ready)
    (flatFront : ∀ step ∈ front, step.IsFlat) (flat : ∀ step ∈ steps, step.IsFlat)
    (same : (∀ step ∈ front, step.KeepsLine options.tuple) ↔ condition) :
    Bracketed condition ((Plan.inScope scope (front ++ ([Step.token (some left) leftLabel] ++
      steps ++ [Step.token (some right) rightLabel]))).signs options) := by
  simp only [List.forall_mem_append] at ready
  obtain ⟨readyFront, ⟨_, readySteps⟩, _⟩ := ready
  rw [Plan.signs_inScope, List.flatMap_append]
  have before : Bracketed _ (front.flatMap (Step.signs scope options)) :=
    Step.bracketed_all flatFront readyFront
  exact (before.append (Step.bracketed_between pair flat readySteps)).congr (by simpa using same)

private theorem bracketed_literalPlan {leaf : Literal}
    (renders : (literal leaf).rendersAsExpression = true) (own : (literal leaf).BringsNoSign)
    (ready : ∀ step ∈ leaf.plan.steps, step.Ready) :
    Bracketed True (leaf.plan.signs options) := by
  unfold Literal.plan at ready ⊢
  split
  · rename_i absent
    rw [if_pos absent, Plan.steps_inScope] at ready
    exact bracketed_flat ready (by simp [(own.raw absent).sign_eq]) (by simp)
  · rename_i given
    obtain ⟨⟨kind, text⟩, found⟩ := (Value.payload_ok_iff leaf.value given).mp renders
    rw [if_neg given] at ready
    simp only [found, Plan.steps_inScope] at ready ⊢
    exact bracketed_flat ready (by simp [(Value.isPayload_of_payload found).sign_eq]) (by simp)

private theorem flat_clauses (clauses : List Node) :
    ∀ step ∈ clauses.flatMap clauseSteps, step.IsFlat := by
  rw [List.forall_mem_flatMap]
  intro clause _
  cases clause <;>
    simp +decide [clauseSteps, clauseSteps?, Shape.forClause, Shape.ifClause]

private theorem operator_keepsLine (options : Options) {op : Option Token}
    (harmless : ∀ symbol ∈ op.toList, symbol ∉ Token.newline :: Token.brackets) (label : String) :
    (Step.token op label).IsFlat ∧ (Step.token op label).KeepsLine options.tuple := by
  constructor
  · intro symbol given
    exact mt (List.mem_cons_of_mem _) (harmless symbol (Option.mem_toList.mpr given))
  · rintro rfl
    exact harmless .newline (by simp) (by simp)

private theorem bracketed_unaryPlan {op : Option Token} {x : Node}
    (renders : (unary op x).rendersAsExpression = true) (own : (unary op x).BringsNoSign)
    (ready : ∀ step ∈ (Plan.unary op x).steps, step.Ready) :
    Bracketed (x.splitsOpenly options.tuple = false) ((Plan.unary op x).signs options) := by
  have operatorFlat : ∀ step ∈ Shape.operator op, step.IsFlat :=
    List.forall_mem_singleton.mpr (operator_keepsLine options own.2 _).1
  have operatorKeeps : ∀ step ∈ Shape.operator op, step.KeepsLine options.tuple :=
    List.forall_mem_singleton.mpr (operator_keepsLine options own.2 _).2
  unfold Plan.unary at ready ⊢
  by_cases missing : x.isMissing = true
  · by_cases star : op = some .star
    · rw [if_pos missing, if_pos star] at ready ⊢
      rw [Plan.steps_inScope] at ready
      refine bracketed_flat ready operatorFlat (iff_of_true operatorKeeps ?_)
      rw [(isMissing_iff x).mp missing]
      rfl
    · simp_all [rendersAsExpression]
  · rw [if_neg missing] at ready ⊢
    have operandFlat : ∀ step ∈ Shape.operand op x, step.IsFlat := by
      unfold Shape.operand
      split <;> simp
    have operandKeeps : (∀ step ∈ Shape.operand op x, step.KeepsLine options.tuple) ↔
        x.splitsOpenly options.tuple = false := by
      unfold Shape.operand
      split <;> simp
    simp only [Plan.steps, List.map_append, List.map_map, List.forall_mem_append] at ready
    obtain ⟨readyOperator, readyOperand⟩ := ready
    rw [Plan.signs_act, List.flatMap_append, List.flatMap_map, List.flatMap_map]
    have first : Bracketed _
        ((Shape.operator op).flatMap (Step.signs (Kind.unary.scope ++ ",") options)) :=
      Step.bracketed_all operatorFlat (List.forall_mem_map.mp readyOperator)
    have second : Bracketed _
        ((Shape.operand op x).flatMap (Step.signs Kind.unary.scope options)) :=
      Step.bracketed_all operandFlat (List.forall_mem_map.mp readyOperand)
    exact (first.append second).congr ((and_iff_right operatorKeeps).trans operandKeeps)

private theorem bracketed_expressionPlan {node : Node} (renders : node.rendersAsExpression = true)
    (own : node.BringsNoSign) (ready : ∀ step ∈ (node.expressionPlan options).steps, step.Ready) :
    Bracketed (node.splitsOpenly options.tuple = false)
      ((node.expressionPlan options).signs options) := by
  cases node with
  | ident leaf =>
    rw [expressionPlan, Plan.steps_inScope] at ready
    exact bracketed_flat ready (by simp [Shape.ident, own.name.sign_eq])
      (by simp [Shape.ident, splitsOpenly])
  | literal leaf => exact (bracketed_literalPlan renders own ready).congr (by simp [splitsOpenly])
  | binary x op y =>
    rw [expressionPlan, Plan.steps_inScope] at ready
    obtain ⟨flat, keeps⟩ := operator_keepsLine options own.2 "Op"
    refine bracketed_flat ready ?_ ?_
    · simp only [Shape.binary, List.forall_mem_append]
      exact ⟨⟨by simp, Shape.flat_padded _ flat⟩, by simp⟩
    · simp only [Shape.binary, List.forall_mem_append,
        Shape.forall_mem_padded (Step.keepsLine_space options.tuple)]
      simp [keeps, splitsOpenly]
  | cond test onTrue onFalse =>
    rw [expressionPlan, Plan.steps_inScope] at ready
    exact bracketed_flat ready (by simp +decide [Shape.cond])
      (by simp [Shape.cond, splitsOpenly, and_assoc])
  | dictEntry key value =>
    rw [expressionPlan, Plan.steps_inScope] at ready
    exact bracketed_flat ready (by simp [Shape.dictEntry]) (by simp [Shape.dictEntry, splitsOpenly])
  | dot x name =>
    rw [expressionPlan, Plan.steps_inScope] at ready
    exact bracketed_flat ready (by simp +decide [Shape.dot]) (by simp [Shape.dot, splitsOpenly])
  | unary op x => exact bracketed_unaryPlan renders own ready
  | tuple elements =>
    rw [expressionPlan, Plan.steps_inScope] at ready
    cases elements with
    | nil =>
      refine bracketed_enclosed [] .leftParen [] .rightParen (by decide) ready (by simp) ?_ ?_
      · simp
      · simp [splitsOpenly, anySplitsOpenly, Layout.decision_zero]
    | cons first rest =>
      refine bracketed_flat ready (Shape.flat_sequence _ _) ?_
      have sequence : Shape.tuple options.tuple (first :: rest) =
          Shape.sequence options.tuple (first :: rest) := rfl
      rw [sequence, Shape.keepsLine_sequence, splitsOpenly, Bool.or_eq_false_iff,
        anySplitsOpenly_eq_false_iff]
  | call fn args =>
    rw [expressionPlan, Plan.steps_inScope] at ready
    exact bracketed_enclosed [.here fn "Fn"] .leftParen _ .rightParen (by decide) ready (by simp)
      (Shape.flat_sequence _ _) (by simp [splitsOpenly])
  | index x y =>
    rw [expressionPlan, Plan.steps_inScope] at ready
    exact bracketed_enclosed [.here x "X"] .leftBracket [.here y "Y"] .rightBracket (by decide)
      ready (by simp) (by simp) (by simp [splitsOpenly])
  | slice x lo hi step =>
    rw [expressionPlan, Plan.steps_inScope] at ready
    have flat : ∀ other ∈ ((lo.unlessMissing lo).map (Step.here · "Lo")).toList ++ [Step.colon] ++
        ((hi.unlessMissing hi).map (Step.here · "Hi")).toList ++
        ((step.unlessMissing step).elim [] fun step => [Step.colon, .here step "Step"]),
        other.IsFlat := by
      cases lo.unlessMissing lo <;> cases hi.unlessMissing hi <;>
        cases step.unlessMissing step <;> simp
    exact bracketed_enclosed [.here x "X"] .leftBracket _ .rightBracket (by decide) ready (by simp)
      flat (by simp [splitsOpenly])
  | list elements =>
    rw [expressionPlan, Plan.steps_inScope] at ready
    exact bracketed_enclosed [] .leftBracket _ .rightBracket (by decide) ready (by simp)
      (Shape.flat_sequence _ _) (by simp [splitsOpenly])
  | dict elements =>
    have entries : strayElement? elements = none := by
      simp_all [rendersAsExpression, strayElement?]
    simp only [expressionPlan, entries, Plan.steps_inScope] at ready ⊢
    exact bracketed_enclosed [] .leftBrace _ .rightBrace (by decide) ready (by simp)
      (Shape.flat_sequence _ _) (by simp [splitsOpenly])
  | paren x =>
    rw [expressionPlan, Plan.steps_inScope] at ready
    refine bracketed_enclosed [] .leftParen _ .rightParen (by decide) ready (by simp) ?_
      (by simp [splitsOpenly])
    split <;> simp
  | comprehension body clauses curly =>
    rw [rendersAsExpression, Bool.and_eq_true, renderAsClauses_iff] at renders
    have steps : clausesSteps clauses = .ok (clauses.flatMap clauseSteps) :=
      (clausesSteps_eq_ok_iff _ _).mpr
        ⟨fun clause member => ((rendersAsClause_iff clause).mp (renders.2 clause member)).1, rfl⟩
    have flat : ∀ step ∈ .here body "Body" :: clauses.flatMap clauseSteps, step.IsFlat :=
      List.forall_mem_cons.mpr ⟨Step.flat_here body "Body", flat_clauses clauses⟩
    simp only [expressionPlan, steps, Plan.steps_inScope] at ready ⊢
    exact bracketed_enclosed [] (if curly then .leftBrace else .leftBracket) _
      (if curly then .rightBrace else .rightBracket) (by cases curly <;> decide) ready (by simp)
      flat (by simp [splitsOpenly])
  | _ => cases renders

private theorem signs_endLine (scope : String) (front : List (Step Node)) :
    (Plan.inScope scope (front ++ [Step.newline])).signs options =
      (Plan.inScope scope front).signs options ++ [.lineBreak] := by
  rw [Plan.signs_inScope, Plan.signs_inScope, List.flatMap_append]
  rfl

/-- The plan of a simple statement is balanced up to the end of its line. -/
private theorem bracketed_statementPlan {node : Node} (simple : node.isSimple = true)
    (renders : node.rendersAsStatement = true)
    (ready : ∀ step ∈ (node.statementPlan options).steps, step.Ready) :
    ∃ front, (node.statementPlan options).signs options = front ++ [.lineBreak] ∧
      Bracketed (node.splitsOpenly options.tuple = false) front := by
  have line {scope : String} (front : List (Step Node))
      (ready : ∀ step ∈ front ++ [Step.newline], step.Ready)
      (flat : ∀ step ∈ front, step.IsFlat)
      (same : (∀ step ∈ front, step.KeepsLine options.tuple) ↔
        node.splitsOpenly options.tuple = false) :
      ∃ signs,
        (Plan.inScope scope (front ++ [Step.newline])).signs options = signs ++ [.lineBreak] ∧
        Bracketed (node.splitsOpenly options.tuple = false) signs := by
    refine ⟨_, signs_endLine scope front, bracketed_flat ?_ flat same⟩
    exact (List.forall_mem_append.mp ready).1
  cases node with
  | assign lhs op rhs =>
    simp only [rendersAsStatement, Bool.and_eq_true] at renders
    simp only [statementPlan, renders.1.1, if_true, Plan.steps_inScope] at ready ⊢
    obtain ⟨symbol, rfl, assigns⟩ := (Option.any_eq_true _ _).mp renders.1.1
    have table : ∀ symbol ∈ Token.assignments, symbol ∉ Token.newline :: Token.brackets := by
      decide
    have harmless := not_or.mp (mt List.mem_cons.mpr (table symbol (by simpa using assigns)))
    refine line [.indent, .here lhs "LHS", .space, .token (some symbol) "Op", .space,
      .here rhs "RHS"] ready ?_ ?_
    · simp [harmless.2]
    · simp [harmless.1, splitsOpenly]
  | exprStmt x =>
    simp only [isSimple, Option.isNone_iff_eq_none] at simple
    simp only [statementPlan, simple, Plan.steps_inScope] at ready ⊢
    exact line [.indent, .here x "X"] ready (by simp) (by simp [splitsOpenly])
  | load path sources locals =>
    simp only [rendersAsStatement, Bool.and_eq_true, decide_eq_true_eq] at renders
    have split : Shape.load options.spaceEqBinary ofIdent? path sources locals =
        [Step.indent, .mark .kwLoad] ++ ([Step.mark .leftParen] ++ (Step.here path "Module" ::
          Shape.bindings options.spaceEqBinary ofIdent? 0 (sources.zip locals)) ++
          [Step.mark .rightParen]) ++ [Step.newline] := by
      simp [Shape.load]
    simp only [statementPlan, renders.1.1, if_true, Plan.steps_inScope, split] at ready ⊢
    refine ⟨_, signs_endLine _ _, ?_⟩
    refine bracketed_enclosed [.indent, .mark .kwLoad] .leftParen _ .rightParen (by decide)
      (List.forall_mem_append.mp ready).1 (by simp +decide) ?_ (by simp [splitsOpenly])
    exact List.forall_mem_cons.mpr ⟨Step.flat_here path "Module", Shape.flat_bindings _ _ _ _⟩
  | returns result =>
    rw [statementPlan, Plan.steps_inScope] at ready
    refine line ([Step.indent, .mark .kwReturn] ++ ((result.unlessMissing result).elim []
      fun result => [Step.space, .here result "Result"])) ready ?_ ?_
    · cases result.unlessMissing result <;> simp +decide
    · by_cases missing : result.isMissing = true
      · simp [(isMissing_iff result).mp missing, unlessMissing, isMissing, splitsOpenly]
      · simp [unlessMissing, missing, splitsOpenly]
  | _ => cases simple

end Node

theorem Plan.ready_of_renders {plan : Plan} (renders : plan.Renders)
    (parts : plan.Every Role.Balances) : ∀ step ∈ plan.steps, step.Ready := by
  cases plan with
  | refuse reason => exact absurd renders (not_renders_refuse reason)
  | act actions =>
    refine List.forall_mem_map.mpr fun action member => ?_
    exact ⟨renders.1 action member, parts action member⟩

theorem Role.signs_eq_plan {role : Role} {node : Node} (renders : role.renders node = true)
    (options : Options) : role.signs node options = (role.plan node options).signs options := by
  rw [signs, Role.writes_eq_plan renders]
  rfl

/-- What brings along no signs is balanced. -/
theorem Role.balances {role : Role} {node : Node} (renders : role.renders node = true)
    (plain : node.Throughout Node.BringsNoSign) : role.Balances node := by
  refine Role.induction_on_rendered ?_ role node renders plain
  intro role node renders own parts
  have ready (options : Options) : ∀ step ∈ (role.plan node options).steps, step.Ready :=
    Plan.ready_of_renders ((role.renders_iff_plan node options).mp renders) (parts options)
  cases role with
  | expression =>
    intro options
    rw [Role.signs_eq_plan renders options]
    exact Node.bracketed_expressionPlan renders own (ready options)
  | statement =>
    intro simple options
    rw [Role.signs_eq_plan renders options]
    exact Node.bracketed_statementPlan simple renders (ready options)

/-- Line breaks before the last sign are those in front of it. -/
private theorem Sign.encloses_iff_front (front : List Sign) :
    (∀ before after, front ++ [.lineBreak] = before ++ .lineBreak :: after → after ≠ [] →
      0 < level before) ↔ Encloses front := by
  constructor
  · intro inner before after same
    exact inner before (after ++ [.lineBreak]) (by simp [same]) (by simp)
  · intro encloses before after same present
    obtain ⟨rest, last, rfl⟩ := (List.eq_nil_or_concat after).resolve_left present
    rw [List.concat_eq_append, ← List.cons_append, ← List.append_assoc] at same
    exact encloses before rest (List.append_inj_left' same rfl)

/-- The brackets of a simple statement that brings along no signs are balanced. Its line
feeds before the last write stand in brackets, so that it is one logical line, exactly if
no tuple outside of brackets is split. An indentation is not a sign here, and with a plain
indent it does not spell one: then the signs are those of all the texts. -/
theorem simple_statement_breaks_in_brackets_iff (options : Options) (node : Node)
    (simple : node.isSimple = true)
    (renders : ((Role.statement.emission node options).run Sink.buffer "").ending = .done)
    (plain : node.Throughout Node.BringsNoSign) :
    let signs := (Role.statement.trace node options).writes.map Write.sign
    Sign.level signs = 0 ∧
      ((∀ before after, signs = before ++ .lineBreak :: after → after ≠ [] →
          0 < Sign.level before) ↔
        node.splitsOpenly options.tuple = false) ∧
      (Text.IsPlain options.indent →
        signs = (Role.statement.trace node options).texts.map Text.sign) := by
  intro signs
  have rendered := (Role.statement.buffer_ending_iff node options).mp renders
  obtain ⟨front, same, bracketed⟩ := Role.balances rendered plain simple options
  have whole : signs = front ++ [.lineBreak] := same
  refine ⟨?_, ?_, fun unmarked => Role.statement.signs_eq_texts unmarked node⟩
  · rw [whole, Sign.level_append, bracketed.settled]
    rfl
  · rw [whole, Sign.encloses_iff_front]
    exact bracketed.encloses_iff

/-- A split tuple that is returned leaves line feeds outside of brackets. -/
theorem returned_split_tuple_breaks_outside_brackets :
    let result : Node := .tuple [.ident ⟨"a", none⟩, .list [.ident ⟨"b", none⟩]]
    let options : Options := { tuple := ⟨.always, .never⟩, list := ⟨.always, .always⟩ }
    let signs := (Role.statement.trace (.returns result) options).writes.map Write.sign
    Sign.level signs = 0 ∧
      ¬ ∀ before after, signs = before ++ .lineBreak :: after → after ≠ [] →
        0 < Sign.level before := by
  intro result options signs
  have both := simple_statement_breaks_in_brackets_iff options (.returns result) rfl (by decide)
    (Node.throughout_of_checks (show Node.checks Node.BringsNoSign 5 _ = true by decide))
  exact ⟨both.1, fun inside => absurd (both.2.1.mp inside) (by decide)⟩

end StarlarkPrinter
