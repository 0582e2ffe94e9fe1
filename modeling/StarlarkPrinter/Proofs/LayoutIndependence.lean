import StarlarkPrinter.Proofs.Parts

/-! Options choose a layout and nothing else. A trace is seen without its layout when
the commas and the blank texts are taken out of it. What is seen of a plan depends on
what is seen of its parts, and not on the options, so two printings of one tree look
the same and end the same. -/

namespace StarlarkPrinter

namespace Text

/-- A text of spaces, tabs and line feeds. -/
def isBlankText (text : String) : Bool :=
  text.toList.all (· ∈ [' ', '\t', '\n'])

/-- A text that only lays out the texts around it: a comma or a blank one. -/
def isLayout (text : String) : Bool :=
  text = "," || isBlankText text

end Text

/-- The options indent by spaces and tabs. -/
def Options.IndentsBlank (options : Options) : Prop :=
  ∀ char ∈ options.indent.toList, char = ' ' ∨ char = '\t'

instance (options : Options) : Decidable options.IndentsBlank :=
  List.decidableBAll (fun char => char = ' ' ∨ char = '\t') options.indent.toList

namespace Options

theorem IndentsBlank.deeper {options : Options} (blank : options.IndentsBlank) (levels : Nat) :
    (options.deeper levels).IndentsBlank := blank

theorem IndentsBlank.mem_indentation {options : Options} (blank : options.IndentsBlank)
    {extra : Int} {char : Char} (member : char ∈ (options.indentation extra).toList) :
    char = ' ' ∨ char = '\t' := by
  rw [indentation, repeated_eq_join, String.toList_join, List.mem_flatMap] at member
  obtain ⟨unit, copied, inside⟩ := member
  rw [List.eq_of_mem_replicate copied] at inside
  exact blank char inside

theorem IndentsBlank.isLayout_indentation {options : Options} (blank : options.IndentsBlank)
    (extra : Int) : Text.isLayout (options.indentation extra) = true := by
  have everywhere : Text.isBlankText (options.indentation extra) = true := by
    apply List.all_eq_true.mpr
    intro char member
    rcases blank.mem_indentation member with rfl | rfl <;> decide
  simp [Text.isLayout, everywhere]

end Options

namespace Trace

/-- A trace without the texts that only lay it out. -/
def visible (trace : Trace) : Trace :=
  ⟨trace.writes.filter fun write => !Text.isLayout write.text, trace.ending⟩

@[simp]
theorem visible_nothing : nothing.visible = nothing := rfl

theorem visible_append (first second : Trace) :
    (first.append second).visible = first.visible.append second.visible := by
  obtain ⟨writes, ending⟩ := first
  cases ending <;> simp [visible, append]

theorem visible_concat (traces : List Trace) :
    (concat traces).visible = concat (traces.map visible) := by
  induction traces with
  | nil => rfl
  | cons trace rest ih => simp [visible_append, ih]

theorem visible_within (crumb : Crumb) (trace : Trace) :
    (trace.within crumb).visible = trace.visible.within crumb := by
  obtain ⟨writes, ending⟩ := trace
  simp only [visible, within, List.filter_map]
  rfl

theorem texts_visible (trace : Trace) :
    trace.visible.texts = trace.texts.filter fun text => !Text.isLayout text := by
  simp only [texts, visible, List.filter_map]
  rfl

theorem visible_layout {text : String} (layout : Text.isLayout text = true) (path : List Crumb) :
    visible ⟨[⟨text, path⟩], .done⟩ = nothing := by
  simp [visible, layout, nothing]

end Trace

section Seen

variable (scope : String) (view : Role → Node → Trace)

/-- What is seen of a step, given what is seen of its parts. -/
def Step.seen : Step Node → Trace
  | .part tree label _ => (view .expression tree).within (.part scope label)
  | .block trees label _ =>
    .concat (trees.zipIdx.map fun (tree, index) =>
      (view .statement tree).within (.statement scope label index))
  | .indent | .innerIndent | .unknown _ => .nothing
  | .token symbol label => ((tokenEmission symbol).trace.within (.token scope label)).visible
  | .text content label => Trace.visible ⟨[⟨content, [.part scope label]⟩], .done⟩

private theorem Step.seen_mark {symbol : Token} (spelling : String)
    (spelled : symbol.spelling? = some spelling) (layout : Text.isLayout spelling = true) :
    (mark symbol).seen scope view = .nothing := by
  simp only [mark, seen, tokenEmission, Option.bind_some, spelled]
  exact Trace.visible_layout layout _

@[simp]
theorem Step.seen_space : space.seen scope view = .nothing :=
  Trace.visible_layout (by decide) _

@[simp]
theorem Step.seen_comma : comma.seen scope view = .nothing :=
  seen_mark scope view "," (by decide) (by decide)

@[simp]
theorem Step.seen_newline : newline.seen scope view = .nothing :=
  seen_mark scope view "\n" (by decide) (by decide)

@[simp]
theorem Step.seen_indent : indent.seen scope view = .nothing := rfl

@[simp]
theorem Step.seen_innerIndent : innerIndent.seen scope view = .nothing := rfl

@[simp]
theorem Step.seen_here (tree : Node) (label : String) :
    (here tree label).seen scope view = (view .expression tree).within (.part scope label) := rfl

@[simp]
theorem Step.seen_inside (tree : Node) (label : String) :
    (inside tree label).seen scope view = (view .expression tree).within (.part scope label) := rfl

def Shape.seen (steps : List (Step Node)) : Trace :=
  .concat (steps.map (Step.seen scope view))

namespace Shape

@[simp]
theorem seen_nil : seen scope view [] = .nothing := rfl

@[simp]
theorem seen_cons (step : Step Node) (rest : List (Step Node)) :
    seen scope view (step :: rest) = (step.seen scope view).append (seen scope view rest) := rfl

@[simp]
theorem seen_append (first second : List (Step Node)) :
    seen scope view (first ++ second) =
      (seen scope view first).append (seen scope view second) := by
  simp [seen, Trace.concat_append]

theorem seen_padded (spaced : Bool) (step : Step Node) :
    seen scope view (Step.padded spaced step) = step.seen scope view := by
  cases spaced <;> simp [Step.padded]

/-- What is seen of elements, numbered from `index`. -/
def seenElements (label : String) : Nat → List Node → Trace
  | _, [] => .nothing
  | index, tree :: rest =>
    ((view .expression tree).within (.part scope (label ++ " " ++ Text.decimal index))).append
      (seenElements label (index + 1) rest)

/-- Separators that are not seen leave the elements. -/
theorem seen_numbered {separator : List (Step Node)}
    (unseen : seen scope view separator = .nothing) {step : Node → String → Step Node}
    (part : ∀ tree label,
      (step tree label).seen scope view = (view .expression tree).within (.part scope label))
    (label : String) (index : Nat) (elements : List Node) :
    seen scope view (numbered separator step label index elements) =
      seenElements scope view label index elements := by
  induction elements generalizing index with
  | nil => rfl
  | cons tree rest ih =>
    have front : seen scope view (if index = 0 then [] else separator) = .nothing := by
      split
      · rfl
      · exact unseen
    simp [numbered, seenElements, front, part, ih]

/-- A sequence shows its elements, whatever its layout. -/
theorem seen_sequence (layout : Layout) (elements : List Node) :
    seen scope view (sequence layout elements) =
      seenElements scope view "element" 0 elements := by
  have ending (present : Bool) :
      seen scope view (if present then [.comma] else []) = .nothing := by
    cases present <;> simp
  have oneLine : seen scope view (onOneLine "element" elements) =
      seenElements scope view "element" 0 elements :=
    seen_numbered scope view (by simp) (Step.seen_here scope view) "element" 0 elements
  have lines : seen scope view
        (numbered [.comma, .newline, .innerIndent] .inside "element" 0 elements) =
      seenElements scope view "element" 0 elements :=
    seen_numbered scope view (by simp) (Step.seen_inside scope view) "element" 0 elements
  simp only [sequence]
  split
  · simp [onLines, lines, ending]
  · simp [oneLine, ending]

/-- The names of a load show the same with and without spaces. -/
theorem seen_bindings (spaced other : Bool) (leaf : Option Ident → Node) (index : Nat)
    (pairs : List (Option Ident × Option Ident)) :
    seen scope view (bindings spaced leaf index pairs) =
      seen scope view (bindings other leaf index pairs) := by
  induction pairs generalizing index with
  | nil => rfl
  | cons pair rest ih =>
    obtain ⟨source, bound⟩ := pair
    simp only [bindings, binding, seen_append, ih]
    cases writtenName? source bound with
    | none => rfl
    | some name => simp only [seen_cons, seen_padded]

end Shape

end Seen

/-- What is seen of a plan, given what is seen of its parts. -/
def Plan.seen (view : Role → Node → Trace) : Plan → Trace
  | .refuse reason => ⟨[], .failed (.ofReason reason)⟩
  | .act actions => .concat (actions.map fun action => action.step.seen action.scope view)

theorem Plan.seen_inScope (view : Role → Node → Trace) (scope : String)
    (steps : List (Step Node)) :
    (inScope scope steps).seen view = Shape.seen scope view steps := by
  simp [inScope, seen, Shape.seen, Function.comp_def]

/-- What is seen of a node does not depend on the options. -/
theorem Role.seen_plan (view : Role → Node → Trace) (role : Role) (node : Node)
    (first second : Options) :
    (role.plan node first).seen view = (role.plan node second).seen view := by
  cases role with
  | expression =>
    cases node with
    | binary x op y =>
      simp only [plan, Node.expressionPlan, Plan.seen_inScope, Shape.binary, Shape.seen_append,
        Shape.seen_padded]
    | call fn args =>
      simp only [plan, Node.expressionPlan, Plan.seen_inScope, Shape.call, Shape.seen_append,
        Shape.seen_sequence]
    | dict elements =>
      simp only [plan, Node.expressionPlan]
      cases Node.strayElement? elements with
      | some stray => rfl
      | none => simp only [Plan.seen_inScope, Shape.dict, Shape.seen_append, Shape.seen_sequence]
    | list elements =>
      simp only [plan, Node.expressionPlan, Plan.seen_inScope, Shape.list, Shape.seen_append,
        Shape.seen_sequence]
    | tuple elements =>
      simp only [plan, Node.expressionPlan, Plan.seen_inScope, Shape.tuple]
      split
      · rfl
      · simp only [Shape.seen_sequence]
    | _ => rfl
  | statement =>
    cases node with
    | load path sources locals =>
      simp only [plan, Node.statementPlan]
      split
      · simp only [Plan.seen_inScope, Shape.load, Shape.seen_append]
        rw [Shape.seen_bindings _ _ first.spaceEqBinary second.spaceEqBinary]
      · rfl
    | _ => rfl

/-- A node looks the same under all options that indent by spaces and tabs. -/
def Role.LooksTheSame (role : Role) (node : Node) : Prop :=
  ∀ options : Options, options.IndentsBlank →
    (role.trace node options).visible = (role.trace node {}).visible

/-- What a node shows under the default options. -/
def Role.view (role : Role) (node : Node) : Trace :=
  (role.trace node {}).visible

theorem Step.visible_trace (scope : String) {options : Options} (blank : options.IndentsBlank)
    (step : Step Node) (parts : step.Every Role.LooksTheSame) :
    (step.trace scope options).visible = step.seen scope Role.view := by
  cases step with
  | part tree label levels =>
    rw [trace_part, Trace.visible_within, parts _ (blank.deeper levels)]
    rfl
  | block trees label levels =>
    simp only [trace_block, Trace.visible_concat, List.map_map, seen]
    congr 1
    apply List.map_congr_left
    rintro ⟨tree, index⟩ numbered
    have same := parts tree (List.fst_mem_of_mem_zipIdx numbered) _ (blank.deeper levels)
    simp only [Function.comp_apply, Trace.visible_within, same]
    rfl
  | indent => exact Trace.visible_layout (blank.isLayout_indentation 0) _
  | innerIndent => exact Trace.visible_layout (blank.isLayout_indentation 1) _
  | token symbol label => rfl
  | text content label => rfl
  | unknown code => exact parts.elim

theorem Plan.visible_trace {options : Options} (blank : options.IndentsBlank) (plan : Plan)
    (parts : plan.Every Role.LooksTheSame) :
    (plan.trace options).visible = plan.seen Role.view := by
  cases plan with
  | refuse reason => rfl
  | act actions =>
    simp only [trace, seen, Trace.visible_concat, List.map_map]
    congr 1
    apply List.map_congr_left
    intro action member
    exact action.step.visible_trace action.scope blank (parts action member)

theorem Role.looksTheSame (role : Role) (node : Node) : role.LooksTheSame node := by
  induction role, node using Role.induction_on_parts with
  | inherit role node parts =>
    intro options blank
    have usual : Options.IndentsBlank {} := by decide
    rw [role.trace_eq_plan, role.trace_eq_plan, Plan.visible_trace blank _ (parts options),
      Plan.visible_trace usual _ (parts {})]
    exact role.seen_plan _ node options {}

end StarlarkPrinter
