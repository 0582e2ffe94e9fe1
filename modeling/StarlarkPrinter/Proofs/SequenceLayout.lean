import StarlarkPrinter.Proofs.Chars

namespace StarlarkPrinter

/-- The text of a node in the place of an expression, as a buffer holds it. -/
def Node.text (node : Node) (options : Options) : String :=
  ((Role.expression.emission node options).run Sink.buffer "").state

@[simp]
theorem Node.toList_text (node : Node) (options : Options) :
    (node.text options).toList = node.chars options :=
  Role.expression.toList_buffer node options

namespace Sequence

/-- The node that holds a sequence. Only a call has something in front of its brackets. -/
def node (fn : Node) (elements : List Node) : Sequence → Node
  | .call => .call fn elements
  | .dict => .dict elements
  | .list => .list elements
  | .tuple => .tuple elements

/-- The text in front of the elements. A tuple has no brackets unless it is empty. -/
def opening (fn : String) (empty : Bool) : Sequence → String
  | .call => fn ++ "("
  | .dict => "\x7b"
  | .list => "["
  | .tuple => if empty then "(" else ""

def closing (empty : Bool) : Sequence → String
  | .call => ")"
  | .dict => "\x7d"
  | .list => "]"
  | .tuple => if empty then ")" else ""

end Sequence

def Options.pad (options : Options) (count : Nat) : String :=
  String.join (List.replicate count options.indent)

/-- The elements of a sequence as the policy of a number lays them out: on lines of their own
one level deeper, or on one line, and with or without a comma after the last. -/
def laidOut (policy : Nat) (elements : List Node) (options : Options) : String :=
  let many := 1 < elements.length
  let comma := if policy % 3 = 1 ∨ policy % 3 = 2 ∧ many then "," else ""
  if elements.isEmpty then ""
  else if policy / 3 = 2 ∨ policy / 3 = 1 ∧ many then
    let lines := elements.map fun element =>
      options.pad (options.depth + 1) ++ element.text (options.deeper 1)
    "\n" ++ ",\n".intercalate lines ++ comma ++ "\n" ++ options.pad options.depth
  else ", ".intercalate (elements.map (·.text options)) ++ comma

theorem Options.toList_pad (options : Options) (extra : Nat) :
    (options.pad (options.depth + extra)).toList = (options.indentation extra).toList := by
  rw [pad, indentation, repeated_eq_join]
  rfl

namespace Layout

/-- The number of a policy tells which sequences it splits. -/
theorem breakLines_iff (layout : Layout) {count : Nat} (present : 0 < count) :
    (layout.decision count).breakLines = true ↔
      layout.code / 3 = 2 ∨ layout.code / 3 = 1 ∧ 1 < count := by
  have many : (1 : Int) < count ↔ 1 < count := by omega
  obtain ⟨lineBreak, trailingComma⟩ := layout
  cases lineBreak <;> cases trailingComma <;>
    simp [decision, LineBreak.applies, code, LineBreak.code, TrailingComma.code, present, many]

/-- The number of a policy tells which sequences end in a comma. -/
theorem trailingComma_iff (layout : Layout) {count : Nat} (present : 0 < count) :
    (layout.decision count).trailingComma = true ↔
      layout.code % 3 = 1 ∨ layout.code % 3 = 2 ∧ 1 < count := by
  have many : (1 : Int) < count ↔ 1 < count := by omega
  obtain ⟨lineBreak, trailingComma⟩ := layout
  cases lineBreak <;> cases trailingComma <;>
    simp [decision, TrailingComma.applies, code, LineBreak.code, TrailingComma.code, present, many]

end Layout

namespace Text

theorem separated_eq_intercalate (gap : List Char) (texts : List (List Char)) :
    separated gap texts = (',' :: gap).intercalate texts := by
  cases texts with
  | nil => rfl
  | cons text rest =>
    induction rest generalizing text with
    | nil => simp [separated]
    | cons other others ih =>
      have further := ih other
      simp only [separated, List.flatMap_cons, List.intercalate_cons_cons] at further ⊢
      rw [← further]
      simp

/-- A margin that follows every separator, and stands in front, belongs to the texts. -/
theorem intercalate_margin (separator margin : List Char) {texts : List (List Char)}
    (present : texts ≠ []) :
    margin ++ (separator ++ margin).intercalate texts =
      separator.intercalate (texts.map (margin ++ ·)) := by
  cases texts with
  | nil => exact absurd rfl present
  | cons text rest =>
    induction rest generalizing text with
    | nil => simp
    | cons other others ih =>
      have further := ih other (by simp)
      simp only [List.map_cons, List.intercalate_cons_cons] at further ⊢
      rw [← further]
      simp

end Text

/-- The gaps between the elements are those that the number of the policy says. -/
theorem Spacing.chars_ofLayout (options : Options) (layout : Layout) (elements : List Node) :
    (ofLayout options layout elements.length).chars elements =
      (laidOut layout.code elements options).toList := by
  by_cases present : elements = []
  · subst present
    simp [ofLayout, layout.decision_zero, chars, laidOut, Text.separated]
  have counted : 0 < elements.length := List.length_pos_iff.mpr present
  have comma : (if (layout.decision elements.length).trailingComma then [','] else []) =
      (if (layout.decision elements.length).trailingComma then "," else "").toList := by
    split <;> rfl
  simp only [ofLayout, chars, laidOut, List.isEmpty_iff, present, if_false,
    ← layout.breakLines_iff counted, ← layout.trailingComma_iff counted, comma]
  split
  -- The margin behind each separator belongs to the element that it stands in front of.
  · have filled : elements.map (·.chars (options.deeper 1)) ≠ [] := by simpa using present
    have lines := Text.intercalate_margin [',', '\n'] (options.indentation 1).toList filled
    have outer : (options.pad options.depth).toList = (options.indentation 0).toList :=
      options.toList_pad 0
    rw [List.map_map] at lines
    simp only [Text.separated_eq_intercalate, String.toList_append, String.toList_intercalate,
      List.map_map, Function.comp_def, Node.toList_text, options.toList_pad 1, outer] at lines ⊢
    simp [← lines]
  · simp [Text.separated_eq_intercalate, String.toList_intercalate, Function.comp_def]

namespace Sequence

variable {fn : Node} {elements : List Node}

/-- A sequence renders if its elements do, the elements of a dict being entries. -/
theorem renders_node {sequence : Sequence}
    (head : sequence = .call → fn.rendersAsExpression = true)
    (entries : sequence = .dict → ∀ element ∈ elements, element.kind = .dictEntry)
    (render : ∀ element ∈ elements, element.rendersAsExpression = true) :
    (sequence.node fn elements).rendersAsExpression = true := by
  have every := (Node.renderAsExpressions_iff elements).mpr render
  cases sequence with
  | call => simp [node, Node.rendersAsExpression, head rfl, every]
  | dict => simpa [node, Node.rendersAsExpression, every] using entries rfl
  | list | tuple => exact every

/-- The brackets of a sequence stand around its elements. -/
theorem chars_node (options : Options) (sequence : Sequence)
    (renders : (sequence.node fn elements).rendersAsExpression = true) :
    (sequence.node fn elements).chars options =
      (sequence.opening (fn.text options) elements.isEmpty).toList ++
        (laidOut (options.layoutOf sequence).code elements options).toList ++
        (sequence.closing elements.isEmpty).toList := by
  rw [← Spacing.chars_ofLayout]
  cases sequence with
  | call => simp [node, opening, closing, Options.layoutOf, Node.chars_call options renders]
  | dict => simp [node, opening, closing, Options.layoutOf, Node.chars_dict options renders]
  | list => simp [node, opening, closing, Options.layoutOf, Node.chars_list options renders]
  | tuple =>
    by_cases empty : elements = []
    · subst empty
      rw [Node.chars_eq_plan options renders, Spacing.chars_ofLayout]
      simp [node, Node.expressionPlan, Shape.tuple, opening, closing, laidOut, Token.chars_marks]
    · simp [node, opening, closing, Options.layoutOf, Node.chars_tuple options empty renders, empty]

end Sequence

end StarlarkPrinter
