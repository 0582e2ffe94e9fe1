import StarlarkPrinter.Shape.Docstring
import StarlarkPrinter.Shape.Expression
import StarlarkPrinter.Shape.Statement

namespace StarlarkPrinter

namespace Step

variable {α β : Type} (single member : α → β)

@[simp]
theorem map_block (trees : List α) (label : String) (levels : Nat) :
    (block trees label levels).map single member = block (trees.map member) label levels := rfl

@[simp]
theorem map_indent : (indent : Step α).map single member = indent := rfl

@[simp]
theorem map_innerIndent : (innerIndent : Step α).map single member = innerIndent := rfl

@[simp]
theorem map_token (symbol : Option Token) (label : String) :
    (token symbol label : Step α).map single member = token symbol label := rfl

@[simp]
theorem map_text (content label : String) :
    (text content label : Step α).map single member = text content label := rfl

@[simp]
theorem map_here (tree : α) (label : String) :
    (here tree label).map single member = here (single tree) label := rfl

@[simp]
theorem map_inside (tree : α) (label : String) :
    (inside tree label).map single member = inside (single tree) label := rfl

@[simp]
theorem map_mark (symbol : Token) : (mark symbol : Step α).map single member = mark symbol := rfl

@[simp]
theorem map_quote : (quote : Step α).map single member = quote := rfl

@[simp]
theorem map_space : (space : Step α).map single member = space := rfl

@[simp]
theorem map_colon : (colon : Step α).map single member = colon := rfl

@[simp]
theorem map_comma : (comma : Step α).map single member = comma := rfl

@[simp]
theorem map_newline : (newline : Step α).map single member = newline := rfl

@[simp]
theorem map_padded (spaced : Bool) (step : Step α) :
    (padded spaced step).map (Step.map single member) =
      padded spaced (step.map single member) := by
  cases spaced <;> simp [padded]

end Step

namespace Shape

variable {α β : Type} (single member : α → β)

theorem map_numbered (separator : List (Step α)) (step : α → String → Step α)
    (changed : β → String → Step β)
    (natural : ∀ tree label, (step tree label).map single member = changed (single tree) label)
    (label : String) (index : Nat) (trees : List α) :
    (numbered separator step label index trees).map (Step.map single member) =
      numbered (separator.map (Step.map single member)) changed label index
        (trees.map single) := by
  induction trees generalizing index with
  | nil => rfl
  | cons tree rest ih => by_cases first : index = 0 <;> simp [numbered, first, natural, ih]

@[simp]
theorem map_onOneLine (label : String) (elements : List α) :
    (onOneLine label elements).map (Step.map single member) =
      onOneLine label (elements.map single) := by
  simp [onOneLine, map_numbered single member _ .here .here fun _ _ => rfl]

@[simp]
theorem map_onLines (label : String) (elements : List α) (ending : List (Step α)) :
    (onLines label elements ending).map (Step.map single member) =
      onLines label (elements.map single) (ending.map (Step.map single member)) := by
  simp [onLines, map_numbered single member _ .inside .inside fun _ _ => rfl]

@[simp]
theorem map_sequence (layout : Layout) (elements : List α) :
    (sequence layout elements).map (Step.map single member) =
      sequence layout (elements.map single) := by
  simp only [sequence, List.length_map]
  split <;> split <;> simp

@[simp]
theorem map_tuple (layout : Layout) (elements : List α) :
    (tuple layout elements).map (Step.map single member) =
      tuple layout (elements.map single) := by
  cases elements <;> simp [tuple]

@[simp]
theorem map_slice (x : α) (lo hi step : Option α) :
    (slice x lo hi step).map (Step.map single member) =
      slice (single x) (lo.map single) (hi.map single) (step.map single) := by
  cases lo <;> cases hi <;> cases step <;> simp [slice]

@[simp]
theorem map_operand (op : Option Token) (x : α) :
    (operand op x).map (Step.map single member) = operand op (single x) := by
  unfold operand
  split <;> simp

@[simp]
theorem map_body (label : String) (members : List α) :
    (body label members).map (Step.map single member) = body label (members.map member) := by
  simp [body]

@[simp]
theorem map_ifThen (cond : α) (onTrue onFalse : List α) :
    (ifThen cond onTrue onFalse).map (Step.map single member) =
      ifThen (single cond) (onTrue.map member) (onFalse.map member) := by
  cases onFalse <;> simp [ifThen]

theorem map_bindings (spaceEqBinary : Bool) (leaf : Option Ident → α) (index : Nat)
    (pairs : List (Option Ident × Option Ident)) :
    (bindings spaceEqBinary leaf index pairs).map (Step.map single member) =
      bindings spaceEqBinary (single ∘ leaf) index pairs := by
  induction pairs generalizing index with
  | nil => rfl
  | cons pair rest ih =>
    obtain ⟨source, bound⟩ := pair
    cases written : writtenName? source bound <;> simp [bindings, binding, written, ih]

@[simp]
theorem map_load (spaceEqBinary : Bool) (leaf : Option Ident → α) (path : α)
    (sources locals : List (Option Ident)) :
    (load spaceEqBinary leaf path sources locals).map (Step.map single member) =
      load spaceEqBinary (single ∘ leaf) (single path) sources locals := by
  simp [load, map_bindings]

@[simp]
theorem map_returns (result : Option α) :
    (returns result).map (Step.map single member) = returns (result.map single) := by
  cases result <;> simp [returns]

theorem map_furtherLines (width index : Nat) (lines : List (List Char)) :
    (furtherLines width index lines : List (Step α)).map (Step.map single member) =
      furtherLines width index lines := by
  induction lines generalizing index with
  | nil => rfl
  | cons line rest ih =>
    simp only [furtherLines, List.map_append, List.map_cons, ih]
    split <;> simp

@[simp]
theorem map_docstring (literal : Literal) (text : String) :
    (docstring literal text : List (Step α)).map (Step.map single member) =
      docstring literal text := by
  simp [docstring, map_furtherLines]

end Shape

end StarlarkPrinter
