import StarlarkPrinter.Step.Basic

namespace StarlarkPrinter.Shape

variable {α : Type}

/-- Parts in order, each with a label for its index, and a separator in front of
every part but the one at index zero. -/
def numbered (separator : List (Step α)) (step : α → String → Step α) (label : String) :
    Nat → List α → List (Step α)
  | _, [] => []
  | index, tree :: rest =>
    (if index = 0 then [] else separator) ++
      step tree (label ++ " " ++ Text.decimal index) ::
        numbered separator step label (index + 1) rest

def onOneLine (label : String) (elements : List α) : List (Step α) :=
  numbered [.comma, .space] .here label 0 elements

/-- Elements on lines of their own, one level deeper; what follows goes on a fresh
line at the current depth. `ending` comes right after the last element. -/
def onLines (label : String) (elements : List α) (ending : List (Step α)) : List (Step α) :=
  [.newline, .innerIndent] ++
    numbered [.comma, .newline, .innerIndent] .inside label 0 elements ++
    ending ++ [.newline, .indent]

/-- The elements of a sequence under a layout. -/
def sequence (layout : Layout) (elements : List α) : List (Step α) :=
  let decision := layout.decision elements.length
  let ending := if decision.trailingComma then [.comma] else []
  if decision.breakLines then onLines "element" elements ending
  else onOneLine "element" elements ++ ending

end StarlarkPrinter.Shape
