import StarlarkPrinter.Layout.Basic
import StarlarkPrinter.Tree.Value

namespace StarlarkPrinter

/-- The options of the printer. A block or a split sequence hands down a deeper copy, so
siblings never see each other's depth. -/
structure Options where
  depth : Nat := 0
  indent : String := "    "
  spaceEqBinary : Bool := false
  call : Layout := {}
  dict : Layout := {}
  list : Layout := {}
  tuple : Layout := {}
deriving DecidableEq, Repr

namespace Options

def deeper (options : Options) (levels : Nat) : Options :=
  { options with depth := options.depth + levels }

/-- A text repeated. The count and the length are not bounded here: what a machine makes
of them is said by `repeatError?`. -/
def repeated (count : Nat) (text : String) : String :=
  if text = "" then "" else String.join (List.replicate count text)

/-- The least number that does not fit into a machine word with a sign. -/
def wordBound : Nat := Nat.pow 2 63

/-- The error in place of a text repeated, where a machine cannot build it: the count must
fit into a word, also if it is negative or the text is empty, and so must the length. -/
def repeatError? (count : Int) (text : String) : Option ForeignError :=
  if count < -wordBound ∨ wordBound ≤ count then
    some ⟨"OverflowError", "cannot fit 'int' into an index-sized integer"⟩
  else if wordBound ≤ count * text.length then
    some ⟨"OverflowError", "repeated string is too long"⟩
  else none

/-- The indentation of the current depth and `extra` levels more, as a text of any length;
it is empty at and below depth zero. -/
def indentation (options : Options) (extra : Int) : String :=
  repeated (options.depth + extra).toNat options.indent

/-- The indentation as a machine builds it, or the error in its place. -/
def boundedIndentation (options : Options) (extra : Int) : Except ForeignError String :=
  match repeatError? (options.depth + extra) options.indent with
  | some error => .error error
  | none => .ok (options.indentation extra)

theorem repeated_eq_join (count : Nat) (text : String) :
    repeated count text = String.join (List.replicate count text) := by
  unfold repeated
  split
  · rename_i empty
    subst empty
    apply String.toList_inj.mp
    simp
  · rfl

@[simp]
theorem deeper_zero (options : Options) : options.deeper 0 = options := rfl

theorem deeper_deeper (options : Options) (first second : Nat) :
    (options.deeper first).deeper second = options.deeper (first + second) := by
  simp [deeper, Nat.add_assoc]

end Options

end StarlarkPrinter
