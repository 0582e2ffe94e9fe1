import StarlarkPrinter.Proofs.Payload
import StarlarkPrinter.Proofs.Unquote

namespace StarlarkPrinter.Text

def readQuotedPoints : List CodePoint → Option (List CodePoint × List CodePoint)
  | .scalar '"' :: rest => unquote rest
  | _ => none

theorem unquote_quotePoint (point : CodePoint) (rest : List CodePoint) :
    unquote ((quotePoint point).map .scalar ++ rest) =
      (unquote rest).map fun (points, after) => (.scalar point.toChar :: points, after) := by
  cases point with
  | surrogate offset => exact unquote_quoteUnprintable '\uFFFD' rest
  | scalar char => exact unquote_quoteChar char rest

/-- Quoted code points are read up to their closing quote. -/
theorem readQuotedPoints_quotePoints (points rest : List CodePoint) :
    readQuotedPoints ((quotePoints points).map .scalar ++ rest) =
      some (points.map (.scalar ·.toChar), rest) := by
  suffices reads : unquote ((points.flatMap quotePoint).map .scalar ++ .scalar '"' :: rest) =
      some (points.map (.scalar ·.toChar), rest) by
    simpa [quotePoints, readQuotedPoints] using reads
  induction points with
  | nil => exact unquote_quote rfl rest
  | cons point further ih =>
    rw [List.flatMap_cons, List.map_append, List.append_assoc, unquote_quotePoint, ih]
    rfl

/-- The controls are the first ranges of the characters that are not printable. -/
theorem not_control_of_isPrintable {char : Char} (printable : isPrintable char = true) :
    0x20 ≤ char.toNat ∧ ¬ (0x7f ≤ char.toNat ∧ char.toNat ≤ 0x9f) := by
  have table : unprintable = (0x0, 0x1f) :: (0x7f, 0xa0) :: unprintable.drop 2 := rfl
  rw [isPrintable, table, Ranges.holds, Ranges.holds] at printable
  grind

/-- Quoting delimits itself: the quoted form of any code points is read up to its end and not
beyond, whatever follows, and gives the code points back with each surrogate replaced. It is
made of printable characters, none of which is a control. Sequences without surrogates have
quoted forms of their own. -/
theorem quoting_delimits_itself (points following : List CodePoint) :
    readQuotedPoints ((quotePoints points).map .scalar ++ following) =
        some (points.map (.scalar ·.toChar), following) ∧
      (∀ char ∈ quotePoints points, isPrintable char = true ∧
        0x20 ≤ char.toNat ∧ ¬ (0x7f ≤ char.toNat ∧ char.toNat ≤ 0x9f)) ∧
      Function.Injective fun chars : List Char => quotePoints (chars.map .scalar) := by
  refine ⟨readQuotedPoints_quotePoints points following, fun char member => ?_, ?_⟩
  · have printable := isPrintable_of_mem_quotePoints member
    exact ⟨printable, not_control_of_isPrintable printable⟩
  · intro chars others same
    have first := readQuotedPoints_quotePoints (chars.map .scalar) []
    have second := readQuotedPoints_quotePoints (others.map .scalar) []
    rw [show quotePoints (chars.map .scalar) = _ from same, second] at first
    simpa [Function.comp_def, List.map_inj_right] using first.symm

end StarlarkPrinter.Text
