import StarlarkPrinter.Text.Quoted
import StarlarkPrinter.Tree.Literal

namespace StarlarkPrinter

namespace Text

private theorem isPrintable_digitChar {digit : Nat} (small : digit < 16) :
    isPrintable (Nat.digitChar digit) = true := by
  have table : ∀ digit < 16, isPrintable (Nat.digitChar digit) = true := by decide +kernel
  exact table digit small

theorem isPrintable_of_isDigit {char : Char} (digit : char.isDigit = true) :
    isPrintable char = true := by
  have table : ∀ code < 10, isPrintable (Char.ofNat (48 + code)) = true := by decide +kernel
  obtain ⟨low, high⟩ : 48 ≤ char.toNat ∧ char.toNat ≤ 57 := by
    simpa [Char.isDigit, UInt32.le_iff_toNat_le] using digit
  have found := table (char.toNat - 48) (by omega)
  rw [Nat.add_sub_cancel' low, Char.ofNat_toNat] at found
  exact found

private theorem isPrintable_of_mem_hexDigits {width number : Nat} {char : Char}
    (member : char ∈ hexDigits width number) : isPrintable char = true := by
  induction width generalizing number with
  | zero => cases member
  | succ width ih =>
    rcases List.mem_append.mp member with early | last
    · exact ih early
    · rw [List.mem_singleton.mp last]
      exact isPrintable_digitChar (Nat.mod_lt number (by decide))

private theorem isPrintable_of_mem_hexEscape {letter char : Char} {width number : Nat}
    (printable : isPrintable letter = true) (member : char ∈ hexEscape letter width number) :
    isPrintable char = true := by
  rcases List.mem_cons.mp member with rfl | member
  · decide +kernel
  · rcases List.mem_cons.mp member with rfl | member
    · exact printable
    · exact isPrintable_of_mem_hexDigits member

private theorem isPrintable_of_escapeLetter? {char letter : Char}
    (found : escapeLetter? char = some letter) : isPrintable letter = true := by
  unfold escapeLetter? at found
  split at found <;> cases found <;> decide +kernel

theorem isPrintable_of_mem_quoteUnprintable {char written : Char}
    (member : written ∈ quoteUnprintable char) : isPrintable written = true := by
  unfold quoteUnprintable at member
  split at member
  · rename_i letter found
    rcases List.mem_cons.mp member with rfl | member
    · decide +kernel
    · rw [List.mem_singleton.mp member]
      exact isPrintable_of_escapeLetter? found
  · split at member
    · exact isPrintable_of_mem_hexEscape (by decide +kernel) member
    · split at member
      · exact isPrintable_of_mem_hexEscape (by decide +kernel) member
      · exact isPrintable_of_mem_hexEscape (by decide +kernel) member

/-- Whatever a character is, it is quoted by printable ones. -/
theorem isPrintable_of_mem_quoteChar {char written : Char} (member : written ∈ quoteChar char) :
    isPrintable written = true := by
  unfold quoteChar at member
  split at member
  · rename_i special
    rcases List.mem_cons.mp member with rfl | member
    · decide +kernel
    · rw [List.mem_singleton.mp member]
      rcases special with rfl | rfl <;> decide +kernel
  · split at member
    · rename_i printable
      rw [List.mem_singleton.mp member]
      exact printable
    · exact isPrintable_of_mem_quoteUnprintable member

theorem isPrintable_of_mem_quotePoints {points : List CodePoint} {written : Char}
    (member : written ∈ quotePoints points) : isPrintable written = true := by
  have quote : isPrintable '"' = true := by decide +kernel
  rcases List.mem_cons.mp member with rfl | member
  · exact quote
  · rcases List.mem_append.mp member with inside | last
    · obtain ⟨point, _, inside⟩ := List.mem_flatMap.mp inside
      cases point with
      | scalar char => exact isPrintable_of_mem_quoteChar inside
      | surrogate offset =>
        have escape : written ∈ quoteUnprintable '\uFFFD' := inside
        exact isPrintable_of_mem_quoteUnprintable escape
    · rw [List.mem_singleton.mp last]
      exact quote

/-- A numeral is a digit or a sign, and then digits. -/
theorem signedDecimal_eq_cons (number : Int) :
    ∃ first rest, (signedDecimal number).toList = first :: rest ∧
      (first = '-' ∨ first.isDigit = true) ∧ ∀ char ∈ rest, char.isDigit = true := by
  have digits (number : Nat) : ∀ char ∈ Nat.toDigits 10 number, char.isDigit = true :=
    fun char => Nat.isDigit_of_mem_toDigits (by decide) (by decide)
  cases number with
  | ofNat number =>
    cases shown : Nat.toDigits 10 number with
    | nil => exact absurd shown Nat.toDigits_ne_nil
    | cons first rest =>
      have all := digits number
      rw [shown] at all
      exact ⟨first, rest, by simp [signedDecimal, decimal, shown], .inr (all first (by simp)),
        fun char member => all char (by simp [member])⟩
  | negSucc number =>
    exact ⟨'-', Nat.toDigits 10 (number + 1), by simp [signedDecimal, decimal], .inl rfl,
      digits (number + 1)⟩

end Text

/-- A text of printable characters that starts with a quote, a sign or a digit. -/
def Text.IsPayload (text : String) : Prop :=
  ∃ first rest, text.toList = first :: rest ∧
    (first = '"' ∨ first = '-' ∨ first.isDigit = true) ∧
    ∀ char ∈ text.toList, Text.isPrintable char = true

theorem Text.isPayload_quoted (content : String) : IsPayload (quoted content) := by
  refine ⟨'"', content.toList.flatMap quoteChar ++ ['"'], ?_, .inl rfl, fun char member => ?_⟩
  · simp [quoted, quoteChars]
  · apply isPrintable_of_mem_quotePoints
    rw [quotePoints_map_scalar]
    simpa [quoted] using member

theorem Text.isPayload_numeral {number : Int} {numeral : String}
    (found : numeral? number = some numeral) : IsPayload numeral := by
  obtain ⟨_, rfl⟩ := (numeral?_eq_some_iff number numeral).mp found
  obtain ⟨first, rest, shown, start, digits⟩ := signedDecimal_eq_cons number
  refine ⟨first, rest, shown, .inr start, fun char member => ?_⟩
  rw [shown] at member
  rcases List.mem_cons.mp member with rfl | later
  · rcases start with rfl | digit
    · decide +kernel
    · exact isPrintable_of_isDigit digit
  · exact isPrintable_of_isDigit (digits char later)

/-- Whatever a value is, its payload is such a text. -/
theorem Value.isPayload_of_payload {value : Value} {kind : PayloadKind} {text : String}
    (found : value.payload = .ok (kind, text)) : Text.IsPayload text := by
  cases value with
  | text content =>
    rw [payload_text] at found
    cases found
    exact Text.isPayload_quoted content
  | int number =>
    cases written : Text.numeral? number with
    | none => simp [payload_int, written] at found
    | some numeral =>
      simp only [payload_int, written, Except.ok.injEq, Prod.mk.injEq] at found
      exact found.2 ▸ Text.isPayload_numeral written
  | fixedInt number =>
    cases written : Text.numeral? number.value with
    | none => simp [payload_fixedInt, written] at found
    | some numeral =>
      simp only [payload_fixedInt, written, Except.ok.injEq, Prod.mk.injEq] at found
      exact found.2 ▸ Text.isPayload_numeral written
  | _ => cases found

end StarlarkPrinter
