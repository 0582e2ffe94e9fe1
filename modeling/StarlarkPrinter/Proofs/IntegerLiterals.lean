import Mathlib.Data.List.TakeDrop
import Mathlib.Data.List.TakeWhile
import StarlarkPrinter.Proofs.Outcome
import StarlarkPrinter.Text.Integer

namespace StarlarkPrinter

namespace Text

/-- Whether a text is a digit that is not zero and further digits. -/
def isPositiveDecimal : List Char → Bool
  | [] => false
  | first :: rest => first ≠ '0' && first.isDigit && rest.all Char.isDigit

/-- Whether a text is zero, or a numeral without a leading zero that may have a minus sign
in front. -/
def isDecimal : List Char → Bool
  | ['0'] => true
  | '-' :: digits => isPositiveDecimal digits
  | digits => isPositiveDecimal digits

theorem isPositiveDecimal_concat {digits : List Char} {last : Char}
    (positive : isPositiveDecimal digits = true) (digit : last.isDigit = true) :
    isPositiveDecimal (digits ++ [last]) = true := by
  cases digits with
  | nil => cases positive
  | cons first rest =>
    simp only [isPositiveDecimal, Bool.and_eq_true] at positive
    simp [isPositiveDecimal, positive.1, positive.2, digit]

theorem isPositiveDecimal_digitChar {digit : Nat} (positive : 0 < digit) (small : digit < 10) :
    isPositiveDecimal [digit.digitChar] = true := by
  have table : ∀ digit < 10, 0 < digit → isPositiveDecimal [digit.digitChar] = true := by decide
  exact table digit small positive

/-- The digits of a positive number do not start with a zero. -/
theorem isPositiveDecimal_toDigits {number : Nat} (positive : 0 < number) :
    isPositiveDecimal (Nat.toDigits 10 number) = true := by
  induction number using Nat.strongRecOn with
  | ind number ih =>
    by_cases small : number < 10
    · rw [Nat.toDigits_of_lt_base small]
      exact isPositiveDecimal_digitChar positive small
    · have large : 10 ≤ number := Nat.le_of_not_lt small
      rw [Nat.toDigits_of_base_le (by decide) large]
      apply isPositiveDecimal_concat
      · exact ih (number / 10) (by omega) (by omega)
      · rw [Nat.isDigit_digitChar]
        exact decide_eq_true (Nat.mod_lt number (by decide))

theorem isDecimal_of_positive {digits : List Char} (positive : isPositiveDecimal digits = true) :
    isDecimal digits = true := by
  unfold isDecimal
  split
  · rfl
  · cases positive
  · exact positive

theorem isDecimal_signedDecimal (number : Int) :
    isDecimal (signedDecimal number).toList = true := by
  cases number with
  | ofNat number =>
    rw [signedDecimal, decimal, String.toList_ofList]
    by_cases zero : number = 0
    · subst zero
      rfl
    · exact isDecimal_of_positive (isPositiveDecimal_toDigits (Nat.pos_of_ne_zero zero))
  | negSucc number =>
    have digits := isPositiveDecimal_toDigits (Nat.succ_pos number)
    simpa [signedDecimal, decimal, isDecimal] using digits

theorem toNat_of_isDigit {char : Char} (digit : char.isDigit = true) :
    48 ≤ char.toNat ∧ char.toNat ≤ 57 := by
  simpa [Char.isDigit, UInt32.le_iff_toNat_le] using digit

/-- The digits of the Latin script come first in the table. -/
theorem digitValue?_of_isDigit {char : Char} (digit : char.isDigit = true) :
    digitValue? char = some (char.toNat - '0'.toNat) := by
  obtain ⟨low, high⟩ := toNat_of_isDigit digit
  have first : zeroDigits = 48 :: zeroDigits.tail := rfl
  rw [digitValue?, first, List.find?_cons_of_pos (by simp; omega)]
  rfl

theorem ne_of_isDigit {char other : Char} (digit : char.isDigit = true)
    (noDigit : other.isDigit = false) : char ≠ other := by
  rintro rfl
  rw [digit] at noDigit
  cases noDigit

theorem digitRun?_of_digits {digits : List Char} (present : digits ≠ [])
    (all : ∀ char ∈ digits, char.isDigit = true) :
    digitRun? digits = some (digits.map fun char => char.toNat - '0'.toNat) := by
  induction digits with
  | nil => exact absurd rfl present
  | cons first rest ih =>
    obtain ⟨digit, further⟩ := List.forall_mem_cons.mp all
    have value := digitValue?_of_isDigit digit
    cases rest with
    | nil => simp [digitRun?, value]
    | cons second others =>
      have plain : second ≠ '_' := ne_of_isDigit (further second (by simp)) (by decide)
      have run := ih (by simp) further
      simp [digitRun?, plain, value, run]

theorem ofDigits_toDigits (number : Nat) :
    ofDigits ((Nat.toDigits 10 number).map fun char => char.toNat - '0'.toNat) = number := by
  rw [ofDigits, List.foldl_map]
  exact Nat.ofDigitChars_ten_toDigits

theorem isDigit_of_mem_decimal {number : Nat} {char : Char}
    (member : char ∈ Nat.toDigits 10 number) : char.isDigit = true :=
  Nat.isDigit_of_mem_toDigits (by decide) (by decide) member

theorem readUnsigned_toDigits (number : Nat) (short : number < numeralBound) :
    readUnsigned (Nat.toDigits 10 number) = .ok number := by
  have all : ∀ char ∈ Nat.toDigits 10 number, char.isDigit = true :=
    fun _ => isDigit_of_mem_decimal
  have digits : ∀ char ∈ Nat.toDigits 10 number,
      ((digitValue? char).isSome || char = '_') = true := by
    intro char member
    simp [digitValue?_of_isDigit (all char member)]
  have run := digitRun?_of_digits Nat.toDigits_ne_nil all
  have few := (length_toDigits_le_digitLimit_iff number).mpr short
  simp only [readUnsigned, List.span_eq_takeWhile_dropWhile]
  rw [List.takeWhile_eq_self_iff.mpr digits, List.dropWhile_eq_nil_iff.mpr digits, run]
  simp only [List.length_map, Nat.not_lt.mpr few, if_false, List.all_nil, if_true,
    ofDigits_toDigits]

theorem isBlank_of_isDigit {char : Char} (digit : char.isDigit = true) : isBlank char = false := by
  have table : ∀ code < 10, blanks.holds (48 + code) = false := by decide
  obtain ⟨low, high⟩ := toNat_of_isDigit digit
  have found := table (char.toNat - 48) (by omega)
  rwa [Nat.add_sub_cancel' low] at found

theorem readInteger_minus {digits : List Char} {number : Nat}
    (read : readUnsigned digits = .ok number) : readInteger ('-' :: digits) = .ok (-number) := by
  rw [readInteger, List.dropWhile_cons_of_neg (by decide)]
  simp only [read]
  rfl

theorem readInteger_of_isDigit {first : Char} (digit : first.isDigit = true) {rest : List Char}
    {number : Nat} (read : readUnsigned (first :: rest) = .ok number) :
    readInteger (first :: rest) = .ok number := by
  rw [readInteger, List.dropWhile_cons_of_neg (by simp [isBlank_of_isDigit digit])]
  split
  · rename_i sign
    exact absurd (List.cons.inj sign).1 (ne_of_isDigit digit (by decide))
  · rename_i sign
    exact absurd (List.cons.inj sign).1 (ne_of_isDigit digit (by decide))
  · rw [read]
    rfl

/-- A numeral within the limit is read back to its integer. -/
theorem readInteger_signedDecimal {number : Int} (short : number.natAbs < numeralBound) :
    readInteger (signedDecimal number).toList = .ok number := by
  cases number with
  | ofNat number =>
    have read := readUnsigned_toDigits number short
    rw [signedDecimal, decimal, String.toList_ofList]
    cases shown : Nat.toDigits 10 number with
    | nil => exact absurd shown Nat.toDigits_ne_nil
    | cons first rest =>
      have member : first ∈ Nat.toDigits 10 number := by simp [shown]
      rw [shown] at read
      exact readInteger_of_isDigit (isDigit_of_mem_decimal member) read
  | negSucc number =>
    have read := readUnsigned_toDigits (number + 1) short
    have sign : (signedDecimal (.negSucc number)).toList = '-' :: Nat.toDigits 10 (number + 1) := by
      simp [signedDecimal, decimal]
    rw [sign, readInteger_minus read]
    rfl

end Text

/-- The integer that a value holds, if it is a plain or a fixed-width one. -/
def Value.integer? : Value → Option Int
  | .int number => some number
  | .fixedInt number => some number.value
  | _ => none

/-- The trace of an integer: its numeral or, beyond the limit, a failure without a text. -/
inductive Trace.OfInteger (number : Int) : Trace → Prop where
  | numeral {write : Write} (short : number.natAbs < Text.numeralBound)
      (shown : write.text = Text.signedDecimal number) : OfInteger number ⟨[write], .done⟩
  | tooLong (long : Text.numeralBound ≤ number.natAbs) :
      OfInteger number ⟨[], .failed (.ofReason (.payload .tooManyDigits))⟩

section Payload

-- The digit limit is a power that must not be computed to compare two payloads.
attribute [local irreducible] Text.numeral?

theorem Value.payload_of_integer {value : Value} {number : Int}
    (holds : value.integer? = some number) :
    ∃ kind, value.payload =
      match Text.numeral? number with
      | none => .error .tooManyDigits
      | some numeral => .ok (kind, numeral) := by
  cases value with
  | int own =>
    cases holds
    exact ⟨_, payload_int number⟩
  | fixedInt own =>
    cases holds
    exact ⟨_, payload_fixedInt own⟩
  | _ => cases holds

theorem Literal.trace_of_integer {leaf : Literal} {number : Int}
    (holds : leaf.value.integer? = some number) (options : Options) :
    Trace.OfInteger number (Role.expression.trace (.literal leaf) options) := by
  have present : leaf.value ≠ .absent := by
    intro absent
    rw [absent] at holds
    cases holds
  obtain ⟨kind, payload⟩ := Value.payload_of_integer holds
  rw [Role.trace_eq_plan]
  simp only [Role.plan, Node.expressionPlan, Literal.plan, present, if_false, payload]
  cases shown : Text.numeral? number with
  | none => exact .tooLong ((Text.numeral?_eq_none_iff number).mp shown)
  | some numeral =>
    obtain ⟨short, same⟩ := (Text.numeral?_eq_some_iff number numeral).mp shown
    exact .numeral short same.symm

end Payload

/-- A literal builds no text by repeating one. -/
private theorem Literal.not_overflows (leaf : Literal) (options : Options) (error : ForeignError) :
    ¬ (Role.expression.emission (.literal leaf) options).Overflows error := by
  have nothing : (leaf.emission options).builds = [] := by
    unfold Literal.emission
    split
    · rfl
    · split <;> rfl
  rintro ⟨built, member, _⟩
  rw [show (Role.expression.emission (.literal leaf) options).builds = [] from nothing] at member
  cases member

section Print

variable {settings : List Setting} {options : Options} {leaf : Literal} {number : Int}
  (built : Options.ofSettings settings = .ok options) (short : options.depth < Text.numeralBound)
  (holds : leaf.value.integer? = some number)

include built short holds

/-- A literal prints its integer as a numeral, if it prints at all. -/
theorem Literal.print_of_integer :
    (number.natAbs < Text.numeralBound ∧
        Role.expression.print settings (.literal leaf) = .ok (Text.signedDecimal number)) ∨
      (Text.numeralBound ≤ number.natAbs ∧ Role.expression.print settings (.literal leaf) =
        .error (.render (.ofReason (.payload .tooManyDigits)))) := by
  rw [Role.print_eq_trace built short (leaf.not_overflows options)]
  have own := Literal.trace_of_integer holds options
  generalize Role.expression.trace (.literal leaf) options = trace at own
  cases own with
  | numeral below shown => exact .inl ⟨below, by simp [Trace.text, shown, Ending.error?]⟩
  | tooLong long => exact .inr ⟨long, rfl⟩

theorem Literal.eq_of_print_integer {text : String}
    (printed : Role.expression.print settings (.literal leaf) = .ok text) :
    number.natAbs < Text.numeralBound ∧ text = Text.signedDecimal number := by
  rcases Literal.print_of_integer built short holds with ⟨below, own⟩ | ⟨_, failed⟩
  · exact ⟨below, Except.ok.inj (printed.symm.trans own)⟩
  · rw [failed] at printed
    cases printed

end Print

/-- A literal that holds an integer, of any size or of a fixed width, prints exactly if the
integer has no more digits than a numeral may have. The text is a decimal numeral without leading
zeros that is read back to the integer, so it belongs to no other integer. With more digits the
literal fails with the message about the limit, as an error of the tree, and no sink is offered
anything. -/
theorem integer_literals_exact {settings : List Setting} {options : Options}
    (built : Options.ofSettings settings = .ok options)
    (short : options.depth < Text.numeralBound) (leaf : Literal) (number : Int)
    (holds : leaf.value.integer? = some number) :
    let printed (leaf : Literal) := Role.expression.print settings (.literal leaf)
    ((∃ text, printed leaf = .ok text) ↔ number.natAbs < Text.numeralBound) ∧
      (∀ text, printed leaf = .ok text →
        Text.isDecimal text.toList = true ∧ Text.readInteger text.toList = .ok number ∧
          ∀ (other : Literal) (otherNumber : Int), other.value.integer? = some otherNumber →
            printed other = .ok text → otherNumber = number) ∧
      (Text.numeralBound ≤ number.natAbs →
        printed leaf = .error (.render ⟨.tree, Text.digitLimitMessage, none⟩) ∧
          ∀ {σ : Type} (sink : Sink σ) (start : σ),
            (Role.expression.emission (.literal leaf) options).run sink start =
              ⟨[], start, .failed ⟨.tree, Text.digitLimitMessage, none⟩⟩) := by
  intro printed
  refine ⟨⟨?_, ?_⟩, ?_, ?_⟩
  · rintro ⟨text, shown⟩
    exact (Literal.eq_of_print_integer built short holds shown).1
  · intro below
    rcases Literal.print_of_integer built short holds with ⟨_, own⟩ | ⟨long, _⟩
    · exact ⟨_, own⟩
    · exact absurd below (Nat.not_lt.mpr long)
  · intro text shown
    obtain ⟨below, rfl⟩ := Literal.eq_of_print_integer built short holds shown
    have read := Text.readInteger_signedDecimal below
    refine ⟨Text.isDecimal_signedDecimal number, read, ?_⟩
    intro other otherNumber otherHolds otherShown
    obtain ⟨otherBelow, same⟩ := Literal.eq_of_print_integer built short otherHolds otherShown
    rw [same, Text.readInteger_signedDecimal otherBelow] at read
    exact Except.ok.inj read
  · intro long
    constructor
    · rcases Literal.print_of_integer built short holds with ⟨below, _⟩ | ⟨_, failed⟩
      · exact absurd below (Nat.not_lt.mpr long)
      · exact failed
    · intro σ sink start
      have own := Literal.trace_of_integer holds options
      rw [Emission.run_eq_replay]
      change sink.replay (Role.expression.trace _ options).ending
        (Role.expression.trace _ options).writes start = _
      generalize Role.expression.trace (.literal leaf) options = trace at own
      cases own with
      | numeral below _ => exact absurd below (Nat.not_lt.mpr long)
      | tooLong _ => rfl

/-- The integers on either side of the limit, below zero, and the least integer of a width. -/
theorem integer_literals_at_limit :
    let printed (value : Value) := Role.expression.print [] (.literal { value })
    let limit : Int := Text.numeralBound
    let least : FixedInt := ⟨.int64, -9223372036854775808, by decide⟩
    (∃ text, printed (.int (1 - limit)) = .ok text ∧
        Text.readInteger text.toList = .ok (1 - limit)) ∧
      printed (.int (-limit)) = .error (.render ⟨.tree, Text.digitLimitMessage, none⟩) ∧
      ∃ text, printed (.fixedInt least) = .ok text ∧ Text.isDecimal text.toList = true := by
  intro printed limit least
  have built : Options.ofSettings [] = .ok {} := rfl
  have short : Options.depth {} < Text.numeralBound :=
    Text.lt_numeralBound (by decide : 0 < Nat.pow 10 1) (by decide)
  have positive : 0 < limit := Int.natCast_pos.mpr short
  have size : limit.natAbs = Text.numeralBound := Int.natAbs_natCast _
  obtain ⟨⟨_, fits⟩, reads, _⟩ :=
    integer_literals_exact built short { value := .int (1 - limit) } _ rfl
  obtain ⟨_, _, fails⟩ := integer_literals_exact built short { value := .int (-limit) } _ rfl
  obtain ⟨⟨_, narrow⟩, numeral, _⟩ :=
    integer_literals_exact built short { value := .fixedInt least } _ rfl
  obtain ⟨text, shown⟩ := fits (by omega)
  obtain ⟨other, otherShown⟩ :=
    narrow (Text.lt_numeralBound (by decide : least.value.natAbs < Nat.pow 10 19) (by decide))
  refine ⟨⟨text, shown, (reads text shown).2.1⟩, ?_, other, otherShown,
    (numeral other otherShown).1⟩
  exact (fails (by omega)).1

end StarlarkPrinter
