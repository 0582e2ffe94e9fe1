namespace StarlarkPrinter.Text

/-- The decimal numeral of a natural number, without leading zeros. -/
def decimal (number : Nat) : String :=
  String.ofList (Nat.toDigits 10 number)

/-- The decimal numeral of an integer, with a minus sign below zero. -/
def signedDecimal : Int → String
  | .ofNat number => decimal number
  | .negSucc number => "-" ++ decimal (number + 1)

/-- The largest number of digits that a numeral may have. The sign is not a digit. -/
def digitLimit : Nat := 4300

/-- The least number with more than `digitLimit` digits. -/
def numeralBound : Nat := Nat.pow 10 digitLimit

/-- The numeral of an integer of at most `digitLimit` digits. -/
def numeral? (number : Int) : Option String :=
  if number.natAbs < numeralBound then some (signedDecimal number) else none

/-- What is reported in place of a numeral that would be too long. -/
def digitLimitMessage : String :=
  "Exceeds the limit (4300 digits) for integer string conversion; " ++
    "use sys.set_int_max_str_digits() to increase the limit"

theorem lt_numeralBound {number width : Nat} (short : number < Nat.pow 10 width)
    (narrow : width ≤ digitLimit) : number < numeralBound := by
  unfold numeralBound
  -- The limit is hidden, so that no power of it is computed.
  generalize digitLimit = limit at narrow ⊢
  exact Nat.lt_of_lt_of_le short (Nat.pow_le_pow_right (by decide) narrow)

theorem length_toDigits_le_digitLimit_iff (number : Nat) :
    (Nat.toDigits 10 number).length ≤ digitLimit ↔ number < numeralBound := by
  have positive : 0 < digitLimit := by decide
  unfold numeralBound
  generalize digitLimit = limit at positive ⊢
  exact Nat.length_toDigits_le_iff (by decide) positive

theorem numeral?_eq_none_iff (number : Int) :
    numeral? number = none ↔ numeralBound ≤ number.natAbs := by
  unfold numeral?
  split <;> simp_all

theorem numeral?_eq_some_iff (number : Int) (text : String) :
    numeral? number = some text ↔
      number.natAbs < numeralBound ∧ signedDecimal number = text := by
  unfold numeral?
  split <;> rename_i bound <;> simp [bound]

end StarlarkPrinter.Text
