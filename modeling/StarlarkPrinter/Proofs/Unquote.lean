import StarlarkPrinter.Text.Quoted

namespace StarlarkPrinter.Text

def hexDigit? (char : Char) : Option Nat :=
  if '0' ≤ char ∧ char ≤ '9' then some (char.toNat - '0'.toNat)
  else if 'a' ≤ char ∧ char ≤ 'f' then some (char.toNat - 'a'.toNat + 10)
  else if 'A' ≤ char ∧ char ≤ 'F' then some (char.toNat - 'A'.toNat + 10)
  else none

/-- The character that a letter stands for after a backslash. -/
def escapedLetter? : Char → Option Char
  | 'a' => some '\x07'
  | 'b' => some '\x08'
  | 'f' => some '\x0c'
  | 'n' => some '\n'
  | 'r' => some '\r'
  | 't' => some '\t'
  | 'v' => some '\x0b'
  | '\\' => some '\\'
  | '"' => some '"'
  | _ => none

/-- The number of digits that a letter announces after a backslash. -/
def hexWidth? : Char → Option Nat
  | 'x' => some 2
  | 'u' => some 4
  | 'U' => some 8
  | _ => none

/-- What a text is made of: characters, or code points. -/
class Symbol (α : Type) where
  /-- The character that a symbol is, if it is one. -/
  char? : α → Option Char
  /-- The symbol for a code point. -/
  ofPoint : CodePoint → α
  char?_ofPoint : ∀ char, char? (ofPoint (.scalar char)) = some char

/-- Among characters a surrogate becomes the replacement character. -/
instance : Symbol Char := ⟨some, CodePoint.toChar, fun _ => rfl⟩

@[simp]
theorem Symbol.char?_self (char : Char) : Symbol.char? char = some char := rfl

instance : Symbol CodePoint := ⟨CodePoint.char?, id, fun _ => rfl⟩

def Symbol.ofChar {α : Type} [Symbol α] (char : Char) : α :=
  Symbol.ofPoint (.scalar char)

@[simp]
theorem Symbol.char?_ofChar {α : Type} [Symbol α] (char : Char) :
    Symbol.char? (Symbol.ofChar char : α) = some char :=
  Symbol.char?_ofPoint char

variable {α : Type} [Symbol α]

/-- Read a number of `width` hexadecimal digits after the digits of `total`. -/
def readHex : Nat → Nat → List α → Option (Nat × List α)
  | 0, total, rest => some (total, rest)
  | _ + 1, _, [] => none
  | width + 1, total, symbol :: rest => do
    let digit ← (Symbol.char? symbol).bind hexDigit?
    readHex width (16 * total + digit) rest

/-- Read what a backslash escapes, if it escapes anything. -/
def readEscape : List α → Option (α × List α)
  | [] => none
  | symbol :: rest => do
    let letter ← Symbol.char? symbol
    match escapedLetter? letter with
    | some char => some (Symbol.ofChar char, rest)
    | none => do
      let width ← hexWidth? letter
      let (code, rest) ← readHex width 0 rest
      let point ← CodePoint.ofNat? code
      some (Symbol.ofPoint point, rest)

theorem readHex_length {width total code : Nat} {input rest : List α}
    (found : readHex width total input = some (code, rest)) :
    input.length = width + rest.length := by
  induction input generalizing width total with
  | nil => cases width <;> simp_all [readHex]
  | cons symbol input ih =>
    cases width with
    | zero => simp_all [readHex]
    | succ width =>
      obtain ⟨digit, _, further⟩ := Option.bind_eq_some_iff.mp found
      have exactly := ih further
      simp only [List.length_cons]
      omega

theorem readEscape_length {input rest : List α} {escaped : α}
    (found : readEscape input = some (escaped, rest)) : rest.length < input.length := by
  cases input with
  | nil => cases found
  | cons symbol input =>
    obtain ⟨letter, _, found⟩ := Option.bind_eq_some_iff.mp found
    split at found
    · cases found
      simp
    · obtain ⟨width, _, found⟩ := Option.bind_eq_some_iff.mp found
      obtain ⟨⟨code, remaining⟩, digits, found⟩ := Option.bind_eq_some_iff.mp found
      obtain ⟨point, _, same⟩ := Option.bind_eq_some_iff.mp found
      have exactly := readHex_length digits
      cases same
      simp only [List.length_cons]
      omega

/-- Read a string literal from after its opening quote: its symbols, and what follows
its closing quote. -/
def unquote : List α → Option (List α × List α)
  | [] => none
  | symbol :: rest =>
    if Symbol.char? symbol = some '"' then some ([], rest)
    else if Symbol.char? symbol = some '\\' then
      match found : readEscape rest with
      | some (escaped, further) =>
        have := readEscape_length found
        (unquote further).map fun (symbols, after) => (escaped :: symbols, after)
      | none => (unquote rest).map fun (symbols, after) => (symbol :: symbols, after)
    else (unquote rest).map fun (symbols, after) => (symbol :: symbols, after)
termination_by input => input.length

theorem unquote_quote {symbol : α} (quote : Symbol.char? symbol = some '"') (rest : List α) :
    unquote (symbol :: rest) = some ([], rest) := by
  rw [unquote, if_pos quote]

theorem unquote_plain {symbol : α} (notQuote : Symbol.char? symbol ≠ some '"')
    (notBackslash : Symbol.char? symbol ≠ some '\\') (rest : List α) :
    unquote (symbol :: rest) =
      (unquote rest).map fun (symbols, after) => (symbol :: symbols, after) := by
  rw [unquote, if_neg notQuote, if_neg notBackslash]

theorem unquote_escape {symbol escaped : α} {input rest : List α}
    (backslash : Symbol.char? symbol = some '\\')
    (found : readEscape input = some (escaped, rest)) :
    unquote (symbol :: input) =
      (unquote rest).map fun (symbols, after) => (escaped :: symbols, after) := by
  rw [unquote, if_neg (by simp [backslash]), if_pos backslash]
  split
  · rename_i other further same
    rw [found] at same
    cases same
    rfl
  · rename_i nothing
    rw [found] at nothing
    cases nothing

theorem hexDigit?_digitChar {digit : Nat} (small : digit < 16) :
    hexDigit? (Nat.digitChar digit) = some digit := by
  have table : ∀ digit < 16, hexDigit? (Nat.digitChar digit) = some digit := by decide
  exact table digit small

/-- Digits that were written are read, however many are still to come. -/
theorem readHex_hexDigits (width more total number : Nat) (rest : List α) :
    readHex (width + more) total ((hexDigits width number).map Symbol.ofChar ++ rest) =
      readHex more (total * Nat.pow 16 width + number % Nat.pow 16 width) rest := by
  induction width generalizing number more rest with
  | zero => simp [hexDigits, Nat.mod_one]
  | succ width ih =>
    have digit := hexDigit?_digitChar (Nat.mod_lt number (by decide : 0 < 16))
    have value : 16 * (total * Nat.pow 16 width + number / 16 % Nat.pow 16 width) + number % 16 =
        total * Nat.pow 16 (width + 1) + number % Nat.pow 16 (width + 1) := by
      simp only [Nat.pow_eq]
      rw [Nat.pow_succ', Nat.mod_mul]
      grind
    rw [hexDigits, List.map_append, List.append_assoc, List.map_singleton, List.singleton_append,
      Nat.add_right_comm, Nat.add_assoc, ih, readHex, Symbol.char?_ofChar, Option.bind_some, digit,
      ← value]
    rfl

theorem readEscape_hexEscape {letter : Char} {width : Nat} (plain : escapedLetter? letter = none)
    (announced : hexWidth? letter = some width) {char : Char} (fits : char.toNat < Nat.pow 16 width)
    (rest : List α) :
    readEscape ((letter :: hexDigits width char.toNat).map Symbol.ofChar ++ rest) =
      some (Symbol.ofChar char, rest) := by
  have digits := readHex_hexDigits width 0 0 char.toNat rest
  simp only [Nat.add_zero, Nat.zero_mul, Nat.zero_add, Nat.mod_eq_of_lt fits] at digits
  simp only [List.map_cons, List.cons_append, readEscape, Symbol.char?_ofChar, plain, announced,
    digits, readHex, Option.bind_eq_bind, Option.bind_some, CodePoint.ofNat?_toNat]
  rfl

theorem escapedLetter?_of_escapeLetter? {char letter : Char}
    (found : escapeLetter? char = some letter) : escapedLetter? letter = some char := by
  unfold escapeLetter? at found
  split at found <;> cases found <;> rfl

theorem readEscape_letter {letter char : Char} (known : escapedLetter? letter = some char)
    (rest : List α) :
    readEscape (Symbol.ofChar letter :: rest) = some (Symbol.ofChar char, rest) := by
  simp [readEscape, known]

theorem quoteUnprintable_reads (char : Char) :
    ∃ body, quoteUnprintable char = '\\' :: body ∧ ∀ rest : List α,
      readEscape (body.map Symbol.ofChar ++ rest) = some (Symbol.ofChar char, rest) := by
  have below : char.toNat < Nat.pow 16 8 := char.val.toNat_lt
  unfold quoteUnprintable
  split
  · rename_i letter found
    exact ⟨[letter], rfl, readEscape_letter (escapedLetter?_of_escapeLetter? found)⟩
  · split
    · have fits : char.toNat < 16 * 16 := by omega
      exact ⟨_, rfl, readEscape_hexEscape rfl rfl fits⟩
    · split
      · have fits : char.toNat < 16 * 16 * 16 * 16 := by omega
        exact ⟨_, rfl, readEscape_hexEscape rfl rfl fits⟩
      · exact ⟨_, rfl, readEscape_hexEscape rfl rfl below⟩

theorem unquote_quoteUnprintable (char : Char) (rest : List α) :
    unquote ((quoteUnprintable char).map Symbol.ofChar ++ rest) =
      (unquote rest).map fun (symbols, after) => (Symbol.ofChar char :: symbols, after) := by
  obtain ⟨body, written, reads⟩ := quoteUnprintable_reads (α := α) char
  rw [written]
  exact unquote_escape (Symbol.char?_ofChar _) (reads rest)

theorem unquote_quoteChar (char : Char) (rest : List α) :
    unquote ((quoteChar char).map Symbol.ofChar ++ rest) =
      (unquote rest).map fun (symbols, after) => (Symbol.ofChar char :: symbols, after) := by
  unfold quoteChar
  split
  · rename_i special
    have known : escapedLetter? char = some char := by
      rcases special with rfl | rfl <;> rfl
    exact unquote_escape (Symbol.char?_ofChar _) (readEscape_letter known rest)
  · rename_i ordinary
    obtain ⟨notQuote, notBackslash⟩ := not_or.mp ordinary
    split
    · exact unquote_plain (by simpa using notQuote) (by simpa using notBackslash) rest
    · exact unquote_quoteUnprintable char rest

/-- A quoted text is read up to its closing quote. -/
theorem unquote_quoteChars (chars rest : List Char) :
    unquote (chars.flatMap quoteChar ++ '"' :: rest) = some (chars, rest) := by
  induction chars with
  | nil => exact unquote_quote rfl rest
  | cons char further ih =>
    -- Among characters, every character is its own symbol.
    have own := unquote_quoteChar char (further.flatMap quoteChar ++ '"' :: rest)
    rw [show (Symbol.ofChar : Char → Char) = id from rfl, List.map_id] at own
    rw [List.flatMap_cons, List.append_assoc, own, ih]
    rfl

end StarlarkPrinter.Text
