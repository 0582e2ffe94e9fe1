import StarlarkPrinter.Proofs.Constructs

namespace StarlarkPrinter

namespace Text

/-- An identifier: letters, digits and underscores, and no digit in front. -/
def isIdentifier : List Char → Bool
  | [] => false
  | first :: rest => !first.isDigit && isNameChar first && rest.all isNameChar

theorem isNameChar_of_isIdentifier {name : List Char} (identifier : isIdentifier name = true) :
    ∀ char ∈ name, isNameChar char = true := by
  cases name with
  | nil => cases identifier
  | cons first rest => simp_all [isIdentifier]

theorem isNameChar_ne {char : Char} (named : isNameChar char = true) :
    char ≠ '"' ∧ char ≠ '\\' := by
  constructor <;> rintro rfl <;> exact absurd named (by decide)

/-- A name between quotes is read as it is. -/
theorem unquote_name {name : List Char} (named : ∀ char ∈ name, isNameChar char = true)
    (rest : List Char) : unquote (name ++ '"' :: rest) = some (name, rest) := by
  induction name with
  | nil => exact unquote_quote rfl rest
  | cons char further ih =>
    obtain ⟨here, others⟩ := List.forall_mem_cons.mp named
    obtain ⟨notQuote, notBackslash⟩ := isNameChar_ne here
    rw [List.cons_append, unquote_plain (by simpa using notQuote) (by simpa using notBackslash),
      ih others]
    rfl

/-- What follows a literal is shorter than the literal with it. -/
theorem unquote_length {input content rest : List Char}
    (found : unquote input = some (content, rest)) : rest.length < input.length := by
  -- What is read first is put in front of the content of the shorter input; the rest stays.
  have inner {further content : List Char} {front : List Char × List Char → List Char × List Char}
      (read : (unquote further).map front = some (content, rest))
      (stays : ∀ pair, (front pair).2 = pair.2) :
      ∃ chars, unquote further = some (chars, rest) := by
    obtain ⟨⟨chars, after⟩, own, same⟩ := Option.map_eq_some_iff.mp read
    have left := stays (chars, after)
    rw [same] at left
    cases left
    exact ⟨chars, own⟩
  fun_induction unquote input generalizing content with
  | case1 => cases found
  | case2 =>
    cases found
    exact Nat.lt_succ_self _
  | case3 symbol input notQuote backslash escaped further read shorter ih =>
    obtain ⟨chars, own⟩ := inner found fun _ => rfl
    exact Nat.lt_succ_of_lt (Nat.lt_trans (ih own) shorter)
  | case4 symbol input notQuote backslash nothing ih =>
    obtain ⟨chars, own⟩ := inner found fun _ => rfl
    exact Nat.lt_succ_of_lt (ih own)
  | case5 char input notQuote notBackslash ih =>
    obtain ⟨chars, own⟩ := inner found fun _ => rfl
    exact Nat.lt_succ_of_lt (ih own)

end Text

namespace Reading

inductive Lexeme where
  | name (text : List Char)
  | string (content : List Char)
  | mark (char : Char)
deriving DecidableEq, Repr

/-- Read the piece that the input starts with. -/
def lexeme : Reader Lexeme
  | [] => none
  | char :: rest =>
    if char = '"' then (Text.unquote rest).map fun (content, after) => (.string content, after)
    else if Text.isNameChar char then
      some (.name (char :: rest.takeWhile Text.isNameChar), rest.dropWhile Text.isNameChar)
    else some (.mark char, rest)

theorem lexeme_length {input rest : List Char} {piece : Lexeme}
    (found : lexeme input = some (piece, rest)) : rest.length < input.length := by
  cases input with
  | nil => cases found
  | cons char input =>
    simp only [lexeme] at found
    split at found
    · obtain ⟨⟨content, after⟩, literal, same⟩ := Option.map_eq_some_iff.mp found
      cases same
      exact Nat.lt_succ_of_lt (Text.unquote_length literal)
    · split at found <;> cases found
      · exact Nat.lt_succ_of_le (List.dropWhile_sublist _).length_le
      · exact Nat.lt_succ_self _

/-- Spaces and tabs stand between the pieces of a line. -/
def isGap (char : Char) : Bool :=
  char = ' ' || char = '\t'

theorem isGap_of_isNameChar {char : Char} (named : Text.isNameChar char = true) :
    isGap char = false := by
  simp only [isGap, Bool.or_eq_false_iff, decide_eq_false_iff_not]
  constructor <;> rintro rfl <;> exact absurd named (by decide)

def lexemes : List Char → Option (List Lexeme)
  | [] => some []
  | char :: rest =>
    if isGap char then lexemes rest
    else
      match found : lexeme (char :: rest) with
      | none => none
      | some (piece, further) =>
        have : further.length ≤ rest.length := Nat.le_of_lt_succ (lexeme_length found)
        (lexemes further).map (piece :: ·)
termination_by input => input.length

theorem lexemes_gap {char : Char} (gap : isGap char = true) (rest : List Char) :
    lexemes (char :: rest) = lexemes rest := by
  rw [lexemes, if_pos gap]

theorem lexemes_piece {char : Char} {rest further : List Char} {piece : Lexeme}
    (solid : isGap char = false) (found : lexeme (char :: rest) = some (piece, further)) :
    lexemes (char :: rest) = (lexemes further).map (piece :: ·) := by
  rw [lexemes, if_neg (by simp [solid])]
  split
  · rename_i nothing
    rw [found] at nothing
    cases nothing
  · rename_i other after same
    rw [found] at same
    cases same
    rfl

/-- A text is cut into the same pieces whatever follows it. -/
def Lexes (text : List Char) (pieces : List Lexeme) : Prop :=
  ∀ rest, lexemes (text ++ rest) = (lexemes rest).map (pieces ++ ·)

namespace Lexes

variable {text other : List Char} {pieces others : List Lexeme}

theorem nil : Lexes [] [] := by
  intro rest
  simp

theorem append (first : Lexes text pieces) (second : Lexes other others) :
    Lexes (text ++ other) (pieces ++ others) := by
  intro rest
  rw [List.append_assoc, first, second, Option.map_map]
  simp [Function.comp_def]

theorem flatMap {α : Type} {write : α → List Char} {cut : α → List Lexeme} {elements : List α}
    (each : ∀ element ∈ elements, Lexes (write element) (cut element)) :
    Lexes (elements.flatMap write) (elements.flatMap cut) := by
  induction elements with
  | nil => exact nil
  | cons element rest ih =>
    obtain ⟨here, further⟩ := List.forall_mem_cons.mp each
    exact here.append (ih further)

theorem lexemes_eq (lexes : Lexes text pieces) : lexemes text = some pieces := by
  have whole := lexes []
  rw [List.append_nil, lexemes, Option.map_some, List.append_nil] at whole
  exact whole

theorem gap (blank : ∀ char ∈ text, isGap char = true) : Lexes text [] := by
  intro rest
  induction text with
  | nil => simp
  | cons char further ih =>
    obtain ⟨here, others⟩ := List.forall_mem_cons.mp blank
    rw [List.cons_append, lexemes_gap here, ih others]

theorem mark {char : Char} (plain : isGap char = false ∧ char ≠ '"' ∧
    Text.isNameChar char = false) : Lexes [char] [.mark char] := by
  intro rest
  obtain ⟨solid, notQuote, unnamed⟩ := plain
  exact lexemes_piece solid (by simp [lexeme, notQuote, unnamed])

/-- A literal is one piece, whatever it holds. -/
theorem literal {body content : List Char}
    (read : ∀ rest, Text.unquote (body ++ '"' :: rest) = some (content, rest)) :
    Lexes ('"' :: body ++ ['"']) [.string content] := by
  intro rest
  rw [List.cons_append, List.cons_append, List.append_assoc]
  exact lexemes_piece rfl (by simp [lexeme, read])

/-- A name is one piece if no character of a name follows. -/
theorem name {name : List Char} (identifier : Text.isIdentifier name = true) {char : Char}
    (ends : Text.isNameChar char = false) (next : Lexes (char :: text) pieces) :
    Lexes (name ++ char :: text) (.name name :: pieces) := by
  intro rest
  have named := Text.isNameChar_of_isIdentifier identifier
  cases name with
  | nil => cases identifier
  | cons first further =>
    obtain ⟨here, others⟩ := List.forall_mem_cons.mp named
    -- The name is the longest run of such characters, since the next one is none.
    have stops : ∀ other ∈ (char :: (text ++ rest)).head?, Text.isNameChar other = false := by
      simpa using ends
    obtain ⟨taken, left⟩ := takeWhile_run others stops
    have found : lexeme (first :: (further ++ char :: (text ++ rest))) =
        some (.name (first :: further), char :: (text ++ rest)) := by
      rw [lexeme, if_neg (Text.isNameChar_ne here).1, if_pos here, taken, left]
    have after := next rest
    rw [List.cons_append] at after
    rw [List.append_assoc, List.cons_append, List.cons_append,
      lexemes_piece (isGap_of_isNameChar here) found, after]
    simp [Function.comp_def]

end Lexes

end Reading

/-- An argument of a load: the name that it binds, where one is written, and the name in the
loaded file. -/
structure LoadArgument where
  alias? : Option String
  source : String
deriving DecidableEq, Repr

namespace LoadArgument

/-- The name that is bound; without an alias it is the name in the loaded file. -/
def bound (argument : LoadArgument) : String :=
  argument.alias?.getD argument.source

/-- How an argument is written, with or without spaces around the equals sign. -/
def written (spaced : Bool) (argument : LoadArgument) : String :=
  (match argument.alias? with
    | none => ""
    | some name => name ++ if spaced then " = " else "=") ++ "\"" ++ argument.source ++ "\""

/-- The argument for a name and the name that it is bound to, if one is given. -/
def ofIdents (source : Ident) : Option Ident → LoadArgument
  | none => ⟨none, source.name⟩
  | some given => ⟨if given.name = source.name then none else some given.name, source.name⟩

variable (source : Ident) (given : Option Ident)

@[simp]
theorem source_ofIdents : (ofIdents source given).source = source.name := by
  cases given <;> rfl

theorem bound_ofIdents : (ofIdents source given).bound = (given.getD source).name := by
  cases given with
  | none => rfl
  | some name => by_cases same : name.name = source.name <;> simp [ofIdents, bound, same]

/-- An alias stands where a name is given that differs from the source. -/
theorem isSome_alias_ofIdents :
    (ofIdents source given).alias?.isSome ↔
      ∃ name, given = some name ∧ name.name ≠ source.name := by
  cases given with
  | none => simp [ofIdents]
  | some name => by_cases same : name.name = source.name <;> simp [ofIdents, same]

def ofPairs (sources : List Ident) (locals : List (Option Ident)) : List LoadArgument :=
  (sources.zip locals).map fun pair => ofIdents pair.1 pair.2

variable {sources : List Ident} {locals : List (Option Ident)} {argument : LoadArgument}

theorem bindings_ofPairs :
    ((ofPairs sources locals).map fun argument => (argument.bound, argument.source)) =
      (sources.zip locals).map fun pair => ((pair.2.getD pair.1).name, pair.1.name) := by
  simp [ofPairs, Function.comp_def, bound_ofIdents]

theorem eq_of_mem_zip_ofPairs {source : Ident} {given : Option Ident}
    (member : (argument, source, given) ∈ (ofPairs sources locals).zip (sources.zip locals)) :
    argument = ofIdents source given := by
  have own : (ofPairs sources locals).zip (sources.zip locals) =
      (sources.zip locals).map fun pair => (ofIdents pair.1 pair.2, pair) := by
    simpa [ofPairs] using List.zip_map' (g := id) (l := sources.zip locals)
  rw [own] at member
  obtain ⟨_, _, same⟩ := List.mem_map.mp member
  cases same
  rfl

/-- Both names of an argument are among the names that it is made for. -/
theorem isIdentifier_of_mem_ofPairs
    (sourceNames : ∀ source ∈ sources, Text.isIdentifier source.name.toList = true)
    (givenNames : ∀ given, some given ∈ locals → Text.isIdentifier given.name.toList = true)
    (member : argument ∈ ofPairs sources locals) :
    Text.isIdentifier argument.source.toList = true ∧
      Text.isIdentifier argument.bound.toList = true := by
  obtain ⟨⟨source, given⟩, paired, rfl⟩ := List.mem_map.mp member
  obtain ⟨left, right⟩ := List.of_mem_zip paired
  rw [source_ofIdents, bound_ofIdents]
  cases given with
  | none => exact ⟨sourceNames source left, sourceNames source left⟩
  | some name => exact ⟨sourceNames source left, givenNames name right⟩

end LoadArgument

/-- The line of a load after a margin: the path as a string literal, and a comma in front of
each further argument. -/
def loadLine (margin path : String) (spaced : Bool) (arguments : List LoadArgument) : String :=
  margin ++ "load(" ++ Text.quoted path ++
    String.join (arguments.map fun argument => ", " ++ argument.written spaced) ++ ")\n"

theorem toList_loadLine (margin path : String) (spaced : Bool) (arguments : List LoadArgument) :
    (loadLine margin path spaced arguments).toList =
      margin.toList ++ ("load".toList ++ ['(']) ++ Text.quoteChars path.toList ++
        arguments.flatMap (fun argument => (", " ++ argument.written spaced).toList) ++
        [')', '\n'] := by
  simp [loadLine, Text.quoted, String.toList_join, List.flatMap_map]

namespace Reading

/-- The arguments of a load behind the first, each after a comma, up to the end of the line. -/
def loadArguments : List Lexeme → Option (List LoadArgument)
  | [.mark ')', .mark '\n'] => some []
  | .mark ',' :: .string source :: rest =>
    (loadArguments rest).map (⟨none, String.ofList source⟩ :: ·)
  | .mark ',' :: .name bound :: .mark '=' :: .string source :: rest =>
    (loadArguments rest).map (⟨some (String.ofList bound), String.ofList source⟩ :: ·)
  | _ => none

/-- Read the line of a load: the path of the loaded file, and the other arguments. -/
def load (text : String) : Option (String × List LoadArgument) :=
  match lexemes text.toList with
  | some (.name word :: .mark '(' :: .string path :: rest) =>
    if word = Token.kwLoad.text.toList then (loadArguments rest).map (String.ofList path, ·)
    else none
  | _ => none

def pieces (argument : LoadArgument) : List Lexeme :=
  match argument.alias? with
  | none => [.mark ',', .string argument.source.toList]
  | some name =>
    [.mark ',', .name name.toList, .mark '=', .string argument.source.toList]

theorem loadArguments_pieces (arguments : List LoadArgument) :
    loadArguments (arguments.flatMap pieces ++ [.mark ')', .mark '\n']) = some arguments := by
  induction arguments with
  | nil => rfl
  | cons argument rest ih =>
    obtain ⟨written, source⟩ := argument
    cases written <;> simp [pieces, loadArguments, ih]

/-- An argument and the comma in front of it are cut into their pieces if the names are
identifiers. -/
theorem Lexes.argument (spaced : Bool) {argument : LoadArgument}
    (named : Text.isIdentifier argument.source.toList = true ∧
      Text.isIdentifier argument.bound.toList = true) :
    Lexes (", " ++ argument.written spaced).toList (pieces argument) := by
  obtain ⟨name?, source⟩ := argument
  obtain ⟨sourceNamed, boundNamed⟩ := named
  have space : Lexes [' '] [] := .gap (by simp [isGap])
  have comma : Lexes [',', ' '] [.mark ','] := (Lexes.mark (by decide)).append space
  have quoted : Lexes ('"' :: source.toList ++ ['"']) [.string source.toList] :=
    .literal (Text.unquote_name (Text.isNameChar_of_isIdentifier sourceNamed))
  cases name? with
  | none => simpa [LoadArgument.written, pieces] using comma.append quoted
  | some name =>
    have equals : Lexes ['='] [.mark '='] := .mark (by decide)
    cases spaced with
    | false =>
      have named := Lexes.name boundNamed (by decide) (equals.append quoted)
      simpa [LoadArgument.written, LoadArgument.bound, pieces] using comma.append named
    | true =>
      have named := Lexes.name boundNamed (by decide)
        ((space.append (equals.append space)).append quoted)
      simpa [LoadArgument.written, LoadArgument.bound, pieces] using comma.append named

/-- The line of a load gives back its path and its arguments. -/
theorem load_loadLine {margin : String} (blank : ∀ char ∈ margin.toList, isGap char = true)
    (path : String) (spaced : Bool) {arguments : List LoadArgument}
    (named : ∀ argument ∈ arguments, Text.isIdentifier argument.source.toList = true ∧
      Text.isIdentifier argument.bound.toList = true) :
    load (loadLine margin path spaced arguments) = some (path, arguments) := by
  have opening : Lexes ("load".toList ++ ['(']) [.name "load".toList, .mark '('] :=
    .name (by decide) (by decide) (.mark (by decide))
  have quoted : Lexes (Text.quoteChars path.toList) [.string path.toList] :=
    .literal (Text.unquote_quoteChars path.toList)
  have others := Lexes.flatMap fun argument member =>
    Lexes.argument spaced (named argument member)
  have closing : Lexes [')', '\n'] [.mark ')', .mark '\n'] :=
    (Lexes.mark (by decide)).append (.mark (by decide))
  have line :=
    ((((Lexes.gap blank).append opening).append quoted).append others).append closing
  have word : "load".toList = Token.kwLoad.text.toList := rfl
  rw [load, toList_loadLine, line.lexemes_eq]
  simp [word, loadArguments_pieces]

end Reading

namespace Shape

variable (options : Options)

/-- A name of a load is written as an argument, with an alias where the names differ. -/
theorem chars_binding (index : Nat) (source : Ident) (given : Option Ident) :
    (binding options.spaceEqBinary Node.ofIdent? index (some source) given).flatMap
        (Step.chars options) =
      (", " ++ (LoadArgument.ofIdents source given).written options.spaceEqBinary).toList := by
  cases given with
  | none =>
    simp [binding, writtenName?, Node.ofIdent?, Node.chars_ident, Step.quote,
      LoadArgument.ofIdents, LoadArgument.written]
  | some name =>
    by_cases same : name.name = source.name
    · simp [binding, writtenName?, same, Node.ofIdent?, Node.chars_ident, Step.quote,
        LoadArgument.ofIdents, LoadArgument.written]
    · cases spaced : options.spaceEqBinary <;>
        simp [binding, writtenName?, same, Node.ofIdent?, Node.chars_ident, Step.quote, Step.padded,
          Token.chars_marks, LoadArgument.ofIdents, LoadArgument.written]

theorem chars_bindings (index : Nat) (sources : List Ident) (locals : List (Option Ident)) :
    (bindings options.spaceEqBinary Node.ofIdent? index
        ((sources.map some).zip locals)).flatMap (Step.chars options) =
      (LoadArgument.ofPairs sources locals).flatMap
        fun argument => (", " ++ argument.written options.spaceEqBinary).toList := by
  rw [List.zip_map_left, LoadArgument.ofPairs]
  induction sources.zip locals generalizing index with
  | nil => rfl
  | cons pair rest ih =>
    rw [List.map_cons, List.map_cons, bindings, List.flatMap_append, List.flatMap_cons, ih]
    exact congrArg (· ++ _) (chars_binding options index pair.1 pair.2)

end Shape

namespace Node

variable {leaf : Literal} {path : String} {sources : List Ident} {locals : List (Option Ident)}

theorem renders_load (value : leaf.value = .text path) (even : sources.length = locals.length) :
    Role.statement.renders (load (.literal leaf) (sources.map some) locals) = true := by
  simp [Role.renders, rendersAsStatement, rendersAsExpression, value, Value.isWritable, even]

/-- The text of a load is the line of its arguments. -/
theorem chars_load (options : Options) (value : leaf.value = .text path)
    (even : sources.length = locals.length) :
    Role.statement.chars (load (.literal leaf) (sources.map some) locals) options =
      (loadLine (options.indentation 0) path options.spaceEqBinary
        (LoadArgument.ofPairs sources locals)).toList := by
  have word : Token.chars (some .kwLoad) = "load".toList := rfl
  rw [Role.chars_eq_plan (renders_load value even), toList_loadLine,
    ← Shape.chars_bindings options 0]
  simp [Role.plan, statementPlan, even, Shape.load, chars_text options value, word,
    Token.chars_marks]

end Node

end StarlarkPrinter
