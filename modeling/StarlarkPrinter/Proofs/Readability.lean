import StarlarkPrinter.Proofs.Constructs

namespace StarlarkPrinter.Reading

/-- The reader of a place takes a node as it is printed. A primary is only followed up to
its last call, name or index, because more of them may come. -/
def Takes (level : Nat) (options : Options) : Place → Node → Prop
  | .primary, node => ∀ rest, EndsRun rest → ∃ fuel, level ≤ fuel + sizeOf node ∧
      primary (level + 1) (node.chars options ++ rest) =
        trailers (primary level) level fuel node.bare rest
  | .expression, node =>
    Reads (expression (primary (level + 1))) (node.chars options) Stops node.bare
  | .argument, node =>
    Reads (argument (primary (level + 1))) (node.chars options) Breaks node.bare
  | .entry, node => Reads (entry (primary (level + 1))) (node.chars options) Stops node.bare
  | .clause, node => Reads (clause (primary (level + 1))) (node.clauseChars options) Ends node.bare

/-- A place takes a node at every level above its size, under all blank options. -/
def AlwaysTakes (place : Place) (node : Node) : Prop :=
  ∀ level, sizeOf node < level → ∀ options : Options, options.IndentsBlank →
    Takes level options place node

variable {level : Nat} {options : Options} {node x y z : Node} {elements : List Node}

/-- A primary that is followed to its end is read. -/
theorem Takes.reads (takes : Takes level options .primary node) (above : sizeOf node < level) :
    Reads (primary (level + 1)) (node.chars options) Ends node.bare := by
  intro rest ends
  obtain ⟨fuel, enough, reached⟩ := takes rest ends.endsRun
  obtain ⟨fuel, rfl⟩ := Nat.exists_eq_add_one_of_ne_zero (by omega : fuel ≠ 0)
  rw [reached, trailers_of_ends ends]

theorem takes_of_atom (own : ∀ rest, EndsRun rest →
      atom (primary level) level (node.chars options ++ rest) = some (node.bare, rest)) :
    Takes level options .primary node := by
  intro rest ends
  exact ⟨level, by omega, by simp [primary, own rest ends]⟩

/-- A primary goes on with a call, a name or an index. -/
theorem takes_of_trailer {text : List Char} (head : Takes level options .primary x)
    (larger : sizeOf x < sizeOf node) (above : sizeOf node < level)
    (split : node.chars options = x.chars options ++ text)
    (opens : ∀ rest, EndsRun (text ++ rest))
    (goesOn : ∀ rest fuel, EndsRun rest →
      trailers (primary level) level (fuel + 1) x.bare (text ++ rest) =
        trailers (primary level) level fuel node.bare rest) :
    Takes level options .primary node := by
  intro rest ends
  obtain ⟨fuel, enough, reached⟩ := head (text ++ rest) (opens rest)
  obtain ⟨fuel, rfl⟩ := Nat.exists_eq_add_one_of_ne_zero (by omega : fuel ≠ 0)
  refine ⟨fuel, by omega, ?_⟩
  rw [split, List.append_assoc, reached, goesOn rest fuel ends]

section Atoms

theorem alwaysTakes_ident {leaf : Ident} (name : Text.isName leaf.name.toList = true) :
    AlwaysTakes .primary (.ident leaf) := by
  intro level _ options _
  apply takes_of_atom
  intro rest ends
  have taken := leaf_reads_name name rest ends
  rw [String.ofList_toList] at taken
  rw [Node.chars_ident]
  exact atom_of_leaf taken

theorem alwaysTakes_text {leaf : Literal} {content : String} (value : leaf.value = .text content) :
    AlwaysTakes .primary (.literal leaf) := by
  intro level _ options _
  apply takes_of_atom
  intro rest _
  rw [Node.chars_text options value, atom_text, String.ofList_toList, Node.bare_literal,
    Literal.bare, value]

theorem alwaysTakes_number {leaf : Literal} {number : Nat} (value : leaf.value = .int number)
    (short : number < Text.numeralBound) : AlwaysTakes .primary (.literal leaf) := by
  intro level _ options _
  apply takes_of_atom
  intro rest ends
  have taken := leaf_reads_number number rest ends
  rw [Node.chars_number options value short, Node.bare_literal, Literal.bare, value]
  exact atom_of_leaf taken

theorem alwaysTakes_paren (formed : Formed .expression x) (inner : AlwaysTakes .expression x) :
    AlwaysTakes .primary (.paren x) := by
  intro level above options blank
  simp only [Node.paren.sizeOf_spec] at above
  obtain ⟨level, rfl⟩ := Nat.exists_eq_add_one_of_ne_zero (by omega : level ≠ 0)
  have renders : (Node.paren x).rendersAsExpression = true := formed.renders
  have taken := inner level (by omega) options blank
  apply takes_of_atom
  intro rest _
  have grouped : group (primary (level + 1)) (level + 1) (x.chars options ++ ')' :: rest) =
      some (.paren x.bare, rest) := group_reads_paren (primary_selective _) taken rest
  simpa [Node.chars_paren options formed.isEmptyTuple renders, atom] using grouped

theorem Reads.of_stops {read : Reader Node} {text : List Char}
    (reads : Reads read text Stops node) : Reads read text Breaks node :=
  fun rest breaks => reads rest breaks.stops

theorem length_lt_sizeOf (elements : List Node) : elements.length < sizeOf elements := by
  induction elements with
  | nil => simp
  | cons element others ih =>
    simp only [List.length_cons, List.cons.sizeOf_spec]
    omega

/-- A list of nodes that are all smaller than a level is taken one by one. -/
private theorem each_takes {place : Place} (each : ∀ element ∈ elements, AlwaysTakes place element)
    (above : sizeOf elements ≤ level) (blank : options.IndentsBlank) :
    ∀ element ∈ elements, Takes level options place element := by
  intro element member
  have smaller := List.sizeOf_lt_of_mem member
  exact each element member level (by omega) options blank

theorem alwaysTakes_tuple (several : 2 ≤ elements.length)
    (formed : ∀ element ∈ elements, Formed .expression element)
    (each : ∀ element ∈ elements, AlwaysTakes .expression element) :
    AlwaysTakes .primary (.paren (.tuple elements)) := by
  intro level above options blank
  simp only [Node.paren.sizeOf_spec, Node.tuple.sizeOf_spec] at above
  obtain ⟨level, rfl⟩ := Nat.exists_eq_add_one_of_ne_zero (by omega : level ≠ 0)
  have renders : (Node.tuple elements).rendersAsExpression = true :=
    (Formed.tuple several formed).renders
  have outer : (Node.paren (.tuple elements)).rendersAsExpression = true := renders
  have short := length_lt_sizeOf elements
  have spaced := Spacing.ofLayout_isBlank blank options.tuple elements.length
  have takes := each_takes each (by omega : sizeOf elements ≤ level) spaced.inner
  apply takes_of_atom
  intro rest _
  match elements with
  | first :: second :: others =>
    have present : (Node.tuple (first :: second :: others)).isEmptyTuple = false := rfl
    have grouped := group_reads_tuple (primary_selective (level + 1)) spaced
      (fun element member => (takes element member).of_stops)
      (by simp at short above ⊢; omega : others.length + 1 < level + 1) rest
    rw [Node.chars_paren options present outer, Node.chars_tuple options (by simp) renders]
    simpa [atom] using grouped

/-- An element between brackets is taken by the reader of elements. -/
private theorem Takes.element {curly : Bool}
    (takes : Takes level options (if curly then .entry else .expression) node) :
    Reads (element (primary (level + 1)) curly) (node.chars options) Stops node.bare := by
  cases curly <;> exact takes

theorem alwaysTakes_elements {curly : Bool} (formed : Formed .primary (ofElements curly elements))
    (each : ∀ member ∈ elements, AlwaysTakes (if curly then .entry else .expression) member) :
    AlwaysTakes .primary (ofElements curly elements) := by
  intro level above options blank
  have size : sizeOf (ofElements curly elements) = 1 + sizeOf elements := by
    cases curly <;> simp [ofElements]
  obtain ⟨level, rfl⟩ := Nat.exists_eq_add_one_of_ne_zero (by omega : level ≠ 0)
  have renders : (ofElements curly elements).rendersAsExpression = true := formed.renders
  have short := length_lt_sizeOf elements
  apply takes_of_atom
  intro rest _
  have collected (layout : Layout) := by
    have spaced := Spacing.ofLayout_isBlank blank layout elements.length
    have takes := each_takes each (by omega : sizeOf elements ≤ level) spaced.inner
    exact collection_reads_elements (primary_selective (level + 1)) spaced
      (by rintro rfl; exact Spacing.ending_of_empty _ _)
      (fun member inside => (takes member inside).element.of_stops)
      (by omega : elements.length < level + 1) rest
  cases curly with
  | false =>
    have own := Node.chars_list options renders
    simpa [ofElements, own, atom, closing] using collected options.list
  | true =>
    have own := Node.chars_dict options renders
    simpa [ofElements, own, atom, closing] using collected options.dict

theorem clauseChars_for (options : Options) (vars x : Node) :
    (Node.forClause vars x).clauseChars options =
      spaced .kwFor ++ vars.chars options ++ spaced .kwIn ++ x.chars options :=
  Node.clauseChars_for options vars x

theorem clauseChars_if (options : Options) (test : Node) :
    (Node.ifClause test).clauseChars options = spaced .kwIf ++ test.chars options :=
  Node.clauseChars_if options test

private theorem ends_clause (formed : Formed .clause node) (rest : List Char) :
    Ends (node.clauseChars options ++ rest) := by
  cases formed with
  | forClause left right =>
    rw [clauseChars_for, List.append_assoc, List.append_assoc, List.append_assoc]
    exact ends_spaced .kwFor _
  | ifClause inner =>
    rw [clauseChars_if, List.append_assoc]
    exact ends_spaced .kwIf _

private theorem stops_for (vars x : Node) (rest : List Char) :
    Stops ((Node.forClause vars x).clauseChars options ++ rest) := by
  rw [clauseChars_for, List.append_assoc, List.append_assoc, List.append_assoc]
  exact stops_spaced (by decide : Token.kwFor ∈ connectives) (by decide) _

theorem alwaysTakes_comprehension {body vars : Node} {clauses : List Node} {curly : Bool}
    (formed : Formed .primary (.comprehension body (.forClause vars x :: clauses) curly))
    (clausesFormed : ∀ clause ∈ .forClause vars x :: clauses, Formed .clause clause)
    (inner : AlwaysTakes (if curly then .entry else .expression) body)
    (each : ∀ clause ∈ .forClause vars x :: clauses, AlwaysTakes .clause clause) :
    AlwaysTakes .primary (.comprehension body (.forClause vars x :: clauses) curly) := by
  intro level above options blank
  simp only [Node.comprehension.sizeOf_spec] at above
  obtain ⟨level, rfl⟩ := Nat.exists_eq_add_one_of_ne_zero (by omega : level ≠ 0)
  have renders :
      (Node.comprehension body (.forClause vars x :: clauses) curly).rendersAsExpression = true :=
    formed.renders
  have short := length_lt_sizeOf (.forClause vars x :: clauses)
  have takes := each_takes each
    (by omega : sizeOf (Node.forClause vars x :: clauses) ≤ level) blank
  have innerTakes := inner level (by omega) options blank
  apply takes_of_atom
  intro rest _
  have collected := collection_reads_comprehension (primary_selective (level + 1))
    innerTakes.element takes (fun clause member => ends_clause (clausesFormed clause member))
    (stops_for vars x)
    (by rw [List.length_cons] at short; omega : clauses.length + 1 < level + 1) rest
  rw [Node.chars_comprehension options renders]
  cases curly <;> simpa [atom, closing] using collected

end Atoms

section Trailers

theorem alwaysTakes_call {args : List Node} (formed : Formed .primary (.call x args))
    (head : AlwaysTakes .primary x) (each : ∀ arg ∈ args, AlwaysTakes .argument arg) :
    AlwaysTakes .primary (.call x args) := by
  intro level above options blank
  have size : sizeOf (Node.call x args) = 1 + sizeOf x + sizeOf args := Node.call.sizeOf_spec x args
  obtain ⟨level, rfl⟩ := Nat.exists_eq_add_one_of_ne_zero (by omega : level ≠ 0)
  have renders : (Node.call x args).rendersAsExpression = true := formed.renders
  have short := length_lt_sizeOf args
  have spaced := Spacing.ofLayout_isBlank blank options.call args.length
  have takes := each_takes each (by omega : sizeOf args ≤ level) spaced.inner
  refine takes_of_trailer (head _ (by omega) options blank) (by omega) above
    ((Node.chars_call options renders).trans (List.append_assoc _ _ _)) ?_ ?_
  · intro rest char first
    cases first
    decide
  · intro rest fuel _
    have taken := items_reads (primary_selective (level + 1)).argument
      (by decide : ')' ∈ closers) spaced
      (by rintro rfl; exact Spacing.ending_of_empty _ _) takes
      (by omega : args.length < level + 1) rest
    simp [trailers, taken]

theorem alwaysTakes_dot {leaf : Ident} (formed : Formed .primary (.dot x (.ident leaf)))
    (head : AlwaysTakes .primary x) (name : Text.isName leaf.name.toList = true) :
    AlwaysTakes .primary (.dot x (.ident leaf)) := by
  intro level above options blank
  have size : sizeOf (Node.dot x (.ident leaf)) = 1 + sizeOf x + sizeOf (Node.ident leaf) :=
    Node.dot.sizeOf_spec x _
  have renders : (Node.dot x (.ident leaf)).rendersAsExpression = true := formed.renders
  refine takes_of_trailer (head _ (by omega) options blank) (by omega) above
    (Node.chars_dot options renders) ?_ ?_
  · intro rest char first
    cases first
    decide
  · intro rest fuel ends
    have taken := leaf_reads_name name rest ends
    rw [String.ofList_toList] at taken
    simp [trailers, taken, Node.chars_ident, Ident.bare]

theorem alwaysTakes_index (formed : Formed .primary (.index x y)) (head : AlwaysTakes .primary x)
    (inner : AlwaysTakes .expression y) : AlwaysTakes .primary (.index x y) := by
  intro level above options blank
  have size : sizeOf (Node.index x y) = 1 + sizeOf x + sizeOf y := Node.index.sizeOf_spec x y
  obtain ⟨level, rfl⟩ := Nat.exists_eq_add_one_of_ne_zero (by omega : level ≠ 0)
  have renders : (Node.index x y).rendersAsExpression = true := formed.renders
  have innerTakes := inner level (by omega) options blank
  refine takes_of_trailer (head _ (by omega) options blank) (by omega) above
    ((Node.chars_index options renders).trans (List.append_assoc _ _ _)) ?_ ?_
  · intro rest char first
    cases first
    decide
  · intro rest fuel _
    simp [trailers, subscript_reads_index innerTakes rest]

/-- A bound that may be left out is read as one. -/
private theorem readsBound (present : x ≠ .missing → AlwaysTakes .expression x)
    (above : sizeOf x < level) (blank : options.IndentsBlank) :
    ReadsBound (primary (level + 1)) (x.optionalChars options) x.bare := by
  by_cases missing : x = .missing
  · subst missing
    exact .inl ⟨rfl, rfl⟩
  · refine .inr ?_
    have shown : x.optionalChars options = x.chars options := by
      simp [Node.optionalChars, missing]
    rw [shown]
    exact present missing level above options blank

theorem alwaysTakes_slice {lo hi step : Node} (formed : Formed .primary (.slice x lo hi step))
    (head : AlwaysTakes .primary x) (low : lo ≠ .missing → AlwaysTakes .expression lo)
    (high : hi ≠ .missing → AlwaysTakes .expression hi)
    (stride : step ≠ .missing → AlwaysTakes .expression step) :
    AlwaysTakes .primary (.slice x lo hi step) := by
  intro level above options blank
  have size : sizeOf (Node.slice x lo hi step) =
      1 + sizeOf x + sizeOf lo + sizeOf hi + sizeOf step := Node.slice.sizeOf_spec x lo hi step
  obtain ⟨level, rfl⟩ := Nat.exists_eq_add_one_of_ne_zero (by omega : level ≠ 0)
  have renders : (Node.slice x lo hi step).rendersAsExpression = true := formed.renders
  have lowReads := readsBound low (by omega : sizeOf lo < level) blank
  have highReads := readsBound high (by omega : sizeOf hi < level) blank
  refine takes_of_trailer (head _ (by omega) options blank) (by omega) above
    ((Node.chars_slice options renders).trans (by simp only [List.append_assoc]; rfl)) ?_ ?_
  · intro rest char first
    cases first
    decide
  · intro rest fuel _
    by_cases missing : step = .missing
    · subst missing
      have taken := subscript_reads_slice lowReads highReads rest x.bare
      simp [Node.isMissing, trailers, taken]
    · have strideReads := stride missing level (by omega) options blank
      have taken := subscript_reads_stride lowReads highReads strideReads rest x.bare
      simp [missing, trailers, taken]

end Trailers

section Expressions

theorem alwaysTakes_binary {op : Token} (formed : Formed .expression (.binary x (some op) y))
    (sign : op ∈ Token.infixes) (left : AlwaysTakes .primary x) (right : AlwaysTakes .primary y) :
    AlwaysTakes .expression (.binary x (some op) y) := by
  intro level above options blank
  simp only [Node.binary.sizeOf_spec] at above
  have renders : (Node.binary x (some op) y).rendersAsExpression = true := formed.renders
  have spelled : ∀ op ∈ Token.infixes, op ≠ .eq ∧ Token.chars (some op) = op.text.toList := by
    decide +kernel
  have reads := expression_reads_binary sign
    ((left level (by omega) options blank).reads (by omega))
    ((right level (by omega) options blank).reads (by omega))
  have text : (Node.binary x (some op) y).chars options =
      x.chars options ++ spaced op ++ y.chars options := by
    rw [Node.chars_binary options renders (spelled op sign).1, (spelled op sign).2]
    simp [spaced]
  rw [Takes, text]
  exact reads

theorem alwaysTakes_cond (formed : Formed .expression (.cond x y z))
    (middle : AlwaysTakes .primary x) (left : AlwaysTakes .primary y)
    (right : AlwaysTakes .primary z) : AlwaysTakes .expression (.cond x y z) := by
  intro level above options blank
  simp only [Node.cond.sizeOf_spec] at above
  have renders : (Node.cond x y z).rendersAsExpression = true := formed.renders
  have reads := expression_reads_cond
    ((left level (by omega) options blank).reads (by omega))
    ((middle level (by omega) options blank).reads (by omega))
    ((right level (by omega) options blank).reads (by omega))
  rw [Takes, Node.chars_cond options renders]
  exact reads

theorem alwaysTakes_unary {op : Token} (formed : Formed .expression (.unary (some op) x))
    (present : x ≠ .missing) (sign : op ∈ Token.signs) (operand : AlwaysTakes .primary x) :
    AlwaysTakes .expression (.unary (some op) x) := by
  intro level above options blank
  simp only [Node.unary.sizeOf_spec] at above
  have renders : (Node.unary (some op) x).rendersAsExpression = true := formed.renders
  have reads := expression_reads_unary sign
    ((operand level (by omega) options blank).reads (by omega))
  rw [Takes, Node.chars_unary options renders present]
  exact reads

theorem alwaysTakes_star {op : Token} (formed : Formed .argument (.unary (some op) x))
    (present : x ≠ .missing) (sign : op = .star ∨ op = .starStar)
    (operand : AlwaysTakes .primary x) : AlwaysTakes .argument (.unary (some op) x) := by
  intro level above options blank
  simp only [Node.unary.sizeOf_spec] at above
  have renders : (Node.unary (some op) x).rendersAsExpression = true := formed.renders
  have reads := argument_reads_star sign
    ((operand level (by omega) options blank).reads (by omega))
  have noWord : op.isKeyword = false := by
    rcases sign with rfl | rfl <;> rfl
  rw [Takes, Node.chars_unary options renders present, noWord]
  simpa using reads

theorem alwaysTakes_keyword {leaf : Ident}
    (formed : Formed .argument (.binary (.ident leaf) (some .eq) y))
    (name : AlwaysTakes .primary (.ident leaf)) (right : AlwaysTakes .expression y) :
    AlwaysTakes .argument (.binary (.ident leaf) (some .eq) y) := by
  intro level above options blank
  simp only [Node.binary.sizeOf_spec] at above
  have renders : (Node.binary (.ident leaf) (some .eq) y).rendersAsExpression = true :=
    formed.renders
  have reads := argument_reads_keyword options.spaceEqBinary
    ((name level (by omega) options blank).reads (by omega))
    (right level (by omega) options blank)
  rw [Takes, Node.chars_keyword options renders]
  exact reads

theorem alwaysTakes_entry (formed : Formed .entry (.dictEntry x y))
    (left : AlwaysTakes .expression x) (right : AlwaysTakes .expression y) :
    AlwaysTakes .entry (.dictEntry x y) := by
  intro level above options blank
  simp only [Node.dictEntry.sizeOf_spec] at above
  have renders : (Node.dictEntry x y).rendersAsExpression = true := formed.renders
  have reads := entry_reads (left level (by omega) options blank)
    (right level (by omega) options blank)
  rw [Takes, Node.chars_dictEntry options renders]
  exact reads

theorem alwaysTakes_forClause (left : AlwaysTakes .primary x) (right : AlwaysTakes .primary y) :
    AlwaysTakes .clause (.forClause x y) := by
  intro level above options blank
  simp only [Node.forClause.sizeOf_spec] at above
  rw [Takes, clauseChars_for]
  exact clause_reads_for ((left level (by omega) options blank).reads (by omega))
    ((right level (by omega) options blank).reads (by omega))

theorem alwaysTakes_ifClause (inner : AlwaysTakes .primary x) :
    AlwaysTakes .clause (.ifClause x) := by
  intro level above options blank
  simp only [Node.ifClause.sizeOf_spec] at above
  rw [Takes, clauseChars_if]
  exact clause_reads_if ((inner level (by omega) options blank).reads (by omega))

end Expressions

end StarlarkPrinter.Reading

namespace StarlarkPrinter

open Reading

/-- The reader takes every tree of the grammar as it is printed. -/
theorem Formed.alwaysTakes {place : Place} {node : Node} (formed : Formed place node) :
    AlwaysTakes place node := by
  induction formed with
  | ident name => exact alwaysTakes_ident name
  | text value => exact alwaysTakes_text value
  | number value short => exact alwaysTakes_number value short
  | paren inner ih => exact alwaysTakes_paren inner ih
  | tuple several each ih => exact alwaysTakes_tuple several each ih
  | list each ih =>
    have formed : Formed .primary (ofElements false _) := .list each
    exact alwaysTakes_elements formed ih
  | dict each ih =>
    have formed : Formed .primary (ofElements true _) := .dict each
    exact alwaysTakes_elements formed ih
  | entry left right leftIh rightIh =>
    exact alwaysTakes_entry (.entry left right) leftIh rightIh
  | comprehension inner first each innerIh firstIh ih =>
    exact alwaysTakes_comprehension (.comprehension inner first each)
      (List.forall_mem_cons.mpr ⟨first, each⟩) innerIh (List.forall_mem_cons.mpr ⟨firstIh, ih⟩)
  | forClause left right leftIh rightIh => exact alwaysTakes_forClause leftIh rightIh
  | ifClause inner ih => exact alwaysTakes_ifClause ih
  | call head each headIh ih => exact alwaysTakes_call (.call head each) headIh ih
  | dot head name headIh => exact alwaysTakes_dot (.dot head name) headIh name
  | index head inner headIh ih => exact alwaysTakes_index (.index head inner) headIh ih
  | slice head low high stride headIh lowIh highIh strideIh =>
    exact alwaysTakes_slice (.slice head low high stride) headIh lowIh highIh strideIh
  | primary alone ih =>
    intro level above options blank
    exact expression_reads_primary ((ih level above options blank).reads above)
  | unary sign operand ih =>
    exact alwaysTakes_unary (.unary sign operand) operand.present sign ih
  | binary left sign right leftIh rightIh =>
    exact alwaysTakes_binary (.binary left sign right) sign leftIh rightIh
  | cond middle left right middleIh leftIh rightIh =>
    exact alwaysTakes_cond (.cond middle left right) middleIh leftIh rightIh
  | expression alone ih =>
    intro level above options blank
    exact argument_reads_expression (ih level above options blank)
  | keyword name right ih =>
    exact alwaysTakes_keyword (.keyword name right) (alwaysTakes_ident name) ih
  | star sign operand ih => exact alwaysTakes_star (.star sign operand) operand.present sign ih

/-- The text of a tree of the grammar is read back to the bare tree. -/
theorem Formed.expression_reads {node : Node} (formed : Formed .expression node)
    {options : Options} (blank : options.IndentsBlank) {level : Nat} (above : sizeOf node < level) :
    Reading.expression (Reading.primary (level + 1)) (node.chars options) =
      some (node.bare, []) := by
  have nothing : Stops [] := Breaks.stops (by intro char head; cases head)
  have reads := formed.alwaysTakes level above options blank [] nothing
  rwa [List.append_nil] at reads

/-- Two trees of the grammar that are printed as one text are the same, up to positions,
raw texts and the tokens of literals. The options may even differ, as long as they indent
by spaces and tabs. -/
theorem printed_expressions_readable {settings otherSettings : List Setting}
    {options otherOptions : Options} (built : Options.ofSettings settings = .ok options)
    (otherBuilt : Options.ofSettings otherSettings = .ok otherOptions)
    (blank : options.IndentsBlank) (otherBlank : otherOptions.IndentsBlank)
    {first second : Node} (formed : Formed .expression first)
    (otherFormed : Formed .expression second) {text : String}
    (printed : Role.expression.print settings first = .ok text)
    (otherPrinted : Role.expression.print otherSettings second = .ok text) :
    first.bare = second.bare := by
  have own : text.toList = first.chars options := Role.chars_of_print built printed
  have other : text.toList = second.chars otherOptions :=
    Role.chars_of_print otherBuilt otherPrinted
  let level := sizeOf first + sizeOf second + 1
  have read := formed.expression_reads blank (by omega : sizeOf first < level)
  have otherRead := otherFormed.expression_reads otherBlank (by omega : sizeOf second < level)
  rw [← own] at read
  rw [← other, read] at otherRead
  exact (Prod.mk.inj (Option.some.inj otherRead)).1

theorem ok_of_toOption {ε α : Type} {result : Except ε α} {value : α}
    (found : result.toOption = some value) : result = .ok value := by
  cases result with
  | error error => cases found
  | ok own => exact congrArg _ (Option.some.inj found)

/-- A call that is split over lines, once as it was built and once as it was read from a
source. -/
theorem printed_call_readable :
    let settings : List Setting := [⟨.layout .call, .int 7⟩, ⟨.indent, .text "\t "⟩]
    let built : Node := .call (.ident ⟨"f", none⟩)
      [.binary (.ident ⟨"x", none⟩) (some .eq)
        (.slice (.ident ⟨"y", none⟩) .missing (.literal { value := .int 1 }) .missing)]
    let parsed : Node := .call (.ident ⟨"f", some { line := 3, column := 7 }⟩)
      [.binary (.ident ⟨"x", none⟩) (some .eq)
        (.slice (.ident ⟨"y", none⟩) .missing
          (.literal { value := .int 1, raw := "0x1", token := some .intLiteral }) .missing)]
    Role.expression.print settings built = .ok "f(\n\t x=y[:1],\n)" ∧
      Role.expression.print settings parsed = .ok "f(\n\t x=y[:1],\n)" ∧
      built.bare = parsed.bare := by
  intro settings built parsed
  have options : Options.ofSettings settings =
      .ok { indent := "\t ", call := ⟨.always, .always⟩ } := ok_of_toOption (by decide +kernel)
  have printed : Role.expression.print settings built = .ok "f(\n\t x=y[:1],\n)" :=
    ok_of_toOption (by decide +kernel)
  have otherPrinted : Role.expression.print settings parsed = .ok "f(\n\t x=y[:1],\n)" :=
    ok_of_toOption (by decide +kernel)
  have name : ∀ name ∈ ["f", "x", "y"], Text.isName name.toList = true := by decide +kernel
  have short : 1 < Text.numeralBound :=
    Text.lt_numeralBound (by decide : 1 < Nat.pow 10 1) (by decide)
  have formed (position : Option Position) {number : Literal}
      (one : number.value = .int (1 : Nat)) :
      Formed .expression (.call (.ident ⟨"f", position⟩)
        [.binary (.ident ⟨"x", none⟩) (some .eq)
          (.slice (.ident ⟨"y", none⟩) .missing (.literal number) .missing)]) := by
    refine .primary (.call (.ident (name "f" (by decide))) (List.forall_mem_singleton.mpr ?_))
    refine .keyword (name "x" (by decide)) (.primary ?_)
    refine .slice (.ident (name "y" (by decide))) ?_ ?_ ?_
    · exact fun present => absurd rfl present
    · exact fun _ => .primary (.number one short)
    · exact fun present => absurd rfl present
  exact ⟨printed, otherPrinted, printed_expressions_readable options options (by decide)
    (by decide) (formed none rfl) (formed _ rfl) printed otherPrinted⟩

end StarlarkPrinter
