import StarlarkPrinter.Proofs.BlockReader

namespace StarlarkPrinter.Reading

/-- The reader takes the line of a statement, at every level above its size and under all
options that indent. -/
def AlwaysTakesLine (node : Node) : Prop :=
  ∀ level, sizeOf node < level → ∀ options : Options, options.Indents →
    Reads (statement level options) (node.lineChars options) (Dedents options) node.bare

section Blocks

variable {level : Nat} {options : Options} {members : List Node} {rest : List Char}

private theorem blockChars_cons {member : Node} (formed : FormedStatement member)
    (others : List Node) (rest : List Char) :
    Node.blockChars options (member :: others) ++ rest =
      (options.indentation 0).toList ++
        (member.lineChars options ++ (Node.blockChars options others ++ rest)) := by
  simp [Node.blockChars, formed.chars]

private theorem dedents_block (indents : options.Indents)
    (formed : ∀ member ∈ members, FormedStatement member)
    (each : ∀ member ∈ members,
      Reads (statement level options) (member.lineChars options) (Dedents options) member.bare)
    (ended : line? options rest = none) :
    Dedents options (Node.blockChars options members ++ rest) := by
  -- From the last member to the first: a line ends what is before it once it is read
  -- itself, and it is read because what follows it ends it.
  induction members with
  | nil => exact dedents_of_line? ended
  | cons member others ih =>
    have follows := ih (fun other inside => formed other (by simp [inside]))
      (fun other inside => each other (by simp [inside]))
    rw [blockChars_cons (formed member (by simp))]
    exact dedents_of_statement indents (each member (by simp) _ follows)

/-- Members that are read one by one are read as a block. -/
theorem block_reads (indents : options.Indents)
    (formed : ∀ member ∈ members, FormedStatement member)
    (each : ∀ member ∈ members,
      Reads (statement level options) (member.lineChars options) (Dedents options) member.bare)
    {loops : Nat} (enough : members.length < loops) :
    Reads (block (statement level options) options loops) (Node.blockChars options members)
      (fun rest => line? options rest = none) (members.map Node.bare) := by
  intro rest ended
  induction members generalizing loops with
  | nil =>
    obtain ⟨loops, rfl⟩ := Nat.exists_eq_add_one_of_ne_zero (by omega : loops ≠ 0)
    have nothing : Node.blockChars options [] ++ rest = rest := rfl
    simp [nothing, block, ended]
  | cons member others ih =>
    obtain ⟨loops, rfl⟩ := Nat.exists_eq_add_one_of_ne_zero (by omega : loops ≠ 0)
    have othersFormed := fun other (inside : other ∈ others) => formed other (by simp [inside])
    have othersEach := fun other (inside : other ∈ others) => each other (by simp [inside])
    have taken := each member (by simp) _ (dedents_block indents othersFormed othersEach ended)
    have remaining := ih othersFormed othersEach (by simp at enough; omega : others.length < loops)
    obtain ⟨char, further, starts, -⟩ := statement_starts taken
    have line : line? options ((options.indentation 0).toList ++
          (member.lineChars options ++ (Node.blockChars options others ++ rest))) =
        some (member.lineChars options ++ (Node.blockChars options others ++ rest)) :=
      line?_eq_some_iff.mpr ⟨rfl, by simp [starts]⟩
    rw [blockChars_cons (formed member (by simp))]
    simp [block, line, taken, remaining]

/-- A block whose members are all taken is read at every level that is not below its size. -/
theorem readsBlock (formed : ∀ member ∈ members, FormedStatement member)
    (each : ∀ member ∈ members, AlwaysTakesLine member) (above : sizeOf members ≤ level)
    (indents : options.Indents) :
    ReadsBlock level options (Node.blockChars options members) (members.map Node.bare) := by
  have short := length_lt_sizeOf members
  refine block_reads indents formed (fun member inside => ?_) (by omega)
  have smaller := List.sizeOf_lt_of_mem inside
  exact each member inside level (by omega) options indents

end Blocks

end StarlarkPrinter.Reading

namespace StarlarkPrinter

open Reading

section Parts

variable {level : Nat} {options : Options} {x : Node}

private theorem Formed.readsExpression (formed : Formed .expression x) (above : sizeOf x < level)
    (blank : options.IndentsBlank) :
    Reads (Reading.expression (Reading.primary (level + 1))) (x.chars options) Stops x.bare :=
  formed.alwaysTakes level above options blank

private theorem Formed.readsPrimary (formed : Formed .primary x) (above : sizeOf x < level)
    (blank : options.IndentsBlank) :
    Reads (Reading.primary (level + 1)) (x.chars options) Ends x.bare :=
  (formed.alwaysTakes level above options blank).reads above

private theorem FormedParam.reads (formed : FormedParam x) (above : sizeOf x < level)
    (blank : options.IndentsBlank) :
    Reads (Reading.param (Reading.primary (level + 1))) (x.chars options) Breaks x.bare := by
  rcases formed.argument with inner | rfl
  · have taken : Takes level options .argument x := inner.alwaysTakes level above options blank
    exact Reads.param taken
  · have star : (Node.unary (some .star) .missing).chars options = ['*'] := by
      rw [Node.chars_eq_plan options rfl]
      rfl
    rw [star]
    exact param_reads_star

end Parts

/-- The reader takes every statement of the grammar as it is printed. -/
theorem FormedStatement.alwaysTakesLine {node : Node} (formed : FormedStatement node) :
    AlwaysTakesLine node := by
  induction formed with
  | assign left sign right =>
    intro level above options indents
    simp only [Node.assign.sizeOf_spec] at above
    obtain ⟨level, rfl⟩ := Nat.exists_eq_add_one_of_ne_zero (by omega : level ≠ 0)
    exact statement_reads_assign sign
      (expression_reads_primary (left.readsPrimary (by omega) indents.blank))
      (right.readsExpression (by omega) indents.blank)
  | branch word =>
    intro level above options indents
    obtain ⟨level, rfl⟩ := Nat.exists_eq_add_one_of_ne_zero (by omega : level ≠ 0)
    exact statement_reads_branch word
  | @returns result given =>
    intro level above options indents
    simp only [Node.returns.sizeOf_spec] at above
    obtain ⟨level, rfl⟩ := Nat.exists_eq_add_one_of_ne_zero (by omega : level ≠ 0)
    by_cases missing : result = .missing
    · subst missing
      exact statement_reads_return
    · have reads := (given missing).readsExpression (by omega : sizeOf result < level) indents.blank
      simpa [Node.lineChars, missing] using statement_reads_result reads
  | exprStmt alone plain =>
    intro level above options indents
    simp only [Node.exprStmt.sizeOf_spec] at above
    obtain ⟨level, rfl⟩ := Nat.exists_eq_add_one_of_ne_zero (by omega : level ≠ 0)
    exact statement_reads_exprStmt (alone.readsExpression (by omega) indents.blank)
  | @define leaf params body name each present inner ih =>
    intro level above options indents
    simp only [Node.define.sizeOf_spec] at above
    obtain ⟨level, rfl⟩ := Nat.exists_eq_add_one_of_ne_zero (by omega : level ≠ 0)
    have short := length_lt_sizeOf params
    have each : ∀ param ∈ params, Reads (Reading.param (Reading.primary (level + 1)))
        (param.chars options) Breaks param.bare := by
      intro param member
      have smaller := List.sizeOf_lt_of_mem member
      exact (each param member).reads (by omega) indents.blank
    have members := readsBlock inner ih (by omega : sizeOf body ≤ level) (indents.deeper 1)
    have reads := statement_reads_define indents.blank name each (by omega) members
    rw [Node.bare_define, Node.lineChars, Node.chars_ident]
    exact reads
  | @forLoop vars x body left right present inner ih =>
    intro level above options indents
    simp only [Node.forLoop.sizeOf_spec] at above
    obtain ⟨level, rfl⟩ := Nat.exists_eq_add_one_of_ne_zero (by omega : level ≠ 0)
    have members := readsBlock inner ih (by omega : sizeOf body ≤ level) (indents.deeper 1)
    rw [Node.bare_forLoop]
    exact statement_reads_for (left.readsPrimary (by omega) indents.blank)
      (right.readsExpression (by omega) indents.blank) members
  | @whileLoop test body head present inner ih =>
    intro level above options indents
    simp only [Node.whileLoop.sizeOf_spec] at above
    obtain ⟨level, rfl⟩ := Nat.exists_eq_add_one_of_ne_zero (by omega : level ≠ 0)
    have members := readsBlock inner ih (by omega : sizeOf body ≤ level) (indents.deeper 1)
    rw [Node.bare_whileLoop]
    exact statement_reads_while (head.readsExpression (by omega) indents.blank) members
  | @ifThen test onTrue onFalse head present inner other ih otherIh =>
    intro level above options indents
    simp only [Node.ifThen.sizeOf_spec] at above
    obtain ⟨level, rfl⟩ := Nat.exists_eq_add_one_of_ne_zero (by omega : level ≠ 0)
    have tested := head.readsExpression (by omega : sizeOf test < level) indents.blank
    have members := readsBlock inner ih (by omega : sizeOf onTrue ≤ level) (indents.deeper 1)
    have others := readsBlock other otherIh (by omega : sizeOf onFalse ≤ level)
      (indents.deeper 1)
    rw [Node.bare_ifThen]
    cases onFalse with
    | nil =>
      simpa [Node.lineChars, Node.bodyChars] using statement_reads_if tested members
    | cons first further =>
      exact statement_reads_if_else indents tested members others

/-- The texts of statements are the text of their block. -/
private theorem chars_of_mapM_print {settings : List Setting} {options : Options}
    (built : Options.ofSettings settings = .ok options) {nodes : List Node} {texts : List String}
    (printed : nodes.mapM (Role.statement.print settings) = .ok texts) :
    (String.join texts).toList = Node.blockChars options nodes := by
  induction nodes generalizing texts with
  | nil =>
    cases printed
    rfl
  | cons node rest ih =>
    rw [List.mapM_cons] at printed
    cases own : Role.statement.print settings node with
    | error error =>
      rw [own] at printed
      cases printed
    | ok text =>
      cases others : rest.mapM (Role.statement.print settings) with
      | error error =>
        rw [own, others] at printed
        cases printed
      | ok further =>
        rw [own, others] at printed
        cases printed
        have first : text.toList = Role.statement.chars node options :=
          Role.chars_of_print built own
        have remaining := ih others
        rw [String.toList_join] at remaining ⊢
        simp [first, remaining, Node.blockChars]

/-- The text of a block of statements is read back to the bare statements. -/
theorem FormedStatement.block_reads {nodes : List Node}
    (formed : ∀ node ∈ nodes, FormedStatement node) {options : Options}
    (indents : options.Indents) {level : Nat} (above : sizeOf nodes ≤ level) :
    block (statement level options) options level (Node.blockChars options nodes) =
      some (nodes.map Node.bare, []) := by
  have reads := readsBlock formed (fun node member => (formed node member).alwaysTakesLine)
    above indents
  have nothing : line? options [] = none :=
    line?_eq_none_iff.mpr fun line split => (List.append_eq_nil_iff.mp split).2
  have taken := reads [] nothing
  rwa [List.append_nil] at taken

/-- Two lists of statements that are printed, one statement after the other, as one text
are the same, up to positions, raw texts and the tokens of literals: where the indent is
some spaces and tabs, the margins of the lines give the blocks back. -/
theorem printed_blocks_readable {settings : List Setting} {options : Options}
    (built : Options.ofSettings settings = .ok options) (indents : options.Indents)
    {first second : List Node} (formed : ∀ node ∈ first, FormedStatement node)
    (otherFormed : ∀ node ∈ second, FormedStatement node) {texts otherTexts : List String}
    (printed : first.mapM (Role.statement.print settings) = .ok texts)
    (otherPrinted : second.mapM (Role.statement.print settings) = .ok otherTexts)
    (same : String.join texts = String.join otherTexts) :
    first.map Node.bare = second.map Node.bare := by
  have own := chars_of_mapM_print built printed
  have other := chars_of_mapM_print built otherPrinted
  let level := sizeOf first + sizeOf second
  have read := FormedStatement.block_reads formed indents (by omega : sizeOf first ≤ level)
  have otherRead :=
    FormedStatement.block_reads otherFormed indents (by omega : sizeOf second ≤ level)
  rw [← own, same] at read
  rw [← other, read] at otherRead
  exact (Prod.mk.inj (Option.some.inj otherRead)).1

/-- A conditional whose first branch ends with another one and whose head is split over
lines, once as it was built and once as it was read from a source. -/
theorem printed_second_branch_readable :
    let settings : List Setting :=
      [⟨.layout .call, .int 7⟩, ⟨.indent, .text "\t "⟩, ⟨.depth, .int 1⟩]
    let tree (position : Option Position) : List Node :=
      [.ifThen (.call (.ident ⟨"f", position⟩) [.ident ⟨"x", none⟩])
        [.ifThen (.ident ⟨"y", position⟩) [.branch (some .kwPass)] []] [.returns .missing]]
    let text := "\t if f(\n\t \t x,\n\t ):\n\t \t if y:\n\t \t \t pass\n\t else:\n\t \t return\n"
    (tree none).mapM (Role.statement.print settings) = .ok [text] ∧
      (tree (some { line := 3, column := 7 })).mapM (Role.statement.print settings) = .ok [text] ∧
      (tree none).map Node.bare = (tree (some { line := 3, column := 7 })).map Node.bare := by
  intro settings tree text
  have built : Options.ofSettings settings =
      .ok { depth := 1, indent := "\t ", call := ⟨.always, .always⟩ } :=
    ok_of_toOption (by decide +kernel)
  have printed : (tree none).mapM (Role.statement.print settings) = .ok [text] :=
    ok_of_toOption (by decide +kernel)
  have otherPrinted : (tree (some { line := 3, column := 7 })).mapM
      (Role.statement.print settings) = .ok [text] := ok_of_toOption (by decide +kernel)
  have name : ∀ name ∈ ["f", "x", "y"], Text.isName name.toList = true := by decide +kernel
  have formed (position : Option Position) : ∀ node ∈ tree position, FormedStatement node := by
    have head : Formed .expression (.call (.ident ⟨"f", position⟩) [.ident ⟨"x", none⟩]) := by
      refine .primary (.call (.ident (name "f" (by decide))) (List.forall_mem_singleton.mpr ?_))
      exact .expression (.primary (.ident (name "x" (by decide))))
    have inner : FormedStatement (.ifThen (.ident ⟨"y", position⟩) [.branch (some .kwPass)] []) :=
      .ifThen (.primary (.ident (name "y" (by decide)))) (by simp)
        (List.forall_mem_singleton.mpr (.branch (by decide))) (List.forall_mem_nil _)
    have second : FormedStatement (.returns .missing) :=
      .returns fun present => absurd rfl present
    exact List.forall_mem_singleton.mpr (.ifThen head (by simp)
      (List.forall_mem_singleton.mpr inner) (List.forall_mem_singleton.mpr second))
  exact ⟨printed, otherPrinted, printed_blocks_readable built ⟨by decide, by decide⟩ (formed none)
    (formed _) printed otherPrinted rfl⟩

end StarlarkPrinter
