import Mathlib.Data.List.Nodup
import StarlarkPrinter.Proofs.Factorisation
import StarlarkPrinter.Proofs.Path

namespace StarlarkPrinter

/-- An identifier in a tree and the path to it. -/
structure Occurrence where
  path : List Hop
  leaf : Ident
deriving DecidableEq

def Occurrence.below (hop : Hop) (occurrence : Occurrence) : Occurrence :=
  { occurrence with path := hop :: occurrence.path }

namespace Part

theorem mem_of_mem_members {kind : Kind} {field : Field} {index : Nat} {trees : List Node}
    {known : Kind.slots.contains (kind, field, true) = true} {part : Part}
    (present : part ∈ members kind field index trees known) : part.tree ∈ trees := by
  obtain ⟨⟨tree, number⟩, numbered, rfl⟩ := List.mem_map.mp present
  exact List.fst_mem_of_mem_zipIdx numbered

private theorem ofClause_smaller {clause : Node} {number : Nat} {part : Part}
    (present : part ∈ ofClause number clause) : sizeOf part.tree < sizeOf clause := by
  cases clause with
  | forClause vars x =>
    simp only [ofClause, List.mem_cons, List.not_mem_nil, or_false] at present
    rcases present with rfl | rfl
    all_goals
      simp only [member, Node.forClause.sizeOf_spec]
      omega
  | ifClause test =>
    simp only [ofClause, List.mem_singleton] at present
    simp [present, member]
  | _ => cases present

/-- A name of a load is one of the names on either side. -/
theorem ofBinding_mem {sources locals : List (Option Ident)} {source bound : Option Ident}
    {number : Nat} {part : Part} (paired : (source, bound) ∈ sources.zip locals)
    (present : part ∈ ofBinding number source bound) :
    ∃ leaf, part.tree = Node.ofIdent? leaf ∧ (leaf ∈ sources ∨ leaf ∈ locals) := by
  obtain ⟨fromSources, fromLocals⟩ := List.of_mem_zip paired
  rcases List.mem_append.mp present with written | given
  · obtain ⟨name, found, rfl⟩ := Option.map_eq_some_iff.mp (Option.mem_toList.mp written)
    have given : bound = some name := Shape.eq_of_writtenName? found
    exact ⟨some name, rfl, .inr (given ▸ fromLocals)⟩
  · rw [List.mem_singleton.mp given]
    exact ⟨source, rfl, .inl fromSources⟩

end Part

namespace Node

theorem parts_smaller (node : Node) {part : Part} (present : part ∈ node.parts) :
    sizeOf part.tree < sizeOf node := by
  have inside {kind : Kind} {field : Field} {index : Nat} {trees : List Node}
      {known : Kind.slots.contains (kind, field, true) = true}
      (present : part ∈ Part.members kind field index trees known) :
      sizeOf part.tree < sizeOf trees :=
    List.sizeOf_lt_of_mem (Part.mem_of_mem_members present)
  cases node with
  | comprehension body clauses curly =>
    rw [comprehension.sizeOf_spec]
    rcases List.mem_cons.mp present with rfl | further
    · simp only [Part.single]
      omega
    · obtain ⟨⟨clause, number⟩, numbered, own⟩ := List.mem_flatMap.mp further
      have below := Part.ofClause_smaller own
      have member : sizeOf clause < sizeOf clauses :=
        List.sizeOf_lt_of_mem (List.fst_mem_of_mem_zipIdx numbered)
      omega
  | load path sources locals =>
    rw [load.sizeOf_spec]
    rcases List.mem_cons.mp present with rfl | further
    · simp only [Part.single]
      omega
    · obtain ⟨⟨⟨source, bound⟩, number⟩, numbered, own⟩ := List.mem_flatMap.mp further
      obtain ⟨leaf, same, member⟩ :=
        Part.ofBinding_mem (List.fst_mem_of_mem_zipIdx numbered) own
      rw [same]
      rcases member with member | member
      · have smaller := ofIdent?_smaller member
        omega
      · have smaller := ofIdent?_smaller member
        omega
  | _ =>
    simp only [parts, unlessMissing] at present
    grind [Part.single]

def ownOccurrence : Node → List Occurrence
  | .ident leaf => [⟨[], leaf⟩]
  | _ => []

theorem ownOccurrence_of_ne {node : Node} (other : ∀ leaf, node ≠ .ident leaf) :
    node.ownOccurrence = [] := by
  cases node with
  | ident leaf => exact absurd rfl (other leaf)
  | _ => rfl

/-- The identifiers that a node prints, in this order. -/
def occurrences (node : Node) : List Occurrence :=
  node.ownOccurrence ++ node.parts.attach.flatMap fun ⟨part, present⟩ =>
    have := node.parts_smaller present
    (occurrences part.tree).map (.below part.hop)
termination_by sizeOf node

theorem occurrences_eq (node : Node) :
    node.occurrences = node.ownOccurrence ++ node.parts.flatMap fun part =>
      part.tree.occurrences.map (.below part.hop) := by
  rw [occurrences]
  conv => rhs; rw [← List.attach_map_subtype_val node.parts, List.flatMap_map]

@[simp]
theorem occurrences_ident (leaf : Ident) : (ident leaf).occurrences = [⟨[], leaf⟩] := by
  rw [occurrences_eq]
  rfl

end Node

/-- The place of a name in its identifier. -/
def Crumb.ident : Crumb := .part Kind.ident.scope "Name"

/-- The write of an occurrence: the name behind the crumbs of the path. -/
def Occurrence.write (occurrence : Occurrence) : Write :=
  ⟨occurrence.leaf.name, occurrence.path.map Hop.crumb ++ [.ident]⟩

def Write.isIdent (write : Write) : Bool :=
  write.path.getLast? = some .ident

theorem Write.isIdent_within {write : Write} (placed : write.path ≠ []) (crumb : Crumb) :
    (write.within crumb).isIdent = write.isIdent := by
  rw [isIdent, within, List.getLast?_cons_of_ne_nil placed, isIdent]

def Trace.identWrites (trace : Trace) : List Write :=
  trace.writes.filter Write.isIdent

theorem Trace.identWrites_within {trace : Trace}
    (placed : ∀ write ∈ trace.writes, write.path ≠ []) (crumb : Crumb) :
    (trace.within crumb).identWrites = trace.identWrites.map (·.within crumb) := by
  rw [identWrites, within, List.filter_map, identWrites]
  congr 1
  apply List.filter_congr
  intro write member
  exact Write.isIdent_within (placed write member) crumb

/-- The writes of identifiers of a node in a role are those of its occurrences. -/
def Role.ListsOccurrences (role : Role) (node : Node) : Prop :=
  ∀ options, (role.trace node options).identWrites = node.occurrences.map Occurrence.write

namespace Step

/-- A step that is no name of an identifier writes the identifiers of its parts. -/
theorem identWrites_trace {step : Step Node} {scope : String} (elsewhere : scope ≠ Kind.ident.scope)
    (parts : step.Every Role.ListsOccurrences) {options : Options}
    (well : (step.trace scope options).ending = .done) :
    (step.trace scope options).identWrites = (step.parts scope).flatMap fun (crumb, tree) =>
      tree.occurrences.map fun occurrence => occurrence.write.within crumb := by
  cases step with
  | part tree label levels =>
    have placed := (Role.expression.accountable tree (options.deeper levels)).placed
    rw [trace_part, Trace.identWrites_within placed, parts]
    simp [Step.parts]
  | block trees label levels =>
    rw [trace_block] at well ⊢
    have each := (Trace.concat_ending_iff _).mp well
    rw [Trace.identWrites, Trace.concat_writes _ each, List.flatMap_map, List.filter_flatMap,
      Step.parts, List.flatMap_map]
    apply List.flatMap_congr
    rintro ⟨tree, index⟩ numbered
    have placed := (Role.statement.accountable tree (options.deeper levels)).placed
    have own := parts tree (List.fst_mem_of_mem_zipIdx numbered) (options.deeper levels)
    have inside := Trace.identWrites_within placed (.statement scope label index)
    rw [own, List.map_map] at inside
    exact inside
  | token symbol label =>
    rw [trace_token, tokenEmission]
    cases symbol.bind Token.spelling? <;> rfl
  | text content label =>
    have other : Crumb.part scope label ≠ .ident := by
      intro same
      exact elsewhere (Crumb.part.inj same).1
    simp [trace_text, Trace.identWrites, Write.isIdent, other, Step.parts]
  | indent => rfl
  | innerIndent => rfl
  | unknown code => exact parts.elim

end Step

/-- No step of a plan is taken in a scope. -/
def Plan.Avoids (scope : String) : Plan → Prop
  | .refuse _ => True
  | .act actions => ∀ action ∈ actions, action.scope ≠ scope

theorem Plan.avoids_inScope {scope other : String} (differs : other ≠ scope)
    (steps : List (Step Node)) : (inScope other steps).Avoids scope := by
  intro action member
  obtain ⟨step, _, rfl⟩ := List.mem_map.mp member
  exact differs

/-- Only an identifier takes steps in the scope of identifiers. -/
theorem Role.plan_avoids (role : Role) {node : Node} (other : ∀ leaf, node ≠ .ident leaf)
    (options : Options) : (role.plan node options).Avoids Kind.ident.scope := by
  cases role with
  | expression =>
    simp only [plan]
    cases node with
    | ident leaf => exact absurd rfl (other leaf)
    | literal leaf =>
      simp only [Node.expressionPlan, Literal.plan]
      split
      · exact Plan.avoids_inScope (by decide) _
      · split
        · trivial
        · rename_i kind text found
          exact Plan.avoids_inScope (by cases kind <;> decide) _
    | unary op x =>
      simp only [Node.expressionPlan, Plan.unary]
      split
      · split
        · exact Plan.avoids_inScope (by decide) _
        · trivial
      · intro action member
        rcases List.mem_append.mp member with operator | operand
        · exact Plan.avoids_inScope (by decide) _ action operator
        · exact Plan.avoids_inScope (by decide) _ action operand
    | comprehension | dict =>
      simp only [Node.expressionPlan]
      split
      · trivial
      · exact Plan.avoids_inScope (by decide) _
    | binary | call | cond | dictEntry | dot | index | slice | list | tuple | paren =>
      exact Plan.avoids_inScope (by decide) _
    | _ => trivial
  | statement =>
    simp only [plan]
    cases node with
    | assign | branch | load =>
      simp only [Node.statementPlan]
      split
      · exact Plan.avoids_inScope (by decide) _
      · trivial
    | exprStmt x =>
      simp only [Node.statementPlan]
      split
      · exact Plan.avoids_inScope (by decide) _
      · exact Plan.avoids_inScope (by decide) _
    | define | forLoop | whileLoop | ifThen | returns => exact Plan.avoids_inScope (by decide) _
    | _ => trivial

/-- The writes of identifiers of a node that renders are those of its occurrences. -/
theorem Role.listsOccurrences {role : Role} {node : Node} (renders : role.renders node = true) :
    role.ListsOccurrences node := by
  induction role, node using Role.induction_on_parts with
  | inherit role node parts =>
    intro options
    have goes := (role.renders_iff_plan node options).mp renders
    have inner := (parts options).mp goes.2
    have well := (role.ending_iff node options).mpr renders
    by_cases leaf : ∃ leaf, node = .ident leaf
    · obtain ⟨leaf, rfl⟩ := leaf
      cases role with
      | expression =>
        rw [Node.occurrences_ident]
        rfl
      | statement => cases renders
    · have other : ∀ own, node ≠ .ident own := fun own same => leaf ⟨own, same⟩
      have elsewhere := role.plan_avoids other options
      have placed := Role.plan_parts renders options
      rw [role.trace_eq_plan] at well
      rw [Trace.identWrites, Role.writes_eq_plan renders]
      cases planned : role.plan node options with
      | refuse reason =>
        rw [planned] at goes
        exact absurd goes (Plan.not_renders_refuse reason)
      | act actions =>
        rw [planned] at well elsewhere inner placed
        have each := List.forall_mem_map.mp ((Trace.concat_ending_iff _).mp well)
        calc (actions.flatMap fun action => (action.trace options).writes).filter Write.isIdent
            = actions.flatMap fun action => (action.trace options).identWrites :=
              List.filter_flatMap
          _ = actions.flatMap fun action => (action.step.parts action.scope).flatMap
                fun (crumb, tree) => tree.occurrences.map fun occurrence =>
                  occurrence.write.within crumb :=
              List.flatMap_congr fun action member => Step.identWrites_trace
                (elsewhere action member) (inner action member) (each action member)
          _ = (node.parts.map Part.placed).flatMap fun (crumb, tree) =>
                tree.occurrences.map fun occurrence => occurrence.write.within crumb := by
              rw [← placed, Plan.parts, List.flatMap_assoc]
          _ = node.occurrences.map Occurrence.write := by
              rw [node.occurrences_eq, Node.ownOccurrence_of_ne other, List.nil_append,
                List.map_flatMap, List.flatMap_map]
              simp only [List.map_map]
              rfl

/-- What a hop shows of itself: all but the index of a clause. -/
def Hop.shown (hop : Hop) : Kind × Field × Option Nat :=
  (hop.kind, hop.field, if hop.field.inClause then none else hop.index)

namespace Part

@[simp]
theorem shown_single (kind : Kind) (field : Field) (tree : Node)
    (known : Kind.slots.contains (kind, field, false) = true) :
    (single kind field tree known).hop.shown = (kind, field, none) := by
  cases field <;> rfl

theorem shown_members {field : Field} (listed : field.inClause = false) (kind : Kind) (index : Nat)
    (trees : List Node) (known : Kind.slots.contains (kind, field, true) = true) :
    (members kind field index trees known).map (·.hop.shown) =
      (List.range' index trees.length).map fun index => (kind, field, some index) := by
  rw [← List.zipIdx_map_snd, members, List.map_map, List.map_map]
  simp [Function.comp_def, member, Hop.shown, listed]

/-- The parts of a clause show the kind of the clause and not its index. -/
def shownOfClause : Kind → List (Kind × Field × Option Nat)
  | .forClause => [(.comprehension, .forVars, none), (.comprehension, .forX, none)]
  | .ifClause => [(.comprehension, .ifCond, none)]
  | _ => []

theorem shown_ofClause (number : Nat) (clause : Node) :
    (ofClause number clause).map (·.hop.shown) = shownOfClause clause.kind := by
  cases clause <;> rfl

theorem shown_ofBinding {number : Nat} {source bound : Option Ident} {part : Part}
    (present : part ∈ ofBinding number source bound) : part.hop.shown.2.2 = some number := by
  rcases List.mem_append.mp present with written | given
  · obtain ⟨name, _, rfl⟩ := Option.map_eq_some_iff.mp (Option.mem_toList.mp written)
    rfl
  · rw [List.mem_singleton.mp given]
    rfl

end Part

namespace Node

def clauses : Node → List Node
  | .comprehension _ clauses _ => clauses
  | _ => []

/-- No two clauses of a comprehension are of the same kind. -/
def ClausesDiffer (node : Node) : Prop :=
  (node.clauses.map kind).Nodup

instance : DecidablePred ClausesDiffer :=
  fun node => inferInstanceAs (Decidable (node.clauses.map kind).Nodup)

private theorem members_differ (kind : Kind) (field : Field) (index count : Nat) :
    ((List.range' index count).map fun index => (kind, field, some index)).Nodup := by
  refine List.Nodup.map ?_ (List.nodup_range' 1)
  intro first second same
  simpa using same

/-- Lists are different throughout, if each is by itself and something tells from which
list an item is. -/
private theorem nodup_flatMap_of_key {α β γ : Type} {items : List α} {part : α → List β}
    (key : β → γ) (own : α → γ) (each : ∀ item ∈ items, (part item).Nodup)
    (keyed : ∀ item ∈ items, ∀ inner ∈ part item, key inner = own item)
    (differ : (items.map own).Nodup) : (items.flatMap part).Nodup := by
  refine List.nodup_flatMap.mpr ⟨each, ?_⟩
  refine (List.pairwise_map.mp differ).imp_of_mem ?_
  intro first second early late apart inner inFirst inSecond
  exact apart ((keyed first early inner inFirst).symm.trans (keyed second late inner inSecond))

private theorem clauses_differ {clauses : List Node} (differ : (clauses.map kind).Nodup) :
    ((clauses.zipIdx.flatMap fun (clause, number) =>
      Part.ofClause number clause).map (·.hop.shown)).Nodup := by
  have kinds : (clauses.zipIdx.flatMap fun (clause, number) =>
      Part.ofClause number clause).map (·.hop.shown) =
        (clauses.map kind).flatMap Part.shownOfClause := by
    rw [List.map_flatMap]
    simp only [Part.shown_ofClause]
    conv => rhs; rw [← List.zipIdx_map_fst 0 clauses]
    rw [List.map_map, List.flatMap_map]
    rfl
  rw [kinds]
  refine nodup_flatMap_of_key (fun shown => if shown.2.1 = .ifCond then .ifClause else .forClause)
    id ?_ ?_ (by simpa using differ)
  · intro kind _
    cases kind <;> decide
  · intro kind _
    cases kind <;> simp [Part.shownOfClause]

private theorem bindings_differ (pairs : List (Option Ident × Option Ident)) :
    ((pairs.zipIdx.flatMap fun ((source, bound), number) =>
      Part.ofBinding number source bound).map (·.hop.shown)).Nodup := by
  rw [List.map_flatMap]
  refine nodup_flatMap_of_key (·.2.2) (some ∘ Prod.snd) ?_ ?_ ?_
  · rintro ⟨⟨source, bound⟩, number⟩ _
    simp only [Part.ofBinding]
    cases Shape.writtenName? source bound <;> simp [Part.member, Hop.shown]
  · rintro ⟨⟨source, bound⟩, number⟩ _
    rw [List.forall_mem_map]
    exact fun part present => Part.shown_ofBinding present
  · rw [← List.map_map, List.zipIdx_map_snd]
    exact (List.nodup_range' 1).map fun _ _ same => Option.some.inj same

/-- The parts of a node show different hops, if the clauses of a comprehension differ. -/
theorem parts_differ {node : Node} (differ : node.ClausesDiffer) :
    (node.parts.map (·.hop.shown)).Nodup := by
  cases node with
  | comprehension body clauses curly =>
    rw [parts, List.map_cons, List.nodup_cons]
    refine ⟨fun member => ?_, clauses_differ differ⟩
    obtain ⟨part, present, same⟩ := List.mem_map.mp member
    obtain ⟨⟨clause, number⟩, _, own⟩ := List.mem_flatMap.mp present
    have shown : _ ∈ (Part.ofClause number clause).map (·.hop.shown) :=
      List.mem_map.mpr ⟨part, own, same⟩
    rw [Part.shown_ofClause] at shown
    cases clause <;> simp [Part.shownOfClause, kind, Part.single, Hop.shown] at shown
  | load path sources locals =>
    rw [parts, List.map_cons, List.nodup_cons]
    refine ⟨fun member => ?_, bindings_differ _⟩
    obtain ⟨part, present, same⟩ := List.mem_map.mp member
    obtain ⟨⟨⟨source, bound⟩, number⟩, _, own⟩ := List.mem_flatMap.mp present
    have shown := Part.shown_ofBinding own
    rw [same] at shown
    cases shown
  | call | dict | list | tuple | define | forLoop | whileLoop | ifThen =>
    simp (disch := decide) only [parts, List.map_cons, List.map_append, List.cons_append,
      Part.shown_single, Part.shown_members]
    simp [List.nodup_append, members_differ]
  | unary _ x | returns x =>
    simp only [parts, unlessMissing]
    split <;> simp
  | paren x | exprStmt x =>
    simp only [parts]
    split <;> simp
  | slice x lo hi step =>
    cases noLo : lo.isMissing <;> cases noHi : hi.isMissing <;> cases noStep : step.isMissing <;>
      simp [parts, unlessMissing, noLo, noHi, noStep]
  | _ => simp [parts]

/-- Where no comprehension has two clauses of the same kind, the path to an identifier is
known from what its hops show. -/
theorem occurrences_differ {node : Node} (differ : node.Throughout ClausesDiffer) :
    (node.occurrences.map (·.path.map Hop.shown)).Nodup := by
  induction differ with
  | @intro node own parts ih =>
    rw [occurrences_eq]
    by_cases leaf : ∃ leaf, node = .ident leaf
    · obtain ⟨leaf, rfl⟩ := leaf
      exact List.nodup_singleton _
    · rw [ownOccurrence_of_ne fun own same => leaf ⟨own, same⟩, List.nil_append, List.map_flatMap]
      have inside (part : Part) :
          (part.tree.occurrences.map (Occurrence.below part.hop)).map (·.path.map Hop.shown) =
            (part.tree.occurrences.map (·.path.map Hop.shown)).map (part.hop.shown :: ·) := by
        rw [List.map_map, List.map_map]
        rfl
      simp only [inside]
      refine nodup_flatMap_of_key List.head? (fun part => some part.hop.shown) ?_ ?_ ?_
      · intro part member
        exact (ih part member).map (List.cons_injective)
      · intro part _
        rw [List.forall_mem_map]
        exact fun _ _ => rfl
      · have hops := (parts_differ own).map fun _ _ same => Option.some.inj same
        rw [List.map_map] at hops
        exact hops

end Node

end StarlarkPrinter
