import Mathlib.Algebra.BigOperators.Ring.List
import Mathlib.Algebra.Ring.Nat
import Mathlib.Data.List.Flatten
import Mathlib.Data.List.Perm.Basic
import StarlarkPrinter.Proofs.Occurrences

/-! The order of options. Options are below others that break the same lines, want at
least as many commas and put at least as many spaces around equals signs. What is printed
under the lower options is what is printed under the higher ones without some commas and
spaces, and the nodes of the tree tell how many. -/

namespace StarlarkPrinter

private theorem sum_map_flatMap {α β : Type} (items : List α) (part : α → List β)
    (own : β → Nat) :
    ((items.flatMap part).map own).sum =
      (items.map fun item => ((part item).map own).sum).sum := by
  rw [List.map_flatMap, List.flatMap_def, List.sum_flatten, List.map_map]
  rfl

/-- A list is another one without some copies of two of its items. -/
structure Thinned {α : Type} (comma space : α) (commas spaces : Nat) (kept whole : List α) :
    Prop where
  sublist : kept.Sublist whole
  perm : whole.Perm (kept ++ (List.replicate commas comma ++ List.replicate spaces space))

namespace Thinned

variable {α β : Type} {comma space : α} {commas spaces moreCommas moreSpaces : Nat}
  {kept middle whole otherKept otherWhole : List α}

theorem refl (items : List α) : Thinned comma space 0 0 items items :=
  ⟨List.Sublist.refl items, by simp⟩

private theorem interleave (first second third fourth : List α) :
    (first ++ second ++ (third ++ fourth)).Perm (first ++ third ++ (second ++ fourth)) := by
  simp only [List.append_assoc]
  exact (List.perm_append_comm_assoc second third fourth).append_left first

private theorem replicate_perm (comma space : α) (commas spaces moreCommas moreSpaces : Nat) :
    (List.replicate commas comma ++ List.replicate spaces space ++
        (List.replicate moreCommas comma ++ List.replicate moreSpaces space)).Perm
      (List.replicate (commas + moreCommas) comma ++
        List.replicate (spaces + moreSpaces) space) := by
  rw [List.replicate_add, List.replicate_add]
  exact interleave _ _ _ _

theorem trans (first : Thinned comma space commas spaces kept middle)
    (second : Thinned comma space moreCommas moreSpaces middle whole) :
    Thinned comma space (commas + moreCommas) (spaces + moreSpaces) kept whole := by
  refine ⟨first.sublist.trans second.sublist, ?_⟩
  have dropped := second.perm.trans (first.perm.append_right _)
  rw [List.append_assoc] at dropped
  exact dropped.trans ((replicate_perm ..).append_left kept)

theorem append (first : Thinned comma space commas spaces kept whole)
    (second : Thinned comma space moreCommas moreSpaces otherKept otherWhole) :
    Thinned comma space (commas + moreCommas) (spaces + moreSpaces) (kept ++ otherKept)
      (whole ++ otherWhole) := by
  refine ⟨first.sublist.append second.sublist, ?_⟩
  have dropped := (first.perm.append second.perm).trans (interleave ..)
  exact dropped.trans ((replicate_perm ..).append_left _)

theorem between (thinned : Thinned comma space commas spaces kept whole) (before after : List α) :
    Thinned comma space commas spaces (before ++ kept ++ after) (before ++ whole ++ after) := by
  simpa using ((refl before).append thinned).append (refl after)

/-- Items that are each replaced by a list, where an item that is left out is replaced by a
single one. -/
theorem flatMap (thinned : Thinned comma space commas spaces kept whole) (image : α → List β)
    {imageComma imageSpace : β} (ofComma : image comma = [imageComma])
    (ofSpace : image space = [imageSpace]) :
    Thinned imageComma imageSpace commas spaces (kept.flatMap image) (whole.flatMap image) := by
  refine ⟨thinned.sublist.flatMap image, ?_⟩
  have images := thinned.perm.flatMap_right image
  simpa [List.flatMap_replicate, ofComma, ofSpace] using images

/-- The same items, each replaced by a list and by what is left of that list. -/
theorem flatMap_of_forall_mem {items : List β} {few many : β → List α} {commas spaces : β → Nat}
    (each : ∀ item ∈ items,
      Thinned comma space (commas item) (spaces item) (few item) (many item)) :
    Thinned comma space (items.map commas).sum (items.map spaces).sum (items.flatMap few)
      (items.flatMap many) := by
  induction items with
  | nil => exact refl []
  | cons item rest ih =>
    have further := ih fun other member => each other (List.mem_cons_of_mem item member)
    simpa using (each item List.mem_cons_self).append further

end Thinned

/-- How many sequences get a comma: the later in the order, the more. -/
def TrailingComma.rank : TrailingComma → Nat
  | .never => 0
  | .twoAndMore => 1
  | .always => 2

/-- A layout breaks the same lines as another one and wants no more commas. -/
structure Layout.Below (first second : Layout) : Prop where
  lineBreak : first.lineBreak = second.lineBreak
  trailingComma : first.trailingComma.rank ≤ second.trailingComma.rank

theorem Layout.Below.breakLines {first second : Layout} (below : first.Below second) (count : Int) :
    (first.decision count).breakLines = (second.decision count).breakLines := by
  simp only [decision, below.lineBreak]

theorem Layout.Below.comma {first second : Layout} (below : first.Below second) (count : Int) :
    (first.decision count).trailingComma = true → (second.decision count).trailingComma = true := by
  have rank := below.trailingComma
  revert rank
  simp only [decision]
  cases first.trailingComma <;> cases second.trailingComma <;>
    simp [TrailingComma.rank, TrailingComma.applies]
  omega

/-- Options differ from others only in that they want no more commas and no more spaces
around equals signs. -/
structure Options.Below (first second : Options) : Prop where
  depth : first.depth = second.depth
  indent : first.indent = second.indent
  call : first.call.Below second.call
  dict : first.dict.Below second.dict
  list : first.list.Below second.list
  tuple : first.tuple.Below second.tuple
  spaceEqBinary : first.spaceEqBinary = true → second.spaceEqBinary = true

namespace Options.Below

variable {first second : Options}

theorem deeper (below : first.Below second) (levels : Nat) :
    (first.deeper levels).Below (second.deeper levels) :=
  { below with depth := congrArg (· + levels) below.depth }

theorem indentation (below : first.Below second) (extra : Int) :
    first.indentation extra = second.indentation extra := by
  simp only [Options.indentation, below.depth, below.indent]

end Options.Below

namespace Node

/-- A node and everything that is printed below it, in this order. -/
def printed (node : Node) : List Node :=
  node :: node.parts.attach.flatMap fun ⟨part, present⟩ =>
    have := node.parts_smaller present
    printed part.tree
termination_by sizeOf node

theorem printed_eq (node : Node) :
    node.printed = node :: node.parts.flatMap fun part => part.tree.printed := by
  rw [printed]
  conv => rhs; rw [← List.attach_map_subtype_val node.parts, List.flatMap_map]

/-- Whether a comma follows the last element, where a node prints a sequence. The empty
tuple is a pair of brackets and no sequence. -/
def trailingComma? (options : Options) : Node → Option Bool
  | .call _ args => some (options.call.decision args.length).trailingComma
  | .dict elements => some (options.dict.decision elements.length).trailingComma
  | .list elements => some (options.list.decision elements.length).trailingComma
  | .tuple elements =>
    if elements.isEmpty then none
    else some (options.tuple.decision elements.length).trailingComma
  | _ => none

/-- Whether two options decide differently on the comma after the last element. -/
def commaDiffers (first second : Options) (node : Node) : Bool :=
  node.trailingComma? first != node.trailingComma? second

/-- Whether a node is a keyword argument or a default value, which are printed alike. -/
def isEqBinary : Node → Bool
  | .binary _ op _ => op = some .eq
  | _ => false

/-- How many names a load binds under a name of their own. -/
def aliases : Node → Nat
  | .load _ sources locals =>
    (sources.zip locals).countP fun (source, bound) => (Shape.writtenName? source bound).isSome
  | _ => 0

/-- The comma that a node itself prints under one of two options only. -/
def ownCommas (first second : Options) (node : Node) : Nat :=
  (node.commaDiffers first second).toNat

/-- The spaces that a node itself prints under one of two options only. -/
def ownSpaces (first second : Options) (node : Node) : Nat :=
  (if first.spaceEqBinary = second.spaceEqBinary then 0 else 2) *
    (node.isEqBinary.toNat + node.aliases)

/-- What a node and everything that is printed below it add up to. -/
def total (own : Node → Nat) (node : Node) : Nat :=
  (node.printed.map own).sum

theorem total_eq (own : Node → Nat) (node : Node) :
    node.total own = own node + (node.parts.map (·.tree.total own)).sum := by
  rw [total, printed_eq, List.map_cons, List.sum_cons, sum_map_flatMap]
  rfl

end Node

/-- A list of steps is another one without some commas and spaces. -/
abbrev Shape.Thins (commas spaces : Nat) (kept whole : List (Step Node)) : Prop :=
  Thinned .comma .space commas spaces kept whole

namespace Shape

/-- A comma at the end of a sequence is the only thing that the layouts may differ in. -/
theorem thins_sequence {first second : Layout} (below : first.Below second)
    (elements : List Node) :
    Thins ((first.decision elements.length).trailingComma !=
        (second.decision elements.length).trailingComma).toNat 0
      (sequence first elements) (sequence second elements) := by
  have ending {few many : Bool} (implies : few = true → many = true) :
      Thins (few != many).toNat 0 (if few then [.comma] else [])
        (if many then [.comma] else []) := by
    cases few <;> cases many
    · exact .refl _
    · exact ⟨List.nil_sublist _, .refl _⟩
    · exact absurd (implies rfl) (by decide)
    · exact .refl _
  have comma := ending (below.comma elements.length)
  simp only [sequence, below.breakLines elements.length]
  split
  · exact comma.between _ _
  · simpa using comma.between (onOneLine "element" elements) []

theorem thins_padded {few many : Bool} (implies : few = true → many = true) (step : Step Node) :
    Thins 0 (if few = many then 0 else 2) (Step.padded few step) (Step.padded many step) := by
  cases few <;> cases many
  · exact .refl _
  · exact ⟨by simp [Step.padded], .swap ..⟩
  · exact absurd (implies rfl) (by decide)
  · exact .refl _

theorem thins_binding {few many : Bool} (implies : few = true → many = true) (index : Nat)
    (source bound : Option Ident) :
    Thins 0 ((if few = many then 0 else 2) * if (writtenName? source bound).isSome then 1 else 0)
      (binding few Node.ofIdent? index source bound)
      (binding many Node.ofIdent? index source bound) := by
  refine Thinned.between ?_ _ _
  cases writtenName? source bound with
  | none => exact .refl []
  | some name =>
    have around := (thins_padded implies (.mark .eq)).between
      [.here (Node.ofIdent? (some name)) ("To[" ++ Text.decimal index ++ "]")] []
    simpa using around

theorem thins_bindings {few many : Bool} (implies : few = true → many = true) (index : Nat)
    (pairs : List (Option Ident × Option Ident)) :
    Thins 0 ((if few = many then 0 else 2) *
        pairs.countP fun (source, bound) => (writtenName? source bound).isSome)
      (bindings few Node.ofIdent? index pairs) (bindings many Node.ofIdent? index pairs) := by
  induction pairs generalizing index with
  | nil => exact .refl []
  | cons pair rest ih =>
    obtain ⟨source, bound⟩ := pair
    have both := (thins_binding implies index source bound).append (ih (index + 1))
    rw [← Nat.mul_add] at both
    rw [List.countP_cons, Nat.add_comm (List.countP _ rest)]
    exact both

end Shape

def Plan.actions : Plan → List Action
  | .refuse _ => []
  | .act actions => actions

/-- The actions of a plan are those of another one without some commas and spaces. -/
def Plan.Thins (commas spaces : Nat) (kept whole : Plan) : Prop :=
  ∃ scope, Thinned ⟨scope, .comma⟩ ⟨scope, .space⟩ commas spaces kept.actions whole.actions

theorem Plan.Thins.refl (plan : Plan) : Thins 0 0 plan plan :=
  ⟨"", .refl _⟩

theorem Plan.thins_inScope {commas spaces : Nat} {kept whole : List (Step Node)}
    (thins : Shape.Thins commas spaces kept whole) (scope : String) :
    Thins commas spaces (inScope scope kept) (inScope scope whole) := by
  refine ⟨scope, thins.sublist.map _, ?_⟩
  simpa [inScope, actions] using thins.perm.map (Action.mk scope)

/-- The plans of a node differ by the comma and the spaces of the node itself. -/
theorem Role.plan_thins {first second : Options} (below : first.Below second) {role : Role}
    {node : Node} (renders : role.renders node = true) :
    Plan.Thins (node.ownCommas first second) (node.ownSpaces first second)
      (role.plan node first) (role.plan node second) := by
  cases role with
  | expression =>
    cases node with
    | binary x op y =>
      refine Plan.thins_inScope (Thinned.between ?_ _ _) _
      by_cases eq : op = some .eq
      · have padded := Shape.thins_padded below.spaceEqBinary (.token op "Op")
        simpa [Node.ownCommas, Node.commaDiffers, Node.trailingComma?, Node.ownSpaces,
          Node.isEqBinary, Node.aliases, eq] using padded
      · simpa [Node.ownCommas, Node.commaDiffers, Node.trailingComma?, Node.ownSpaces,
          Node.isEqBinary, Node.aliases, eq] using Thinned.refl _
    | call fn args =>
      exact Plan.thins_inScope ((Shape.thins_sequence below.call args).between _ _) _
    | dict elements =>
      have entries : Node.strayElement? elements = none := by
        simp_all [Role.renders, Node.rendersAsExpression, Node.strayElement?]
      simp only [plan, Node.expressionPlan, entries]
      exact Plan.thins_inScope ((Shape.thins_sequence below.dict elements).between _ _) _
    | list elements =>
      exact Plan.thins_inScope ((Shape.thins_sequence below.list elements).between _ _) _
    | tuple elements =>
      cases elements with
      | nil => exact Plan.Thins.refl _
      | cons element rest =>
        exact Plan.thins_inScope (Shape.thins_sequence below.tuple (element :: rest)) _
    | load => cases renders
    -- The other plans do not read the options.
    | _ => exact Plan.Thins.refl _
  | statement =>
    cases node with
    | load path sources locals =>
      simp only [Role.renders, Node.rendersAsStatement, Bool.and_eq_true,
        decide_eq_true_eq] at renders
      simp only [plan, Node.statementPlan, renders.1.1, if_true]
      have names := Shape.thins_bindings below.spaceEqBinary 0 (sources.zip locals)
      refine Plan.thins_inScope (Thinned.between ?_ _ _) _
      simpa [Node.ownCommas, Node.commaDiffers, Node.trailingComma?, Node.ownSpaces,
        Node.isEqBinary, Node.aliases] using names
    | call | dict | list | tuple | binary => cases renders
    | _ => exact Plan.Thins.refl _

/-- What a node prints under options is what it prints under higher ones, without the
commas and spaces that the nodes in it print under the higher ones only. -/
def Role.Thins (role : Role) (node : Node) : Prop :=
  ∀ first second : Options, first.Below second →
    Thinned "," " " (node.total (Node.ownCommas first second))
      (node.total (Node.ownSpaces first second)) (role.trace node first).texts
      (role.trace node second).texts

section Step

variable {first second : Options} (below : first.Below second)

include below

/-- A step leaves out what its parts leave out. -/
theorem Step.thinned_trace {step : Step Node} {scope : String} (parts : step.Every Role.Thins)
    (well : (step.trace scope first).ending = .done)
    (otherWell : (step.trace scope second).ending = .done) :
    Thinned "," " "
      ((step.parts scope).map (·.2.total (Node.ownCommas first second))).sum
      ((step.parts scope).map (·.2.total (Node.ownSpaces first second))).sum
      (step.trace scope first).texts (step.trace scope second).texts := by
  cases step with
  | part tree label levels =>
    have own := parts _ _ (below.deeper levels)
    simp only [trace_part, Trace.texts_within, Step.parts, List.map_singleton, List.sum_singleton]
    exact own
  | block trees label levels =>
    rw [trace_block] at well otherWell ⊢
    rw [trace_block]
    have each := (Trace.concat_ending_iff _).mp well
    have otherEach := (Trace.concat_ending_iff _).mp otherWell
    rw [Trace.texts_concat each, Trace.texts_concat otherEach, List.flatMap_map, List.flatMap_map,
      Step.parts, List.map_map, List.map_map]
    apply Thinned.flatMap_of_forall_mem
    rintro ⟨tree, index⟩ numbered
    have own := parts tree (List.fst_mem_of_mem_zipIdx numbered) _ _ (below.deeper levels)
    simp only [Trace.texts_within]
    exact own
  | indent =>
    rw [trace_indent, trace_indent, below.indentation]
    exact .refl _
  | innerIndent =>
    rw [trace_innerIndent, trace_innerIndent, below.indentation]
    exact .refl _
  | token | text | unknown => exact .refl _

/-- A plan leaves out what its own steps leave out and what its parts do. -/
theorem Plan.thinned_trace {kept whole : Plan} {commas spaces : Nat}
    (thins : Thins commas spaces kept whole) (parts : kept.Every Role.Thins)
    (well : (kept.trace first).ending = .done) (otherWell : (whole.trace second).ending = .done) :
    Thinned "," " " ((kept.parts.map (·.2.total (Node.ownCommas first second))).sum + commas)
      ((kept.parts.map (·.2.total (Node.ownSpaces first second))).sum + spaces)
      (kept.trace first).texts (whole.trace second).texts := by
  cases kept with
  | refuse reason => cases well
  | act few =>
    cases whole with
    | refuse reason => cases otherWell
    | act many =>
      obtain ⟨scope, actions⟩ := thins
      have each := (Trace.concat_ending_iff _).mp well
      have otherEach := (Trace.concat_ending_iff _).mp otherWell
      rw [trace, Trace.texts_concat each, trace, Trace.texts_concat otherEach, List.flatMap_map,
        List.flatMap_map, Plan.parts, sum_map_flatMap, sum_map_flatMap]
      -- First the actions of `kept` under either option, then those that `whole` adds.
      have inside := Thinned.flatMap_of_forall_mem fun action member =>
        Step.thinned_trace below (parts action member) (List.forall_mem_map.mp each action member)
          (List.forall_mem_map.mp otherEach action (actions.sublist.subset member))
      exact inside.trans (actions.flatMap (fun action => (action.trace second).texts) rfl rfl)

end Step

theorem Role.thins {role : Role} {node : Node} (renders : role.renders node = true) :
    role.Thins node := by
  induction role, node using Role.induction_on_parts with
  | inherit role node parts =>
    intro first second below
    have goes := (role.renders_iff_plan node first).mp renders
    have well := (role.ending_iff node first).mpr renders
    have otherWell := (role.ending_iff node second).mpr renders
    rw [role.trace_eq_plan] at well otherWell
    have planned := Plan.thinned_trace below (Role.plan_thins below renders)
      ((parts first).mp goes.2) well otherWell
    rw [Role.plan_parts renders, List.map_map, List.map_map] at planned
    rw [role.trace_eq_plan, role.trace_eq_plan, node.total_eq, node.total_eq, Nat.add_comm,
      Nat.add_comm (node.ownSpaces first second)]
    exact planned

namespace Node

private theorem sum_map_toNat (holds : Node → Bool) (nodes : List Node) :
    (nodes.map fun node => (holds node).toNat).sum = nodes.countP holds := by
  induction nodes with
  | nil => rfl
  | cons node rest ih =>
    rw [List.map_cons, List.sum_cons, ih, List.countP_cons]
    cases holds node <;> simp [Nat.add_comm]

theorem total_ownCommas (first second : Options) (node : Node) :
    node.total (ownCommas first second) = node.printed.countP (commaDiffers first second) :=
  sum_map_toNat _ _

theorem total_ownSpaces (first second : Options) (node : Node) :
    node.total (ownSpaces first second) =
      if first.spaceEqBinary = second.spaceEqBinary then 0
      else 2 * node.printed.countP isEqBinary + 2 * (node.printed.map aliases).sum := by
  unfold total ownSpaces
  rw [List.sum_map_mul_left, List.sum_map_add, sum_map_toNat]
  split
  · rw [Nat.zero_mul]
  · rw [Nat.mul_add]

end Node

/-- Under lower options a node that renders prints what it prints under the higher ones
without some commas and spaces. The commas are one for each sequence that decides
differently on its last comma. The spaces are two for each keyword argument or default
value and two for each alias of a load, where the options differ in them. -/
theorem lower_options_thin_writes {σ τ : Type} (sink : Sink σ) (other : Sink τ)
    (obliging : sink.Obliging) (otherObliging : other.Obliging) (start : σ) (otherStart : τ)
    (first second : Options) (below : first.Below second) (role : Role) (node : Node)
    (renders : role.renders node = true) :
    Thinned "," " " (node.printed.countP (Node.commaDiffers first second))
      (if first.spaceEqBinary = second.spaceEqBinary then 0
        else 2 * node.printed.countP Node.isEqBinary + 2 * (node.printed.map Node.aliases).sum)
      ((role.emission node first).run sink start).accepted
      ((role.emission node second).run other otherStart).accepted := by
  obtain ⟨_, accepted⟩ := (role.emission node first).run_of_obliging sink obliging start
  obtain ⟨_, otherAccepted⟩ :=
    (role.emission node second).run_of_obliging other otherObliging otherStart
  rw [accepted, otherAccepted, ← Node.total_ownCommas, ← Node.total_ownSpaces]
  exact Role.thins renders first second below

/-- A definition that gains a comma in the list and in the shorter tuple, and spaces around
the default value and the alias. -/
theorem lower_options_thin_definition :
    let name (text : String) : Node := .ident ⟨text, none⟩
    let node : Node := .define (name "f")
      [.binary (name "x") (some .eq) (.list [name "a", name "b"])]
      [.load (.literal { value := .text "m" }) [some ⟨"s", none⟩, some ⟨"t", none⟩]
          [some ⟨"n", none⟩, none],
        .exprStmt (.call (name "g") [.tuple [name "y"], .tuple []])]
    let lower : Options := { call := ⟨.multiple, .twoAndMore⟩, tuple := ⟨.never, .twoAndMore⟩ }
    let higher : Options :=
      { spaceEqBinary := true, call := ⟨.multiple, .always⟩, list := ⟨.never, .twoAndMore⟩,
        tuple := ⟨.never, .always⟩ }
    Thinned "," " " 2 4 ((Role.statement.emission node lower).run Sink.buffer "").accepted
      ((Role.statement.emission node higher).run Sink.buffer "").accepted := by
  intro name node lower higher
  have commas : node.printed.countP (Node.commaDiffers lower higher) = 2 := by decide +kernel
  have signs : node.printed.countP Node.isEqBinary = 1 := by decide +kernel
  have aliases : (node.printed.map Node.aliases).sum = 1 := by decide +kernel
  have below : lower.Below higher :=
    ⟨rfl, rfl, ⟨rfl, by decide⟩, ⟨rfl, by decide⟩, ⟨rfl, by decide⟩, ⟨rfl, by decide⟩, by decide⟩
  have thinned := lower_options_thin_writes Sink.buffer Sink.buffer Sink.buffer_obliging
    Sink.buffer_obliging "" "" lower higher below .statement node (by decide)
  rw [commas, signs, aliases] at thinned
  exact thinned

end StarlarkPrinter
