import StarlarkPrinter.Emission.FaultySink
import StarlarkPrinter.Proofs.Chars
import StarlarkPrinter.Proofs.Occurrences

/-! Breadcrumbs locate identifiers. When a sink refuses the write of an identifier, the
message is the path to it, one crumb after the other. No crumb has a colon, so the message
can be taken apart again; and a crumb tells the kind, the field and the index of its hop,
but for the index of a clause. -/

namespace StarlarkPrinter

namespace Field

/-- Whether the crumb of a field shows an index. -/
def isNumbered : Field → Bool
  | .args | .elements | .params | .sources | .locals | .body | .onTrue | .onFalse => true
  | _ => false

end Field

/-- What a kind of node is called while it prints its parts. -/
def Kind.partPhrase (kind : Kind) : String :=
  if kind = .assign then "assignment statement" else kind.phrase

theorem Kind.partScope_eq (kind : Kind) : kind.partScope = "rendering " ++ kind.partPhrase := by
  unfold partScope partPhrase
  split <;> rfl

namespace Hop

/-- What the crumb of a slot has in front of its number and behind it. -/
def frame (slot : Kind × Field × Bool) : List Char × List Char :=
  let scope := slot.1.partPhrase.toList
  let label := slot.2.1.label.toList
  match slot.2.1, slot.2.2 with
  | .args, true | .elements, true | .params, true => (scope ++ ' ' :: label ++ [' '], [])
  | .sources, true | .locals, true => (scope ++ ' ' :: label ++ ['['], [']'])
  | .body, true | .onTrue, true | .onFalse, true =>
    (scope ++ ", rendering ".toList ++ label ++ " statement index ".toList, [])
  | _, _ => (scope ++ ' ' :: label, [])

def stem (slot : Kind × Field × Bool) : List Char :=
  (frame slot).1 ++ (frame slot).2

def slot (hop : Hop) : Kind × Field × Bool :=
  (hop.kind, hop.field, hop.index.isSome)

theorem slot_mem (hop : Hop) : hop.slot ∈ Kind.slots :=
  List.contains_iff_mem.mp hop.known

theorem stems_differ : (Kind.slots.map stem).Nodup := by
  -- Numbers are compared at once, where lists of characters are not.
  have codes : ((Kind.slots.map stem).map fun chars =>
      chars.foldl (fun total char => 128 * total + char.toNat) 0).Nodup := by decide +kernel
  exact codes.of_map _

def numeral (hop : Hop) : List Char :=
  (hop.shown.2.2.map (Nat.toDigits 10)).getD []

theorem toList_text_crumb (hop : Hop) :
    hop.crumb.text.toList =
      "rendering ".toList ++ ((frame hop.slot).1 ++ hop.numeral ++ (frame hop.slot).2) := by
  have listed : hop.slot.2.2 = true → hop.slot.2.1.isNumbered || hop.slot.2.1.inClause := by
    have table : ∀ slot ∈ Kind.slots, slot.2.2 = true →
        slot.2.1.isNumbered || slot.2.1.inClause := by decide
    exact table hop.slot hop.slot_mem
  obtain ⟨kind, field, index, known⟩ := hop
  cases index with
  | none =>
    cases field <;>
      simp [crumb, crumbOf, Crumb.text, frame, slot, numeral, shown, Field.inClause,
        Kind.partScope_eq]
  | some index =>
    have numbered := listed rfl
    cases field <;>
      simp [crumb, crumbOf, Crumb.text, frame, numeral, shown, Field.inClause, Kind.partScope_eq,
        Field.isNumbered, slot, Text.decimal] at numbered ⊢

theorem isDigit_of_mem_numeral (hop : Hop) : ∀ char ∈ hop.numeral, char.isDigit = true := by
  intro char member
  unfold numeral at member
  cases index : hop.shown.2.2 with
  | none => simp [index] at member
  | some number =>
    rw [index] at member
    exact Nat.isDigit_of_mem_toDigits (by decide) (by decide) member

/-- A character that is neither a digit nor a colon. -/
def isPlain (char : Char) : Bool :=
  !char.isDigit && char ≠ ':'

theorem stem_plain (slot : Kind × Field × Bool) : (stem slot).all isPlain = true := by
  obtain ⟨kind, field, listed⟩ := slot
  have phrase : kind.partPhrase.toList.all isPlain = true := by cases kind <;> decide +kernel
  have label : field.label.toList.all isPlain = true := by cases field <;> decide +kernel
  have between : ", rendering ".toList.all isPlain = true := by decide +kernel
  have before : " statement index ".toList.all isPlain = true := by decide +kernel
  have marks : isPlain ' ' = true ∧ isPlain '[' = true ∧ isPlain ']' = true := by decide
  simp only [stem, frame]
  split <;> simp only [List.all_append, List.all_cons, List.all_nil, phrase, label, between, before,
    marks, Bool.and_self]

theorem colon_not_mem_crumb (hop : Hop) : ':' ∉ hop.crumb.text.toList := by
  have plain := stem_plain hop.slot
  rw [stem, List.all_append, Bool.and_eq_true, List.all_eq_true, List.all_eq_true] at plain
  intro member
  rw [toList_text_crumb, List.mem_append, List.mem_append, List.mem_append] at member
  rcases member with start | (front | number) | back
  · exact absurd start (by decide +kernel)
  · exact absurd (plain.1 ':' front) (by decide)
  · exact absurd (hop.isDigit_of_mem_numeral ':' number) (by decide)
  · exact absurd (plain.2 ':' back) (by decide)

/-- The characters of a crumb that are no digits are its stem. -/
theorem filter_crumb (hop : Hop) :
    ((frame hop.slot).1 ++ hop.numeral ++ (frame hop.slot).2).filter (!·.isDigit) =
      stem hop.slot := by
  have plain := stem_plain hop.slot
  rw [stem, List.all_append, Bool.and_eq_true, List.all_eq_true, List.all_eq_true] at plain
  have digitless {char : Char} (own : isPlain char = true) : (!char.isDigit) = true :=
    (Bool.and_eq_true_iff.mp own).1
  have digits : hop.numeral.filter (!·.isDigit) = [] := by
    rw [List.filter_eq_nil_iff]
    intro char member
    simp [hop.isDigit_of_mem_numeral char member]
  rw [List.filter_append, List.filter_append, digits, List.append_nil,
    List.filter_eq_self.mpr fun char member => digitless (plain.1 char member),
    List.filter_eq_self.mpr fun char member => digitless (plain.2 char member)]
  rfl

theorem numeral_inj {first second : Hop} (listed : first.slot = second.slot)
    (same : first.numeral = second.numeral) : first.shown = second.shown := by
  obtain ⟨kind, field, index, known⟩ := first
  obtain ⟨otherKind, otherField, other, otherKnown⟩ := second
  simp only [slot, Prod.mk.injEq] at listed
  obtain ⟨rfl, rfl, present⟩ := listed
  cases clause : field.inClause with
  | true => simp [shown, clause]
  | false =>
    cases index with
    | none => cases other with
      | none => rfl
      | some other => cases present
    | some index => cases other with
      | none => cases present
      | some other =>
        have digits : Nat.toDigits 10 index = Nat.toDigits 10 other := by
          simpa [numeral, shown, clause] using same
        have numbers := congrArg (Nat.ofDigitChars 10 · 0) digits
        simp only [Nat.ofDigitChars_ten_toDigits] at numbers
        simp only [numbers]

theorem crumb_eq_of_shown_eq {first second : Hop} (same : first.shown = second.shown) :
    first.crumb = second.crumb := by
  obtain ⟨kind, field, index, known⟩ := first
  obtain ⟨otherKind, otherField, other, otherKnown⟩ := second
  simp only [shown, Prod.mk.injEq] at same
  obtain ⟨rfl, rfl, indices⟩ := same
  cases clause : field.inClause with
  | true => cases field <;> first | rfl | cases clause
  | false =>
    rw [clause] at indices
    have equal : index = other := indices
    subst equal
    rfl

/-- Two hops leave the same crumb exactly if they show the same. -/
theorem text_crumb_eq_iff (first second : Hop) :
    first.crumb.text = second.crumb.text ↔ first.shown = second.shown := by
  constructor
  · intro same
    have chars := congrArg String.toList same
    rw [toList_text_crumb, toList_text_crumb] at chars
    have inner := List.append_cancel_left chars
    have stems : stem first.slot = stem second.slot := by
      rw [← filter_crumb, ← filter_crumb, inner]
    have slots := List.inj_on_of_nodup_map stems_differ first.slot_mem second.slot_mem stems
    rw [slots] at inner
    exact numeral_inj slots (List.append_cancel_left (List.append_cancel_right inner))
  · intro same
    rw [crumb_eq_of_shown_eq same]

end Hop

theorem RenderError.along_eq (path : List Crumb) (error : RenderError) :
    error.along path = { error with
      message := String.join (path.map fun crumb => crumb.text ++ ": ") ++ error.message } := by
  induction path with
  | nil => simp
  | cons crumb rest ih => simp [ih, wrap, String.append_assoc]

private theorem append_colon_inj {first second rest further : List Char} (plain : ':' ∉ first)
    (otherPlain : ':' ∉ second) (same : first ++ ':' :: rest = second ++ ':' :: further) :
    first = second ∧ rest = further := by
  rcases List.append_eq_append_iff.mp same with ⟨middle, rfl, split⟩ | ⟨middle, rfl, split⟩
  · cases middle with
    | nil => exact ⟨by simp, (List.cons.inj split).2⟩
    | cons char others =>
      obtain ⟨rfl, _⟩ := List.cons.inj split
      exact absurd (by simp) otherPlain
  · cases middle with
    | nil => exact ⟨by simp, (List.cons.inj split).2.symm⟩
    | cons char others =>
      obtain ⟨rfl, _⟩ := List.cons.inj split
      exact absurd (by simp) plain

/-- Texts without colons can be told apart where a colon follows each. -/
private theorem texts_inj {first second : List String}
    (firstPlain : ∀ text ∈ first, ':' ∉ text.toList)
    (secondPlain : ∀ text ∈ second, ':' ∉ text.toList)
    (same : first.flatMap (·.toList ++ [':', ' ']) = second.flatMap (·.toList ++ [':', ' '])) :
    first = second := by
  induction first generalizing second with
  | nil =>
    cases second with
    | nil => rfl
    | cons text rest => simp at same
  | cons text rest ih =>
    cases second with
    | nil => simp at same
    | cons other further =>
      obtain ⟨plain, restPlain⟩ := List.forall_mem_cons.mp firstPlain
      obtain ⟨otherPlain, furtherPlain⟩ := List.forall_mem_cons.mp secondPlain
      simp only [List.flatMap_cons, List.append_assoc, List.cons_append, List.nil_append] at same
      obtain ⟨texts, after⟩ := append_colon_inj plain otherPlain same
      rw [String.toList_inj.mp texts, ih restPlain furtherPlain (List.cons.inj after).2]

private theorem map_text_eq_iff (first second : List Hop) :
    first.map (·.crumb.text) = second.map (·.crumb.text) ↔
      first.map Hop.shown = second.map Hop.shown := by
  induction first generalizing second with
  | nil => cases second <;> simp
  | cons hop rest ih =>
    cases second with
    | nil => simp
    | cons other further => simp [Hop.text_crumb_eq_iff, ih]

/-- What a refusal of the write of an occurrence is reported as. -/
def Occurrence.message (occurrence : Occurrence) (complaint : Refusal) : String :=
  String.join (occurrence.write.path.map fun crumb => crumb.text ++ ": ") ++ complaint.text

/-- Two occurrences are reported alike exactly if their paths show the same. -/
theorem Occurrence.message_eq_iff (first second : Occurrence) (complaint : Refusal) :
    first.message complaint = second.message complaint ↔
      first.path.map Hop.shown = second.path.map Hop.shown := by
  have chars (occurrence : Occurrence) : (occurrence.message complaint).toList =
      (occurrence.path.map (·.crumb.text)).flatMap (·.toList ++ [':', ' ']) ++
        (Crumb.ident.text.toList ++ [':', ' '] ++ complaint.text.toList) := by
    simp [message, write, String.toList_join, List.flatMap_map]
  have plain (occurrence : Occurrence) :
      ∀ text ∈ occurrence.path.map (·.crumb.text), ':' ∉ text.toList :=
    List.forall_mem_map.mpr fun hop _ => hop.colon_not_mem_crumb
  rw [← map_text_eq_iff, ← String.toList_inj, chars, chars]
  constructor
  · intro same
    exact texts_inj (plain first) (plain second) (List.append_cancel_right same)
  · intro same
    rw [same]

/-- A sink that refuses one call reports the path of the write that is offered then. -/
theorem Fault.replay_call (complaint : Refusal) (ending : Ending) (before after : List Write)
    (write : Write) (seen : FaultCount) :
    (((Fault.call (seen.calls + before.length + 1 : Nat)).sink complaint).replay ending
      (before ++ write :: after) seen).ending =
        .failed ((RenderError.ofRefusal complaint).along write.path) := by
  induction before generalizing seen with
  | nil => simp [Sink.replay, sink, refuses, count, Complaint.ending, Ending.along_failed]
  | cons first rest ih =>
    have later : ¬ ((seen.calls + 1 : Nat) : Int) = (seen.calls + (rest.length + 1) + 1 : Nat) := by
      omega
    have offered : ((Fault.call (seen.calls + (rest.length + 1) + 1 : Nat)).sink complaint).offer
        seen first.text =
          (⟨seen.matching, seen.calls + 1, seen.length + first.text.length⟩, none) := by
      simp only [sink, refuses, count, later, decide_false, Bool.false_eq_true, if_false]
    have further := ih ⟨seen.matching, seen.calls + 1, seen.length + first.text.length⟩
    rw [show seen.calls + 1 + rest.length + 1 = seen.calls + (rest.length + 1) + 1 by omega]
      at further
    simp only [List.cons_append, List.length_cons, Sink.replay, offered]
    exact further

/-- The turns at which a trace writes identifiers, counted from one. -/
def Trace.identTurns (trace : Trace) : List Nat :=
  ((trace.writes.zipIdx 1).filter (·.1.isIdent)).map Prod.snd

private theorem mem_of_mem_zip {α β γ : Type} {pairs : List (α × β)} {others : List γ} {own : γ → α}
    (same : pairs.map Prod.fst = others.map own) {second : β} {other : γ}
    (paired : (second, other) ∈ (pairs.map Prod.snd).zip others) : (own other, second) ∈ pairs := by
  induction pairs generalizing others with
  | nil => cases paired
  | cons pair rest ih =>
    cases others with
    | nil => cases same
    | cons first further =>
      simp only [List.map_cons, List.cons.injEq] at same
      simp only [List.map_cons, List.zip_cons_cons, List.mem_cons, Prod.mk.injEq] at paired
      rcases paired with ⟨rfl, rfl⟩ | later
      · rw [← same.1]
        exact List.mem_cons_self
      · exact List.mem_cons_of_mem _ (ih same.2 later)

namespace Role

variable {role : Role} {node : Node} (renders : role.renders node = true) (options : Options)

include renders

/-- The write at the turn of an occurrence is the write of the occurrence. -/
theorem write_at_turn {turn : Nat} {occurrence : Occurrence}
    (paired : (turn, occurrence) ∈ (role.trace node options).identTurns.zip node.occurrences) :
    ∃ before after, (role.trace node options).writes = before ++ occurrence.write :: after ∧
      turn = before.length + 1 := by
  have listed := Role.listsOccurrences renders options
  rw [Trace.identWrites, ← List.zipIdx_map_fst 1 (role.trace node options).writes,
    List.filter_map] at listed
  obtain ⟨numbered, _⟩ := List.mem_filter.mp (mem_of_mem_zip listed paired)
  obtain ⟨counted, within, same⟩ := List.mem_zipIdx numbered
  have below : turn - 1 < (role.trace node options).writes.length := by omega
  refine ⟨(role.trace node options).writes.take (turn - 1),
    (role.trace node options).writes.drop (turn - 1 + 1), ?_, ?_⟩
  · rw [same, List.getElem_cons_drop, List.take_append_drop]
  · rw [List.length_take]
    omega

/-- A sink that refuses the turn of an occurrence hears the path to it. -/
theorem run_refused_at_turn {turn : Nat} {occurrence : Occurrence}
    (paired : (turn, occurrence) ∈ (role.trace node options).identTurns.zip node.occurrences)
    (complaint : Refusal) :
    ((role.emission node options).run ((Fault.call turn).sink complaint) {}).ending =
      .failed ⟨.sink, occurrence.message complaint, some complaint⟩ := by
  obtain ⟨before, after, writes, rfl⟩ := write_at_turn renders options paired
  have refused := Fault.replay_call complaint (role.trace node options).ending before after
    occurrence.write {}
  rw [RenderError.along_eq, Nat.zero_add, ← writes] at refused
  rw [Emission.run_eq_replay]
  exact refused

theorem length_identTurns :
    (role.trace node options).identTurns.length = node.occurrences.length := by
  have listed := congrArg List.length (Role.listsOccurrences renders options)
  rw [Trace.identWrites, ← List.zipIdx_map_fst 1 (role.trace node options).writes,
    List.filter_map, List.length_map, List.length_map] at listed
  rw [Trace.identTurns, List.length_map]
  exact listed

theorem text_at_turn {turn : Nat} {occurrence : Occurrence}
    (paired : (turn, occurrence) ∈ (role.trace node options).identTurns.zip node.occurrences) :
    (role.trace node options).texts[turn - 1]? = some occurrence.leaf.name := by
  obtain ⟨before, after, writes, rfl⟩ := write_at_turn renders options paired
  simp [Trace.texts, writes, Occurrence.write]

end Role

/-- Pairs of two lists are the same, if they agree on keys that differ. -/
private theorem eq_of_mem_zip {α β γ : Type} {firsts : List α} {seconds : List β} {key : β → γ}
    (enough : seconds.length ≤ firsts.length) (differ : (seconds.map key).Nodup)
    {one other : α × β} (oneIn : one ∈ firsts.zip seconds) (otherIn : other ∈ firsts.zip seconds)
    (same : key one.2 = key other.2) : one = other := by
  have keys : ((firsts.zip seconds).map (key ∘ Prod.snd)).Nodup := by
    rw [← List.map_map, List.map_snd_zip enough]
    exact differ
  exact List.inj_on_of_nodup_map keys oneIn otherIn same

/-- In a tree that renders every identifier is written at a turn of its own. If a sink
refuses one of these turns, its complaint is reported behind the path to the identifier:
for two turns the messages are the same exactly if the paths are the same up to the
indices of clauses. Where no comprehension has two clauses of the same kind, the messages
of different turns differ. -/
theorem breadcrumbs_locate_identifiers (role : Role) (node : Node) (options : Options)
    (renders : ((role.emission node options).run Sink.buffer "").ending = .done) :
    let trace := role.trace node options
    let calls := trace.identTurns.zip node.occurrences
    let refusedAt (turn : Nat) (complaint : Refusal) :=
      (role.emission node options).run ((Fault.call turn).sink complaint) {}
    trace.identTurns.length = node.occurrences.length ∧
      (∀ call ∈ calls, trace.texts[call.1 - 1]? = some call.2.leaf.name) ∧
      ∀ first ∈ calls, ∀ second ∈ calls, ∀ complaint : Refusal, ∃ firstMessage secondMessage,
        (refusedAt first.1 complaint).ending = .failed ⟨.sink, firstMessage, some complaint⟩ ∧
        (refusedAt second.1 complaint).ending = .failed ⟨.sink, secondMessage, some complaint⟩ ∧
        (firstMessage = secondMessage ↔
          first.2.path.map Hop.shown = second.2.path.map Hop.shown) ∧
        (node.Throughout Node.ClausesDiffer → first.1 ≠ second.1 →
          firstMessage ≠ secondMessage) := by
  intro trace calls refusedAt
  have rendered := (role.buffer_ending_iff node options).mp renders
  have lengths := Role.length_identTurns rendered options
  refine ⟨lengths, fun call member => Role.text_at_turn rendered options member, ?_⟩
  intro first firstIn second secondIn complaint
  refine ⟨first.2.message complaint, second.2.message complaint,
    Role.run_refused_at_turn rendered options firstIn complaint,
    Role.run_refused_at_turn rendered options secondIn complaint,
    Occurrence.message_eq_iff _ _ _, ?_⟩
  intro differ apart same
  have shown := (Occurrence.message_eq_iff _ _ _).mp same
  have pairs := eq_of_mem_zip (Nat.le_of_eq lengths.symm) (Node.occurrences_differ differ) firstIn
    secondIn shown
  exact apart (congrArg Prod.fst pairs)

/-- Two for clauses, whose parts are reported alike, and an if clause. -/
theorem breadcrumbs_of_two_for_clauses :
    let name (text : String) : Node := .ident ⟨text, none⟩
    let node : Node := .comprehension (name "x")
      [.forClause (name "x") (name "a"), .forClause (name "y") (name "b"), .ifClause (name "y")]
      false
    let ending (turn : Nat) :=
      let sink := (Fault.call turn).sink ⟨"OSError", "stop"⟩
      ((Role.expression.emission node {}).run sink {}).ending
    ending 10 = ending 18 ∧ ending 10 ≠ ending 22 := by
  intro name node ending
  have turns : (Role.expression.trace node {}).identTurns = [2, 6, 10, 14, 18, 22] := by decide
  have occurrences : node.occurrences =
      [⟨[⟨.comprehension, .body, none, by decide⟩], ⟨"x", none⟩⟩,
       ⟨[⟨.comprehension, .forVars, some 0, by decide⟩], ⟨"x", none⟩⟩,
       ⟨[⟨.comprehension, .forX, some 0, by decide⟩], ⟨"a", none⟩⟩,
       ⟨[⟨.comprehension, .forVars, some 1, by decide⟩], ⟨"y", none⟩⟩,
       ⟨[⟨.comprehension, .forX, some 1, by decide⟩], ⟨"b", none⟩⟩,
       ⟨[⟨.comprehension, .ifCond, some 2, by decide⟩], ⟨"y", none⟩⟩] := by
    rw [Node.occurrences_eq]
    simp [node, name, Node.parts, Part.ofClause, Part.member, Part.single, Node.ownOccurrence,
      Occurrence.below]
  obtain ⟨_, _, messages⟩ := breadcrumbs_locate_identifiers .expression node {} (by decide)
  rw [turns, occurrences] at messages
  have source := messages _ (List.getElem_mem (show 2 < 6 by decide))
  obtain ⟨first, second, firstEnds, secondEnds, alike, _⟩ :=
    source _ (List.getElem_mem (show 4 < 6 by decide)) ⟨"OSError", "stop"⟩
  obtain ⟨third, fourth, thirdEnds, fourthEnds, apart, _⟩ :=
    source _ (List.getElem_mem (show 5 < 6 by decide)) ⟨"OSError", "stop"⟩
  constructor
  · exact (firstEnds.trans (by rw [alike.mpr rfl])).trans secondEnds.symm
  · intro same
    have messages := thirdEnds.symm.trans (same.trans fourthEnds)
    simp only [Ending.failed.injEq, RenderError.mk.injEq, true_and, and_true] at messages
    exact absurd (apart.mp messages) (by decide)

end StarlarkPrinter
