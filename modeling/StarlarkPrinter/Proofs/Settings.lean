import Mathlib.Data.List.Induction
import StarlarkPrinter.Options.Setting

/-! What settings amount to. Options hold what values stand for, and applying a setting
builds the options again from their own fields with one field exchanged. So a list of
settings amounts to the last value that it gives for each option, as long as every value
fits its option; and the first value that does not fit fails in the same way whatever
stands around it. -/

namespace StarlarkPrinter

/-- A value stands for a layout: a text for the policy that it names in any case, any other
value for the policy of the number that it equals. -/
def Value.StandsFor (layout : Layout) : Value → Prop
  | .text name => Text.upperCase name = layout.name
  | value => value.number? = some (layout.code : Int)

/-- Whether a value fits its option: a plain integer from zero on, a text, a plain truth
value, and for a layout the name of a policy in any case or a number from zero to eight,
which no plain truth value is. -/
def Setting.isAcceptable : Setting → Bool
  | ⟨.depth, .int number⟩ => 0 ≤ number
  | ⟨.indent, .text _⟩ => true
  | ⟨.spaceEqBinary, .bool _⟩ => true
  | ⟨.layout _, .text name⟩ => Layout.all.any (·.name = Text.upperCase name)
  | ⟨.layout _, .bool _⟩ => false
  | ⟨.layout _, value⟩ => value.number?.any fun number => 0 ≤ number ∧ number ≤ 8
  | _ => false

namespace OptionFields

def get (fields : OptionFields) : OptionName → Value
  | .depth => fields.depth
  | .indent => fields.indent
  | .spaceEqBinary => fields.spaceEqBinary
  | .layout .call => fields.call
  | .layout .dict => fields.dict
  | .layout .list => fields.list
  | .layout .tuple => fields.tuple

@[simp]
theorem get_put_self (fields : OptionFields) (name : OptionName) (value : Value) :
    (fields.put name value).get name = value := by
  rcases name with _ | _ | _ | sequence
  · rfl
  · rfl
  · rfl
  · cases sequence <;> rfl

theorem get_put_other (fields : OptionFields) {name other : OptionName} (value : Value)
    (differs : other ≠ name) : (fields.put name value).get other = fields.get other := by
  rcases name with _ | _ | _ | (_ | _ | _ | _) <;>
    rcases other with _ | _ | _ | (_ | _ | _ | _) <;> simp [put, get] at differs ⊢

end OptionFields

namespace Options

/-- The values of finished options. A layout is its number. -/
def fields (options : Options) : OptionFields where
  depth := .int options.depth
  indent := .text options.indent
  spaceEqBinary := .bool options.spaceEqBinary
  call := .int options.call.code
  dict := .int options.dict.code
  list := .int options.list.code
  tuple := .int options.tuple.code

/-- Options hold what a value stands for. -/
def Holds (options : Options) : OptionName → Value → Prop
  | .depth, value => value = .int options.depth
  | .indent, value => value = .text options.indent
  | .spaceEqBinary, value => value = .bool options.spaceEqBinary
  | .layout sequence, value => value.StandsFor (options.layoutOf sequence)

end Options

namespace Layout

theorem ofName?_eq_some_iff (name : String) (layout : Layout) :
    ofName? name = some layout ↔ name = layout.name := by
  constructor
  · intro found
    simpa [eq_comm] using List.find?_some found
  · rintro rfl
    exact ofName?_name layout

theorem ofCode?_eq_some_iff (number : Int) (layout : Layout) :
    ofCode? number = some layout ↔ number = layout.code := by
  constructor
  · intro found
    simpa [eq_comm] using List.find?_some found
  · rintro rfl
    exact ofCode?_code layout

/-- The policies have the numbers from zero to eight. -/
theorem exists_code_iff (number : Int) :
    (∃ layout : Layout, number = layout.code) ↔ 0 ≤ number ∧ number ≤ 8 := by
  constructor
  · rintro ⟨layout, rfl⟩
    have table : ∀ layout ∈ all, layout.code ≤ 8 := by decide
    have bound := table layout (mem_all layout)
    omega
  · rintro ⟨low, high⟩
    have table : ∀ code ≤ 8, ∃ layout ∈ all, layout.code = code := by decide
    obtain ⟨layout, _, same⟩ := table number.toNat (by omega)
    exact ⟨layout, by omega⟩

end Layout

namespace Value

theorem toDepth_eq_ok_iff (value : Value) (depth : Nat) :
    value.toDepth = .ok depth ↔ value = .int depth := by
  cases value with
  | int number =>
    by_cases negative : number < 0
    · simp only [toDepth, negative, if_true, int.injEq]
      constructor
      · intro failed
        cases failed
      · intro same
        omega
    · simp only [toDepth, negative, if_false, Except.ok.injEq, int.injEq]
      omega
  | _ => simp [toDepth]

theorem toIndent_eq_ok_iff (value : Value) (unit : String) :
    value.toIndent = .ok unit ↔ value = .text unit := by
  cases value <;> simp [toIndent]

theorem toSwitch_eq_ok_iff (value : Value) (on : Bool) :
    value.toSwitch = .ok on ↔ value = .bool on := by
  cases value <;> simp [toSwitch]

theorem layout?_eq_some_iff (value : Value) (layout : Layout) :
    value.layout? = some layout ↔ value.StandsFor layout := by
  cases value with
  | text name => exact Layout.ofName?_eq_some_iff _ layout
  | _ => simp [layout?, StandsFor, Option.bind_eq_some_iff, Layout.ofCode?_eq_some_iff]

theorem toLayout_eq_ok_iff (sequence : Sequence) (value : Value) (layout : Layout) :
    value.toLayout sequence = .ok layout ↔ value.StandsFor layout := by
  rw [← layout?_eq_some_iff, toLayout]
  cases value.layout? <;> simp

end Value

private theorem bind_eq_ok_iff {ε α β : Type} {first : Except ε α} {next : α → Except ε β}
    {result : β} :
    first >>= next = .ok result ↔ ∃ value, first = .ok value ∧ next value = .ok result := by
  cases first <;> simp [bind, Except.bind]

namespace Options

/-- Fields make up options exactly if the options hold every one of them. -/
theorem ofFields_eq_ok_iff (fields : OptionFields) (options : Options) :
    ofFields fields = .ok options ↔ ∀ name, options.Holds name (fields.get name) := by
  simp only [ofFields, bind_eq_ok_iff, Value.toDepth_eq_ok_iff, Value.toIndent_eq_ok_iff,
    Value.toSwitch_eq_ok_iff, Value.toLayout_eq_ok_iff]
  constructor
  · rintro ⟨depth, isDepth, unit, isIndent, on, isSwitch, call, isCall, dict, isDict, list,
      isList, tuple, isTuple, built⟩
    cases built
    intro name
    match name with
    | .depth => exact isDepth
    | .indent => exact isIndent
    | .spaceEqBinary => exact isSwitch
    | .layout .call => exact isCall
    | .layout .dict => exact isDict
    | .layout .list => exact isList
    | .layout .tuple => exact isTuple
  · intro holds
    exact ⟨_, holds .depth, _, holds .indent, _, holds .spaceEqBinary, _, holds (.layout .call),
      _, holds (.layout .dict), _, holds (.layout .list), _, holds (.layout .tuple), rfl⟩

theorem holds_fields (options : Options) (name : OptionName) :
    options.Holds name (options.fields.get name) := by
  rcases name with _ | _ | _ | sequence
  · rfl
  · rfl
  · rfl
  · cases sequence <;> rfl

theorem ofFields_fields (options : Options) : ofFields options.fields = .ok options :=
  (ofFields_eq_ok_iff _ _).mpr options.holds_fields

theorem eq_of_holds {first second : Options} {values : OptionName → Value}
    (firstHolds : ∀ name, first.Holds name (values name))
    (secondHolds : ∀ name, second.Holds name (values name)) : first = second := by
  have depth : first.depth = second.depth :=
    Int.ofNat.inj (Value.int.inj ((firstHolds .depth).symm.trans (secondHolds .depth)))
  have indent : first.indent = second.indent :=
    Value.text.inj ((firstHolds .indent).symm.trans (secondHolds .indent))
  have spaceEqBinary : first.spaceEqBinary = second.spaceEqBinary :=
    Value.bool.inj ((firstHolds .spaceEqBinary).symm.trans (secondHolds .spaceEqBinary))
  have layout (sequence : Sequence) : first.layoutOf sequence = second.layoutOf sequence := by
    have own := (Value.layout?_eq_some_iff _ _).mpr (firstHolds (.layout sequence))
    rw [(Value.layout?_eq_some_iff _ _).mpr (secondHolds (.layout sequence))] at own
    exact (Option.some.inj own).symm
  obtain ⟨_, _, _, _, _, _, _⟩ := first
  obtain ⟨_, _, _, _, _, _, _⟩ := second
  simpa [depth, indent, spaceEqBinary] using
    ⟨depth, indent, spaceEqBinary, layout .call, layout .dict, layout .list, layout .tuple⟩

/-- Applying a setting builds the options again from their own fields, with one of them
exchanged. -/
theorem set_eq_ofFields (options : Options) (setting : Setting) :
    options.set setting = ofFields (options.fields.put setting.name setting.value) := by
  have depth : (Value.int options.depth).toDepth = .ok options.depth :=
    (Value.toDepth_eq_ok_iff _ _).mpr rfl
  have layout (sequence : Sequence) (own : Layout) :
      (Value.int own.code).toLayout sequence = .ok own :=
    (Value.toLayout_eq_ok_iff _ _ _).mpr rfl
  obtain ⟨name, value⟩ := setting
  match name with
  | .depth =>
    simp only [set, ofFields, fields, OptionFields.put, layout]
    cases value.toDepth <;> rfl
  | .indent =>
    simp only [set, ofFields, fields, OptionFields.put, depth, layout]
    cases value.toIndent <;> rfl
  | .spaceEqBinary =>
    simp only [set, ofFields, fields, OptionFields.put, depth, layout]
    cases value.toSwitch <;> rfl
  | .layout sequence =>
    cases sequence <;>
    · simp only [set, ofFields, fields, OptionFields.put, depth, layout]
      cases value.toLayout _ <;> rfl

/-- Options with one value in a field hold the same for that option. -/
theorem holds_congr {first second : Options} {name : OptionName}
    (same : first.fields.get name = second.fields.get name) (value : Value) :
    first.Holds name value ↔ second.Holds name value := by
  have firstOwn := first.holds_fields name
  rw [same] at firstOwn
  match name with
  | .depth => rw [Holds, Holds, ← firstOwn]; rfl
  | .indent => rw [Holds, Holds, ← firstOwn]; rfl
  | .spaceEqBinary => rw [Holds, Holds, ← firstOwn]; rfl
  | .layout sequence =>
    have found := (Value.layout?_eq_some_iff _ _).mpr firstOwn
    rw [(Value.layout?_eq_some_iff _ _).mpr (second.holds_fields (.layout sequence))] at found
    rw [Holds, Holds, Option.some.inj found]

/-- Options that hold the field of others have the same field. -/
private theorem fields_get_of_holds {first second : Options} {name : OptionName}
    (holds : first.Holds name (second.fields.get name)) :
    first.fields.get name = second.fields.get name := by
  match name with
  | .depth | .indent | .spaceEqBinary => exact holds.symm
  | .layout .call | .layout .dict | .layout .list | .layout .tuple =>
    exact congrArg Value.int (Option.some.inj holds).symm

/-- What a setting leaves behind: its option holds its value, and every other field is as it
was before. -/
theorem holds_of_set {options next : Options} {setting : Setting}
    (applied : options.set setting = .ok next) :
    next.Holds setting.name setting.value ∧
      ∀ name, name ≠ setting.name → next.fields.get name = options.fields.get name := by
  rw [set_eq_ofFields, ofFields_eq_ok_iff] at applied
  constructor
  · have own := applied setting.name
    rwa [OptionFields.get_put_self] at own
  · intro name differs
    have other := applied name
    rw [OptionFields.get_put_other _ _ differs] at other
    exact fields_get_of_holds other

private theorem isAcceptable_layout (sequence : Sequence) (value : Value) :
    (Setting.mk (.layout sequence) value).isAcceptable = true ↔
      ∃ layout, value.StandsFor layout := by
  cases value with
  | text name =>
    simp only [Setting.isAcceptable, List.any_eq_true, decide_eq_true_eq, Value.StandsFor]
    constructor
    · rintro ⟨layout, _, same⟩
      exact ⟨layout, same.symm⟩
    · rintro ⟨layout, same⟩
      exact ⟨layout, Layout.mem_all layout, same.symm⟩
  | bool on => simp [Setting.isAcceptable, Value.StandsFor, Value.number?]
  | _ => simp [Setting.isAcceptable, Value.StandsFor, Option.any_eq_true, ← Layout.exists_code_iff]

/-- A value that fits is taken by any options. -/
theorem set_of_acceptable {setting : Setting} (fits : setting.isAcceptable = true)
    (options : Options) : ∃ next, options.set setting = .ok next := by
  obtain ⟨name, value⟩ := setting
  match name with
  | .depth =>
    cases value with
    | int number =>
      have natural : 0 ≤ number := of_decide_eq_true fits
      have own : (Value.int number).toDepth = .ok number.toNat :=
        (Value.toDepth_eq_ok_iff _ _).mpr (by rw [Int.toNat_of_nonneg natural])
      exact ⟨_, by rw [set, own]; rfl⟩
    | _ => cases fits
  | .indent =>
    cases value with
    | text unit => exact ⟨_, rfl⟩
    | _ => cases fits
  | .spaceEqBinary =>
    cases value with
    | bool on => exact ⟨_, rfl⟩
    | _ => cases fits
  | .layout sequence =>
    obtain ⟨layout, stands⟩ := (isAcceptable_layout sequence value).mp fits
    have own := (Value.toLayout_eq_ok_iff sequence value layout).mpr stands
    exact ⟨_, by simp only [set, own]; rfl⟩

/-- A value that does not fit is refused by all options alike, with the error that shows
it. -/
theorem set_of_unacceptable {setting : Setting} (unfit : setting.isAcceptable = false) :
    ∃ requirement, ∀ options : Options,
      options.set setting = .error (.ofValue setting.name setting.value requirement) := by
  obtain ⟨name, value⟩ := setting
  match name with
  | .depth =>
    cases value with
    | int number =>
      have negative : number < 0 := Int.not_le.mp (of_decide_eq_false unfit)
      exact ⟨.nonnegative, fun options => by simp only [set, Value.toDepth, negative, if_true]; rfl⟩
    | _ => exact ⟨.integer, fun options => rfl⟩
  | .indent =>
    cases value with
    | text unit => cases unfit
    | _ => exact ⟨.text, fun options => rfl⟩
  | .spaceEqBinary =>
    cases value with
    | bool on => cases unfit
    | _ => exact ⟨.boolean, fun options => rfl⟩
  | .layout sequence =>
    have missing : value.layout? = none := by
      apply Option.eq_none_iff_forall_ne_some.mpr
      intro layout found
      have fits := (isAcceptable_layout sequence value).mpr
        ⟨layout, (Value.layout?_eq_some_iff _ _).mp found⟩
      rw [unfit] at fits
      cases fits
    exact ⟨.layout, fun options => by simp only [set, Value.toLayout, missing]; rfl⟩

theorem isAcceptable_of_set {options next : Options} {setting : Setting}
    (applied : options.set setting = .ok next) : setting.isAcceptable = true := by
  cases fits : setting.isAcceptable with
  | true => rfl
  | false =>
    obtain ⟨requirement, refused⟩ := set_of_unacceptable fits
    rw [refused options] at applied
    cases applied

end Options

/-- The last value that settings give for an option, or its default. -/
def lastValue (settings : List Setting) (name : OptionName) : Value :=
  match (settings.filter (·.name = name)).getLast? with
  | some setting => setting.value
  | none => ({} : OptionFields).get name

theorem lastValue_concat_self (settings : List Setting) (setting : Setting) :
    lastValue (settings ++ [setting]) setting.name = setting.value := by
  simp [lastValue, List.filter_append]

theorem lastValue_concat_other (settings : List Setting) {setting : Setting} {name : OptionName}
    (differs : name ≠ setting.name) :
    lastValue (settings ++ [setting]) name = lastValue settings name := by
  simp [lastValue, List.filter_append, differs.symm]

namespace Options

theorem ofSettings_concat (settings : List Setting) (setting : Setting) :
    ofSettings (settings ++ [setting]) = ofSettings settings >>= (·.set setting) := by
  simp [ofSettings, List.foldlM_append]

/-- Options that settings amount to hold the last value for each option. -/
theorem holds_of_ofSettings {settings : List Setting} {options : Options}
    (built : ofSettings settings = .ok options) :
    ∀ name, options.Holds name (lastValue settings name) := by
  induction settings using List.reverseRecOn generalizing options with
  | nil =>
    cases built
    exact holds_fields {}
  | append_singleton settings setting ih =>
    rw [ofSettings_concat, bind_eq_ok_iff] at built
    obtain ⟨before, early, applied⟩ := built
    obtain ⟨own, others⟩ := holds_of_set applied
    intro name
    by_cases same : name = setting.name
    · rw [same, lastValue_concat_self]
      exact own
    · rw [lastValue_concat_other settings same, holds_congr (others name same)]
      exact ih early name

/-- Settings that all fit amount to some options. -/
theorem ofSettings_of_acceptable {settings : List Setting}
    (fit : ∀ setting ∈ settings, setting.isAcceptable = true) :
    ∃ options, ofSettings settings = .ok options := by
  induction settings using List.reverseRecOn with
  | nil => exact ⟨{}, rfl⟩
  | append_singleton settings setting ih =>
    obtain ⟨before, early⟩ := ih fun other member => fit other (by simp [member])
    obtain ⟨next, applied⟩ := set_of_acceptable (fit setting (by simp)) before
    refine ⟨next, ?_⟩
    rw [ofSettings_concat, early]
    exact applied

theorem isAcceptable_of_ofSettings {settings : List Setting} {options : Options}
    (built : ofSettings settings = .ok options) :
    ∀ setting ∈ settings, setting.isAcceptable = true := by
  induction settings using List.reverseRecOn generalizing options with
  | nil => simp
  | append_singleton settings setting ih =>
    rw [ofSettings_concat, bind_eq_ok_iff] at built
    obtain ⟨before, early, applied⟩ := built
    intro other member
    rcases List.mem_append.mp member with earlier | last
    · exact ih early other earlier
    · rw [List.mem_singleton.mp last]
      exact isAcceptable_of_set applied

/-- The first setting that does not fit decides the error, whatever stands around it. -/
theorem ofSettings_of_unacceptable {settings : List Setting} {bad : Setting}
    (first : settings.find? (!·.isAcceptable) = some bad) :
    ∃ requirement, ofSettings [bad] = .error (.ofValue bad.name bad.value requirement) ∧
      ofSettings settings = .error (.ofValue bad.name bad.value requirement) := by
  obtain ⟨unfit, before, after, rfl, fit⟩ := List.find?_eq_some_iff_append.mp first
  obtain ⟨requirement, refused⟩ := set_of_unacceptable (by simpa using unfit)
  have allFit : ∀ setting ∈ before, setting.isAcceptable = true := by simpa using fit
  obtain ⟨reached, early⟩ := ofSettings_of_acceptable allFit
  refine ⟨requirement, (ofSettings_concat [] bad).trans (refused {}), ?_⟩
  rw [ofSettings] at early
  rw [ofSettings, List.foldlM_append, early]
  exact congrArg (· >>= (after.foldlM set ·)) (refused reached)

end Options

/-- Settings amount to options exactly if each of them fits, and the options then hold the
last value for each option, or its default. Otherwise the error is the one of the first
setting that does not fit, as if it were the only one. So the order of settings counts only
among those of one name. -/
theorem settings_amount_to_last_values (settings : List Setting) :
    ((∃ options, Options.ofSettings settings = .ok options) ↔
      ∀ setting ∈ settings, setting.isAcceptable = true) ∧
    (∀ options, Options.ofSettings settings = .ok options →
      ∀ name, options.Holds name (lastValue settings name)) ∧
    (∀ bad, settings.find? (!·.isAcceptable) = some bad →
      ∃ error, Options.ofSettings [bad] = .error error ∧
        Options.ofSettings settings = .error error) ∧
    ∀ reordered : List Setting, (∀ setting ∈ settings, setting.isAcceptable = true) →
      reordered.Perm settings →
      (∀ name, reordered.filter (·.name = name) = settings.filter (·.name = name)) →
      Options.ofSettings reordered = Options.ofSettings settings := by
  refine ⟨⟨?_, Options.ofSettings_of_acceptable⟩, ?_, ?_, ?_⟩
  · rintro ⟨options, built⟩
    exact Options.isAcceptable_of_ofSettings built
  · intro options built
    exact Options.holds_of_ofSettings built
  · intro bad first
    obtain ⟨requirement, alone, together⟩ := Options.ofSettings_of_unacceptable first
    exact ⟨_, alone, together⟩
  · intro reordered fit permuted kept
    obtain ⟨options, built⟩ := Options.ofSettings_of_acceptable fit
    obtain ⟨others, otherBuilt⟩ := Options.ofSettings_of_acceptable
      fun setting member => fit setting (permuted.mem_iff.mp member)
    have sameValues (name : OptionName) : lastValue reordered name = lastValue settings name := by
      rw [lastValue, lastValue, kept name]
    have otherHolds := Options.holds_of_ofSettings otherBuilt
    simp only [sameValues] at otherHolds
    rw [built, otherBuilt, Options.eq_of_holds otherHolds (Options.holds_of_ofSettings built)]

/-- A layout that is given twice, by name and by number, with a depth in between. -/
theorem settings_with_layout_given_twice :
    let settings : List Setting :=
      [⟨.layout .call, .text "multiline_comma"⟩, ⟨.depth, .int 2⟩, ⟨.layout .call, .float "4.0"⟩]
    let reordered : List Setting :=
      [⟨.depth, .int 2⟩, ⟨.layout .call, .text "multiline_comma"⟩, ⟨.layout .call, .float "4.0"⟩]
    let options : Options := { depth := 2, call := ⟨.multiple, .always⟩ }
    Options.ofSettings settings = .ok options ∧ Options.ofSettings reordered = .ok options := by
  intro settings reordered options
  have built : Options.ofSettings settings = .ok options := rfl
  obtain ⟨_, _, _, order⟩ := settings_amount_to_last_values settings
  refine ⟨built, ?_⟩
  rw [← built]
  apply order reordered (by decide +kernel) (List.Perm.swap _ _ _)
  intro name
  rcases name with _ | _ | _ | (_ | _ | _ | _) <;> rfl

end StarlarkPrinter
