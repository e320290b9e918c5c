import DeskCalculator.Proofs.Tiers
import DeskCalculator.Settings.Document

/-!
# Settings as they are loaded

Settings either break no rule and are loaded, with each field from the first tier that has it, or
nothing is loaded and every broken rule is told, if all of them can be told: `load_tiers`. The
settings file may hold anything that a document can hold, also a mapping that is inside itself.
-/

namespace DeskCalculator.Settings
open Calculator Display DeskCalculator.Expr

/-- What is documented of settings, where their types leave room. -/
structure Profile.Documented (p : Profile) : Prop where
  width : 8 ≤ p.display.params.maxLength
  places : 0 ≤ p.display.params.roundDigits ∧ p.display.params.roundDigits ≤ 15
  mantissa : 0 ≤ p.display.params.exponentDigits ∧ p.display.params.exponentDigits ≤ 16
  marker : p.display.params.errorText ≠ ""
  entries : 1 ≤ p.history.maxEntries
  path : p.history.path ≠ ""
  level : Text.capitals p.logging.level ∈ levels

section Files

variable {κ σ : Type} [Thing κ σ]

/-- What a settings file adds: nothing if it is missing or empty, else its fields. -/
inductive Adds : Option (Value κ σ) → Fields κ σ → Prop
  | missing : Adds none []
  | empty : Adds (some .null) []
  | fields {value : Value κ σ} {fields : Fields κ σ} (h : value.fields? = some fields) :
      Adds (some value) fields

/-- Neither a document nor a section of it has a key twice. -/
def Value.Lawful (value : Value κ σ) : Prop :=
  value.Distinct ∧ ∀ fields, value.fields? = some fields → ∀ field ∈ fields, field.2.Distinct

theorem Adds.distinct {file : Option (Value κ σ)} {fields : Fields κ σ} (adds : Adds file fields)
    (filed : ∀ value ∈ file, value.Lawful) :
    (fields.map Prod.fst).Nodup ∧ ∀ field ∈ fields, field.2.Distinct := by
  cases adds with
  | missing => exact ⟨List.nodup_nil, nofun⟩
  | empty => exact ⟨List.nodup_nil, nofun⟩
  | fields whole =>
    obtain ⟨distinct, sections⟩ := filed _ rfl
    exact ⟨distinct _ whole, sections _ whole⟩

end Files

section Documents

variable {size : Nat} (g : Graph size)

theorem distinct_node (i : Fin size) :
    (Value.other (.node g i) : Value Scalar Object).Distinct := by
  intro fields h
  change g.fields? i = some fields at h
  unfold Graph.fields? at h
  split at h
  · rename_i inner distinct _
    cases h
    simpa [List.map_map, Function.comp_def] using distinct
  · cases h

theorem distinct_item (x : Item size) : (g.value x).Distinct := by
  cases x with
  | node i => exact distinct_node g i
  | scalar s =>
    intro fields h
    cases s <;> cases h

/-- No mapping of a document has a key twice. -/
theorem lawful_node (i : Fin size) : (Value.other (.node g i) : Value Scalar Object).Lawful := by
  refine ⟨distinct_node g i, fun fields h field there => ?_⟩
  change g.fields? i = some fields at h
  unfold Graph.fields? at h
  split at h
  · cases h
    obtain ⟨⟨key, x⟩, -, rfl⟩ := List.mem_map.mp there
    exact distinct_item g x
  · cases h

end Documents

/-! What the rules admit -/

section Rules

variable {κ σ : Type}

theorem int_of_isAtLeast {lo : Int} {v : Value κ σ} (h : isAtLeast lo v = true) :
    ∃ n, v.int? = some n ∧ .int n = v := by
  cases v with
  | int n => exact ⟨n, rfl, rfl⟩
  | _ => cases h

theorem int_of_isBetween {lo hi : Int} {v : Value κ σ} (h : isBetween lo hi v = true) :
    ∃ n, v.int? = some n ∧ .int n = v := by
  cases v with
  | int n => exact ⟨n, rfl, rfl⟩
  | _ => cases h

theorem bool_of_isBool {v : Value κ σ} (h : isBool v = true) :
    ∃ b, v.bool? = some b ∧ .bool b = v := by
  cases v with
  | bool b => exact ⟨b, rfl, rfl⟩
  | _ => cases h

theorem text_of_isNonempty {v : Value κ σ} (h : isNonempty v = true) :
    ∃ s, v.text? = some s ∧ .text s = v := by
  cases v with
  | text s => exact ⟨s, rfl, rfl⟩
  | _ => cases h

theorem text_of_isLevel {v : Value κ σ} (h : isLevel v = true) :
    ∃ s, v.text? = some s ∧ .text s = v := by
  cases v with
  | text s => exact ⟨s, rfl, rfl⟩
  | _ => cases h

/-- The admitted names of a setting are those of its vocabulary. -/
theorem member_of_isOneOf {α : Type} [Vocabulary α] {names : List String}
    (known : ∀ s ∈ names, ∃ a : α, Vocabulary.find? α s = some a ∧ Vocabulary.spelling a = s)
    {v : Value κ σ} (h : isOneOf names v = true) :
    ∃ a : α, v.text?.bind (Vocabulary.find? α) = some a ∧ .text (Vocabulary.spelling a) = v := by
  cases v with
  | text s =>
    obtain ⟨a, found, spelled⟩ := known s (List.contains_iff_mem.mp h)
    exact ⟨a, found, by rw [spelled]⟩
  | _ => cases h

theorem isLevel_text {s : String} {v : Value κ σ} (h : isLevel v = true)
    (hv : v.text? = some s) : Text.capitals s ∈ levels := by
  cases v with
  | text t =>
    cases hv
    exact List.contains_iff_mem.mp h
  | _ => cases h

theorem angle_known : ∀ s ∈ angleModes,
    ∃ a, Vocabulary.find? AngleMode s = some a ∧ Vocabulary.spelling a = s := by
  intro s hs
  simp only [angleModes, List.mem_cons, List.not_mem_nil, or_false] at hs
  rcases hs with rfl | rfl
  · exact ⟨.radians, by decide⟩
  · exact ⟨.degrees, by decide⟩

theorem mode_known : ∀ s ∈ modes,
    ∃ m, Vocabulary.find? Mode s = some m ∧ Vocabulary.spelling m = s := by
  intro s hs
  simp only [modes, List.mem_cons, List.not_mem_nil, or_false] at hs
  rcases hs with rfl | rfl
  · exact ⟨.basic, by decide⟩
  · exact ⟨.advanced, by decide⟩

end Rules

section Loading

variable {κ σ : Type} [DecidableEq κ] [Key κ]

/-! Settings as they are read -/

/-- A setting is the value at its key, or its default. -/
theorem write_setting {α : Type} {s : Section} {fields : Fields κ σ}
    (valid : s.validate fields = []) {r : Rule κ σ} (hr : r ∈ s.rules)
    {read : Value κ σ → Option α} {write : α → Value κ σ} (preset : α)
    (same : ∀ v, r.admits v = true → ∃ a, read v = some a ∧ write a = v) :
    write (setting fields r.field read preset) =
      (fields.lookup (Key.ofText r.field)).getD (write preset) := by
  unfold setting
  cases found : fields.lookup (Key.ofText r.field : κ) with
  | none => rfl
  | some v =>
    obtain ⟨a, ha, rfl⟩ := same v (admits_of_validate valid hr found)
    rw [Option.bind_some, ha]
    rfl

variable [Thing κ σ]

theorem display_profile {fields : Fields κ σ} (valid : validate fields = []) :
    (profile fields).display.params = params (sectionFields fields "display") := by
  have lawful := params_valid
    (validate_sectionFields valid (show Section.ofName? "display" = some .display from rfl))
  rw [profile, panel, dif_pos lawful]

/-- The settings of a profile are found by their names. -/
theorem at?_fields (p : Profile) (name key : String) :
    at? (p.fields : Fields κ σ) name key =
      (p.sections.lookup name).bind (·.lookup key) := by
  rw [at?, sectionFields, Profile.fields, lookup_keyed]
  generalize p.sections = sections
  induction sections with
  | nil => rfl
  | cons head rest ih =>
    obtain ⟨first, fields⟩ := head
    rw [List.map_cons, lookup_cons, lookup_cons]
    by_cases same : name = first
    · rw [if_pos same, if_pos same, Option.bind_some]
      exact lookup_keyed fields key
    · rw [if_neg same, if_neg same]
      exact ih

/-- A field that has a default has a rule. -/
theorem ruled_of_default {name key : String} {preset : Value κ σ}
    (default : at? defaults name key = some preset) :
    ∃ s, Section.ofName? name = some s ∧ ∃ r ∈ (s.rules : List (Rule κ σ)), r.field = key := by
  rw [defaults, at?_fields] at default
  have names : name = "display" ∨ name = "engine" ∨ name = "history" ∨ name = "logging" := by
    apply Classical.byContradiction
    intro other
    simp only [not_or] at other
    simp [Profile.sections, lookup_cons, other] at default
  have key_cases {fields : List (String × Value κ σ)} {rules : List (Rule κ σ)}
      (h : fields.lookup key = some preset)
      (covered : fields.map Prod.fst = rules.map Rule.field) : ∃ r ∈ rules, r.field = key := by
    have member : key ∈ fields.map Prod.fst := List.mem_map_of_mem (mem_of_lookup h)
    rw [covered] at member
    exact List.mem_map.mp member
  rcases names with rfl | rfl | rfl | rfl
  · exact ⟨.display, rfl, key_cases default rfl⟩
  · exact ⟨.engine, rfl, key_cases default rfl⟩
  · exact ⟨.history, rfl, key_cases default rfl⟩
  · exact ⟨.logging, rfl, key_cases default rfl⟩

/-- A profile has all of its fields, each as it is in the settings if it is there. -/
theorem at?_profile {fields : Fields κ σ} (valid : validate fields = []) {name : String}
    {s : Section} (named : Section.ofName? name = some s) {r : Rule κ σ} (hr : r ∈ s.rules)
    {preset : Value κ σ} (default : at? defaults name r.field = some preset) :
    at? (profile fields).fields name r.field = some ((at? fields name r.field).getD preset) := by
  have inside := validate_sectionFields valid named
  have panel := display_profile valid
  rw [defaults, at?_fields] at default
  rw [at?_fields]
  unfold Section.ofName? at named
  split at named <;> cases named
  · simp only [Section.rules, List.mem_cons, List.not_mem_nil, or_false] at hr
    rcases hr with rfl | rfl | rfl | rfl
    · cases default
      change some (Value.int (profile fields).display.params.maxLength) = _
      rw [panel]
      exact congrArg some (write_setting inside (.head _) _ fun _ => int_of_isAtLeast)
    · cases default
      change some (Value.int (profile fields).display.params.roundDigits) = _
      rw [panel]
      exact congrArg some (write_setting inside (.tail _ (.head _)) _ fun _ => int_of_isBetween)
    · cases default
      change some (Value.int (profile fields).display.params.exponentDigits) = _
      rw [panel]
      exact congrArg some
        (write_setting inside (.tail _ (.tail _ (.head _))) _ fun _ => int_of_isBetween)
    · cases default
      change some (Value.text (profile fields).display.params.errorText) = _
      rw [panel]
      exact congrArg some
        (write_setting inside (.tail _ (.tail _ (.tail _ (.head _)))) _ fun _ => text_of_isNonempty)
  · simp only [Section.rules, List.mem_cons, List.not_mem_nil, or_false] at hr
    rcases hr with rfl | rfl
    · cases default
      exact congrArg some (write_setting inside (.head _) AngleMode.radians
        fun _ => member_of_isOneOf angle_known)
    · cases default
      exact congrArg some (write_setting inside (.tail _ (.head _)) Mode.advanced
        fun _ => member_of_isOneOf mode_known)
  · simp only [Section.rules, List.mem_cons, List.not_mem_nil, or_false] at hr
    rcases hr with rfl | rfl | rfl
    · cases default
      exact congrArg some (write_setting inside (.head _) _ fun _ => bool_of_isBool)
    · cases default
      exact congrArg some (write_setting inside (.tail _ (.head _)) _ fun _ => int_of_isAtLeast)
    · cases default
      exact congrArg some
        (write_setting inside (.tail _ (.tail _ (.head _))) _ fun _ => text_of_isNonempty)
  · simp only [Section.rules, List.mem_cons, List.not_mem_nil, or_false] at hr
    rcases hr with rfl | rfl
    · cases default
      exact congrArg some (write_setting inside (.head _) _ fun _ => text_of_isLevel)
    · cases default
      exact congrArg some (write_setting inside (.tail _ (.head _)) _ fun _ => bool_of_isBool)

/-- Valid settings make a profile as it is documented. -/
theorem documented_profile {fields : Fields κ σ} (valid : validate fields = []) :
    (profile fields).Documented := by
  have history := validate_sectionFields valid
    (show Section.ofName? "history" = some .history from rfl)
  have logging := validate_sectionFields valid
    (show Section.ofName? "logging" = some .logging from rfl)
  obtain ⟨width, low, high, none, many, marker⟩ := (profile fields).display.valid
  refine ⟨width, ⟨low, high⟩, ⟨none, many⟩, marker, ?_, ?_, ?_⟩
  · exact setting_of_validate history (.tail _ (.head _)) (P := fun n => 1 ≤ n) (by decide)
      fun _ _ => isAtLeast_int
  · exact setting_of_validate history (.tail _ (.tail _ (.head _))) (P := fun s => s ≠ "")
      (by decide) fun _ _ => isNonempty_text
  · exact setting_of_validate logging (.head _) (P := fun s => Text.capitals s ∈ levels)
      (by decide) fun _ _ => isLevel_text

/-- The names that a profile has for its modes are read back as those modes. -/
theorem modes_profile (p : Profile) : ∃ angle mode,
    at? (p.fields : Fields κ σ) "engine" "angle_mode" = some (.text angle) ∧
    Vocabulary.named AngleMode angle = .ok p.angle ∧
    at? (p.fields : Fields κ σ) "engine" "mode" = some (.text mode) ∧
    Vocabulary.named Mode mode = .ok p.mode := by
  refine ⟨Vocabulary.spelling p.angle, Vocabulary.spelling p.mode, at?_fields p _ _, ?_,
    at?_fields p _ _, ?_⟩
  · cases p.angle <;> rfl
  · cases p.mode <;> rfl

/-! Loading -/

theorem fileFields_cases (directory : String) (file : Option (Value κ σ)) :
    (∃ fields, Adds file fields ∧ fileFields directory file = .ok (openSections fields)) ∨
    (∃ value, file = some value ∧ value ≠ .null ∧ value.fields? = none ∧
      fileFields directory file = .error (.noMapping directory)) := by
  cases file with
  | none => exact .inl ⟨[], .missing, rfl⟩
  | some value =>
    by_cases empty : value = .null
    · subst empty
      exact .inl ⟨[], .empty, rfl⟩
    · have read := fileFields.eq_3 directory value empty
      cases whole : value.fields? with
      | some fields =>
        rw [whole] at read
        exact .inl ⟨fields, .fields whole, read⟩
      | none =>
        rw [whole] at read
        exact .inr ⟨value, rfl, empty, whole, read⟩

theorem load_of_valid {directory : String} {file : Option (Value κ σ)}
    {overrides settings : Fields κ σ} (whole : merged directory file overrides = .ok settings)
    (valid : validate settings = []) :
    load directory file overrides = .ok (profile settings) := by
  simp only [load, whole, bind, Except.bind, valid]

theorem load_of_invalid {directory : String} {file : Option (Value κ σ)}
    {overrides settings : Fields κ σ} (whole : merged directory file overrides = .ok settings)
    (broken : validate settings ≠ []) :
    load directory file overrides = .error (.invalid (validate settings)) := by
  simp only [load, whole, bind, Except.bind]

theorem documented_of_load {directory : String} {file : Option (Value κ σ)}
    {overrides : Fields κ σ} {p : Profile} (h : load directory file overrides = .ok p) :
    p.Documented := by
  cases whole : merged directory file overrides with
  | error f =>
    rw [load, whole] at h
    cases h
  | ok settings =>
    by_cases valid : validate settings = []
    · rw [load_of_valid whole valid] at h
      cases h
      exact documented_profile valid
    · rw [load_of_invalid whole valid] at h
      cases h

theorem maxEntries_pos {directory : String} {file : Option (Value κ σ)} {overrides : Fields κ σ}
    {p : Profile} (h : load directory file overrides = .ok p) : 1 ≤ p.history.maxEntries :=
  (documented_of_load h).entries

/-- Settings that break a rule are refused with all that they break, if it can be told. -/
theorem loadOrRefuse_of_invalid {directory : String} {file : Option (Value κ σ)}
    {overrides settings : Fields κ σ} (whole : merged directory file overrides = .ok settings)
    (broken : validate settings ≠ []) :
    loadOrRefuse directory file overrides =
      .error (if ∀ v ∈ validate settings, v.tellable = true then
        .fault (.invalid (validate settings)) else .overlong) := by
  rw [loadOrRefuse, load_of_invalid whole broken]
  simp only [Except.mapError, Fault.refusal, Fault.tellable, Fault.violations, List.all_eq_true]

theorem told_iff {directory : String} {file : Option (Value κ σ)}
    {overrides settings : Fields κ σ} (whole : merged directory file overrides = .ok settings)
    (broken : validate settings ≠ []) :
    (∃ f, loadOrRefuse directory file overrides = .error (.fault f) ∧
      f.violations = validate settings ∧
      f.field = (validate settings).head?.map Violation.field) ↔
    ∀ v ∈ validate settings, v.tellable = true := by
  have refused := loadOrRefuse_of_invalid whole broken
  by_cases told : ∀ v ∈ validate settings, v.tellable = true
  · rw [if_pos told] at refused
    exact iff_of_true ⟨_, refused, rfl, rfl⟩ told
  · rw [if_neg told] at refused
    refine iff_of_false ?_ told
    rintro ⟨f, same, -⟩
    rw [refused] at same
    cases same

theorem overlong_of_untold {directory : String} {file : Option (Value κ σ)}
    {overrides settings : Fields κ σ} (whole : merged directory file overrides = .ok settings)
    {v : Violation κ σ} (there : v ∈ validate settings) (untold : v.tellable = false) :
    loadOrRefuse directory file overrides = .error .overlong := by
  rw [loadOrRefuse_of_invalid whole (List.ne_nil_of_mem there), if_neg]
  intro told
  rw [told v there] at untold
  cases untold

/-- **Settings are loaded whole or not at all.** A file that is neither empty nor a mapping
is refused. So are settings that break a rule, with all that they break, just if all of that can
be told. Otherwise every field is as documented, and is that of the first tier whose section has
it; and the names of the modes, with which a calculator starts, are known. -/
theorem load_tiers (directory : String) {file : Option (Value κ σ)} {overrides : Fields κ σ}
    (filed : ∀ value ∈ file, value.Lawful) (given : (Value.mapping overrides).Keyed) :
    (∃ value, file = some value ∧ value ≠ .null ∧ value.fields? = none ∧
      loadOrRefuse directory file overrides = .error (.fault (.noMapping directory))) ∨
    ∃ fields settings, Adds file fields ∧ merged directory file overrides = .ok settings ∧
      (validate settings ≠ [] ∧
        ((∃ f, loadOrRefuse directory file overrides = .error (.fault f) ∧
            f.violations = validate settings ∧
            f.field = (validate settings).head?.map Violation.field) ↔
          ∀ v ∈ validate settings, v.tellable = true) ∧
        ((∃ v ∈ validate settings, v.tellable = false) →
          loadOrRefuse directory file overrides = .error .overlong) ∨
      validate settings = [] ∧ ∃ p, loadOrRefuse directory file overrides = .ok p ∧
        p.Documented ∧
        (∀ name key preset, at? defaults name key = some preset →
          at? p.fields name key =
            some (((at? overrides name key).or (at? fields name key)).getD preset)) ∧
        ∃ angle mode, at? (p.fields : Fields κ σ) "engine" "angle_mode" = some (.text angle) ∧
          Vocabulary.named AngleMode angle = .ok p.angle ∧
          at? (p.fields : Fields κ σ) "engine" "mode" = some (.text mode) ∧
          Vocabulary.named Mode mode = .ok p.mode) := by
  rcases fileFields_cases directory file with
    ⟨fields, adds, read⟩ | ⟨value, here, filled, plain, refused⟩
  · obtain ⟨distinct, sections⟩ := adds.distinct filed
    have whole : merged directory file overrides =
        .ok (merge (merge defaults (openSections fields)) overrides) := by
      rw [merged, read]
      rfl
    refine .inr ⟨fields, _, adds, whole, ?_⟩
    generalize same : merge (merge defaults (openSections fields)) overrides = settings at whole
    by_cases valid : validate settings = []
    · refine .inr ⟨valid, profile settings, ?_, documented_profile valid, ?_, modes_profile _⟩
      · rw [loadOrRefuse, load_of_valid whole valid]
        rfl
      · intro name key preset default
        obtain ⟨s, named, r, hr, rfl⟩ := ruled_of_default default
        rw [at?_profile valid named hr default, ← same,
          at?_tiers named distinct sections given (same ▸ valid) hr default]
    · exact .inl ⟨valid, told_iff whole valid,
        fun ⟨_, there, untold⟩ => overlong_of_untold whole there untold⟩
  · refine .inl ⟨value, here, filled, plain, ?_⟩
    rw [loadOrRefuse, load, merged, refused]
    rfl

end Loading

/-- A document whose display is a number, so that it is hidden until the overrides give it anew:
then what they leave out is as it is by default. -/
def shadowed : Graph 2
  | 0 => .mapping [(.text "display", .scalar (.int 5)), (.text "engine", .node 1)] (by decide)
  | 1 => .mapping [(.text "mode", .scalar (.text "basic"))] (by decide)

/-- A document that has itself for its display, which is refused. -/
def nested : Graph 1
  | 0 => .mapping [(.text "display", .node 0)] (by decide)

theorem load_documents :
    let file : Value Scalar Object := .other (.node shadowed 0)
    let overrides : Fields Scalar Object :=
      [(.text "display", .mapping [(.text "max_length", .int 20)])]
    let inside : Value Scalar Object := .other (.node nested 0)
    (∃ p, loadOrRefuse "." (some file) overrides = .ok p ∧ p.Documented ∧
      at? p.fields "display" "max_length" = some (.int 20 : Value Scalar Object) ∧
      at? p.fields "display" "round_digits" = some (.int 12 : Value Scalar Object) ∧
      at? p.fields "engine" "mode" = some (.text "basic" : Value Scalar Object)) ∧
    ∃ f, loadOrRefuse "." (some inside) overrides = .error (.fault f) ∧
      f.violations.map Violation.shown =
        ["display.display: Unknown configuration field (got: \x7b'display': \x7b...\x7d\x7d)"] := by
  intro file overrides inside
  have given : (Value.mapping overrides).Keyed := by simp [overrides, Value.Keyed, allKeyed]
  have lawful {size : Nat} (g : Graph size) (i : Fin size) :
      ∀ value ∈ some (Value.other (.node g i) : Value Scalar Object), value.Lawful := by
    intro value here
    cases Option.some.inj here
    exact lawful_node g i
  constructor
  · rcases load_tiers "." (lawful shadowed 0) given with
      ⟨value, here, -, other, -⟩ | ⟨fields, settings, adds, whole, broken | valid⟩
    · cases here
      cases other
    · cases whole
      exact absurd rfl broken.1
    · obtain ⟨-, p, loaded, documented, tiers, -⟩ := valid
      have same : fields =
          [(.text "display", .int 5), (.text "engine", .other (.node shadowed 1))] := by
        cases adds with
        | fields whole =>
          cases whole
          rfl
      subst same
      exact ⟨p, loaded, documented, tiers _ _ _ rfl, tiers _ _ _ rfl, tiers _ _ _ rfl⟩
  · rcases load_tiers "." (lawful nested 0) given with
      ⟨value, here, -, other, -⟩ | ⟨fields, settings, adds, whole, broken | valid⟩
    · cases here
      cases other
    · cases whole
      obtain ⟨-, told, -⟩ := broken
      obtain ⟨f, refused, violations, -⟩ := told.mpr (by decide +kernel)
      refine ⟨f, refused, ?_⟩
      rw [violations]
      decide +kernel
    · cases whole
      cases valid.1

/-- Overrides that ask for a display of this width. -/
def widened (n : Int) : Fields := [("display", .mapping [("max_length", .int n)])]

theorem load_of_untold {n : Int} (low : n < 8) (long : hasText n = false) :
    loadOrRefuse "." none (widened n) = .error .overlong := by
  have whole : merged "." none (widened n) = .ok (merge defaults (widened n)) := rfl
  have there : (⟨"max_length", "Must be an integer of at least 8", .int n⟩ : Violation) ∈
      validate (merge defaults (widened n)) := by
    refine List.mem_flatMap.mpr ⟨_, .head _, List.mem_append_right _ ?_⟩
    refine List.mem_filterMap.mpr ⟨_, .head _, ?_⟩
    exact if_neg (Bool.eq_false_iff.mp (decide_eq_false (Int.not_le.mpr low)))
  exact overlong_of_untold whole there (by simp [Violation.tellable, Value.tellable, long])

/-- A width of more digits than a text may have is refused, and not a word is said of it. -/
theorem not_load_told :
    loadOrRefuse "." none (widened (-10 ^ 4300)) = .error .overlong :=
  load_of_untold (by decide +kernel) (by decide +kernel)

end DeskCalculator.Settings
