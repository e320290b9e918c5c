import DeskCalculator.Settings.Admitted
import DeskCalculator.Settings.Load

/-!
# Three tiers of settings

Overrides come before the settings file and the file before the defaults, field by
field; a section that a tier gives as something else than a mapping hides the tiers
below it. `at?_merge` says so of one merge, and `at?_tiers` of settings that break no rule.
-/

namespace DeskCalculator.Settings
section Shapes

variable {κ σ : Type} [Thing κ σ]

mutual

/-- A mapping is written out and has no key twice, at any level. -/
def Value.Keyed : Value κ σ → Prop
  | .mapping fields => (fields.map Prod.fst).Nodup ∧ allKeyed fields
  | .other thing => Thing.fields? (κ := κ) thing = none
  | _ => True

def allKeyed : List (κ × Value κ σ) → Prop
  | [] => True
  | (_, value) :: rest => value.Keyed ∧ allKeyed rest

end

/-- If it is a mapping, then one that has no key twice. -/
def Value.Distinct (value : Value κ σ) : Prop :=
  ∀ fields, value.fields? = some fields → (fields.map Prod.fst).Nodup

/-- A mapping that is written out and has no key twice, or no mapping. -/
def Value.Open (value : Value κ σ) : Prop :=
  (∃ inner, value = .mapping inner ∧ (inner.map Prod.fst).Nodup) ∨ value.fields? = none

theorem Value.Keyed.open {value : Value κ σ} (h : value.Keyed) : value.Open := by
  cases value with
  | mapping fields =>
    rw [Keyed] at h
    exact .inl ⟨fields, rfl, h.1⟩
  | other thing =>
    rw [Keyed] at h
    exact .inr h
  | _ => exact .inr rfl

theorem keyed_of_mem {fields : Fields κ σ} (keyed : allKeyed fields) {key : κ} {value : Value κ σ}
    (there : (key, value) ∈ fields) : value.Keyed := by
  induction fields with
  | nil => cases there
  | cons head rest ih =>
    obtain ⟨name, first⟩ := head
    rw [allKeyed] at keyed
    rcases List.mem_cons.mp there with same | later
    · cases same
      exact keyed.1
    · exact ih keyed.2 later

end Shapes

theorem not_admits_mapping {κ σ : Type} {s : Section} {r : Rule κ σ} (hr : r ∈ s.rules)
    (fields : Fields κ σ) : r.admits (.mapping fields) = false := by
  cases s with
  | display =>
    simp only [Section.rules, List.mem_cons, List.not_mem_nil, or_false] at hr
    rcases hr with rfl | rfl | rfl | rfl <;> rfl
  | engine =>
    simp only [Section.rules, List.mem_cons, List.not_mem_nil, or_false] at hr
    rcases hr with rfl | rfl <;> rfl
  | history =>
    simp only [Section.rules, List.mem_cons, List.not_mem_nil, or_false] at hr
    rcases hr with rfl | rfl | rfl <;> rfl
  | logging =>
    simp only [Section.rules, List.mem_cons, List.not_mem_nil, or_false] at hr
    rcases hr with rfl | rfl <;> rfl

section Merging

variable {κ σ : Type} [DecidableEq κ]

theorem lookup_cons {α : Type} (k key : κ) (value : α) (rest : List (κ × α)) :
    List.lookup k ((key, value) :: rest) = if k = key then some value else rest.lookup k := by
  rw [List.lookup_cons]
  by_cases same : k = key
  · rw [if_pos same, beq_iff_eq.mpr same]
  · rw [if_neg same, beq_eq_false_iff_ne.mpr same]

theorem lookup_put (fields : Fields κ σ) (key : κ) (value : Value κ σ) (k : κ) :
    (Fields.put fields key value).lookup k = if k = key then some value else fields.lookup k := by
  induction fields with
  | nil => rw [Fields.put, lookup_cons]
  | cons head rest ih =>
    obtain ⟨name, old⟩ := head
    rw [Fields.put]
    by_cases here : name = key
    · rw [if_pos here, lookup_cons, lookup_cons, here]
      by_cases same : k = key
      · rw [if_pos same, if_pos same]
      · rw [if_neg same, if_neg same, if_neg same]
    · rw [if_neg here, lookup_cons, lookup_cons, ih]
      by_cases same : k = name
      · rw [if_pos same, if_neg (same ▸ here), if_pos same]
      · rw [if_neg same, if_neg same]

theorem lookup_eq_none_of_not_mem {fields : Fields κ σ} {key : κ}
    (absent : key ∉ fields.map Prod.fst) : fields.lookup key = none := by
  rw [List.lookup_eq_none_iff]
  intro field member
  rw [bne_iff_ne]
  rintro rfl
  exact absent (List.mem_map_of_mem member)

theorem mem_of_lookup {α : Type} {fields : List (κ × α)} {key : κ} {value : α}
    (found : fields.lookup key = some value) : (key, value) ∈ fields := by
  obtain ⟨before, after, same, -⟩ := List.lookup_eq_some_iff.mp found
  rw [same]
  exact List.mem_append_right _ (List.mem_cons_self ..)

variable [Thing κ σ]

/-- A key that the later mapping has gets its value, combined with the earlier one. -/
theorem lookup_merge (base : Fields κ σ) {fields : Fields κ σ}
    (distinct : (fields.map Prod.fst).Nodup) (key : κ) : (merge base fields).lookup key =
      match fields.lookup key with
      | none => base.lookup key
      | some value => some (combine (base.lookup key) value) := by
  induction fields generalizing base with
  | nil => rw [merge]; rfl
  | cons head rest ih =>
    obtain ⟨name, value⟩ := head
    rw [List.map_cons, List.nodup_cons] at distinct
    rw [merge, ih _ distinct.2, lookup_put]
    by_cases same : key = name
    · subst same
      rw [lookup_eq_none_of_not_mem distinct.1, lookup_cons, if_pos rfl, if_pos rfl]
    · rw [lookup_cons, if_neg same, if_neg same]

/-- Only a mapping is combined with what was there before. -/
theorem combine_of_fields?_none (old : Option (Value κ σ)) {value : Value κ σ}
    (plain : value.fields? = none) : combine old value = value := by
  cases value with
  | mapping fields => cases plain
  | _ => exact combine.eq_2 _ _ (by simp)

theorem combine_mapping {old : Option (Value κ σ)} {base : Fields κ σ}
    (lower : old.bind Value.fields? = some base) (fields : Fields κ σ) :
    combine old (.mapping fields) = .mapping (merge base fields) := by
  rw [combine, lower]

theorem combine_over {old : Option (Value κ σ)} (lower : old.bind Value.fields? = none)
    (fields : Fields κ σ) : combine old (.mapping fields) = .mapping fields := by
  rw [combine, lower]

theorem combine_none (value : Value κ σ) : combine none value = value := by
  cases value with
  | mapping fields => exact combine_over rfl fields
  | _ => exact combine.eq_2 _ _ (by simp)

/-- What is admitted of two combined values is the upper one. -/
theorem combine_of_admits {s : Section} {r : Rule κ σ} (hr : r ∈ s.rules)
    {old : Option (Value κ σ)} {value : Value κ σ}
    (admitted : r.admits (combine old value) = true) : combine old value = value := by
  cases value with
  | mapping fields =>
    have mapping : ∃ inner, combine old (.mapping fields) = .mapping inner := by
      unfold combine
      split <;> exact ⟨_, rfl⟩
    obtain ⟨inner, same⟩ := mapping
    rw [same, not_admits_mapping hr] at admitted
    cases admitted
  | _ => exact combine.eq_2 _ _ (by simp)

end Merging

section Keys

variable {κ : Type} [DecidableEq κ] [Key κ]

theorem text?_ofText (s : String) : Key.text? (Key.ofText s : κ) = some s :=
  (Key.text?_eq_some_iff _ s).mpr rfl

theorem ofText_inj {s t : String} : (Key.ofText s : κ) = Key.ofText t ↔ s = t := by
  rw [← Key.text?_eq_some_iff, text?_ofText, Option.some_inj]

/-- The key of a name that has a section names that section. -/
theorem ofKey?_ofText (name : String) :
    Section.ofKey? (Key.ofText name : κ) = Section.ofName? name := by
  rw [Section.ofKey?, text?_ofText, Option.bind_some]

theorem lookup_keyed {α : Type} (fields : List (String × α)) (key : String) :
    (keyed fields : List (κ × α)).lookup (Key.ofText key) = fields.lookup key := by
  induction fields with
  | nil => rfl
  | cons head rest ih =>
    obtain ⟨name, value⟩ := head
    rw [lookup_cons, ← ih, keyed, List.map_cons, lookup_cons]
    simp only [ofText_inj]
    rfl

end Keys

section Tiers

variable {κ σ : Type} [DecidableEq κ] [Key κ] [Thing κ σ]

/-- The value of a field, if its section is a mapping that has it. -/
def at? (fields : Fields κ σ) (name key : String) : Option (Value κ σ) :=
  (sectionFields fields name).lookup (Key.ofText key)

theorem at?_of_fields {fields inner : Fields κ σ} {name : String} {value : Value κ σ}
    (found : fields.lookup (Key.ofText name) = some value) (whole : value.fields? = some inner)
    (key : String) : at? fields name key = inner.lookup (Key.ofText key) := by
  rw [at?, sectionFields, found, Option.bind_some, whole]
  rfl

/-- A section that is no mapping has no fields. -/
theorem at?_of_hidden {fields : Fields κ σ} {name : String}
    (hidden : (fields.lookup (Key.ofText name)).bind Value.fields? = none) (key : String) :
    at? fields name key = none := by
  rw [at?, sectionFields, hidden]
  rfl

/-- **One tier over others.** A field of a section comes from the upper tier if it is
there and from the lower ones if not, unless the upper tier hides the section. -/
theorem at?_merge (base : Fields κ σ) {fields : Fields κ σ}
    (distinct : (fields.map Prod.fst).Nodup) {name : String}
    (shape : ∀ value, fields.lookup (Key.ofText name) = some value → value.Open) (key : String) :
    (∃ value, fields.lookup (Key.ofText name) = some value ∧ value.fields? = none ∧
      (merge base fields).lookup (Key.ofText name) = some value) ∨
    at? (merge base fields) name key =
      match at? fields name key with
      | none => at? base name key
      | some value => some (combine (at? base name key) value) := by
  have merged := lookup_merge base distinct (Key.ofText name)
  cases found : fields.lookup (Key.ofText name) with
  | none =>
    rw [found] at merged
    right
    have none : at? fields name key = none := at?_of_hidden (by rw [found]; rfl) key
    rw [none, at?, sectionFields, merged]
    rfl
  | some value =>
    rw [found] at merged
    dsimp only at merged
    rcases shape value found with ⟨inner, rfl, distinct⟩ | plain
    · right
      rw [at?_of_fields found rfl]
      cases lower : (base.lookup (Key.ofText name)).bind Value.fields? with
      | some old =>
        rw [combine_mapping lower] at merged
        obtain ⟨value, there, whole⟩ := Option.bind_eq_some_iff.mp lower
        rw [at?_of_fields merged rfl, at?_of_fields there whole, lookup_merge _ distinct]
      | none =>
        rw [combine_over lower] at merged
        rw [at?_of_fields merged rfl, at?_of_hidden lower]
        cases inner.lookup (Key.ofText key) with
        | none => rfl
        | some value => exact congrArg some (combine_none value).symm
    · rw [combine_of_fields?_none _ plain] at merged
      exact .inl ⟨value, rfl, plain, merged⟩

/-! Settings files -/

theorem fields?_opened (key : κ) (value : Value κ σ) :
    (opened key value).fields? = value.fields? := by
  unfold opened
  split
  · rename_i whole
    exact whole.symm
  · rfl

theorem lookup_openSections (fields : Fields κ σ) (key : κ) :
    (openSections fields).lookup key = (fields.lookup key).map (opened key) := by
  induction fields with
  | nil => rfl
  | cons head rest ih =>
    obtain ⟨name, value⟩ := head
    rw [openSections, List.map_cons, lookup_cons, lookup_cons]
    by_cases same : key = name
    · rw [if_pos same, if_pos same, same, Option.map_some]
    · rw [if_neg same, if_neg same]
      exact ih

theorem at?_openSections (fields : Fields κ σ) (name key : String) :
    at? (openSections fields) name key = at? fields name key := by
  rw [at?, at?, sectionFields, sectionFields, lookup_openSections]
  cases fields.lookup (Key.ofText name : κ) with
  | none => rfl
  | some value => rw [Option.map_some, Option.bind_some, Option.bind_some, fields?_opened]

theorem keys_openSections (fields : Fields κ σ) :
    (openSections fields).map Prod.fst = fields.map Prod.fst := by
  rw [openSections, List.map_map]
  rfl

/-- A section that has been read is a mapping written out, or none. -/
theorem open_of_openSections {fields : Fields κ σ} (sections : ∀ field ∈ fields, field.2.Distinct)
    {name : String} {s : Section} (named : Section.ofName? name = some s) {value : Value κ σ}
    (found : (openSections fields).lookup (Key.ofText name) = some value) : value.Open := by
  rw [lookup_openSections] at found
  obtain ⟨raw, there, rfl⟩ := Option.map_eq_some_iff.mp found
  have distinct := sections _ (mem_of_lookup there)
  unfold opened
  rw [ofKey?_ofText, named]
  cases whole : raw.fields? with
  | some inner => exact .inl ⟨inner, rfl, distinct inner whole⟩
  | none => exact .inr whole

/-! Fields that break no rule -/

/-- The rules hold in every section of valid fields, also in one that is left out. -/
theorem validate_sectionFields {fields : Fields κ σ} (h : validate fields = []) {name : String}
    {s : Section} (named : Section.ofName? name = some s) :
    s.validate (sectionFields fields name) = [] := by
  have absent : s.validate ([] : Fields κ σ) = [] := by
    rw [Section.validate, List.filterMap_eq_nil_iff]
    intro r _
    rfl
  unfold sectionFields
  cases section? : (fields.lookup (Key.ofText name)).bind Value.fields? with
  | none => exact absent
  | some inner =>
    obtain ⟨value, found, whole⟩ := Option.bind_eq_some_iff.mp section?
    have valid := List.flatMap_eq_nil_iff.mp h _ (mem_of_lookup found)
    simp only [validateEntry, ofKey?_ofText, named, whole, List.append_eq_nil_iff] at valid
    exact valid.2

/-- Every section of valid fields is a mapping. -/
theorem mapping_of_validate {fields : Fields κ σ} (valid : validate fields = []) {key : κ}
    {value : Value κ σ} (found : fields.lookup key = some value) : value.fields? ≠ none := by
  have entry := List.flatMap_eq_nil_iff.mp valid _ (mem_of_lookup found)
  intro none
  simp only [validateEntry, none] at entry
  split at entry <;> cases entry

theorem admits_at? {fields : Fields κ σ} (valid : validate fields = []) {name : String}
    {s : Section} (named : Section.ofName? name = some s) {r : Rule κ σ} (hr : r ∈ s.rules)
    {value : Value κ σ} (found : at? fields name r.field = some value) : r.admits value = true :=
  admits_of_validate (validate_sectionFields valid named) hr found

/-- **In valid settings a field is that of the first tier that has it.** -/
theorem at?_tiers {file overrides : Fields κ σ} {name : String} {s : Section}
    (named : Section.ofName? name = some s) (filed : (file.map Prod.fst).Nodup)
    (sections : ∀ field ∈ file, field.2.Distinct) (given : (Value.mapping overrides).Keyed)
    (valid : validate (merge (merge defaults (openSections file)) overrides) = [])
    {r : Rule κ σ} (hr : r ∈ s.rules) {preset : Value κ σ}
    (default : at? defaults name r.field = some preset) :
    (at? (merge (merge defaults (openSections file)) overrides) name r.field).getD preset =
      ((at? overrides name r.field).or (at? file name r.field)).getD preset := by
  have admitted {value : Value κ σ}
      (found : at? (merge (merge defaults (openSections file)) overrides) name r.field =
        some value) : r.admits value = true := admits_at? valid named hr found
  rw [Value.Keyed] at given
  rcases at?_merge (merge defaults (openSections file)) given.1
    (fun value found => (keyed_of_mem given.2 (mem_of_lookup found)).open) r.field with
    ⟨value, -, plain, merged⟩ | upper
  · exact absurd plain (mapping_of_validate valid merged)
  · cases found : at? overrides name r.field with
    | some value =>
      rw [found] at upper
      dsimp only at upper
      rw [upper, combine_of_admits hr (admitted upper)]
      rfl
    | none =>
      rw [found] at upper
      dsimp only at upper
      rw [Option.none_or, upper]
      rcases at?_merge defaults (by rw [keys_openSections]; exact filed)
        (fun value found => open_of_openSections sections named found) r.field with
        ⟨value, found, plain, merged⟩ | lower
      · rw [at?_of_hidden (by rw [merged]; exact plain), ← at?_openSections file,
          at?_of_hidden (by rw [found]; exact plain)]
      · rw [at?_openSections] at lower
        cases found : at? file name r.field with
        | none =>
          rw [found] at lower
          dsimp only at lower
          rw [lower, default]
          rfl
        | some value =>
          rw [found] at lower
          dsimp only at lower
          rw [lower, combine_of_admits hr (admitted (upper.trans lower))]

end Tiers

end DeskCalculator.Settings
