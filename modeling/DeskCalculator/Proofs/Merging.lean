import DeskCalculator.Proofs.Tiers

/-!
# Merging along paths

A path is a list of keys, followed through mappings inside mappings. What a merged mapping has
at the end of a path is what the upper one has there, combined with what the lower one has
(`find?_combine`); where the upper one ends before the path does, the lower one is asked, unless
something that is no mapping stands in the way. `merge_along_paths` says so for every path, and
says what becomes of the order of keys and of a second merge.
-/

namespace DeskCalculator.Settings

namespace Value

/-- The value at the end of a path of keys. -/
def find? : Value → List String → Option Value
  | value, [] => some value
  | mapping fields, key :: rest => (fields.lookup key).bind (find? · rest)
  | _, _ :: _ => none

/-- The longest way along a path on which there are values. -/
structure Ends (value : Value) (path way : List String) : Prop where
  start : way <+: path
  there : (value.find? way).isSome = true
  longest : ∀ other, other <+: path → (value.find? other).isSome = true →
    other.length ≤ way.length

theorem mapping_of_fields? {value : Value} {fields : Fields} (h : value.fields? = some fields) :
    value = .mapping fields := by
  cases value with
  | mapping inner =>
    cases h
    rfl
  | other thing => cases thing
  | _ => cases h

theorem find?_of_fields?_none {value : Value} (plain : value.fields? = none) {path : List String}
    (on : path ≠ []) : value.find? path = none := by
  obtain ⟨key, rest, rfl⟩ := List.exists_cons_of_ne_nil on
  cases value with
  | mapping fields => cases plain
  | _ => rfl

theorem find?_append (value : Value) (path later : List String) :
    value.find? (path ++ later) = (value.find? path).bind (find? · later) := by
  induction path generalizing value with
  | nil => rw [List.nil_append, find?, Option.bind_some]
  | cons key rest ih =>
    cases value with
    | mapping fields =>
      rw [List.cons_append, find?, find?, Option.bind_assoc]
      exact congrArg _ (funext ih)
    | _ => rfl

/-- What is found in a mapping of mappings has no key twice either. -/
theorem Keyed.find? {value found : Value} (keyed : value.Keyed) {path : List String}
    (h : value.find? path = some found) : found.Keyed := by
  induction path generalizing value with
  | nil =>
    cases h
    exact keyed
  | cons key rest ih =>
    cases value with
    | mapping fields =>
      obtain ⟨inner, first, later⟩ := Option.bind_eq_some_iff.mp h
      rw [Keyed] at keyed
      exact ih (keyed_of_mem keyed.2 (mem_of_lookup first)) later
    | _ => cases h

/-- A way that ends before the path does ends in a mapping without the next key, or in something
that is no mapping. -/
theorem Ends.next {value : Value} {path way : List String} (h : value.Ends path way)
    (none : value.find? path = none) : ∃ key later, path = way ++ key :: later ∧
      value.find? (way ++ [key]) = Option.none := by
  obtain ⟨later, rfl⟩ := h.start
  cases later with
  | nil =>
    rw [List.append_nil] at none
    have there := h.there
    rw [none] at there
    cases there
  | cons key later =>
    refine ⟨key, later, rfl, Option.not_isSome_iff_eq_none.mp fun there => ?_⟩
    have := h.longest (way ++ [key]) ⟨later, by simp⟩ there
    rw [List.length_append, List.length_singleton] at this
    omega

end Value

open Value

/-- One step into combined mappings: the next key is looked up in both. -/
theorem find?_combine_cons (old : Option Value) {fields : Fields}
    (distinct : (fields.map Prod.fst).Nodup) (key : String) (path : List String) :
    (combine old (.mapping fields)).find? (key :: path) =
      match fields.lookup key with
      | none => old.bind (·.find? (key :: path))
      | some value => (combine (old.bind (·.find? [key])) value).find? path := by
  cases lower : old.bind Value.fields? with
  | some base =>
    obtain ⟨value, rfl, whole⟩ := Option.bind_eq_some_iff.mp lower
    obtain rfl := mapping_of_fields? whole
    have single : (Value.mapping base).find? [key] = base.lookup key := by
      rw [find?]
      cases base.lookup key <;> rfl
    rw [combine_mapping lower, find?, lookup_merge base distinct, Option.bind_some,
      Option.bind_some, single]
    cases fields.lookup key <;> rfl
  | none =>
    have nothing (path : List String) (on : path ≠ []) : old.bind (·.find? path) = none := by
      cases old with
      | none => rfl
      | some value => exact find?_of_fields?_none lower on
    rw [combine_over lower, find?, nothing _ (List.cons_ne_nil _ _), nothing _ (by simp)]
    cases fields.lookup key with
    | none => rfl
    | some value =>
      dsimp only
      rw [combine_none, Option.bind_some]

/-- **Where the upper value has something, it is combined with what the lower one has there.** -/
theorem find?_combine (old : Option Value) {value found : Value} (keyed : value.Keyed)
    {path : List String} (h : value.find? path = some found) :
    (combine old value).find? path = some (combine (old.bind (·.find? path)) found) := by
  induction path generalizing old value with
  | nil =>
    cases h
    cases old <;> rfl
  | cons key rest ih =>
    cases value with
    | mapping fields =>
      obtain ⟨inner, first, later⟩ := Option.bind_eq_some_iff.mp h
      rw [Keyed] at keyed
      rw [find?_combine_cons old keyed.1, first]
      dsimp only
      rw [ih _ (keyed_of_mem keyed.2 (mem_of_lookup first)) later, Option.bind_assoc]
      congr 3
      funext value
      exact (find?_append value [key] rest).symm
    | _ => cases h

/-- Where the upper value ends in a mapping without the next key, the lower one goes on. -/
theorem find?_combine_of_end (old : Option Value) {value : Value} (keyed : value.Keyed)
    {way : List String} {fields : Fields} (h : value.find? way = some (.mapping fields))
    {key : String} (absent : fields.lookup key = none) (later : List String) :
    (combine old value).find? (way ++ key :: later) = old.bind (·.find? (way ++ key :: later)) := by
  have distinct := keyed.find? h
  rw [Keyed] at distinct
  rw [find?_append, find?_combine old keyed h, Option.bind_some,
    find?_combine_cons _ distinct.1, absent]
  dsimp only
  rw [Option.bind_assoc]
  congr 1
  funext value
  exact (find?_append value way (key :: later)).symm

/-! The order of keys -/

theorem keys_put (fields : Fields) (key : String) (value : Value) :
    (Fields.put fields key value).map Prod.fst =
      fields.map Prod.fst ++ if key ∈ fields.map Prod.fst then [] else [key] := by
  induction fields with
  | nil => rfl
  | cons head rest ih =>
    obtain ⟨name, old⟩ := head
    rw [Fields.put]
    by_cases here : name = key
    · simp [here]
    · have known : key ∈ ((name, old) :: rest).map Prod.fst ↔ key ∈ rest.map Prod.fst := by
        rw [List.map_cons, List.mem_cons]
        exact or_iff_right (Ne.symm here)
      rw [if_neg here, List.map_cons, ih, List.map_cons, List.cons_append]
      simp only [← known, List.map_cons]

/-- Keys stay in their order, and new ones follow in theirs. -/
theorem keys_merge (base : Fields) {fields : Fields} (distinct : (fields.map Prod.fst).Nodup) :
    (merge base fields).map Prod.fst =
      base.map Prod.fst ++ (fields.map Prod.fst).filter (· ∉ base.map Prod.fst) := by
  induction fields generalizing base with
  | nil => rw [merge]; simp
  | cons head rest ih =>
    obtain ⟨key, value⟩ := head
    rw [List.map_cons, List.nodup_cons] at distinct
    rw [merge, ih _ distinct.2, keys_put, List.map_cons]
    by_cases known : key ∈ base.map Prod.fst
    · rw [if_pos known, List.append_nil, List.filter_cons_of_neg (by simpa using known)]
    · rw [if_neg known, List.filter_cons_of_pos (by simpa using known), List.append_assoc,
        List.singleton_append]
      congr 2
      apply List.filter_congr
      intro name there
      have other : name ≠ key := fun same => distinct.1 (same ▸ there)
      simp [other]

/-! A second merge -/

theorem put_of_lookup {fields : Fields} {key : String} {value : Value}
    (found : fields.lookup key = some value) : Fields.put fields key value = fields := by
  induction fields with
  | nil => cases found
  | cons head rest ih =>
    obtain ⟨name, old⟩ := head
    rw [lookup_cons] at found
    rw [Fields.put]
    by_cases here : name = key
    · rw [if_pos here.symm] at found
      rw [if_pos here, Option.some.inj found, here]
    · rw [if_neg (Ne.symm here)] at found
      rw [if_neg here, ih found]

/-- Fields that make no difference to any value are merged without effect. -/
theorem merge_of_absorbed {base fields : Fields}
    (absorbed : ∀ key value, (key, value) ∈ fields →
      ∃ old, base.lookup key = some old ∧ combine (some old) value = old) :
    merge base fields = base := by
  induction fields with
  | nil => rw [merge]
  | cons head rest ih =>
    obtain ⟨key, value⟩ := head
    obtain ⟨old, found, same⟩ := absorbed key value List.mem_cons_self
    rw [merge, found, same, put_of_lookup found]
    exact ih fun name value there => absorbed name value (List.mem_cons_of_mem _ there)

theorem lookup_of_mem {fields : Fields} (distinct : (fields.map Prod.fst).Nodup) {key : String}
    {value : Value} (there : (key, value) ∈ fields) : fields.lookup key = some value := by
  induction fields with
  | nil => cases there
  | cons head rest ih =>
    obtain ⟨name, first⟩ := head
    rw [List.map_cons, List.nodup_cons] at distinct
    rw [lookup_cons]
    rcases List.mem_cons.mp there with same | later
    · cases same
      exact if_pos rfl
    · have member : key ∈ rest.map Prod.fst := List.mem_map.mpr ⟨_, later, rfl⟩
      have other : key ≠ name := fun same => distinct.1 (same ▸ member)
      rw [if_neg other, ih distinct.2 later]

/-- What a value was combined with once makes no difference to it again. -/
theorem combine_combine (value : Value) : value.Keyed → ∀ old : Option Value,
    combine (some (combine old value)) value = combine old value := by
  cases value with
  | mapping fields =>
    intro keyed old
    rw [Keyed] at keyed
    have inner {key : String} {value : Value} (there : (key, value) ∈ fields) :
        ∀ old, combine (some (combine old value)) value = combine old value :=
      combine_combine value (keyed_of_mem keyed.2 there)
    cases lower : old.bind Value.fields? with
    | some base =>
      rw [combine_mapping lower, combine_mapping rfl, merge_of_absorbed]
      intro key value there
      refine ⟨_, ?_, inner there (base.lookup key)⟩
      rw [lookup_merge base keyed.1, lookup_of_mem keyed.1 there]
    | none =>
      rw [combine_over lower, combine_mapping rfl, merge_of_absorbed]
      intro key value there
      have same := inner there none
      rw [combine_none] at same
      exact ⟨value, lookup_of_mem keyed.1 there, same⟩
  | other thing => cases thing
  | _ =>
    intro _ old
    rw [combine_of_fields?_none _ rfl, combine_of_fields?_none _ rfl]
termination_by sizeOf value
decreasing_by
  have small := List.sizeOf_lt_of_mem there
  rw [Prod.mk.sizeOf_spec] at small
  rw [Value.mapping.sizeOf_spec]
  omega

/-- **Merging goes along paths.** A value of the upper mapping that is no mapping itself stands at
its path, with nothing below it. Where the upper mapping ends in a mapping, the lower one is asked if
it has a mapping there too. Keys keep their order, new ones come last, and to merge again changes
nothing. -/
theorem merge_along_paths (base : Fields) {upper : Fields} (keyed : (Value.mapping upper).Keyed) :
    let lower := Value.mapping base
    let higher := Value.mapping upper
    let merged := Value.mapping (merge base upper)
    (∀ path value, higher.find? path = some value → value.fields? = none →
      merged.find? path = some value) ∧
    (∀ path way value, way <+: path → way ≠ path → higher.find? way = some value →
      value.fields? = none → merged.find? path = none) ∧
    (∀ path way fields, higher.find? path = none → higher.Ends path way →
      higher.find? way = some (.mapping fields) →
      ((∃ old, lower.find? way = some (.mapping old)) → merged.find? path = lower.find? path) ∧
      ((¬ ∃ old, lower.find? way = some (.mapping old)) → merged.find? path = none)) ∧
    (∀ path old fields, lower.find? path = some (.mapping old) →
      higher.find? path = some (.mapping fields) →
      ∃ both, merged.find? path = some (.mapping both) ∧ both.map Prod.fst =
        old.map Prod.fst ++ (fields.map Prod.fst).filter (· ∉ old.map Prod.fst)) ∧
    merge (merge base upper) upper = merge base upper := by
  intro lower higher merged
  have whole : merged = combine (some lower) higher := (combine_mapping rfl upper).symm
  have plain (path : List String) (value : Value) (found : higher.find? path = some value)
      (none : value.fields? = none) : merged.find? path = some value := by
    rw [whole, find?_combine _ keyed found, combine_of_fields?_none _ none]
  refine ⟨plain, ?_, ?_, ?_, ?_⟩
  · rintro path way value ⟨later, rfl⟩ before found none
    have on : later ≠ [] := fun same => before (by rw [same, List.append_nil])
    rw [find?_append, plain way value found none, Option.bind_some, find?_of_fields?_none none on]
  · intro path way fields none ends found
    obtain ⟨key, later, rfl, absent⟩ := ends.next none
    rw [find?_append, found] at absent
    have absent : fields.lookup key = Option.none := by
      cases there : fields.lookup key with
      | none => rfl
      | some value => simp [find?, there] at absent
    have asked : merged.find? (way ++ key :: later) = lower.find? (way ++ key :: later) := by
      rw [whole, find?_combine_of_end _ keyed found absent, Option.bind_some]
    refine ⟨fun _ => asked, fun other => ?_⟩
    rw [asked, find?_append]
    cases there : lower.find? way with
    | none => rfl
    | some value =>
      refine find?_of_fields?_none ?_ (List.cons_ne_nil key later)
      cases value with
      | mapping old => exact absurd ⟨old, there⟩ other
      | other thing => cases thing
      | _ => rfl
  · intro path old fields there found
    have distinct := keyed.find? found
    rw [Keyed] at distinct
    refine ⟨merge old fields, ?_, keys_merge old distinct.1⟩
    rw [whole, find?_combine _ keyed found, Option.bind_some, there, combine_mapping rfl]
  · have again := combine_combine higher keyed (some lower)
    rw [combine_mapping rfl, combine_mapping rfl] at again
    exact Value.mapping.inj again

/-- A section changed, one hidden by a number, one that was hidden and is not, and a new one. -/
theorem merge_along_paths_sections :
    let base : Fields := [
      ("display", .mapping [("max_length", .int 16), ("error_text", .text "Error")]),
      ("engine", .mapping [("mode", .text "basic")]), ("history", .int 5)]
    let upper : Fields := [("logging", .mapping [("level", .text "INFO")]),
      ("display", .mapping [("round_digits", .int 2), ("max_length", .int 20)]),
      ("engine", .int 7), ("history", .mapping [("enabled", .bool true)])]
    let merged := Value.mapping (merge base upper)
    (Value.mapping upper).Keyed ∧
      merged.find? ["display", "max_length"] = some (.int 20) ∧
      merged.find? ["engine", "mode"] = none ∧
      merged.find? ["display", "error_text"] = some (.text "Error") ∧
      merged.find? ["history", "max_entries"] = none ∧
      (merge base upper).map Prod.fst = ["display", "engine", "history", "logging"] ∧
      merge (merge base upper) upper = merge base upper := by
  intro base upper merged
  have keyed : (Value.mapping upper).Keyed := by simp [upper, Value.Keyed, allKeyed]
  obtain ⟨plain, hidden, beyond, order, again⟩ := merge_along_paths base keyed
  have ends {name key : String} (there : ((Value.mapping upper).find? [name]).isSome = true)
      (none : (Value.mapping upper).find? [name, key] = none) :
      (Value.mapping upper).Ends [name, key] [name] := by
    refine ⟨⟨[key], rfl⟩, there, fun other start found => Nat.not_lt.mp fun long => ?_⟩
    rw [start.eq_of_length_le long, none] at found
    cases found
  refine ⟨keyed, plain _ _ rfl rfl, ?_, ?_, ?_, ?_, again⟩
  · exact hidden ["engine", "mode"] ["engine"] (.int 7) ⟨["mode"], rfl⟩ (by decide) rfl rfl
  · exact (beyond ["display", "error_text"] ["display"] _ rfl (ends rfl rfl) rfl).1 ⟨_, rfl⟩
  · refine (beyond ["history", "max_entries"] ["history"] _ rfl (ends rfl rfl) rfl).2 ?_
    rintro ⟨old, found⟩
    cases found
  · obtain ⟨both, found, keys⟩ := order [] base upper rfl rfl
    cases found
    exact keys.trans (by decide)

end DeskCalculator.Settings
