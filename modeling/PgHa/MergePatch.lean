import PgHa.ConfigFields

/-!
`merge_json_patch` of dynamic_config.rs against the merge patch of RFC 7386. An object is a
map: its keys are distinct, and two values are the same if they show the same at every path
of keys.
-/

namespace PgHa.MergePatch

open Text Serde ConfigTiming ConfigFields

/-! ### Objects as maps -/

/-- Every object inside a value has distinct keys. -/
inductive Keyed : Json → Prop where
  | null : Keyed .null
  | bool (value : Bool) : Keyed (.bool value)
  | number (value : Nat) : Keyed (.number value)
  | negative (magnitude : Nat) : Keyed (.negative magnitude)
  | float (bits : UInt64) : Keyed (.float bits)
  | string (value : Str) : Keyed (.string value)
  | array (items : List Json) (each : ∀ item ∈ items, Keyed item) : Keyed (.array items)
  | object (fields : List (Str × Json)) (distinct : (fields.map Prod.fst).Nodup)
      (each : ∀ field ∈ fields, Keyed field.2) : Keyed (.object fields)

structure JsonObject where
  fields : List (Str × Json)
  keyed : Keyed (.object fields)

def JsonObject.toJson (value : JsonObject) : Json := .object value.fields

/-- What stands at a path: an object that may have members, or any other value. -/
inductive Shape where
  | object
  | value (json : Json)

def look : List String → Json → Option Shape
  | [], .object _ => some .object
  | [], json => some (.value json)
  | key :: path, .object fields => (lookup key fields).bind (look path)
  | _ :: _, _ => none

def Same (left right : Json) : Prop := ∀ path, look path left = look path right

/-! ### The two merges -/

def mergeJsonPatch : Json → Json → Json
  | .object fields, .object patch => .object (mergeFields fields patch)
  | base, _ => base

def membersOf : Option Json → List (Str × Json)
  | some (.object fields) => fields
  | _ => []

def isNull : Json → Bool
  | .null => true
  | _ => false

mutual

/-- `MergePatch` of RFC 7386. The target of a new member is undefined. -/
def rfcMerge (target : Option Json) : Json → Json
  | .object patch => .object (rfcMembers (membersOf target) patch)
  | value => value

def rfcMembers (target : List (Str × Json)) : List (Str × Json) → List (Str × Json)
  | [] => target
  | (key, value) :: rest =>
      if isNull value then rfcMembers (target.filter fun field => field.1 != key) rest
      else
        let current := (target.find? fun field => field.1 == key).map Prod.snd
        rfcMembers (insertField key (rfcMerge current value) target) rest

end

/-! ### One key -/

theorem lookup_mem {key : String} {fields : List (Str × Json)} {value : Json}
    (found : lookup key fields = some value) : (key.toList, value) ∈ fields := by
  obtain ⟨field, first, rfl⟩ := Option.map_eq_some_iff.mp found
  have named := List.find?_some first
  rw [beq_iff_eq] at named
  rw [← named]
  exact List.mem_of_find?_eq_some first

theorem keyed_member {key : String} {fields : List (Str × Json)} {value : Json}
    (keyed : Keyed (.object fields)) (found : lookup key fields = some value) : Keyed value := by
  cases keyed with
  | object _ _ each => exact each _ (lookup_mem found)

theorem lookup_eq_none {key : String} {fields : List (Str × Json)}
    (unnamed : key.toList ∉ fields.map Prod.fst) : lookup key fields = none := by
  rw [lookup, Option.map_eq_none_iff, List.find?_eq_none]
  intro field mem same
  exact unnamed (List.mem_map.mpr ⟨field, mem, by simpa using same⟩)

/-- What the code makes of the member at a key. -/
theorem lookup_merged (key : String) (fields patch : List (Str × Json))
    (distinct : (patch.map Prod.fst).Nodup) :
    lookup key (mergeFields fields patch) =
      match lookup key patch with
      | none => lookup key fields
      | some value => mergeValue (lookup key fields) value := by
  rw [lookup_mergeFields]
  generalize lookup key fields = current
  induction patch generalizing current with
  | nil => rfl
  | cons entry rest ih =>
      rw [List.map_cons, List.nodup_cons] at distinct
      by_cases here : entry.1 = key.toList
      · rw [mergeAt, List.foldl_cons, if_pos here, lookup_cons, if_pos here]
        exact mergeAt_unnamed _ (here ▸ distinct.1)
      · rw [mergeAt, List.foldl_cons, if_neg here, lookup_cons, if_neg here]
        exact ih distinct.2 current

/-- What RFC 7386 makes of it. -/
def rfcValue (current : Option Json) : Json → Option Json
  | .null => none
  | value => some (rfcMerge current value)

theorem lookup_rfcMembers (key : String) (fields patch : List (Str × Json))
    (distinct : (patch.map Prod.fst).Nodup) :
    lookup key (rfcMembers fields patch) =
      match lookup key patch with
      | none => lookup key fields
      | some value => rfcValue (lookup key fields) value := by
  induction patch generalizing fields with
  | nil => rfl
  | cons entry rest ih =>
      obtain ⟨target, value⟩ := entry
      rw [List.map_cons, List.nodup_cons] at distinct
      rw [rfcMembers, lookup_cons]
      by_cases here : target = key.toList
      · subst target
        rw [if_pos rfl]
        have later : lookup key rest = none := lookup_eq_none distinct.1
        cases value with
        | null => simp [isNull, ih _ distinct.2, later, lookup_filter, rfcValue]
        | bool _ | number _ | negative _ | float _ | string _ | array _ | object _ =>
            simp only [isNull, Bool.false_eq_true, ↓reduceIte, ih _ distinct.2, later]
            rw [lookup_insertField, if_pos rfl]
            rfl
      · rw [if_neg here]
        split
        · rw [ih _ distinct.2, lookup_filter, if_neg here]
        · rw [ih _ distinct.2, lookup_insertField, if_neg here]

/-! ### Merged objects stay maps -/

theorem nodup_insertField {key : Str} {value : Json} {fields : List (Str × Json)}
    (distinct : (fields.map Prod.fst).Nodup) :
    ((insertField key value fields).map Prod.fst).Nodup := by
  rw [insertField, List.map_append, List.nodup_append]
  have kept : ((fields.filter fun field => field.1 != key).map Prod.fst).Nodup :=
    distinct.sublist (List.filter_sublist.map _)
  refine ⟨kept, by simp, ?_⟩
  intro name mem other last
  obtain ⟨field, inside, rfl⟩ := List.mem_map.mp mem
  rw [List.mem_filter, bne_iff_ne] at inside
  rw [List.map_cons, List.map_nil, List.mem_singleton] at last
  exact last ▸ inside.2

theorem keyed_insertField {key : Str} {value : Json} {fields : List (Str × Json)}
    (keyed : Keyed (.object fields)) (new : Keyed value) :
    Keyed (.object (insertField key value fields)) := by
  cases keyed with
  | object _ distinct each =>
      refine .object _ (nodup_insertField distinct) ?_
      intro field mem
      rcases List.mem_append.mp mem with kept | last
      · exact each field (List.mem_of_mem_filter kept)
      · rw [List.mem_singleton.mp last]
        exact new

theorem keyed_filter {fields : List (Str × Json)} (keyed : Keyed (.object fields))
    (keep : Str × Json → Bool) : Keyed (.object (fields.filter keep)) := by
  cases keyed with
  | object _ distinct each =>
      exact .object _ (distinct.sublist (List.filter_sublist.map _))
        fun field mem => each field (List.mem_of_mem_filter mem)

theorem keyed_nil : Keyed (.object []) :=
  .object [] List.nodup_nil fun _ mem => absurd mem List.not_mem_nil

theorem keyed_found {key : Str} {fields : List (Str × Json)} {field : Str × Json}
    (keyed : Keyed (.object fields))
    (found : fields.find? (fun field => field.1 == key) = some field) :
    Keyed field.2 := by
  cases keyed with
  | object _ _ each => exact each field (List.mem_of_find?_eq_some found)

mutual

theorem keyed_mergeFields {fields : List (Str × Json)} (keyed : Keyed (.object fields)) :
    ∀ patch : List (Str × Json), (∀ entry ∈ patch, Keyed entry.2) →
      Keyed (.object (mergeFields fields patch))
  | [], _ => keyed
  | (key, value) :: rest, each =>
      keyed_mergeFields (keyed_mergeField keyed key value (each (key, value) List.mem_cons_self))
        rest fun entry mem => each entry (List.mem_cons_of_mem _ mem)

theorem keyed_mergeField {fields : List (Str × Json)} (keyed : Keyed (.object fields))
    (key : Str) :
    ∀ value : Json, Keyed value → Keyed (.object (mergeField fields key value))
  | .null, _ => keyed_filter keyed _
  | .bool value, new => keyed_insertField keyed new
  | .number value, new => keyed_insertField keyed new
  | .negative magnitude, new => keyed_insertField keyed new
  | .float bits, new => keyed_insertField keyed new
  | .string value, new => keyed_insertField keyed new
  | .array items, new => keyed_insertField keyed new
  | .object patch, .object _ _ each => by
      rw [mergeField]
      split
      · rename_i name inner found
        exact keyed_insertField keyed (keyed_mergeFields (keyed_found keyed found) patch each)
      · exact keyed
      · exact keyed_insertField keyed (keyed_mergeFields keyed_nil patch each)

end

def JsonObject.merge (base patch : JsonObject) : JsonObject where
  fields := mergeFields base.fields patch.fields
  keyed := by
    cases patch.keyed with
    | object _ _ each => exact keyed_mergeFields base.keyed patch.fields each

/-! ### Every path -/

/-- Nowhere does the patch have an object where the base has a value that is none. -/
def ClashFree (base patch : Json) : Prop :=
  ∀ path json, look path patch = some .object → look path base ≠ some (.value json)

/-- What stands in the patch stands in the result, and what is null there is gone. -/
def Effective (patch result : Json) : Prop :=
  ∀ path, match look path patch with
    | none => True
    | some .object => look path result = some .object
    | some (.value .null) => look path result = none
    | some (.value json) => look path result = some (.value json)

theorem keyed_nodup {fields : List (Str × Json)} (keyed : Keyed (.object fields)) :
    (fields.map Prod.fst).Nodup := by
  cases keyed with
  | object _ distinct _ => exact distinct

theorem clashFree_present {key : String} {fields patch changes : List (Str × Json)}
    {present : Json}
    (free : ClashFree (.object fields) (.object patch)) (current : lookup key fields = some present)
    (named : lookup key patch = some (.object changes)) : ∃ members,
    present = .object members := by
  have shown : ∀ json, look [key] (.object fields) ≠ some (.value json) :=
    fun json => free [key] json (by simp [look, named])
  cases present with
  | object members => exact ⟨members, rfl⟩
  | null | bool _ | number _ | negative _ | float _ | string _ | array _ =>
      simp [look, current] at shown

theorem clashFree_member {key : String} {fields patch inner changes : List (Str × Json)}
    (free : ClashFree (.object fields) (.object patch))
    (current : lookup key fields = some (.object inner))
    (named : lookup key patch = some (.object changes)) :
    ClashFree (.object inner) (.object changes) := by
  intro path json there here
  exact free (key :: path) json (by simpa [look, named] using there)
    (by simpa [look, current] using here)

theorem clashFree_nil (patch : Json) : ClashFree (.object []) patch := by
  intro path json _
  cases path with
  | nil => simp [look]
  | cons key path => simp [look, lookup]

/-- Induction over the path: below an object of the patch both merges go on with the member,
and without a clash that member is an object or new. -/
theorem look_merged_eq_rfc (path : List String) {fields patch : List (Str × Json)}
    (keyed : Keyed (.object patch)) (free : ClashFree (.object fields) (.object patch)) :
    look path (.object (mergeFields fields patch)) =
      look path (.object (rfcMembers fields patch)) := by
  induction path generalizing fields patch with
  | nil => rfl
  | cons key path ih =>
      simp only [look]
      rw [lookup_merged key fields patch (keyed_nodup keyed),
        lookup_rfcMembers key fields patch (keyed_nodup keyed)]
      cases named : lookup key patch with
      | none => rfl
      | some value =>
          cases value with
          | null | bool _ | number _ | negative _ | float _ | string _ | array _ => rfl
          | object changes =>
              have inner := keyed_member keyed named
              cases current : lookup key fields with
              | none => exact ih inner (clashFree_nil _)
              | some present =>
                  obtain ⟨members, rfl⟩ := clashFree_present free current named
                  exact ih inner (clashFree_member free current named)

theorem effective_rfc (path : List String) {fields patch : List (Str × Json)}
    (keyed : Keyed (.object patch)) :
    match look path (.object patch) with
    | none => True
    | some .object => look path (.object (rfcMembers fields patch)) = some .object
    | some (.value .null) => look path (.object (rfcMembers fields patch)) = none
    | some (.value json) => look path (.object (rfcMembers fields patch)) = some (.value json) := by
  induction path generalizing fields patch with
  | nil => rfl
  | cons key path ih =>
      simp only [look]
      rw [lookup_rfcMembers key fields patch (keyed_nodup keyed)]
      cases named : lookup key patch with
      | none => trivial
      | some value =>
          cases value with
          | object changes => exact ih (keyed_member keyed named)
          | null | bool _ | number _ | negative _ | float _ | string _ | array _ =>
              cases path with
              | nil => rfl
              | cons _ _ => trivial

/-- The code leaves a value as it is where the patch has an object. -/
theorem look_clash {path : List String} {json : Json} {fields patch : List (Str × Json)}
    (keyed : Keyed (.object patch)) (there : look path (.object patch) = some .object)
    (here : look path (.object fields) = some (.value json)) :
    look path (.object (mergeFields fields patch)) = some (.value json) := by
  induction path generalizing fields patch with
  | nil => cases here
  | cons key path ih =>
      simp only [look] at there here ⊢
      rw [lookup_merged key fields patch (keyed_nodup keyed)]
      obtain ⟨value, named, there⟩ := Option.bind_eq_some_iff.mp there
      obtain ⟨present, current, here⟩ := Option.bind_eq_some_iff.mp here
      rw [named, current]
      cases value with
      | null | bool _ | number _ | negative _ | float _ | string _ | array _ =>
          cases path with
          | nil => cases there
          | cons _ _ => cases there
      | object changes =>
          cases present with
          | null | bool _ | number _ | negative _ | float _ | string _ | array _ => exact here
          | object members => exact ih (keyed_member keyed named) there here

theorem look_merged_again (path : List String) {fields patch : List (Str × Json)}
    (keyed : Keyed (.object patch)) :
    look path (.object (mergeFields (mergeFields fields patch) patch)) =
      look path (.object (mergeFields fields patch)) := by
  induction path generalizing fields patch with
  | nil => rfl
  | cons key path ih =>
      simp only [look]
      rw [lookup_merged key _ patch (keyed_nodup keyed),
        lookup_merged key fields patch (keyed_nodup keyed)]
      cases named : lookup key patch with
      | none => rfl
      | some value =>
          cases value with
          | null | bool _ | number _ | negative _ | float _ | string _ | array _ => rfl
          | object changes =>
              have inner := keyed_member keyed named
              cases lookup key fields with
              | none => exact ih inner
              | some present =>
                  cases present with
                  | object members => exact ih inner
                  | null | bool _ | number _ | negative _ | float _ | string _ | array _ => rfl

theorem clashFree_iff_same (base patch : JsonObject) :
    ClashFree base.toJson patch.toJson ↔
      Same (mergeJsonPatch base.toJson patch.toJson)
        (rfcMerge (some base.toJson) patch.toJson) := by
  constructor
  · intro free path
    exact look_merged_eq_rfc path patch.keyed free
  · intro same path json there here
    have kept := look_clash patch.keyed there here
    have replaced := @effective_rfc path base.fields _ patch.keyed
    rw [show look path (.object patch.fields) = some .object from there] at replaced
    have shown := same path
    simp_all [mergeJsonPatch, rfcMerge, JsonObject.toJson, membersOf]

/-- The code merges as RFC 7386 does, merging once more changes nothing and every value of
the patch takes effect, exactly if no object of the patch meets a value that is none. -/
theorem mergeJsonPatch_iff_clashFree (base patch : JsonObject) :
    (Same (mergeJsonPatch base.toJson patch.toJson) (rfcMerge (some base.toJson) patch.toJson) ∧
      Same (mergeJsonPatch (mergeJsonPatch base.toJson patch.toJson) patch.toJson)
        (mergeJsonPatch base.toJson patch.toJson) ∧
      Effective patch.toJson (mergeJsonPatch base.toJson patch.toJson)) ↔
      ClashFree base.toJson patch.toJson := by
  constructor
  · rintro ⟨same, _, _⟩
    exact (clashFree_iff_same base patch).mpr same
  · intro free
    have same := (clashFree_iff_same base patch).mp free
    refine ⟨same, fun path => look_merged_again path patch.keyed, ?_⟩
    intro path
    rw [same path]
    exact effective_rfc path patch.keyed

/-- A configuration with a `ttl`, as `patch_config` writes it. -/
def ttlObject : JsonObject where
  fields := [("ttl".toList, .number 30)]
  keyed := .object _ (by simp) (by simp [Keyed.number])

/-- An update with an object for the `ttl`. -/
def ttlPatch : JsonObject where
  fields := [("ttl".toList, .object [("seconds".toList, .number 60)])]
  keyed := by
    refine .object _ (by simp) ?_
    intro field mem
    rw [List.mem_singleton.mp mem]
    exact .object _ (by simp) (by simp [Keyed.number])

/-- The update is accepted and changes nothing. -/
theorem object_over_ttl_lost :
    ({ GlobalConfig.default with ttl := some 30 }).toJson = ttlObject.toJson ∧
      patchConfig { GlobalConfig.default with ttl := some 30 } ttlPatch.toJson =
        some { GlobalConfig.default with ttl := some 30 } ∧
      mergeJsonPatch ttlObject.toJson ttlPatch.toJson = ttlObject.toJson ∧
      ¬Same (mergeJsonPatch ttlObject.toJson ttlPatch.toJson)
        (rfcMerge (some ttlObject.toJson) ttlPatch.toJson) ∧
      ¬Effective ttlPatch.toJson (mergeJsonPatch ttlObject.toJson ttlPatch.toJson) := by
  have kept : mergeJsonPatch ttlObject.toJson ttlPatch.toJson = ttlObject.toJson := rfl
  refine ⟨rfl, rfl, kept, ?_, ?_⟩
  · intro same
    have shown := same ["ttl"]
    rw [kept] at shown
    cases shown
  · intro effective
    have shown := effective ["ttl"]
    rw [kept] at shown
    cases shown

end PgHa.MergePatch
