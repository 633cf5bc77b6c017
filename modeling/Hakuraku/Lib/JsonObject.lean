import Hakuraku.Lib.Json
import Mathlib.Data.List.Induction

/-!
# Objects that are built field by field

A serializer puts the fields of a record into a map that is kept in the order of the keys
(`Value.ofFields`). The value of a key is the one that was put in (`get_ofFields`), and objects with
the same keys are equal only if all their fields are (`ofFields_inj`). A function on the floats of a
value (`Value.mapFloats`) can be applied to the fields one by one (`mapFloats_ofFields`).
-/

namespace Json

variable {F : Type} {key : String} {v : Value F} {fields fields' : List (String × Value F)}

/-- A field is put in: the keys stay in order, and the value of a key that is there is replaced. -/
def insertField (key : String) (v : Value F) : List (String × Value F) → List (String × Value F)
  | [] => [(key, v)]
  | field :: fields =>
    if key = field.1 then (key, v) :: fields
    else if key < field.1 then (key, v) :: field :: fields
    else field :: insertField key v fields

/-- The object of fields, put in one after the other. -/
def Value.ofFields (fields : List (String × Value F)) : Value F :=
  .object (fields.foldl (fun map field => insertField field.1 field.2 map) [])

theorem get_insertField (key' : String) :
    (Value.object (insertField key v fields)).get key' =
      if key = key' then some v else (Value.object fields).get key' := by
  induction fields with
  | nil => by_cases h : key = key' <;> simp [insertField, Value.get, h]
  | cons field fields ih =>
    rw [insertField]
    split
    · rename_i heq
      by_cases h : key = key' <;> simp [Value.get, ← heq, h]
    · rename_i hne
      split
      · by_cases h : key = key' <;> simp [Value.get, List.find?_cons, h]
      · by_cases hfield : field.1 = key'
        · have h : key ≠ key' := fun h => hne (h.trans hfield.symm)
          simp [Value.get, hfield, h]
        · simpa [Value.get, List.find?_cons, hfield] using ih

/-- The field that was put in last is found, and the others are as before. -/
theorem get_ofFields_concat (key' : String) :
    (Value.ofFields (fields ++ [(key, v)])).get key' =
      if key = key' then some v else (Value.ofFields fields).get key' := by
  rw [Value.ofFields, List.foldl_append]
  exact get_insertField key'

/-- Of fields with one key, the last is found. -/
theorem get_ofFields_eq_find? (fields : List (String × Value F)) (key : String) :
    (Value.ofFields fields).get key =
      (fields.reverse.find? fun field => field.1 = key).map (·.2) := by
  induction fields using List.reverseRecOn with
  | nil => rfl
  | append_singleton fields field ih =>
    rw [get_ofFields_concat, List.reverse_append, ih]
    by_cases h : field.1 = key <;> simp [h]

/-- Every field is found, if no key comes twice. -/
theorem get_ofFields (hnodup : (fields.map (·.1)).Nodup) (h : (key, v) ∈ fields) :
    (Value.ofFields fields).get key = some v := by
  induction fields using List.reverseRecOn with
  | nil => exact absurd h List.not_mem_nil
  | append_singleton fields field ih =>
    obtain ⟨key', v'⟩ := field
    rw [List.map_append, List.nodup_append] at hnodup
    obtain ⟨hnodup, -, hdisjoint⟩ := hnodup
    rw [get_ofFields_concat]
    rcases List.mem_append.mp h with h | h
    · have hne : key' ≠ key := fun heq =>
        hdisjoint key (List.mem_map_of_mem h) key' (by simp) heq.symm
      rw [if_neg hne]
      exact ih hnodup h
    · obtain ⟨rfl, rfl⟩ := Prod.mk.inj (List.mem_singleton.mp h)
      rw [if_pos rfl]

/-- Objects with the same keys are equal only if all their fields are. -/
theorem ofFields_inj (hkeys : fields.map (·.1) = fields'.map (·.1))
    (hnodup : (fields.map (·.1)).Nodup) :
    Value.ofFields fields = Value.ofFields fields' ↔ fields = fields' := by
  refine ⟨fun heq => ?_, congrArg _⟩
  have hlength : fields.length = fields'.length := by
    simpa using congrArg List.length hkeys
  refine List.ext_getElem hlength fun i hi hi' => ?_
  have hkey : fields[i].1 = fields'[i].1 := by
    have hkey? := congrArg (·[i]?) hkeys
    simpa [List.getElem?_eq_getElem hi, List.getElem?_eq_getElem hi'] using hkey?
  have hv : (Value.ofFields fields).get fields[i].1 = some fields[i].2 :=
    get_ofFields hnodup (List.getElem_mem hi)
  have hv' : (Value.ofFields fields').get fields'[i].1 = some fields'[i].2 :=
    get_ofFields (hkeys ▸ hnodup) (List.getElem_mem hi')
  rw [heq, hkey, hv'] at hv
  exact Prod.ext hkey (Option.some.inj hv).symm

/-! ## The floats of a value -/

mutual

/-- A function on the floats of a value. -/
def Value.mapFloats (f : F → F) : Value F → Value F
  | .null => .null
  | .bool b => .bool b
  | .number (.posInt n) => .number (.posInt n)
  | .number (.negInt n neg) => .number (.negInt n neg)
  | .number (.float x) => .number (.float (f x))
  | .string s => .string s
  | .array vs => .array (Value.mapFloatsAll f vs)
  | .object fields => .object (Value.mapFloatsFields f fields)

/-- A function on the floats of values. -/
def Value.mapFloatsAll (f : F → F) : List (Value F) → List (Value F)
  | [] => []
  | v :: vs => v.mapFloats f :: Value.mapFloatsAll f vs

/-- A function on the floats of fields. -/
def Value.mapFloatsFields (f : F → F) : List (String × Value F) → List (String × Value F)
  | [] => []
  | (key, v) :: fields => (key, v.mapFloats f) :: Value.mapFloatsFields f fields

end

variable (f : F → F)

theorem mapFloats_array (vs : List (Value F)) :
    (Value.array vs).mapFloats f = .array (vs.map (·.mapFloats f)) := by
  rw [Value.mapFloats]
  induction vs with
  | nil => rfl
  | cons v vs ih => simpa [Value.mapFloatsAll] using ih

theorem mapFloats_object (fields : List (String × Value F)) :
    (Value.object fields).mapFloats f =
      .object (fields.map fun field => (field.1, field.2.mapFloats f)) := by
  rw [Value.mapFloats]
  induction fields with
  | nil => rfl
  | cons field fields ih => simpa [Value.mapFloatsFields] using ih

theorem map_insertField (g : Value F → Value F) :
    (insertField key v fields).map (fun field => (field.1, g field.2)) =
      insertField key (g v) (fields.map fun field => (field.1, g field.2)) := by
  induction fields with
  | nil => rfl
  | cons field fields ih =>
    rw [insertField, List.map_cons, insertField]
    split
    · rfl
    · split
      · rfl
      · rw [List.map_cons, ih]

/-- The floats of an object are those of its fields. -/
theorem mapFloats_ofFields (fields : List (String × Value F)) :
    (Value.ofFields fields).mapFloats f =
      .ofFields (fields.map fun field => (field.1, field.2.mapFloats f)) := by
  rw [Value.ofFields, Value.ofFields, mapFloats_object]
  refine congrArg Value.object ?_
  induction fields using List.reverseRecOn with
  | nil => rfl
  | append_singleton fields field ih =>
    rw [List.foldl_append, List.map_append, List.foldl_append, ← ih]
    exact map_insertField (·.mapFloats f)

end Json
