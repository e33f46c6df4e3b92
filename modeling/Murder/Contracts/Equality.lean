import Murder.Contracts.Common

/-! Decoded JSON whose objects have no key twice, as every dict: such a value equals itself. -/

namespace Murder.Contracts

mutual
def JsonValue.Keyed : JsonValue → Prop
  | .arr items => items.Keyed
  | .obj fields => fields.keys.Nodup ∧ fields.Keyed
  | _ => True

def JsonItems.Keyed : JsonItems → Prop
  | .nil => True
  | .cons item rest => item.Keyed ∧ rest.Keyed

def JsonFields.Keyed : JsonFields → Prop
  | .nil => True
  | .cons _ value rest => value.Keyed ∧ rest.Keyed
end

theorem JsonFields.mem_keys_of_mem {fields : JsonFields} {entry : String × JsonValue}
    (member : entry ∈ fields.toList)
    : entry.1 ∈ fields.keys := by
  match fields with
  | .nil => cases member
  | .cons key value rest =>
    rcases List.mem_cons.mp member with rfl | held
    · exact List.mem_cons_self
    · exact List.mem_cons_of_mem _ (JsonFields.mem_keys_of_mem held)

theorem JsonFields.get?_of_mem {fields : JsonFields} (nodup : fields.keys.Nodup)
    {entry : String × JsonValue} (member : entry ∈ fields.toList)
    : fields.get? entry.1 = some entry.2 := by
  match fields with
  | .nil => cases member
  | .cons key value rest =>
    obtain ⟨apart, nodup⟩ := List.nodup_cons.mp nodup
    unfold JsonFields.get?
    rcases List.mem_cons.mp member with rfl | held
    · exact if_pos rfl
    · have found := JsonFields.get?_of_mem nodup held
      have other : key ≠ entry.1 := by
        intro same
        rw [same] at apart
        exact apart (JsonFields.mem_keys_of_mem held)
      rw [if_neg other]
      exact found

mutual
/-- A keyed value equals itself; by recursion over the value. -/
theorem JsonValue.pyEq_self : (value : JsonValue) → value.Keyed → value.pyEq value = true
  | .null, _ => rfl
  | .bool value, _ => by simp [JsonValue.pyEq, JsonValue.number?]
  | .int value, _ => by simp [JsonValue.pyEq, JsonValue.number?]
  | .float value, _ => by simp [JsonValue.pyEq, JsonValue.number?]
  | .str value, _ => by simp [JsonValue.pyEq]
  | .arr items, keyed => by
      unfold JsonValue.pyEq
      exact JsonItems.pyEq_self items keyed
  | .obj fields, keyed => by
      unfold JsonValue.pyEq
      rw [beq_self_eq_true, Bool.true_and]
      exact JsonFields.within_of_found fields fields keyed.2
        (fun entry held => JsonFields.get?_of_mem keyed.1 held)

theorem JsonItems.pyEq_self : (items : JsonItems) → items.Keyed → items.pyEq items = true
  | .nil, _ => rfl
  | .cons item rest, keyed => by
      unfold JsonItems.pyEq
      rw [JsonValue.pyEq_self item keyed.1, JsonItems.pyEq_self rest keyed.2]
      rfl

theorem JsonFields.within_of_found : (fields right : JsonFields) → fields.Keyed
    → (∀ entry ∈ fields.toList, right.get? entry.1 = some entry.2)
    → fields.within right = true
  | .nil, _, _, _ => by simp [JsonFields.within]
  | .cons key value rest, right, keyed, found => by
      have first := found (key, value) List.mem_cons_self
      have later := JsonFields.within_of_found rest right keyed.2
        (fun entry held => found entry (List.mem_cons_of_mem _ held))
      unfold JsonFields.within
      rw [first, later, Bool.and_true]
      exact JsonValue.pyEq_self value keyed.1
end

theorem JsonItems.keyed_of_mem {items : JsonItems} (keyed : items.Keyed) {item : JsonValue}
    (member : item ∈ items.toList)
    : item.Keyed := by
  match items with
  | .nil => cases member
  | .cons first rest =>
    rcases List.mem_cons.mp member with rfl | held
    · exact keyed.1
    · exact JsonItems.keyed_of_mem keyed.2 held

theorem JsonFields.keyed_of_get? {fields : JsonFields} (keyed : fields.Keyed) {key : String}
    {value : JsonValue} (found : fields.get? key = some value)
    : value.Keyed := by
  match fields with
  | .nil => cases found
  | .cons first entry rest =>
    unfold JsonFields.get? at found
    split at found
    · cases found
      exact keyed.1
    · exact JsonFields.keyed_of_get? keyed.2 found

end Murder.Contracts
