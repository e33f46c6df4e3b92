import Mathlib.Data.List.Nodup

/-! Records of named fields: how a record is written as an object and read back from one. -/

namespace Library.Schemas

/-- How single values are written, and read back under a shape. Every value that a shape
holds of is read back under it.
-/
structure Codec (Shape Value Json : Type) where
  Holds : Shape → Value → Prop
  dump : Value → Json
  validate : Shape → Json → Option Value
  validate_dump : ∀ {shape value}, Holds shape value → validate shape (dump value) = some value

structure Field (Shape Value : Type) where
  name : String
  shape : Shape
  default : Option Value := none

variable {Shape Value Json : Type} (codec : Codec Shape Value Json)

def entry? (object : List (String × Json)) (name : String) : Option Json :=
  (object.find? (fun entry => entry.1 = name)).map Prod.snd

def readField (object : List (String × Json)) (field : Field Shape Value) : Option Value :=
  match entry? object field.name with
  | some written => codec.validate field.shape written
  | none => field.default

def readFields (object : List (String × Json)) : List (Field Shape Value) → Option (List Value)
  | [] => some []
  | field :: fields => do
      let value ← readField codec object field
      let values ← readFields object fields
      some (value :: values)

/-- Read a record from an object that has no entry besides its fields. -/
def validate (fields : List (Field Shape Value)) (object : List (String × Json))
    : Option (List Value) :=
  if object.all (fun entry => entry.1 ∈ fields.map Field.name) then
    readFields codec object fields
  else none

def dump : List (Field Shape Value) → List Value → List (String × Json)
  | field :: fields, value :: values => (field.name, codec.dump value) :: dump fields values
  | _, _ => []

def Accepts : List (Field Shape Value) → List Value → Prop :=
  List.Forall₂ (fun field value => codec.Holds field.shape value)

variable {codec}

theorem dump_names {fields : List (Field Shape Value)} {values : List Value}
    (accepted : Accepts codec fields values)
    : (dump codec fields values).map Prod.fst = fields.map Field.name := by
  induction accepted with
  | nil => rfl
  | cons _ _ ih => simp [dump, ih]

theorem entry?_of_mem {object : List (String × Json)} {name : String} {written : Json}
    (distinct : (object.map Prod.fst).Nodup) (member : (name, written) ∈ object)
    : entry? object name = some written := by
  induction object with
  | nil => cases member
  | cons first object ih =>
    obtain ⟨fresh, distinct⟩ := List.nodup_cons.mp distinct
    rcases List.mem_cons.mp member with same | later
    · simp [ entry?, ← same]
    · have other : first.1 ≠ name := by
        intro same
        exact fresh (same ▸ List.mem_map_of_mem later)
      simpa [ entry?, other] using ih distinct later

theorem readFields_cons {object : List (String × Json)} {field : Field Shape Value}
    {fields : List (Field Shape Value)} {values : List Value}
    (read : readFields codec object (field :: fields) = some values)
    : ∃ value later, values = value :: later ∧ readField codec object field = some value
      ∧ readFields codec object fields = some later := by
  obtain ⟨value, own, read⟩ := Option.bind_eq_some_iff.mp read
  obtain ⟨later, rest, same⟩ := Option.bind_eq_some_iff.mp read
  exact ⟨value, later, (Option.some.inj same).symm, own, rest⟩

theorem readFields_of_validate {fields : List (Field Shape Value)}
    {object : List (String × Json)} {values : List Value}
    (read : validate codec fields object = some values)
    : readFields codec object fields = some values := by
  unfold validate at read
  split at read
  · exact read
  · cases read

/-- Fields are read from any object that holds their dump, by induction on them. -/
theorem readFields_of_subset {object : List (String × Json)}
    (distinct : (object.map Prod.fst).Nodup) {fields : List (Field Shape Value)}
    {values : List Value} (accepted : Accepts codec fields values)
    (within : ∀ entry ∈ dump codec fields values, entry ∈ object)
    : readFields codec object fields = some values := by
  induction accepted with
  | nil => rfl
  | cons holds accepted ih =>
    have read := codec.validate_dump holds
    have own := entry?_of_mem distinct (within _ List.mem_cons_self)
    have later := ih (fun entry member => within entry (List.mem_cons_of_mem _ member))
    simp [readFields, readField, own, read, later]

/-- A record is read back from its dump. -/
theorem validate_dump {fields : List (Field Shape Value)} {values : List Value}
    (distinct : (fields.map Field.name).Nodup) (accepted : Accepts codec fields values)
    : validate codec fields (dump codec fields values) = some values := by
  have names := dump_names accepted
  have known : (dump codec fields values).all (fun entry => entry.1 ∈ fields.map Field.name)
      = true := by
    refine List.all_eq_true.mpr (fun entry member => decide_eq_true ?_)
    rw [← names]
    exact List.mem_map_of_mem member
  unfold validate
  rw [if_pos known]
  exact readFields_of_subset (names ▸ distinct) accepted (fun _ member => member)

/-- What is read meets its shape, if the defaults do and validation only yields such values. -/
theorem accepts_of_readFields {fields : List (Field Shape Value)}
    {object : List (String × Json)} {values : List Value}
    (read : readFields codec object fields = some values)
    (sound : ∀ {shape written value}, codec.validate shape written = some value
      → codec.Holds shape value)
    (defaults : ∀ field ∈ fields, ∀ value, field.default = some value
      → codec.Holds field.shape value)
    : Accepts codec fields values := by
  induction fields generalizing values with
  | nil =>
    cases read
    exact .nil
  | cons field fields ih =>
    obtain ⟨value, later, rfl, own, rest⟩ := readFields_cons read
    refine .cons ?_ (ih rest (fun field member => defaults field (List.mem_cons_of_mem _ member)))
    unfold readField at own
    split at own
    · exact sound own
    · exact defaults field List.mem_cons_self value own

theorem validate_refused {fields : List (Field Shape Value)} {object : List (String × Json)}
    {field : Field Shape Value} (member : field ∈ fields)
    (refused : readField codec object field = none)
    : validate codec fields object = none := by
  cases read : validate codec fields object with
  | none => rfl
  | some values =>
    exfalso
    have read := readFields_of_validate read
    clear * - member refused read
    induction fields generalizing values with
    | nil => cases member
    | cons first fields ih =>
      obtain ⟨value, later, rfl, own, rest⟩ := readFields_cons read
      rcases List.mem_cons.mp member with rfl | member
      · rw [refused] at own
        cases own
      · exact ih member later rest

end Library.Schemas
