import Mathlib.Data.List.AList

/-! Dictionaries with one kind of value: rebuilding one from another's values or from a list
of items, and the lists a dictionary holds laid end to end.
-/

namespace Library.Records

abbrev Record (κ ν : Type) := AList (fun _ : κ => ν)

variable {κ ν μ ι : Type} [DecidableEq κ]

/-- Insert what `keep` leaves of each entry, in turn. -/
def rebuildFrom (keep : ν → Option μ)
    : List (Sigma (fun _ : κ => ν)) → Record κ μ → Record κ μ
  | [], next => next
  | entry :: entries, next =>
    match keep entry.2 with
    | some value => rebuildFrom keep entries (next.insert entry.1 value)
    | none => rebuildFrom keep entries next

/-- The dictionary of what `keep` leaves of each value. -/
def rebuild (keep : ν → Option μ) (record : Record κ ν) : Record κ μ :=
  rebuildFrom keep record.entries ∅

theorem lookup_rebuildFrom (keep : ν → Option μ) {entries : List (Sigma (fun _ : κ => ν))}
    (nodup : entries.NodupKeys) {next : Record κ μ} {key : κ}
    (fresh : key ∈ entries.keys → key ∉ next)
    : (rebuildFrom keep entries next).lookup key
      = ((entries.dlookup key).bind keep).or (next.lookup key) := by
  induction entries generalizing next with
  | nil => simp [rebuildFrom]
  | cons entry entries ih =>
    obtain ⟨apart, nodup⟩ := List.nodupKeys_cons.mp nodup
    rcases eq_or_ne entry.1 key with same | other
    · -- the key's own entry: no later entry touches it
      subst same
      have own : (entry :: entries).dlookup entry.1 = some entry.2 :=
        List.dlookup_cons_eq entries entry.1 entry.2
      have absent : entries.dlookup entry.1 = none := List.dlookup_eq_none.mpr apart
      have unset : next.lookup entry.1 = none := by
        apply AList.lookup_eq_none.mpr
        exact fresh (by simp)
      have later (next : Record κ μ)
          : (rebuildFrom keep entries next).lookup entry.1 = next.lookup entry.1 := by
        rw [ih nodup (fun member => absurd member apart), absent]
        simp
      cases kept : keep entry.2 with
      | some value => simp [rebuildFrom, kept, later, own]
      | none => simp [rebuildFrom, kept, later, own, unset]
    · have skipped : (entry :: entries).dlookup key = entries.dlookup key :=
        List.dlookup_cons_ne _ _ other.symm
      have fresh' : key ∈ entries.keys → key ∉ next := by
        intro member
        exact fresh (by simp [member])
      rw [skipped]
      cases kept : keep entry.2 with
      | some value =>
        simp only [rebuildFrom, kept]
        rw [ih nodup (by simpa [other.symm] using fresh'), AList.lookup_insert_ne other.symm]
      | none =>
        simp only [rebuildFrom, kept]
        exact ih nodup fresh'

@[simp] theorem lookup_rebuild (keep : ν → Option μ) (record : Record κ ν) (key : κ)
    : (rebuild keep record).lookup key = (record.lookup key).bind keep := by
  rw [rebuild, lookup_rebuildFrom keep record.nodupKeys (by simp)]
  simp [AList.lookup]

/-- The dictionary a loop over items fills, a later item in place of an earlier one with its
key.
-/
def index (key : ι → κ) (value : ι → ν) (items : List ι) : Record κ ν :=
  items.foldl (fun record item => record.insert (key item) (value item)) ∅

/-- Where each key occurs once, a key's value is that of its item. -/
theorem lookup_index {key : ι → κ} {value : ι → ν} {items : List ι}
    (nodup : (items.map key).Nodup) {name : κ} {found : ν}
    : (index key value items).lookup name = some found
      ↔ ∃ item ∈ items, key item = name ∧ value item = found := by
  have grown (items : List ι) (nodup : (items.map key).Nodup) (record : Record κ ν)
      : (items.foldl (fun record item => record.insert (key item) (value item)) record).lookup
          name = some found
        ↔ (∃ item ∈ items, key item = name ∧ value item = found)
          ∨ (name ∉ items.map key ∧ record.lookup name = some found) := by
    induction items generalizing record with
    | nil => simp
    | cons item items ih =>
      obtain ⟨apart, nodup⟩ := List.nodup_cons.mp nodup
      rw [List.foldl_cons, ih nodup]
      rcases eq_or_ne (key item) name with same | other
      · subst same
        have unset : ¬ ∃ other ∈ items, key other = key item ∧ value other = found := by
          simp only [not_exists, not_and]
          intro other member same
          exact absurd (List.mem_map.mpr ⟨other, member, same⟩) apart
        simp [unset, apart]
      · simp [AList.lookup_insert_ne other.symm, other, other.symm]
  rw [index, grown items nodup]
  simp

def listAt (record : Record κ (List ν)) (key : κ) : List ν :=
  (record.lookup key).getD []

def everything (record : Record κ (List ν)) : List ν :=
  record.entries.flatMap Sigma.snd

@[simp] theorem listAt_empty (key : κ) : listAt (∅ : Record κ (List ν)) key = [] := by
  simp [listAt]

theorem listAt_insert (record : Record κ (List ν)) (key name : κ) (values : List ν)
    : listAt (record.insert key values) name = if name = key then values
      else listAt record name := by
  rcases eq_or_ne name key with same | other
  · subst same
    simp [listAt]
  · simp [listAt, other, AList.lookup_insert_ne other]

theorem mem_everything {record : Record κ (List ν)} {value : ν}
    : value ∈ everything record ↔ ∃ key, value ∈ listAt record key := by
  rw [everything, List.mem_flatMap]
  constructor
  · intro found
    obtain ⟨⟨key, values⟩, member, inside⟩ := found
    refine ⟨key, ?_⟩
    rw [listAt, AList.mem_lookup_iff.mpr member]
    exact inside
  · intro found
    obtain ⟨key, inside⟩ := found
    cases entry : record.lookup key with
    | none => simp [listAt, entry] at inside
    | some values =>
      refine ⟨⟨key, values⟩, AList.mem_lookup_iff.mp entry, ?_⟩
      simpa [listAt, entry] using inside

/-- No two values share a label when no list repeats one and no two lists share one. -/
theorem nodup_everything {record : Record κ (List ν)} {label : ν → ι}
    (lists : ∀ key, ((listAt record key).map label).Nodup)
    (apart : ∀ first second, ∀ left ∈ listAt record first, ∀ right ∈ listAt record second,
      label left = label right → first = second)
    : ((everything record).map label).Nodup := by
  have held {entry : Sigma (fun _ : κ => List ν)} (member : entry ∈ record.entries)
      : listAt record entry.1 = entry.2 := by
    rw [listAt, AList.mem_lookup_iff.mpr member]
    rfl
  rw [everything, List.map_flatMap, List.nodup_flatMap]
  constructor
  · intro entry member
    rw [← held member]
    exact lists entry.1
  · have distinct : record.entries.Pairwise (fun left right => left.1 ≠ right.1) :=
      List.pairwise_map.mp record.nodupKeys
    apply List.Pairwise.imp_of_mem ?_ distinct
    intro left right leftMember rightMember different name inLeft inRight
    obtain ⟨first, firstMember, rfl⟩ := List.mem_map.mp inLeft
    obtain ⟨second, secondMember, same⟩ := List.mem_map.mp inRight
    rw [← held leftMember] at firstMember
    rw [← held rightMember] at secondMember
    exact different (apart left.1 right.1 first firstMember second secondMember same.symm)

end Library.Records
