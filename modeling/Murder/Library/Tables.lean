import Mathlib.Data.List.Pairwise

/-! Tables of rows under unique constraints.
A table carries the proof that no two of its rows clash, so an insert that would break a
constraint has no result and every other operation keeps the rows apart.
-/

namespace Library.Tables

variable {ρ : Type} {clash : ρ → ρ → Bool}

/-- Rows no two of which clash; `clash` is the disjunction of a table's unique keys. -/
structure Table (ρ : Type) (clash : ρ → ρ → Bool) where
  rows : List ρ
  unique : rows.Pairwise (fun earlier later => clash earlier later = false)

namespace Table

instance : Membership ρ (Table ρ clash) where
  mem table row := row ∈ table.rows

theorem mem_def {table : Table ρ clash} {row : ρ} : row ∈ table ↔ row ∈ table.rows :=
  Iff.rfl

def empty : Table ρ clash := ⟨[], List.Pairwise.nil⟩

/-- The first row that satisfies `where_`. -/
def find? (table : Table ρ clash) (where_ : ρ → Bool) : Option ρ :=
  table.rows.find? where_

/-- The rows that satisfy `where_`, in table order. -/
def select (table : Table ρ clash) (where_ : ρ → Bool) : List ρ :=
  table.rows.filter where_

/-- Append `row`, or fail when it clashes with a stored row. -/
def insert? (table : Table ρ clash) (row : ρ) : Option (Table ρ clash) :=
  if h : ∀ stored ∈ table.rows, clash stored row = false then
    some {
      rows := table.rows ++ [row]
      unique := List.pairwise_append.mpr
        ⟨table.unique, List.pairwise_singleton _ _, by simpa using h⟩
    }
  else
    none

/-- Append the rows in order, or fail at the first one that clashes. -/
def insertAll? (table : Table ρ clash) : List ρ → Option (Table ρ clash)
  | [] => some table
  | row :: rest => (table.insert? row).bind (fun next => next.insertAll? rest)

/-- An update that leaves every unique key of a row alone. -/
structure KeepsKeys (clash : ρ → ρ → Bool) (update : ρ → ρ) : Prop where
  left : ∀ row other, clash (update row) other = clash row other
  right : ∀ row other, clash other (update row) = clash other row

/-- Replace each row that satisfies `where_` by its update. -/
def update (table : Table ρ clash) (where_ : ρ → Bool) (change : ρ → ρ)
    (keeps : KeepsKeys clash change := by exact ⟨fun _ _ => rfl, fun _ _ => rfl⟩)
    : Table ρ clash where
  rows := table.rows.map (fun row => if where_ row then change row else row)
  unique := by
    refine List.pairwise_map.mpr (table.unique.imp ?_)
    intro earlier later apart
    by_cases he : where_ earlier <;> by_cases hl : where_ later <;>
      simp [he, hl, keeps.left, keeps.right, apart]

/-- Replace each row that satisfies `where_`, or fail when the result breaks a constraint. -/
def replace? (table : Table ρ clash) (where_ : ρ → Bool) (change : ρ → ρ)
    : Option (Table ρ clash) :=
  if h : (table.rows.map (fun row => if where_ row then change row else row)).Pairwise
      (fun earlier later => clash earlier later = false) then
    some { rows := table.rows.map (fun row => if where_ row then change row else row), unique := h }
  else
    none

/-- Remove the rows that satisfy `where_`. -/
def delete (table : Table ρ clash) (where_ : ρ → Bool) : Table ρ clash where
  rows := table.rows.filter (fun row => !where_ row)
  unique := table.unique.filter _

/-- The number of rows that satisfy `where_`. -/
def count (table : Table ρ clash) (where_ : ρ → Bool) : Nat :=
  (table.select where_).length

@[simp] theorem not_mem_empty {row : ρ} : row ∉ (empty : Table ρ clash) :=
  List.not_mem_nil

theorem mem_of_find? {table : Table ρ clash} {where_ : ρ → Bool} {row : ρ}
    (h : table.find? where_ = some row)
    : row ∈ table ∧ where_ row = true :=
  ⟨List.mem_of_find?_eq_some h, List.find?_some h⟩

theorem find?_eq_none {table : Table ρ clash} {where_ : ρ → Bool}
    : table.find? where_ = none ↔ ∀ row ∈ table, where_ row = false := by
  simp [find?, mem_def]

@[simp] theorem mem_select {table : Table ρ clash} {where_ : ρ → Bool} {row : ρ}
    : row ∈ table.select where_ ↔ row ∈ table ∧ where_ row = true :=
  List.mem_filter

@[simp] theorem mem_update {table : Table ρ clash} {where_ : ρ → Bool} {change : ρ → ρ}
    {keeps : KeepsKeys clash change} {row : ρ}
    : row ∈ table.update where_ change keeps
      ↔ ∃ old ∈ table, (if where_ old then change old else old) = row :=
  List.mem_map

@[simp] theorem mem_delete {table : Table ρ clash} {where_ : ρ → Bool} {row : ρ}
    : row ∈ table.delete where_ ↔ row ∈ table ∧ where_ row = false := by
  simp [delete, mem_def]

/-- A successful insert adds exactly the new row, which clashed with no stored row. -/
theorem insert?_eq_some {table next : Table ρ clash} {row : ρ}
    (h : table.insert? row = some next)
    : (∀ stored ∈ table, clash stored row = false) ∧ next.rows = table.rows ++ [row] := by
  unfold insert? at h
  split at h
  · cases h
    exact ⟨‹_›, rfl⟩
  · cases h

theorem insert?_of_apart {table : Table ρ clash} {row : ρ}
    (apart : ∀ stored ∈ table, clash stored row = false)
    : ∃ next, table.insert? row = some next ∧ next.rows = table.rows ++ [row] := by
  have stays : ∀ stored ∈ table.rows, clash stored row = false := apart
  exact ⟨_, dif_pos stays, rfl⟩

theorem mem_of_insert? {table next : Table ρ clash} {row other : ρ}
    (h : table.insert? row = some next)
    : other ∈ next ↔ other ∈ table ∨ other = row := by
  rw [mem_def, (insert?_eq_some h).2]
  simp [mem_def]

/-- A successful bulk insert adds exactly the listed rows, by induction over the list. -/
theorem insertAll?_rows {table next : Table ρ clash} {rows : List ρ}
    (h : table.insertAll? rows = some next)
    : next.rows = table.rows ++ rows := by
  induction rows generalizing table with
  | nil =>
    cases h
    simp
  | cons row rest ih =>
    obtain ⟨middle, hm, hr⟩ := Option.bind_eq_some_iff.mp h
    rw [ih hr, (insert?_eq_some hm).2]
    simp

theorem mem_of_insertAll? {table next : Table ρ clash} {rows : List ρ} {other : ρ}
    (h : table.insertAll? rows = some next)
    : other ∈ next ↔ other ∈ table ∨ other ∈ rows := by
  rw [mem_def, insertAll?_rows h, List.mem_append]
  rfl

/-- Rows that clash both ways are the same row: the unique constraints identify it. -/
theorem eq_of_clash {table : Table ρ clash} {row other : ρ}
    (hr : row ∈ table) (ho : other ∈ table)
    (forward : clash row other = true) (backward : clash other row = true)
    : row = other := by
  obtain ⟨i, hi, rfl⟩ := List.getElem_of_mem hr
  obtain ⟨j, hj, rfl⟩ := List.getElem_of_mem ho
  have apart := List.pairwise_iff_getElem.mp table.unique
  rcases Nat.lt_trichotomy i j with less | same | more
  · exact absurd (apart i j hi hj less) (by simp [forward])
  · simp [same]
  · exact absurd (apart j i hj hi more) (by simp [backward])

theorem find?_eq_some {table : Table ρ clash} {where_ : ρ → Bool} {row : ρ}
    (member : row ∈ table) (holds : where_ row = true)
    (only : ∀ other ∈ table, where_ other = true → other = row)
    : table.find? where_ = some row := by
  cases h : table.find? where_ with
  | none => rw [find?_eq_none.mp h row member] at holds; cases holds
  | some other =>
    obtain ⟨stored, same⟩ := mem_of_find? h
    rw [only other stored same]

theorem mem_update_row {table : Table ρ clash} {where_ : ρ → Bool} {change : ρ → ρ}
    (keeps : KeepsKeys clash change) {row : ρ} (member : row ∈ table)
    : (if where_ row then change row else row) ∈ table.update where_ change keeps :=
  mem_update.mpr ⟨row, member, rfl⟩

theorem mem_update_of {table : Table ρ clash} {where_ : ρ → Bool} {change : ρ → ρ}
    (keeps : KeepsKeys clash change) {row : ρ} (member : row ∈ table)
    (touched : where_ row = true)
    : change row ∈ table.update where_ change keeps :=
  mem_update.mpr ⟨row, member, by simp [touched]⟩

theorem mem_update_other {table : Table ρ clash} {where_ : ρ → Bool} {change : ρ → ρ}
    (keeps : KeepsKeys clash change) {row : ρ} (member : row ∈ table)
    (untouched : ¬ where_ row = true)
    : row ∈ table.update where_ change keeps :=
  mem_update.mpr ⟨row, member, if_neg untouched⟩

theorem select_map_update {α : Type} {table : Table ρ clash} {where_ : ρ → Bool}
    {change : ρ → ρ} (keeps : KeepsKeys clash change) {picked : ρ → Bool} {read : ρ → α}
    (same : ∀ row, picked (change row) = picked row) (reads : ∀ row, read (change row) = read row)
    : ((table.update where_ change keeps).select picked).map read
      = (table.select picked).map read := by
  change ((table.rows.map (fun row => if where_ row then change row else row)).filter
    picked).map read = (table.rows.filter picked).map read
  induction table.rows with
  | nil => rfl
  | cons row rest ih =>
    have head : picked (if where_ row then change row else row) = picked row := by
      split
      · exact same row
      · rfl
    have value : read (if where_ row then change row else row) = read row := by
      split
      · exact reads row
      · rfl
    cases hp : picked row with
    | true => simp only [List.map_cons, List.filter_cons, head, hp, if_true, value, ih]
    | false => simpa [List.filter_cons, head, hp] using ih

/-- At most one row satisfies a condition under which any two rows clash. -/
theorem select_length_le_one (table : Table ρ clash) {where_ : ρ → Bool}
    (clashes : ∀ row other, where_ row → where_ other → clash row other = true)
    : (table.select where_).length ≤ 1 := by
  have unique : (table.rows.filter where_).Pairwise _ := table.unique.filter where_
  have holds : ∀ row ∈ table.rows.filter where_, where_ row = true :=
    fun row member => (List.mem_filter.mp member).2
  unfold select
  cases h : table.rows.filter where_ with
  | nil => exact Nat.zero_le _
  | cons row rest =>
    cases rest with
    | nil => exact Nat.le_refl _
    | cons other rest =>
      rw [h] at unique holds
      have apart := (List.pairwise_cons.mp unique).1 other List.mem_cons_self
      rw [clashes row other (holds row (by simp)) (holds other (by simp))] at apart
      cases apart

/-- A lookup passes over an inserted row it does not look for. -/
theorem find?_insert?_apart {table next : Table ρ clash} {row : ρ} {where_ : ρ → Bool}
    (inserted : table.insert? row = some next) (apart : where_ row = false)
    : next.find? where_ = table.find? where_ := by
  unfold find?
  rw [(insert?_eq_some inserted).2, List.find?_append]
  simp [apart]

/-- A lookup passes over updated rows it looks for neither before nor after. -/
theorem find?_update_apart {table : Table ρ clash} {where_ : ρ → Bool} {change : ρ → ρ}
    (keeps : KeepsKeys clash change) {picked : ρ → Bool}
    (before : ∀ row, where_ row = true → picked row = false)
    (after : ∀ row, where_ row = true → picked (change row) = false)
    : (table.update where_ change keeps).find? picked = table.find? picked := by
  change (table.rows.map (fun row => if where_ row then change row else row)).find? picked
    = table.rows.find? picked
  induction table.rows with
  | nil => rfl
  | cons row rest ih =>
    cases touched : where_ row with
    | true => simp [touched, before row touched, after row touched, ih]
    | false => simp [touched, ih, List.find?_cons]

/-- A selection passes over updated rows it picks neither before nor after. -/
theorem select_update_apart {table : Table ρ clash} {where_ : ρ → Bool} {change : ρ → ρ}
    (keeps : KeepsKeys clash change) {picked : ρ → Bool}
    (before : ∀ row ∈ table, where_ row = true → picked row = false)
    (after : ∀ row ∈ table, where_ row = true → picked (change row) = false)
    : (table.update where_ change keeps).select picked = table.select picked := by
  change (table.rows.map (fun row => if where_ row then change row else row)).filter picked
    = table.rows.filter picked
  change ∀ row ∈ table.rows, where_ row = true → picked row = false at before
  change ∀ row ∈ table.rows, where_ row = true → picked (change row) = false at after
  generalize table.rows = rows at before after
  induction rows with
  | nil => rfl
  | cons row rest ih =>
    have tail := ih (fun row member => before row (List.mem_cons_of_mem _ member))
      (fun row member => after row (List.mem_cons_of_mem _ member))
    rw [List.map_cons, List.filter_cons, List.filter_cons, tail]
    cases touched : where_ row with
    | true => simp [before row List.mem_cons_self touched, after row List.mem_cons_self touched]
    | false => simp

end Table

end Library.Tables
