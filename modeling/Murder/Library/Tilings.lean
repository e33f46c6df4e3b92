import Mathlib.Data.List.Basic

/-! Rows tiled by cells of one place and by pairs of a lead and its continuation. -/

namespace Library.Tilings

variable {α : Type} {width : α → Nat}

/-- Every cell of width two is followed by its continuation of width zero. -/
inductive Tiled (width : α → Nat) : List α → Prop
  | nil : Tiled width []
  | narrow {cell row} (one : width cell = 1) (rest : Tiled width row)
    : Tiled width (cell :: row)
  | wide {lead continuation row} (two : width lead = 2) (zero : width continuation = 0)
    (rest : Tiled width row)
    : Tiled width (lead :: continuation :: row)

theorem Tiled.append {left right : List α} (hl : Tiled width left) (hr : Tiled width right)
    : Tiled width (left ++ right) := by
  induction hl with
  | nil => exact hr
  | narrow one _ ih => exact .narrow one ih
  | wide two zero _ ih => exact .wide two zero ih

theorem tiled_replicate {cell : α} (one : width cell = 1) (count : Nat)
    : Tiled width (List.replicate count cell) := by
  induction count with
  | zero => exact .nil
  | succ count ih => exact .narrow one ih

theorem Tiled.of_map_eq {row other : List α} (h : Tiled width row)
    (same : other.map width = row.map width)
    : Tiled width other := by
  induction h generalizing other with
  | nil =>
    rw [List.map_eq_nil_iff.mp same]
    exact .nil
  | narrow one _ ih =>
    obtain ⟨cell, rest, rfl, first, later⟩ := List.map_eq_cons_iff.mp same
    exact .narrow (first.trans one) (ih later)
  | wide two zero _ ih =>
    obtain ⟨lead, rest, rfl, first, later⟩ := List.map_eq_cons_iff.mp same
    obtain ⟨next, rest, rfl, second, last⟩ := List.map_eq_cons_iff.mp later
    exact .wide (first.trans two) (second.trans zero) (ih last)

theorem Tiled.width_le {row : List α} (h : Tiled width row) {cell : α} (member : cell ∈ row)
    : width cell ≤ 2 := by
  induction h with
  | nil => cases member
  | narrow one _ ih =>
    rcases List.mem_cons.mp member with rfl | later
    · omega
    · exact ih later
  | wide two zero _ ih =>
    rcases List.mem_cons.mp member with rfl | later
    · omega
    · rcases List.mem_cons.mp later with rfl | later
      · omega
      · exact ih later

/-- A lead is followed by a continuation. -/
theorem Tiled.next {row : List α} (h : Tiled width row) {place : Nat} {cell : α}
    (held : row[place]? = some cell) (two : width cell = 2)
    : ∃ next, row[place + 1]? = some next ∧ width next = 0 := by
  induction h generalizing place with
  | nil => simp at held
  | narrow one _ ih =>
    cases place with
    | zero =>
      cases held
      omega
    | succ place => exact ih held
  | @wide lead continuation row two' zero _ ih =>
    cases place with
    | zero => exact ⟨continuation, rfl, zero⟩
    | succ place =>
      cases place with
      | zero =>
        cases held
        omega
      | succ place => exact ih held

/-- A continuation follows a lead. -/
theorem Tiled.previous {row : List α} (h : Tiled width row) {place : Nat} {cell : α}
    (held : row[place]? = some cell) (zero : width cell = 0)
    : ∃ before lead, place = before + 1 ∧ row[before]? = some lead ∧ width lead = 2 := by
  induction h generalizing place with
  | nil => simp at held
  | narrow one _ ih =>
    cases place with
    | zero =>
      cases held
      omega
    | succ place =>
      obtain ⟨before, lead, same, found, two⟩ := ih held
      exact ⟨before + 1, lead, by omega, found, two⟩
  | @wide lead continuation row two' _ _ ih =>
    cases place with
    | zero =>
      cases held
      omega
    | succ place =>
      cases place with
      | zero => exact ⟨0, lead, rfl, rfl, two'⟩
      | succ place =>
        obtain ⟨before, other, same, found, two⟩ := ih held
        exact ⟨before + 2, other, by omega, found, two⟩

/-- A row around one of its places, with both sides tiled and any cell in it. -/
structure Opened (width : α → Nat) (place : Nat) (row : List α) : Prop where
  parts
    : ∃ left cell right,
        row = left ++ cell :: right ∧ left.length = place
        ∧ Tiled width left ∧ Tiled width right

/-- A place of a tiled row holds a narrow cell, a lead, or the continuation behind a lead. -/
inductive Placed (width : α → Nat) (place : Nat) : List α → Prop
  | narrow {left cell right} (length : left.length = place) (one : width cell = 1)
    (before : Tiled width left) (behind : Tiled width right)
    : Placed width place (left ++ cell :: right)
  | lead {left cell continuation right} (length : left.length = place)
    (two : width cell = 2) (zero : width continuation = 0) (before : Tiled width left)
    (behind : Tiled width right)
    : Placed width place (left ++ cell :: continuation :: right)
  | continuation {left lead cell right} (length : left.length + 1 = place)
    (two : width lead = 2) (zero : width cell = 0) (before : Tiled width left)
    (behind : Tiled width right)
    : Placed width place (left ++ lead :: cell :: right)

/-- A tile in front of a row moves its places. -/
theorem Placed.prepend {front row : List α} {place : Nat} (tiled : Tiled width front)
    (h : Placed width place row)
    : Placed width (front.length + place) (front ++ row) := by
  cases h with
  | narrow length one before behind =>
    rw [← List.append_assoc]
    exact .narrow (by simp [length]) one (tiled.append before) behind
  | lead length two zero before behind =>
    rw [← List.append_assoc]
    exact .lead (by simp [length]) two zero (tiled.append before) behind
  | continuation length two zero before behind =>
    rw [← List.append_assoc]
    exact .continuation (by simp; omega) two zero (tiled.append before) behind

theorem Tiled.placed {row : List α} (h : Tiled width row) {place : Nat}
    (less : place < row.length)
    : Placed width place row := by
  induction h generalizing place with
  | nil => simp at less
  | @narrow cell row one rest ih =>
    cases place with
    | zero => exact @Placed.narrow _ _ _ [] cell row rfl one .nil rest
    | succ place =>
      have moved := (@ih place (by simpa using less)).prepend
        (Tiled.narrow one .nil : Tiled width [cell])
      rw [show [cell].length + place = place + 1 by simp; omega] at moved
      exact moved
  | @wide lead continuation row two zero rest ih =>
    cases place with
    | zero => exact @Placed.lead _ _ _ [] lead continuation row rfl two zero .nil rest
    | succ place =>
      cases place with
      | zero =>
        exact @Placed.continuation _ _ _ [] lead continuation row rfl two zero .nil rest
      | succ place =>
        have moved := (@ih place (by simpa using less)).prepend
          (Tiled.wide two zero .nil : Tiled width [lead, continuation])
        rw [show [lead, continuation].length + place = place + 1 + 1 by simp; omega]
          at moved
        exact moved

theorem Opened.set {row : List α} {place : Nat} (h : Opened width place row) {cell : α}
    (one : width cell = 1)
    : Tiled width (row.set place cell) := by
  obtain ⟨left, old, right, rfl, rfl, before, behind⟩ := h.parts
  simpa using before.append (.narrow one behind)

end Library.Tilings
