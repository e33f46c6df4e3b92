import Mathlib.Algebra.BigOperators.Group.List.Basic
import Murder.Library.Records
import Murder.Library.Shares

/-! The cells of an axis distributed over its segments: first their minimums, then towards their
preferred sizes, then by their weights.
-/

namespace Murder.Panes

open Library.Records Library.Shares

structure AxisSegment where
  key : String
  min : Nat
  preferred : Nat
  fillWeight : Nat

abbrev AxisAllocation := Record String Nat

/-- `values.get(key) ?? 0` -/
def cells (values : AxisAllocation) (key : String) : Nat := (values.lookup key).getD 0

section Loops

variable {values : AxisAllocation} {segments : List AxisSegment}

def Distinct (segments : List AxisSegment) : Prop := (segments.map (·.key)).Nodup

def taken (values : AxisAllocation) (segments : List AxisSegment) : Nat :=
  (segments.map (fun segment => cells values segment.key)).sum

theorem cells_insert_other {key other : String} (apart : other ≠ key) (count : Nat)
    : cells (values.insert key count) other = cells values other := by
  simp [cells, AList.lookup_insert_ne apart]

theorem Distinct.behind {segment : AxisSegment} (distinct : Distinct (segment :: segments))
    (count : Nat)
    : Distinct segments ∧ segment.key ∉ segments.map (·.key)
      ∧ ∀ other ∈ segments,
          cells (values.insert segment.key count) other.key = cells values other.key := by
  obtain ⟨fresh, distinct⟩ := List.nodup_cons.mp distinct
  exact ⟨distinct, fresh, fun other member =>
    cells_insert_other (fun same => fresh (List.mem_map.mpr ⟨other, member, same⟩)) count⟩

/-- A remainder for which there is room is handed out by one cell each. -/
structure HandedOut (takes : AxisSegment → Nat → Bool) (segments : List AxisSegment)
    (remainder : Nat) (before after : AxisAllocation) : Prop where
  whole : taken after segments = taken before segments + remainder
  one : ∀ segment ∈ segments,
    cells after segment.key = cells before segment.key
      ∨ cells after segment.key = cells before segment.key + 1
        ∧ takes segment (cells before segment.key) = true
  others : ∀ key, key ∉ segments.map (·.key) → cells after key = cells before key

theorem HandedOut.nothing {takes : AxisSegment → Nat → Bool}
    : HandedOut takes segments 0 values values :=
  ⟨rfl, fun _ _ => .inl rfl, fun _ _ => rfl⟩

end Loops

----------------------------------------
-- The phases of an allocation
----------------------------------------

section Phases

variable {values : AxisAllocation} {segments : List AxisSegment} {remaining : Nat}

end Phases

----------------------------------------
-- The allocation
----------------------------------------

/-- The cells of the segments in an allocation of a total: no segment is below its minimum, all of
them take exactly the total, and none is above its preferred size before all have theirs.
-/
structure Exact (total : Int) (segments : List AxisSegment) (values : AxisAllocation) : Prop where
  least : ∀ segment ∈ segments, ∃ count, values.lookup segment.key = some count
    ∧ segment.min ≤ count
  whole : (taken values segments : Int) = total
  most : total ≤ ((segments.map (fun segment => max segment.min segment.preferred)).sum : Nat)
    → ∀ segment ∈ segments, cells values segment.key ≤ max segment.min segment.preferred

end Murder.Panes
