import Mathlib.Data.List.Basic

/-! The first item of a list that passes a test, with the items around it. -/

namespace Library.Firsts

variable {α : Type}

def splitFirst (passes : α → Bool) : List α → Option (List α × α × List α)
  | [] => none
  | item :: rest =>
    if passes item then some ([], item, rest)
    else (splitFirst passes rest).map (fun (before, found, behind) =>
      (item :: before, found, behind))

variable {passes : α → Bool} {items before behind : List α} {item : α}

theorem splitFirst_eq_none : splitFirst passes items = none ↔ ∀ item ∈ items, passes item = false := by
  induction items with
  | nil => simp [splitFirst]
  | cons head rest ih =>
    rw [splitFirst, List.forall_mem_cons, ← ih]
    cases passes head <;> simp

/-- What a split is made of, by induction over the list. -/
theorem splitFirst_eq_some (split : splitFirst passes items = some (before, item, behind))
    : items = before ++ item :: behind ∧ passes item = true
      ∧ ∀ earlier ∈ before, passes earlier = false := by
  induction items generalizing before with
  | nil => cases split
  | cons head rest ih =>
    rw [splitFirst] at split
    cases found : passes head with
    | true =>
      rw [if_pos found] at split
      cases split
      exact ⟨rfl, found, nofun⟩
    | false =>
      rw [if_neg (by simp [found]), Option.map_eq_some_iff] at split
      obtain ⟨⟨before', _, _⟩, split, same⟩ := split
      cases same
      obtain ⟨parts, passing, others⟩ := ih split
      exact ⟨congrArg (head :: ·) parts, passing, List.forall_mem_cons.mpr ⟨found, others⟩⟩

theorem splitFirst_append (none_ : ∀ earlier ∈ items, passes earlier = false)
    : splitFirst passes (items ++ [item])
      = if passes item then some (items, item, []) else none := by
  induction items with
  | nil => rw [List.nil_append, splitFirst]; rfl
  | cons head rest ih =>
    obtain ⟨first, others⟩ := List.forall_mem_cons.mp none_
    rw [List.cons_append, splitFirst, if_neg (by simp [first]), ih others]
    split <;> rfl

end Library.Firsts
