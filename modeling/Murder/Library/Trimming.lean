import Mathlib.Algebra.GroupWithZero.Nat
import Mathlib.Algebra.Order.BigOperators.Group.List
import Mathlib.Algebra.Order.Group.Nat
import Mathlib.Data.List.DropRight

/-! Lists trimmed at both ends, and lists split at a separator and joined again. -/

namespace Library.Trimming

variable {α : Type}

/-- What holds of every listed item, by running through the list. -/
theorem forall_mem_of_all {p : α → Prop} [DecidablePred p] {items : List α}
    (all : items.all (fun item => decide (p item)) = true)
    : ∀ item ∈ items, p item :=
  fun item member => of_decide_eq_true (List.all_eq_true.mp all item member)

/-- The items without those at both ends that satisfy the predicate. -/
def trim (blank : α → Bool) (items : List α) : List α :=
  (items.dropWhile blank).rdropWhile blank

theorem trim_parts (blank : α → Bool) (items : List α)
    : ∃ before behind, items = before ++ trim blank items ++ behind
      ∧ (∀ item ∈ before, blank item) ∧ ∀ item ∈ behind, blank item := by
  refine ⟨items.takeWhile blank, (items.dropWhile blank).rtakeWhile blank, ?_,
    fun item => List.mem_takeWhile_imp, fun item => List.mem_rtakeWhile_imp⟩
  rw [List.append_assoc, trim, List.rdropWhile_append_rtakeWhile, List.takeWhile_append_dropWhile]

theorem mem_of_mem_trim {blank : α → Bool} {items : List α} {item : α}
    (member : item ∈ trim blank items)
    : item ∈ items := by
  obtain ⟨before, behind, parts, _, _⟩ := trim_parts blank items
  rw [parts]
  simp [member]

theorem trim_of_none {blank : α → Bool} {items : List α} (solid : ∀ item ∈ items, ¬ blank item)
    : trim blank items = items := by
  have front : items.dropWhile blank = items :=
    List.dropWhile_eq_self_iff.mpr (fun _ => solid _ (List.getElem_mem _))
  rw [trim, front, List.rdropWhile_eq_self_iff]
  exact fun some_ => solid _ (List.getLast_mem some_)

theorem dropWhile_of_prefix {blank : α → Bool} {front items : List α} (part : front <+: items)
    (start : items.dropWhile blank = items)
    : front.dropWhile blank = front := by
  obtain ⟨behind, rfl⟩ := part
  cases front with
  | nil => rfl
  | cons first later =>
    have solid := List.dropWhile_eq_self_iff.mp start (by simp)
    exact List.dropWhile_cons_of_neg solid

theorem trim_trim (blank : α → Bool) (items : List α)
    : trim blank (trim blank items) = trim blank items := by
  have front : trim blank items <+: items.dropWhile blank := List.rdropWhile_prefix _ _
  have start := dropWhile_of_prefix front (List.dropWhile_idempotent _ _)
  rw [trim, start, trim, List.rdropWhile_idempotent]

theorem trim_of_ends {blank : α → Bool} {items : List α}
    (first : ∀ item ∈ items.head?, ¬ blank item) (last : ∀ item ∈ items.getLast?, ¬ blank item)
    : trim blank items = items := by
  have front : items.dropWhile blank = items := by
    cases items with
    | nil => rfl
    | cons item items => exact List.dropWhile_cons_of_neg (first item rfl)
  rw [trim, front, List.rdropWhile_eq_self_iff]
  exact fun some_ => last _ (List.getLast?_eq_some_getLast some_)

theorem trim_append {blank : α → Bool} {items behind : List α} (some_ : items ≠ [])
    (first : ∀ item ∈ items.head?, ¬ blank item) (last : ∀ item ∈ items.getLast?, ¬ blank item)
    (blanks : ∀ item ∈ behind, blank item)
    : trim blank (items ++ behind) = items := by
  induction behind using List.reverseRecOn with
  | nil => rw [List.append_nil, trim_of_ends first last]
  | append_singleton before item ih =>
    have front : ∀ tail, (items ++ tail).dropWhile blank = items ++ tail := by
      intro tail
      obtain ⟨head, rest, rfl⟩ := List.exists_cons_of_ne_nil some_
      exact List.dropWhile_cons_of_neg (first head rfl)
    have step := ih (fun other member => blanks other (List.mem_append_left _ member))
    rw [trim, front] at step ⊢
    rw [← List.append_assoc, List.rdropWhile_concat_pos _ _ _ (blanks item
      (List.mem_append_right _ (List.mem_singleton.mpr rfl))), step]

theorem trim_ends {blank : α → Bool} {items : List α} (trimmed : trim blank items = items)
    : (∀ item ∈ items.head?, ¬ blank item) ∧ ∀ item ∈ items.getLast?, ¬ blank item := by
  have front : items.dropWhile blank = items := by
    refine (List.dropWhile_sublist blank).eq_of_length_le ?_
    have shorter := (List.rdropWhile_prefix blank (items.dropWhile blank)).length_le
    rwa [← trim, trimmed] at shorter
  constructor
  · intro item leads space
    cases items with
    | nil => cases leads
    | cons first items =>
      cases leads
      exact List.dropWhile_eq_self_iff.mp front (Nat.succ_pos _) space
  · intro item ends space
    rw [trim, front, List.rdropWhile_eq_self_iff] at trimmed
    have some_ : items ≠ [] := by
      intro empty
      rw [empty] at ends
      cases ends
    rw [List.getLast?_eq_some_getLast some_] at ends
    cases ends
    exact trimmed some_ space

theorem trim_eq_self {blank : α → Bool} {items : List α}
    (kept : items.countP blank ≤ (trim blank items).countP blank)
    : trim blank items = items := by
  obtain ⟨before, behind, parts, front, back⟩ := trim_parts blank items
  have counted := congrArg (List.countP blank) parts
  rw [List.countP_append, List.countP_append, List.countP_eq_length.mpr front,
    List.countP_eq_length.mpr back] at counted
  have noneBefore : before = [] := List.eq_nil_of_length_eq_zero (by omega)
  have noneBehind : behind = [] := List.eq_nil_of_length_eq_zero (by omega)
  rw [noneBefore, noneBehind, List.nil_append, List.append_nil] at parts
  exact parts.symm

/-- No part holds the separator, by induction on the items. -/
theorem not_mem_of_mem_splitOn [DecidableEq α] {separator : α} {items part : List α}
    (member : part ∈ items.splitOn separator)
    : separator ∉ part := by
  induction items generalizing part with
  | nil =>
    rw [List.splitOn_nil, List.mem_singleton] at member
    simp [member]
  | cons item items ih =>
    rw [List.splitOn_cons_eq_if_modifyHead] at member
    by_cases same : item == separator
    · rw [if_pos same] at member
      rcases List.mem_cons.mp member with rfl | later
      · exact List.not_mem_nil
      · exact ih later
    · rw [if_neg same] at member
      cases parts : items.splitOn separator with
      | nil => exact absurd parts (List.splitOn_ne_nil separator items)
      | cons first later =>
        rw [parts, List.modifyHead_cons] at member
        rcases List.mem_cons.mp member with rfl | member
        · have firstFree := ih (parts ▸ List.mem_cons_self)
          simp only [List.mem_cons, not_or]
          exact ⟨fun same' => same (by simp [same']), firstFree⟩
        · exact ih (parts ▸ List.mem_cons_of_mem _ member)

/-- An item that counts is not the separator: joining parts adds none. -/
theorem countP_intercalate {counts : α → Bool} {separator : α} (other : ¬ counts separator)
    (parts : List (List α))
    : ([separator].intercalate parts).countP counts = (parts.map (List.countP counts)).sum := by
  induction parts with
  | nil => rfl
  | cons first later ih =>
    cases later with
    | nil => simp
    | cons second later =>
      rw [List.intercalate_cons_cons, List.countP_append, List.countP_append, ih]
      simp [other]

theorem mem_intercalate {separator item : α} {parts : List (List α)}
    (member : item ∈ [separator].intercalate parts)
    : item = separator ∨ ∃ part ∈ parts, item ∈ part := by
  induction parts with
  | nil => simp at member
  | cons first later ih =>
    cases later with
    | nil =>
      rw [List.intercalate_singleton] at member
      exact .inr ⟨first, List.mem_cons_self, member⟩
    | cons second later =>
      rw [List.intercalate_cons_cons] at member
      rcases List.mem_append.mp member with inside | behind
      · rcases List.mem_append.mp inside with inside | same
        · exact .inr ⟨first, List.mem_cons_self, inside⟩
        · exact .inl (List.mem_singleton.mp same)
      · rcases ih behind with same | found
        · exact .inl same
        · obtain ⟨part, member, inside⟩ := found
          exact .inr ⟨part, List.mem_cons_of_mem _ member, inside⟩

theorem mem_intercalate_of_mem {separator item : α} {parts : List (List α)} {part : List α}
    (member : part ∈ parts) (inside : item ∈ part)
    : item ∈ [separator].intercalate parts := by
  induction parts with
  | nil => cases member
  | cons first later ih =>
    cases later with
    | nil =>
      rw [List.mem_singleton.mp member] at inside
      simpa using inside
    | cons second later =>
      rw [List.intercalate_cons_cons]
      rcases List.mem_cons.mp member with rfl | member
      · simp [inside]
      · simp [ih member]

theorem mem_of_mem_splitOn [DecidableEq α] {separator item : α} {items part : List α}
    (member : part ∈ items.splitOn separator) (inside : item ∈ part)
    : item ∈ items := by
  rw [← @List.intercalate_splitOn _ items _ _ separator]
  exact mem_intercalate_of_mem member inside

/-- Joined parts are told apart by how many separators the front holds. -/
theorem append_cons_inj_of_count [DecidableEq α] {separator : α} {front front' back back' : List α}
    (same : front ++ separator :: back = front' ++ separator :: back')
    (counts : front.count separator = front'.count separator)
    : front = front' ∧ back = back' := by
  induction front generalizing front' with
  | nil =>
    cases front' with
    | nil => exact ⟨rfl, (List.cons.inj same).2⟩
    | cons item front' =>
      rw [← (List.cons.inj same).1, List.count_cons_self] at counts
      cases counts
  | cons item front ih =>
    cases front' with
    | nil =>
      rw [(List.cons.inj same).1, List.count_cons_self] at counts
      cases counts
    | cons item' front' =>
      obtain ⟨rfl, rest⟩ := List.cons.inj same
      rw [List.count_cons, List.count_cons, Nat.add_right_cancel_iff] at counts
      obtain ⟨rfl, rfl⟩ := ih rest counts
      exact ⟨rfl, rfl⟩

/-- Of parts that hold as many separators each, also the last one is known, whatever it holds. -/
theorem intercalate_concat_inj_of_count [DecidableEq α] {separator : α} {parts parts' : List (List α)}
    {last last' : List α}
    (same : [separator].intercalate (parts ++ [last]) = [separator].intercalate (parts' ++ [last']))
    (counts : parts.map (List.count separator) = parts'.map (List.count separator))
    : parts = parts' ∧ last = last' := by
  induction parts generalizing parts' with
  | nil =>
    cases parts' with
    | nil => exact ⟨rfl, by simpa using same⟩
    | cons part parts' => cases counts
  | cons part parts ih =>
    cases parts' with
    | nil => cases counts
    | cons part' parts' =>
      obtain ⟨first, later⟩ := List.cons.inj counts
      have some_ : ∀ (parts : List (List α)) (last : List α), parts ++ [last] ≠ [] := by simp
      rw [List.cons_append, List.cons_append, List.intercalate_cons_of_ne_nil (some_ _ _),
        List.intercalate_cons_of_ne_nil (some_ _ _), List.append_assoc, List.append_assoc] at same
      obtain ⟨rfl, rest⟩ := append_cons_inj_of_count same first
      obtain ⟨rfl, rfl⟩ := ih rest later
      exact ⟨rfl, rfl⟩

theorem intercalate_inj_of_count [DecidableEq α] {separator : α} {parts parts' : List (List α)}
    (same : [separator].intercalate parts = [separator].intercalate parts')
    (counts : parts.map (List.count separator) = parts'.map (List.count separator))
    : parts = parts' := by
  rcases List.eq_nil_or_concat' parts with rfl | ⟨front, last, rfl⟩
  · exact (List.map_eq_nil_iff.mp counts.symm).symm
  · rcases List.eq_nil_or_concat' parts' with rfl | ⟨front', last', rfl⟩
    · exact List.map_eq_nil_iff.mp counts
    · rw [List.map_append, List.map_append] at counts
      obtain ⟨rfl, rfl⟩ := intercalate_concat_inj_of_count same (List.append_inj_left' counts rfl)
      rfl

/-- The items in front of the first separator, and those behind it. -/
def partition [DecidableEq α] (separator : α) (items : List α) : List α × List α :=
  (items.takeWhile (· ≠ separator), (items.dropWhile (· ≠ separator)).drop 1)

section
variable [DecidableEq α] {separator : α}

theorem partition_append {front behind : List α} (free : separator ∉ front)
    : partition separator (front ++ separator :: behind) = (front, behind) := by
  have before : ∀ item ∈ front, (!decide (item = separator)) = true := by
    intro item member
    simpa using fun same : item = separator => free (same ▸ member)
  simp [partition, List.takeWhile_append_of_pos before, List.dropWhile_append_of_pos before]

theorem partition_of_not_mem {items : List α} (free : separator ∉ items)
    : partition separator items = (items, []) := by
  have before : ∀ item ∈ items, decide (item ≠ separator) = true := by
    intro item member
    exact decide_eq_true (fun same => free (same ▸ member))
  rw [partition, List.takeWhile_eq_self_iff.mpr before, List.dropWhile_eq_nil_iff.mpr before]
  rfl

/-- What is cut at a separator is the front, the separator and what is behind it. -/
theorem partition_parts {items : List α} (member : separator ∈ items)
    : items = (partition separator items).1 ++ separator :: (partition separator items).2 := by
  obtain ⟨front, behind, rfl, free⟩ := List.eq_append_cons_of_mem member
  rw [partition_append free]

theorem not_mem_partition (items : List α) : separator ∉ (partition separator items).1 := by
  intro member
  simpa using List.mem_takeWhile_imp member

theorem mem_partition {items : List α} {item : α}
    (member : item ∈ (partition separator items).1 ∨ item ∈ (partition separator items).2)
    : item ∈ items := by
  rcases member with front | behind
  · exact List.takeWhile_sublist _ |>.subset front
  · exact (List.dropWhile_sublist _).subset (List.mem_of_mem_drop behind)

def splitAtFirst (fence : List α) : List α → Option (List α × List α)
  | [] => none
  | item :: rest =>
    if fence <+: item :: rest then
      some ([], (item :: rest).drop fence.length)
    else
      (splitAtFirst fence rest).map (fun (front, behind) => (item :: front, behind))

omit [DecidableEq α] in
/-- A list whose first item is not repeated starts nowhere in a front that does not hold it. -/
theorem not_prefix_append {first : α} {later front behind : List α} (unique : first ∉ later)
    (some_ : front ≠ []) (free : ¬ first :: later <+: front)
    : ¬ first :: later <+: front ++ first :: later ++ behind := by
  intro starts
  rw [List.append_assoc] at starts
  rcases List.prefix_or_prefix_of_prefix starts (List.prefix_append _ _) with short | long
  · exact free short
  · obtain ⟨more, parts⟩ := long
    rw [← parts, List.prefix_append_right_inj] at starts
    cases front with
    | nil => exact some_ rfl
    | cons item front =>
      obtain ⟨same, rest⟩ := List.cons.inj parts
      change front ++ more = later at rest
      cases more with
      | nil =>
        rw [List.append_nil] at rest
        rw [same, rest] at free
        exact free List.prefix_rfl
      | cons next more =>
        -- the rest of the fence would start with its first item again
        have again : next = item := (List.cons_prefix_cons.mp starts).1
        rw [again, same] at rest
        exact unique (rest ▸ List.mem_append_right _ List.mem_cons_self)

/-- What is split off at a fence is read back. -/
theorem splitAtFirst_append {first : α} {later front behind : List α} (unique : first ∉ later)
    (free : ¬ first :: later <:+: front)
    : splitAtFirst (first :: later) (front ++ first :: later ++ behind) = some (front, behind) := by
  induction front with
  | nil =>
    rw [List.nil_append, List.cons_append, splitAtFirst, if_pos ⟨behind, rfl⟩,
      ← List.cons_append, List.drop_left]
  | cons item front ih =>
    have inner : ¬ first :: later <:+: front := fun inside =>
      free (inside.trans (List.suffix_cons item front).isInfix)
    have absent : ¬ first :: later <+: item :: front ++ first :: later ++ behind :=
      not_prefix_append unique (List.cons_ne_nil _ _) (fun starts => free starts.isInfix)
    rw [List.cons_append, List.cons_append] at absent ⊢
    rw [splitAtFirst, if_neg absent, ih inner]
    rfl

end

end Library.Trimming
