import Mathlib.Data.List.Basic

/-! Logs of increasing sequence numbers that lose records over time.
A cursor below every kept record tells what was lost only when the lost records are all older
than the kept ones and reach right up to them.
-/

namespace Library.Sequences

/-- No record later than `cursor` was lost. -/
def Lossless (lost : List Nat) (cursor : Nat) : Prop := ∀ gone ∈ lost, gone ≤ cursor

/-- The largest sequence, or zero without any. -/
def watermark (live : List Nat) : Nat := live.max?.getD 0

/-- The cursor is inside the range of the log and reaches the oldest live record. -/
def retained (live : List Nat) (cursor : Int) : Bool :=
  if cursor < 0 ∨ cursor > watermark live then
    false
  else
    match live.min? with
    | none => cursor == 0
    | some least => cursor ≥ least - 1

/-- Everything lost is older than everything kept, and the oldest kept record is the first
one ever or directly follows a lost one.
-/
structure Contiguous (live lost : List Nat) : Prop where
  empty : live = [] → lost = []
  older : ∀ gone ∈ lost, ∀ kept ∈ live, gone < kept
  follows : ∀ least ∈ live, (∀ kept ∈ live, least ≤ kept) → least = 1 ∨ least - 1 ∈ lost

theorem le_watermark {live : List Nat} {sequence : Nat} (member : sequence ∈ live)
    : sequence ≤ watermark live := by
  unfold watermark
  cases h : live.max? with
  | none => simp_all
  | some greatest => exact (List.max?_eq_some_iff.mp h).2 sequence member

theorem watermark_le {live : List Nat} {bound : Nat} (h : ∀ sequence ∈ live, sequence ≤ bound)
    : watermark live ≤ bound := by
  unfold watermark
  cases found : live.max? with
  | none => exact Nat.zero_le _
  | some greatest => exact h greatest (List.max?_eq_some_iff.mp found).1

theorem retained_nil_zero : retained [] 0 = true := by decide

/-- With live records the retained cursors start right below the oldest one. -/
theorem retained_iff {live : List Nat} {least cursor : Nat} (member : least ∈ live)
    (oldest : ∀ kept ∈ live, least ≤ kept) (range : cursor ≤ watermark live)
    : retained live cursor = true ↔ least ≤ cursor + 1 := by
  have found : live.min? = some least := List.min?_eq_some_iff.mpr ⟨member, oldest⟩
  have inside : ¬ ((cursor : Int) < 0 ∨ (cursor : Int) > watermark live) := by omega
  simp only [retained, if_neg inside, found, decide_eq_true_eq]
  omega

theorem le_of_retained {live : List Nat} {cursor : Nat} (h : retained live cursor = true)
    : cursor ≤ watermark live := by
  unfold retained at h
  split at h
  · cases h
  · next inside => omega

theorem retained_of_mem {live : List Nat} {sequence : Nat} (member : sequence ∈ live)
    : retained live sequence = true := by
  cases h : live.min? with
  | none => simp [List.min?_eq_none_iff.mp h] at member
  | some least =>
    obtain ⟨stored, oldest⟩ := List.min?_eq_some_iff.mp h
    exact (retained_iff stored oldest (le_watermark member)).mpr
      (Nat.le_succ_of_le (oldest sequence member))

theorem exists_least {live : List Nat} (some_ : live ≠ [])
    : ∃ least ∈ live, ∀ kept ∈ live, least ≤ kept := by
  cases h : live.min? with
  | none => exact absurd (List.min?_eq_none_iff.mp h) some_
  | some least => exact ⟨least, List.min?_eq_some_iff.mp h⟩

/-- Retention tells exactly what was lost when, and only when, the log is contiguous. -/
theorem retained_iff_lossless {live lost : List Nat} (positive : ∀ kept ∈ live, 0 < kept)
    (positiveLost : ∀ gone ∈ lost, 0 < gone)
    : (∀ cursor ≤ watermark live, retained live cursor = true ↔ Lossless lost cursor)
      ↔ Contiguous live lost := by
  rcases eq_or_ne live [] with rfl | some_
  · constructor
    · intro sound
      have lossless := (sound 0 (Nat.zero_le _)).mp retained_nil_zero
      refine ⟨fun _ => List.eq_nil_iff_forall_not_mem.mpr ?_, by simp, by simp⟩
      intro gone member
      have := positiveLost gone member
      have := lossless gone member
      omega
    · intro contiguous cursor range
      have zero : cursor = 0 := Nat.le_zero.mp range
      simp [zero, retained_nil_zero, contiguous.empty rfl, Lossless]
  · obtain ⟨least, member, oldest⟩ := exists_least some_
    have top := le_watermark member
    have above := positive least member
    constructor
    · intro sound
      have before : Lossless lost (least - 1) :=
        (sound (least - 1) (by omega)).mp
          ((retained_iff member oldest (by omega)).mpr (by omega))
      refine ⟨fun h => absurd h some_, ?_, ?_⟩
      · intro gone hg kept hk
        have := before gone hg
        have := oldest kept hk
        omega
      · intro first hf lowest
        have same : first = least := Nat.le_antisymm (lowest least member) (oldest first hf)
        subst same
        by_cases one : first = 1
        · exact .inl one
        · right
          -- The cursor two below the oldest record is refused, so it lost something.
          have refused := (sound (first - 2) (by omega)).not.mp
            (fun h => by have := (retained_iff member oldest (by omega)).mp h; omega)
          simp only [Lossless, not_forall, Nat.not_le] at refused
          obtain ⟨gone, hg, later⟩ := refused
          have := before gone hg
          have exactly : gone = first - 1 := by omega
          exact exactly ▸ hg
    · intro contiguous cursor range
      rw [retained_iff member oldest range]
      constructor
      · intro reaches gone hg
        have := contiguous.older gone hg least member
        omega
      · intro lossless
        rcases contiguous.follows least member oldest with one | lostBefore
        · omega
        · have := lossless _ lostBefore
          omega

/-- A later record joins a contiguous log when the log has records or it is the first. -/
theorem Contiguous.append {live lost : List Nat} {sequence : Nat}
    (h : Contiguous live lost) (first : live = [] → sequence = 1)
    (later : ∀ kept ∈ live, kept < sequence) (laterLost : ∀ gone ∈ lost, gone < sequence)
    : Contiguous (live ++ [sequence]) lost where
  empty := by simp
  older := by
    intro gone hg kept hk
    rcases List.mem_append.mp hk with old | new
    · exact h.older gone hg kept old
    · rw [List.mem_singleton.mp new]
      exact laterLost gone hg
  follows := by
    intro least member oldest
    rcases List.mem_append.mp member with old | new
    · exact h.follows least old (fun kept hk => oldest kept (List.mem_append_left _ hk))
    · rw [List.mem_singleton.mp new] at oldest ⊢
      rcases eq_or_ne live [] with none_ | some_
      · exact .inl (first none_)
      · obtain ⟨kept, hk⟩ := List.exists_mem_of_ne_nil live some_
        have := later kept hk
        have := oldest kept (List.mem_append_left _ hk)
        omega

/-- What a removal must leave behind to keep a log contiguous: it keeps some record, keeps
none older than one it removes, and removes the one right before the oldest it keeps.
-/
def RemovesPrefix (removed kept : List Nat) : Prop :=
  removed = [] ∨ (∀ gone ∈ removed, ∀ left ∈ kept, gone < left)
    ∧ ∃ left ∈ kept, left - 1 ∈ removed

instance (removed kept : List Nat) : Decidable (RemovesPrefix removed kept) := by
  unfold RemovesPrefix
  infer_instance

theorem Contiguous.remove {live lost kept removed : List Nat} (h : Contiguous live lost)
    (positive : ∀ left ∈ live, 0 < left) (keeps : ∀ left ∈ kept, left ∈ live)
    (drops : ∀ gone ∈ removed, gone ∈ live) (whole : ∀ left ∈ live, left ∈ kept ∨ left ∈ removed)
    (removesPrefix : RemovesPrefix removed kept)
    : Contiguous kept (lost ++ removed) := by
  rcases removesPrefix with rfl | ⟨older, left, hl, before⟩
  · have same : ∀ left, left ∈ kept ↔ left ∈ live := fun left =>
      ⟨keeps left, fun member => (whole left member).resolve_right (by simp)⟩
    refine ⟨fun none_ => ?_, ?_, ?_⟩
    · have gone : live = [] := by
        refine List.eq_nil_iff_forall_not_mem.mpr (fun left member => ?_)
        simpa [none_] using (same left).mpr member
      simp [h.empty gone]
    · intro gone hg left hl
      exact h.older gone (by simpa using hg) left (keeps left hl)
    · intro least member oldest
      simpa using h.follows least (keeps least member)
        (fun other ho => oldest other ((same other).mpr ho))
  · refine ⟨fun none_ => ?_, ?_, ?_⟩
    · simp [none_] at hl
    · intro gone hg other ho
      rcases List.mem_append.mp hg with lostBefore | now
      · exact h.older gone lostBefore other (keeps other ho)
      · exact older gone now other ho
    · intro least member oldest
      have := older _ before least member
      have := oldest left hl
      have := positive left (keeps left hl)
      have same : least = left := by omega
      subst same
      exact .inr (List.mem_append_right _ before)

section Shared

variable {ρ κ : Type} [DecidableEq κ] (owner : ρ → κ) (sequence : ρ → Nat)

def owned (key : κ) (rows : List ρ) : List Nat :=
  (rows.filter (fun row => owner row == key)).map sequence

variable {owner sequence}

@[simp] theorem mem_owned {key : κ} {rows : List ρ} {number : Nat}
    : number ∈ owned owner sequence key rows
      ↔ ∃ row ∈ rows, owner row = key ∧ sequence row = number := by
  simp [owned, and_assoc]

theorem owned_append {key : κ} {rows more : List ρ}
    : owned owner sequence key (rows ++ more)
      = owned owner sequence key rows ++ owned owner sequence key more := by
  simp [owned]

theorem owned_singleton {key : κ} {row : ρ}
    : owned owner sequence key [row] = if owner row = key then [sequence row] else [] := by
  by_cases h : owner row = key <;> simp [owned, h]

variable (owner sequence)

/-- All numbers handed out lie in `1..last`, and what the owner lost is contiguous. -/
structure Kept (key : κ) (rows lost : List ρ) (last : Nat) : Prop where
  bound : ∀ row ∈ rows ++ lost, 0 < sequence row ∧ sequence row ≤ last
  contiguous : Contiguous (owned owner sequence key rows) (owned owner sequence key lost)

variable {owner sequence}

namespace Kept

variable {key : κ} {rows lost : List ρ} {last : Nat}

theorem positive (h : Kept owner sequence key rows lost last)
    : ∀ number ∈ owned owner sequence key rows, 0 < number := by
  intro number member
  obtain ⟨row, hr, -, rfl⟩ := mem_owned.mp member
  exact (h.bound row (List.mem_append_left _ hr)).1

theorem positiveLost (h : Kept owner sequence key rows lost last)
    : ∀ number ∈ owned owner sequence key lost, 0 < number := by
  intro number member
  obtain ⟨row, hr, -, rfl⟩ := mem_owned.mp member
  exact (h.bound row (List.mem_append_right _ hr)).1

theorem le_last (h : Kept owner sequence key rows lost last) {number : Nat}
    (member : number ∈ owned owner sequence key rows ∨ number ∈ owned owner sequence key lost)
    : number ≤ last := by
  rcases member with kept | gone
  · obtain ⟨row, hr, -, rfl⟩ := mem_owned.mp kept
    exact (h.bound row (List.mem_append_left _ hr)).2
  · obtain ⟨row, hr, -, rfl⟩ := mem_owned.mp gone
    exact (h.bound row (List.mem_append_right _ hr)).2

/-- The retained cursors of a kept log are those that lost nothing. -/
theorem sound (h : Kept owner sequence key rows lost last)
    : ∀ cursor ≤ watermark (owned owner sequence key rows),
        retained (owned owner sequence key rows) cursor = true
          ↔ Lossless (owned owner sequence key lost) cursor :=
  (retained_iff_lossless h.positive h.positiveLost).mpr h.contiguous

/-- Numbers may be skipped. -/
theorem skip (h : Kept owner sequence key rows lost last) {more : Nat} (le : last ≤ more)
    : Kept owner sequence key rows lost more :=
  ⟨fun row hr => ⟨(h.bound row hr).1, Nat.le_trans (h.bound row hr).2 le⟩, h.contiguous⟩

/-- A new row keeps the log when its owner has rows already or it is the first row ever. -/
theorem insert (h : Kept owner sequence key rows lost last) {row : ρ}
    (next : sequence row = last + 1)
    (first : owner row = key → owned owner sequence key rows = [] → last = 0)
    : Kept owner sequence key (rows ++ [row]) lost (last + 1) where
  bound := by
    intro other member
    have cases_ : other = row ∨ other ∈ rows ++ lost := by
      simp only [List.mem_append, List.mem_singleton] at member ⊢
      tauto
    rcases cases_ with rfl | old
    · omega
    · have := h.bound other old
      omega
  contiguous := by
    rw [owned_append, owned_singleton]
    split
    · next own =>
        refine h.contiguous.append (fun none_ => by rw [next, first own none_]) ?_ ?_
        · intro kept hk
          have := h.le_last (.inl hk)
          omega
        · intro gone hg
          have := h.le_last (.inr hg)
          omega
    · simpa using h.contiguous

theorem remove (h : Kept owner sequence key rows lost last) {gone : ρ → Bool}
    (takesPrefix : RemovesPrefix (owned owner sequence key (rows.filter gone))
      (owned owner sequence key (rows.filter (fun row => !gone row))))
    : Kept owner sequence key (rows.filter (fun row => !gone row)) (lost ++ rows.filter gone)
        last where
  bound := by
    intro row member
    refine h.bound row ?_
    simp only [List.mem_append, List.mem_filter] at member ⊢
    tauto
  contiguous := by
    rw [owned_append]
    refine h.contiguous.remove h.positive ?_ ?_ ?_ takesPrefix
    · intro number member
      obtain ⟨row, hr, own, rfl⟩ := mem_owned.mp member
      exact mem_owned.mpr ⟨row, (List.mem_filter.mp hr).1, own, rfl⟩
    · intro number member
      obtain ⟨row, hr, own, rfl⟩ := mem_owned.mp member
      exact mem_owned.mpr ⟨row, (List.mem_filter.mp hr).1, own, rfl⟩
    · intro number member
      obtain ⟨row, hr, own, rfl⟩ := mem_owned.mp member
      cases hg : gone row with
      | true => exact .inr (mem_owned.mpr ⟨row, List.mem_filter.mpr ⟨hr, hg⟩, own, rfl⟩)
      | false =>
        exact .inl (mem_owned.mpr ⟨row, List.mem_filter.mpr ⟨hr, by simp [hg]⟩, own, rfl⟩)

end Kept

variable (owner sequence)

/-- A kept log that `writer` may append to: its first row is the first row ever. -/
structure Ready (key writer : κ) (rows lost : List ρ) (last : Nat) : Prop
    extends Kept owner sequence key rows lost last where
  first : writer = key → owned owner sequence key rows = [] → last = 0

variable {owner sequence}

namespace Ready

variable {key writer : κ} {rows lost : List ρ} {last : Nat}

theorem insert (h : Ready owner sequence key writer rows lost last) {row : ρ}
    (own : owner row = writer) (next : sequence row = last + 1)
    : Ready owner sequence key writer (rows ++ [row]) lost (last + 1) where
  toKept := h.toKept.insert next (fun same => h.first (own ▸ same))
  first := by
    intro same none_
    rw [owned_append, owned_singleton, if_pos (own.trans same)] at none_
    simp at none_

/-- A refused row burns its number at most, and something refused it. -/
theorem refuse (h : Ready owner sequence key writer rows lost last) (some_ : rows ≠ [])
    {more : Nat} (le : last ≤ more)
    : Ready owner sequence key writer rows lost more where
  toKept := h.toKept.skip le
  first := by
    intro same none_
    obtain ⟨row, hr⟩ := List.exists_mem_of_ne_nil rows some_
    have := h.bound row (List.mem_append_left _ hr)
    have := h.first same none_
    omega

end Ready

end Shared

end Library.Sequences
