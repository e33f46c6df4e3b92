import Mathlib.Data.List.Pairwise

/-! Reading an append-only log of increasing numbers page by page behind a cursor.
A page that ends at some row holds everything wanted up to that row, so consecutive pages
compose to the window between their cursors.
-/

namespace Library.Pages

/-- An output that is a prefix of what is due and holds what is done either stops there or
holds the next item too.
-/
theorem prefix_next {α : Type} {output done rest : List α} {next : α}
    (due : output <+: done ++ next :: rest) (held : done.length ≤ output.length)
    : output = done ∨ done ++ [next] <+: output := by
  obtain ⟨more, whole⟩ : done <+: output :=
    List.prefix_of_prefix_length_le (List.prefix_append _ _) due held
  subst whole
  cases more with
  | nil => exact .inl (List.append_nil done)
  | cons first others =>
    have tail := (List.prefix_append_right_inj done).mp due
    obtain ⟨same, -⟩ := List.cons_prefix_cons.mp tail
    subst same
    exact .inr ((List.prefix_append_right_inj done).mpr (by simp))

variable {ρ : Type} (sequence : ρ → Nat)

def Increasing (rows : List ρ) : Prop :=
  rows.Pairwise (fun earlier later => sequence earlier < sequence later)

def later (wanted : ρ → Bool) (after : Nat) (rows : List ρ) : List ρ :=
  rows.filter (fun row => after < sequence row && wanted row)

/-- The wanted rows behind one cursor and up to another. -/
def between (wanted : ρ → Bool) (after upto : Nat) (rows : List ρ) : List ρ :=
  rows.filter (fun row => after < sequence row && sequence row ≤ upto && wanted row)

/-- Rows were only added, with numbers nobody had before. -/
structure Extends (rows : List ρ) (last : Nat) (rows' : List ρ) (last' : Nat) : Prop where
  more : ∃ new, rows' = rows ++ new ∧ Increasing sequence new
    ∧ ∀ row ∈ new, last < sequence row ∧ sequence row ≤ last'
  le : last ≤ last'

/-- The numbers of the rows increase and were handed out. -/
structure Ordered (rows : List ρ) (last : Nat) : Prop where
  increasing : Increasing sequence rows
  bound : ∀ row ∈ rows, sequence row ≤ last

variable {sequence} {wanted : ρ → Bool} {rows rows' : List ρ} {last last' : Nat}

theorem mem_later {after : Nat} {row : ρ}
    : row ∈ later sequence wanted after rows
      ↔ row ∈ rows ∧ after < sequence row ∧ wanted row = true := by
  simp [later]

theorem mem_between {after upto : Nat} {row : ρ}
    : row ∈ between sequence wanted after upto rows
      ↔ row ∈ rows ∧ after < sequence row ∧ sequence row ≤ upto ∧ wanted row = true := by
  simp [between, and_assoc]

theorem Extends.refl : Extends sequence rows last rows last :=
  ⟨⟨[], by simp [Increasing]⟩, Nat.le_refl _⟩

theorem Extends.trans {rows'' : List ρ} {last'' : Nat}
    (hl : Extends sequence rows last rows' last')
    (hr : Extends sequence rows' last' rows'' last'')
    : Extends sequence rows last rows'' last'' := by
  obtain ⟨first, rfl, hf, bf⟩ := hl.more
  obtain ⟨second, rfl, hs, bs⟩ := hr.more
  have first_le := hl.le
  have second_le := hr.le
  refine ⟨⟨first ++ second, by simp, ?_, ?_⟩, by omega⟩
  · refine List.pairwise_append.mpr ⟨hf, hs, fun earlier he later hl => ?_⟩
    have := bf earlier he
    have := bs later hl
    omega
  · intro row member
    rcases List.mem_append.mp member with old | new
    · have := bf row old
      omega
    · have := bs row new
      omega

theorem Extends.subset (h : Extends sequence rows last rows' last') : rows ⊆ rows' := by
  obtain ⟨new, rfl, -, -⟩ := h.more
  exact List.subset_append_left _ _

theorem Extends.ordered (h : Extends sequence rows last rows' last')
    (ordered : Ordered sequence rows last)
    : Ordered sequence rows' last' := by
  obtain ⟨new, rfl, increasing, bounds⟩ := h.more
  have le := h.le
  constructor
  · refine List.pairwise_append.mpr ⟨ordered.increasing, increasing, ?_⟩
    intro earlier he later hl
    have := ordered.bound earlier he
    have := bounds later hl
    omega
  · intro row member
    rcases List.mem_append.mp member with old | added
    · have := ordered.bound row old
      omega
    · exact (bounds row added).2

/-- What is added later does not reach into a window that ends before it. -/
theorem Extends.between_eq (h : Extends sequence rows last rows' last') {after upto : Nat}
    (ends : upto ≤ last)
    : between sequence wanted after upto rows' = between sequence wanted after upto rows := by
  obtain ⟨new, rfl, -, bounds⟩ := h.more
  have nothing : between sequence wanted after upto new = [] := by
    refine List.filter_eq_nil_iff.mpr (fun row member => ?_)
    have := bounds row member
    simp only [Bool.and_eq_true, decide_eq_true_eq, not_and]
    omega
  unfold between at *
  rw [List.filter_append, nothing, List.append_nil]

theorem Increasing.filter_split (h : Increasing sequence rows) (limit : Nat)
    : rows.filter (fun row => sequence row ≤ limit)
        ++ rows.filter (fun row => limit < sequence row) = rows := by
  induction rows with
  | nil => rfl
  | cons row rest ih =>
    obtain ⟨above, tail⟩ := List.pairwise_cons.mp h
    by_cases small : sequence row ≤ limit
    · have notLater : ¬ limit < sequence row := by omega
      simpa [small, notLater] using ih tail
    · have none_ : rest.filter (fun other => sequence other ≤ limit) = [] := by
        refine List.filter_eq_nil_iff.mpr (fun other member => ?_)
        have := above other member
        simp only [decide_eq_true_eq]
        omega
      have isLater : limit < sequence row := by omega
      have all := ih tail
      rw [none_, List.nil_append] at all
      simp [small, isLater, none_, all]

theorem Increasing.filter (h : Increasing sequence rows) (keep : ρ → Bool)
    : Increasing sequence (rows.filter keep) :=
  List.Pairwise.filter keep h

/-- A number identifies its row. -/
theorem Increasing.eq_of_same (h : Increasing sequence rows) {row other : ρ}
    (hr : row ∈ rows) (ho : other ∈ rows) (same : sequence row = sequence other)
    : row = other := by
  obtain ⟨i, hi, rfl⟩ := List.getElem_of_mem hr
  obtain ⟨j, hj, rfl⟩ := List.getElem_of_mem ho
  have apart := List.pairwise_iff_getElem.mp h
  rcases Nat.lt_trichotomy i j with less | equal | more
  · have := apart i j hi hj less
    omega
  · simp [equal]
  · have := apart j i hj hi more
    omega

/-- Two windows that meet are one. -/
theorem between_append (h : Increasing sequence rows) {after middle upto : Nat}
    (first : after ≤ middle) (second : middle ≤ upto)
    : between sequence wanted after middle rows ++ between sequence wanted middle upto rows
      = between sequence wanted after upto rows := by
  have whole := (h.filter (fun row =>
    after < sequence row && sequence row ≤ upto && wanted row)).filter_split middle
  rw [List.filter_filter, List.filter_filter] at whole
  have left : between sequence wanted after middle rows
      = rows.filter (fun row => sequence row ≤ middle
          && (after < sequence row && sequence row ≤ upto && wanted row)) := by
    refine List.filter_congr (fun row _ => ?_)
    rw [Bool.eq_iff_iff]
    simp only [Bool.and_eq_true, decide_eq_true_eq]
    grind
  have right : between sequence wanted middle upto rows
      = rows.filter (fun row => middle < sequence row
          && (after < sequence row && sequence row ≤ upto && wanted row)) := by
    refine List.filter_congr (fun row _ => ?_)
    rw [Bool.eq_iff_iff]
    simp only [Bool.and_eq_true, decide_eq_true_eq]
    grind
  rw [left, right]
  exact whole

/-- A window and what lies behind it are everything behind its first cursor. -/
theorem between_append_later (h : Increasing sequence rows) {after middle : Nat}
    (le : after ≤ middle)
    : between sequence wanted after middle rows ++ later sequence wanted middle rows
      = later sequence wanted after rows := by
  have whole := (h.filter (fun row => after < sequence row && wanted row)).filter_split middle
  rw [List.filter_filter, List.filter_filter] at whole
  have left : between sequence wanted after middle rows
      = rows.filter (fun row => sequence row ≤ middle
          && (after < sequence row && wanted row)) := by
    refine List.filter_congr (fun row _ => ?_)
    rw [Bool.eq_iff_iff]
    simp only [Bool.and_eq_true, decide_eq_true_eq]
    grind
  have right : later sequence wanted middle rows
      = rows.filter (fun row => middle < sequence row
          && (after < sequence row && wanted row)) := by
    refine List.filter_congr (fun row _ => ?_)
    rw [Bool.eq_iff_iff]
    simp only [Bool.and_eq_true, decide_eq_true_eq]
    grind
  rw [left, right]
  exact whole

/-- Behind the next row lies the rest. -/
theorem later_tail (h : Increasing sequence rows) {after : Nat} {row : ρ} {rest : List ρ}
    (next : later sequence wanted after rows = row :: rest)
    : later sequence wanted (sequence row) rows = rest := by
  have increasing : Increasing sequence (later sequence wanted after rows) := h.filter _
  have first : row ∈ later sequence wanted after rows := by simp [next]
  have above := (mem_later.mp first).2.1
  have sub : later sequence wanted (sequence row) rows
      = (later sequence wanted after rows).filter (fun other =>
          sequence row < sequence other) := by
    rw [later, later, List.filter_filter]
    refine List.filter_congr (fun other _ => ?_)
    rw [Bool.eq_iff_iff]
    simp only [Bool.and_eq_true, decide_eq_true_eq]
    grind
  rw [next] at increasing
  rw [sub, next, List.filter_cons_of_neg (by simp)]
  refine List.filter_eq_self.mpr (fun other member => ?_)
  simpa using (List.pairwise_cons.mp increasing).1 other member

/-- Up to the next row of a wider reading lies that row alone, if it is wanted. -/
theorem between_next (h : Increasing sequence rows) {wider : ρ → Bool}
    (implied : ∀ row, wanted row = true → wider row = true) {after : Nat} {row : ρ}
    {rest : List ρ} (next : later sequence wider after rows = row :: rest)
    : between sequence wanted after (sequence row) rows = [row].filter wanted := by
  have increasing : Increasing sequence (later sequence wider after rows) := h.filter _
  have sub : between sequence wanted after (sequence row) rows
      = (later sequence wider after rows).filter (fun other =>
          sequence other ≤ sequence row && wanted other) := by
    rw [between, later, List.filter_filter]
    refine List.filter_congr (fun other _ => ?_)
    rw [Bool.eq_iff_iff]
    simp only [Bool.and_eq_true, decide_eq_true_eq]
    have := implied other
    grind
  rw [next] at increasing
  have nothing : rest.filter (fun other =>
      sequence other ≤ sequence row && wanted other) = [] := by
    refine List.filter_eq_nil_iff.mpr (fun other member => ?_)
    have := (List.pairwise_cons.mp increasing).1 other member
    simp only [Bool.and_eq_true, decide_eq_true_eq, not_and]
    omega
  rw [sub, next, List.filter_cons, nothing]
  cases hw : wanted row <;> simp [hw]

/-- Growth reaches a reading behind a cursor only at its end. -/
theorem Extends.later_prefix (h : Extends sequence rows last rows' last') (after : Nat)
    : later sequence wanted after rows <+: later sequence wanted after rows' := by
  obtain ⟨new, rfl, -, -⟩ := h.more
  exact ⟨later sequence wanted after new, (List.filter_append ..).symm⟩

/-- A cut of an increasing list holds everything up to its last row, by induction over the
list.
-/
theorem Increasing.take_eq (h : Increasing sequence rows) {limit : Nat} {row : ρ}
    (lastRow : (rows.take limit).getLast? = some row)
    : rows.take limit = rows.filter (fun other => sequence other ≤ sequence row) := by
  induction rows generalizing limit with
  | nil => simp at lastRow
  | cons head rest ih =>
    obtain ⟨above, tail⟩ := List.pairwise_cons.mp h
    cases limit with
    | zero => simp at lastRow
    | succ count =>
      rw [List.take_succ_cons] at lastRow ⊢
      cases inner : (rest.take count).getLast? with
      | none =>
        have none_ : rest.take count = [] := List.getLast?_eq_none_iff.mp inner
        simp only [none_, List.getLast?_singleton, Option.some.injEq] at lastRow
        subst lastRow
        have nothing : rest.filter (fun other => sequence other ≤ sequence head) = [] := by
          refine List.filter_eq_nil_iff.mpr (fun other member => ?_)
          have := above other member
          simp only [decide_eq_true_eq]
          omega
        simp [none_, nothing]
      | some final =>
        have same : final = row := by
          rw [List.getLast?_cons, inner] at lastRow
          simpa using lastRow
        subst same
        have member := List.mem_of_mem_take (List.mem_of_getLast? inner)
        have less := above final member
        simp [ih tail inner, Nat.le_of_lt less]

/-- A page that ends at a row is the window up to it. -/
theorem page_eq_between (h : Increasing sequence rows) {after limit : Nat} {row : ρ}
    (lastRow : ((later sequence wanted after rows).take limit).getLast? = some row)
    : (later sequence wanted after rows).take limit
      = between sequence wanted after (sequence row) rows := by
  have increasing : Increasing sequence (later sequence wanted after rows) := h.filter _
  rw [increasing.take_eq lastRow, later, List.filter_filter]
  refine List.filter_congr (fun other _ => ?_)
  rw [Bool.eq_iff_iff]
  simp only [Bool.and_eq_true, decide_eq_true_eq]
  grind

/-- Advancing the cursor to a wanted row leaves fewer rows behind it. -/
theorem later_shrinks {after : Nat} {row : ρ}
    (member : row ∈ later sequence wanted after rows)
    : (later sequence wanted (sequence row) rows).length
      < (later sequence wanted after rows).length := by
  obtain ⟨stored, above, wants⟩ := mem_later.mp member
  have sub : later sequence wanted (sequence row) rows
      = (later sequence wanted after rows).filter (fun other =>
          sequence row < sequence other) := by
    rw [later, later, List.filter_filter]
    refine List.filter_congr (fun other _ => ?_)
    rw [Bool.eq_iff_iff]
    simp only [Bool.and_eq_true, decide_eq_true_eq]
    grind
  rw [sub]
  refine List.length_filter_lt_length_iff_exists.mpr ⟨row, member, by simp⟩

end Library.Pages
