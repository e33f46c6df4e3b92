import Murder.Evidence.Deletions
import Murder.Ranking.Fitting

/-! The merged windows of a file cover every window and keep apart. -/

namespace Murder.Ranking

open Evidence Library.Transactions

section Merging

variable {Score : Type} [LinearOrder Score]
  {previous window : ShapedRange Score} {windows rest merged : List (ShapedRange Score)}

def Within (window : ShapedRange Score) (merged : List (ShapedRange Score)) : Prop :=
  ∃ range ∈ merged, range.lineRange.start ≤ window.lineRange.start
    ∧ window.lineRange.stop ≤ range.lineRange.stop

/-- The ranges that windows are merged into. -/
structure MergesWindows (windows merged : List (ShapedRange Score)) : Prop where
  covers : ∀ window ∈ windows, Within window merged
  disjoint : merged.Pairwise (fun left right => left.lineRange.stop < right.lineRange.start)

theorem normalizeRanges_touching {last next : LineRange} (ordered : last.start ≤ next.start)
    (touches : next.start ≤ last.stop + 1)
    : ∃ joined, normalizeRanges [last, next] = [joined] ∧ joined.start = last.start
      ∧ joined.stop = max last.stop next.stop := by
  have valid := last.ordered
  have valid' := next.ordered
  by_cases before : last.Before next
  · have sorted : [last, next].insertionSort LineRange.Before = [last, next] := by
      simp [before]
    unfold normalizeRanges
    rw [sorted]
    simp only [mergeRanges, if_pos touches]
    by_cases later : last.stop < next.stop
    · rw [dif_pos later]
      exact ⟨_, rfl, rfl, (Nat.max_eq_right later.le).symm⟩
    · rw [dif_neg later]
      exact ⟨_, rfl, rfl, (Nat.max_eq_left (Nat.not_lt.mp later)).symm⟩
  · have sorted : [last, next].insertionSort LineRange.Before = [next, last] := by
      simp [before]
    have same : next.start = last.start := by
      unfold LineRange.Before at before
      omega
    have shorter : next.stop < last.stop := by
      unfold LineRange.Before at before
      omega
    have touches' : last.start ≤ next.stop + 1 := by omega
    unfold normalizeRanges
    rw [sorted]
    simp only [mergeRanges, if_pos touches', dif_pos shorter]
    exact ⟨_, rfl, same, (Nat.max_eq_left shorter.le).symm⟩

/-- A window is joined to the range before it, or starts behind its end. -/
theorem mergeOrdered_cons (ordered : previous.lineRange.start ≤ window.lineRange.start)
    : (∃ range : LineRange, range.start = previous.lineRange.start
        ∧ range.stop = max previous.lineRange.stop window.lineRange.stop
        ∧ mergeOrdered previous (window :: rest) = mergeOrdered (previous.join window range) rest)
      ∨ previous.lineRange.stop < window.lineRange.start
        ∧ mergeOrdered previous (window :: rest)
          = previous :: mergeOrdered { window with unitVersionId := none } rest := by
  have valid := window.lineRange.ordered
  simp only [mergeOrdered]
  split
  · next near =>
      refine .inl ⟨_, ?_, ?_, rfl⟩
      · rfl
      · exact (Nat.max_eq_right (near.1.le.trans valid)).symm
  · split
    · next touches =>
        obtain ⟨joined, normal, starts, stops⟩ := normalizeRanges_touching ordered touches
        rw [normal]
        exact .inl ⟨joined, starts, stops, rfl⟩
    · next apart => exact .inr ⟨by omega, rfl⟩

def ByStart (left right : ShapedRange Score) : Prop :=
  left.lineRange.start ≤ right.lineRange.start

variable (behind : ∀ later ∈ rest, ByStart previous later) (sorted : rest.Pairwise ByStart)

include behind sorted

theorem mergeOrdered_start : ∀ range ∈ mergeOrdered previous rest, ByStart previous range := by
  induction rest generalizing previous with
  | nil =>
    intro range member
    rw [List.mem_singleton.mp member]
    exact le_refl _
  | cons window rest ih =>
    obtain ⟨later, sorted⟩ := List.pairwise_cons.mp sorted
    have ordered := behind window List.mem_cons_self
    intro range member
    rcases @mergeOrdered_cons _ _ _ _ rest ordered with ⟨joined, starts, -, same⟩ | ⟨-, same⟩
    · rw [same] at member
      have after := @ih (previous.join window joined)
        (fun other among => starts.le.trans (behind other (List.mem_cons_of_mem _ among)))
        sorted range member
      exact starts.ge.trans after
    · rw [same] at member
      rcases List.mem_cons.mp member with first | member
      · rw [first]
        exact le_refl _
      · exact ordered.trans
          (@ih ({ window with unitVersionId := none }) later sorted range member)

/-- Merging keeps the invariant: the ranges so far are apart, and the last one takes in every
window that touches it. -/
theorem mergeOrdered_merges : MergesWindows (previous :: rest) (mergeOrdered previous rest) := by
  induction rest generalizing previous with
  | nil =>
    refine ⟨fun window member => ?_, List.pairwise_singleton _ _⟩
    rw [List.mem_singleton.mp member]
    exact ⟨previous, List.mem_cons_self, le_refl _, le_refl _⟩
  | cons window rest ih =>
    obtain ⟨later, sorted⟩ := List.pairwise_cons.mp sorted
    have ordered := behind window List.mem_cons_self
    rcases @mergeOrdered_cons _ _ _ _ rest ordered with
      ⟨joined, starts, stops, same⟩ | ⟨apart, same⟩
    · have merged := @ih (previous.join window joined)
        (fun other among => starts.le.trans (behind other (List.mem_cons_of_mem _ among))) sorted
      obtain ⟨range, among, low, high⟩ := merged.covers _ List.mem_cons_self
      rw [same]
      refine ⟨fun given member => ?_, merged.disjoint⟩
      rcases List.mem_cons.mp member with first | member
      · rw [first]
        exact ⟨range, among, low.trans starts.le,
          (stops.ge.trans' (Nat.le_max_left _ _)).trans high⟩
      · rcases List.mem_cons.mp member with second | member
        · rw [second]
          exact ⟨range, among, (low.trans starts.le).trans ordered,
            (stops.ge.trans' (Nat.le_max_right _ _)).trans high⟩
        · exact merged.covers given (List.mem_cons_of_mem _ member)
    · have merged := @ih ({ window with unitVersionId := none }) later sorted
      have starts := @mergeOrdered_start _ _
        { window with unitVersionId := none } rest later sorted
      rw [same]
      refine ⟨fun given member => ?_, List.pairwise_cons.mpr ⟨?_, merged.disjoint⟩⟩
      · rcases List.mem_cons.mp member with first | member
        · rw [first]
          exact ⟨previous, List.mem_cons_self, le_refl _, le_refl _⟩
        · have inside : Within given
              (mergeOrdered { window with unitVersionId := none } rest) := by
            rcases List.mem_cons.mp member with second | member
            · have covered := merged.covers _ List.mem_cons_self
              rw [second]
              exact covered
            · exact merged.covers given (List.mem_cons_of_mem _ member)
          obtain ⟨range, among, bounds⟩ := inside
          exact ⟨range, List.mem_cons_of_mem _ among, bounds⟩
      · exact fun range among => lt_of_lt_of_le apart (starts range among)

end Merging

theorem MergesWindows.congr {Score : Type} {windows merged merged' : List (ShapedRange Score)}
    (merges : MergesWindows windows merged)
    (same : merged'.map (·.lineRange) = merged.map (·.lineRange))
    : MergesWindows windows merged' := by
  constructor
  · intro window member
    obtain ⟨range, among, low, high⟩ := merges.covers window member
    have listed : range.lineRange ∈ merged'.map (·.lineRange) := by
      rw [same]
      exact List.mem_map_of_mem among
    obtain ⟨range', among', equal⟩ := List.mem_map.mp listed
    exact ⟨range', among', equal.symm ▸ low, equal.symm ▸ high⟩
  · have apart : (merged.map (·.lineRange)).Pairwise (fun left right => left.stop < right.start) :=
      List.pairwise_map.mpr merges.disjoint
    rw [← same] at apart
    exact List.pairwise_map.mp apart

section Files

variable {Score : Type} [LinearOrder Score] {windows merged : List (ShapedRange Score)}

instance beforeTotal : Std.Total (@ShapedRange.Before Score _) where
  total left right := by
    unfold ShapedRange.Before
    rcases lt_trichotomy left.lineRange.start right.lineRange.start with less | same | more
    · exact .inl (.inl less)
    · rcases le_total left.score right.score with low | high
      · exact .inr (.inr ⟨same.symm, low⟩)
      · exact .inl (.inr ⟨same, high⟩)
    · exact .inr (.inl more)

theorem ShapedRange.Before.byStart {left right : ShapedRange Score} (h : left.Before right)
    : ByStart left right := by
  rcases h with less | same
  · exact less.le
  · exact same.1.le

instance beforeTrans : IsTrans (ShapedRange Score) ShapedRange.Before where
  trans left middle right first second := by
    rcases first with less | ⟨same, high⟩
    · exact .inl (lt_of_lt_of_le less second.byStart)
    · rcases second with less | ⟨same', high'⟩
      · exact .inl (same ▸ less)
      · exact .inr ⟨same.trans same', high'.trans high⟩

variable [ShapingSource]

omit [ShapingSource] in
/-- The windows of a file after their sort, with the first one taken off its unit. -/
theorem sorted_merges {first : ShapedRange Score} {rest : List (ShapedRange Score)}
    (sorted : windows.insertionSort ShapedRange.Before = first :: rest)
    : MergesWindows windows (mergeOrdered { first with unitVersionId := none } rest) := by
  have order := List.pairwise_insertionSort ShapedRange.Before windows
  rw [sorted] at order
  obtain ⟨behind, order⟩ := List.pairwise_cons.mp order
  have merges := @mergeOrdered_merges _ _ { first with unitVersionId := none } rest
    (fun later among => (behind later among).byStart) (order.imp ShapedRange.Before.byStart)
  refine ⟨fun window member => ?_, merges.disjoint⟩
  have listed : window ∈ first :: rest := by
    rw [← sorted]
    exact (List.mem_insertionSort _).mpr member
  rcases List.mem_cons.mp listed with same | later
  · have covered := merges.covers _ List.mem_cons_self
    rw [same]
    exact covered
  · exact merges.covers window (List.mem_cons_of_mem _ later)

/-- The ranges that windows are merged into cover each of them and keep apart. -/
theorem mergeLexicalWindows_merges (returned : mergeLexicalWindows windows = .ok merged)
    : MergesWindows windows merged := by
  unfold mergeLexicalWindows at returned
  split at returned
  · next empty =>
      cases returned
      have none_ : windows = [] := by
        rw [← List.length_eq_zero_iff, ← List.length_insertionSort ShapedRange.Before, empty,
          List.length_nil]
      rw [none_]
      exact ⟨fun _ member => absurd member List.not_mem_nil, List.Pairwise.nil⟩
  · next first rest sorted =>
      refine (sorted_merges sorted).congr (except_mapM_map (fun range counted found => ?_) returned)
      split at found
      · cases found
        rfl
      · cases found

/-- A range that fits its file can be counted. -/
theorem estimate_returns {path : String} {range : LineRange} (inFile : InFile path range)
    : ∃ tokens, estimate path range = some tokens := by
  obtain ⟨text, read, within⟩ := inFile
  rw [countSourceLines_eq] at within
  obtain ⟨payload, extracted⟩ := extractSourceSlice_returns within
  refine ⟨ShapingSource.countTokens payload, ?_⟩
  unfold estimate
  rw [read]
  simp only [Option.bind_eq_bind, Option.bind_some, extracted]
  rfl

/-- Merging stays within the lines of the file. -/
theorem mergeOrdered_fits {path : String} {previous : ShapedRange Score}
    {rest : List (ShapedRange Score)} (fits : Fits path previous)
    (fit : ∀ window ∈ rest, Fits path window)
    (behind : ∀ later ∈ rest, ByStart previous later) (sorted : rest.Pairwise ByStart)
    : ∀ range ∈ mergeOrdered previous rest, Fits path range := by
  induction rest generalizing previous with
  | nil =>
    intro range member
    rw [List.mem_singleton.mp member]
    exact fits
  | cons window rest ih =>
    obtain ⟨later, sorted⟩ := List.pairwise_cons.mp sorted
    have fit' := fun other among => fit other (List.mem_cons_of_mem _ among)
    obtain ⟨sited, text, read, within⟩ := fits
    obtain ⟨sited', text', read', within'⟩ := fit window List.mem_cons_self
    cases Option.some.inj (read.symm.trans read')
    rcases @mergeOrdered_cons _ _ _ _ rest (behind window List.mem_cons_self) with
      ⟨joined, starts, stops, same⟩ | ⟨-, same⟩
    · rw [same]
      have inFile : InFile path joined :=
        ⟨text, read, stops.le.trans (Nat.max_le.mpr ⟨within, within'⟩)⟩
      exact @ih (previous.join window joined) ⟨sited, inFile⟩ fit'
        (fun other among => starts.le.trans (behind other (List.mem_cons_of_mem _ among))) sorted
    · rw [same]
      intro range member
      rcases List.mem_cons.mp member with first | member
      · rw [first]
        exact ⟨sited, text, read, within⟩
      · exact @ih ({ window with unitVersionId := none })
          ⟨sited', text, read, within'⟩ fit' later sorted range member

theorem mergeLexicalWindows_returns {path : String} (fit : ∀ window ∈ windows, Fits path window)
    : ∃ merged, mergeLexicalWindows windows = .ok merged ∧ ∀ range ∈ merged, Fits path range := by
  unfold mergeLexicalWindows
  split
  · exact ⟨[], rfl, fun _ member => absurd member List.not_mem_nil⟩
  · next first rest sorted =>
      have order := List.pairwise_insertionSort ShapedRange.Before windows
      rw [sorted] at order
      obtain ⟨behind, order⟩ := List.pairwise_cons.mp order
      have listed : ∀ window ∈ first :: rest, Fits path window := fun window member =>
        fit window ((List.mem_insertionSort _).mp (sorted ▸ member))
      have fits := @mergeOrdered_fits _ _ _ path { first with unitVersionId := none } rest
        (listed first List.mem_cons_self)
        (fun window among => listed window (List.mem_cons_of_mem _ among))
        (fun later among => (behind later among).byStart) (order.imp ShapedRange.Before.byStart)
      refine (except_mapM_ok ?_).imp (fun merged returned => ⟨returned, fun range member => ?_⟩)
      · intro range member
        obtain ⟨sited, inFile⟩ := fits range member
        obtain ⟨tokens, counted⟩ := estimate_returns inFile
        rw [sited, counted]
        exact ⟨_, rfl⟩
      · obtain ⟨given, among, found⟩ := except_mapM_value returned member
        split at found
        · cases found
          exact fits given among
        · cases found

end Files

end Murder.Ranking
