import Murder.Extraction.Units
import Murder.Library.Graphs

/-! When the parents of extracted units form a forest.
A unit without a parent gets the tightest unit around it, and of two units with one range each
may be the tightest around the other.
-/

namespace Murder.Extraction

open Library.Graphs Relation

def Encloses (outer inner : ExtractedSemanticUnit) : Prop :=
  unitContainsLine outer inner.startLine ∧ unitContainsLine outer inner.endLine

/-- A unit of another id around the child, that no other such unit is tighter than. -/
structure Tightest (units : List ExtractedSemanticUnit)
    (child parent : ExtractedSemanticUnit) : Prop where
  member : parent ∈ units
  other : parent.localId ≠ child.localId
  encloses : Encloses parent child
  least : ∀ outer ∈ units, outer.localId ≠ child.localId → Encloses outer child
    → enclosureKey parent ≤ enclosureKey outer

variable {units : List ExtractedSemanticUnit} {child parent : ExtractedSemanticUnit}

variable {id : String}

theorem mem_candidates {line : Int} {unit : ExtractedSemanticUnit}
    : unit ∈ units.filter (fun unit =>
        !([id].contains unit.localId) && unitContainsLine unit line)
      ↔ unit ∈ units ∧ unit.localId ≠ id ∧ unitContainsLine unit line := by
  rw [List.mem_filter, Bool.and_eq_true, Bool.not_eq_true', List.contains_eq_mem,
    decide_eq_false_iff_not, List.mem_singleton]

theorem findEnclosingUnit_none {line : Int}
    : findEnclosingUnit units line [id] = none
      ↔ ∀ unit ∈ units, unit.localId ≠ id → ¬ unitContainsLine unit line := by
  unfold findEnclosingUnit
  rw [List.head?_eq_none_iff, ← List.length_eq_zero_iff, List.length_insertionSort,
    List.length_eq_zero_iff, List.filter_eq_nil_iff]
  constructor
  · intro none_ unit member other contains
    exact none_ unit member ((Bool.and_eq_true _ _).mpr ⟨by simpa using other, contains⟩)
  · intro none_ unit member candidate
    obtain ⟨-, other, contains⟩ := mem_candidates.mp (List.mem_filter.mpr ⟨member, candidate⟩)
    exact none_ unit member other contains

theorem findEnclosingUnit_some {line : Int}
    (found : findEnclosingUnit units line [id] = some parent)
    : (parent ∈ units ∧ parent.localId ≠ id ∧ unitContainsLine parent line)
      ∧ ∀ unit ∈ units, unit.localId ≠ id → unitContainsLine unit line
        → enclosureKey parent ≤ enclosureKey unit := by
  unfold findEnclosingUnit at found
  obtain ⟨rest, sorted⟩ := List.head?_eq_some_iff.mp found
  have ordered := List.pairwise_insertionSort
    (fun left right : ExtractedSemanticUnit => enclosureKey left ≤ enclosureKey right)
    (units.filter (fun unit => !([id].contains unit.localId) && unitContainsLine unit line))
  have listed : ∀ unit, unit ∈ parent :: rest
      ↔ unit ∈ units ∧ unit.localId ≠ id ∧ unitContainsLine unit line := by
    intro unit
    rw [← sorted, List.mem_insertionSort]
    exact mem_candidates
  rw [sorted, List.pairwise_cons] at ordered
  refine ⟨(listed parent).mp List.mem_cons_self, fun unit member other contains => ?_⟩
  rcases List.mem_cons.mp ((listed unit).mpr ⟨member, other, contains⟩) with same | later
  · rw [same]
  · exact ordered.1 unit later

/-- Both searches find the tightest unit around the child, if there is any. -/
theorem enclosingParent_some (found : enclosingParent units child = some parent)
    : Tightest units child parent := by
  unfold enclosingParent at found
  cases first : findEnclosingUnit units child.startLine [child.localId] with
  | none =>
    rw [first] at found
    cases found
  | some nearest =>
    rw [first] at found
    dsimp only at found
    obtain ⟨⟨member, other, starts⟩, least⟩ := findEnclosingUnit_some first
    by_cases ends : unitContainsLine nearest child.endLine
    · rw [if_pos ends] at found
      cases found
      exact ⟨member, other, ⟨starts, ends⟩, fun outer listed apart encloses =>
        least outer listed apart encloses.1⟩
    · rw [if_neg ends] at found
      obtain ⟨⟨member, other, starts⟩, least⟩ := findEnclosingUnit_some found
      obtain ⟨member, ends⟩ := List.mem_filter.mp member
      exact ⟨member, other, ⟨starts, ends⟩, fun outer listed apart encloses =>
        least outer (List.mem_filter.mpr ⟨listed, encloses.2⟩) apart encloses.1⟩

theorem enclosingParent_none (lost : enclosingParent units child = none)
    : ∀ outer ∈ units, outer.localId ≠ child.localId → ¬ Encloses outer child := by
  intro outer member other encloses
  unfold enclosingParent at lost
  cases first : findEnclosingUnit units child.startLine [child.localId] with
  | none => exact findEnclosingUnit_none.mp first outer member other encloses.1
  | some nearest =>
    rw [first] at lost
    dsimp only at lost
    by_cases ends : unitContainsLine nearest child.endLine
    · rw [if_pos ends] at lost
      cases lost
    · rw [if_neg ends] at lost
      exact findEnclosingUnit_none.mp lost outer
        (List.mem_filter.mpr ⟨member, encloses.2⟩) other encloses.1

theorem Tightest.same_id {parent' : ExtractedSemanticUnit} (first : Tightest units child parent)
    (second : Tightest units child parent')
    : parent.localId = parent'.localId := by
  have keys : enclosureKey parent = enclosureKey parent' :=
    le_antisymm (first.least parent' second.member second.other second.encloses)
      (second.least parent first.member first.other first.encloses)
  have pairs := congrArg (fun key => (ofLex (ofLex key).2).2) keys
  exact pairs

def ParentOf (units : List ExtractedSemanticUnit) (child parent : String) : Prop :=
  ∃ unit ∈ units, unit.localId = child ∧ unit.parentLocalId = some parent

/-- A link set before, or one to the tightest unit around a unit without a link. -/
def Leads (units : List ExtractedSemanticUnit) (child parent : String) : Prop :=
  ∃ unit ∈ units, unit.localId = child
    ∧ (unit.parentLocalId = some parent
      ∨ unit.parentLocalId = none
        ∧ ∃ outer, Tightest units unit outer ∧ outer.localId = parent)

theorem assignParent_localId (unit : ExtractedSemanticUnit)
    : (assignParent units unit).localId = unit.localId := by
  unfold assignParent
  cases unit.parentLocalId with
  | some _ => rfl
  | none => cases enclosingParent units unit <;> rfl

theorem assignParent_parent {unit : ExtractedSemanticUnit}
    : (assignParent units unit).parentLocalId = some id
      ↔ unit.parentLocalId = some id
        ∨ unit.parentLocalId = none
          ∧ ∃ outer, Tightest units unit outer ∧ outer.localId = id := by
  unfold assignParent
  cases set : unit.parentLocalId with
  | some own =>
    dsimp only
    rw [set]
    exact (or_iff_left (fun bad => nomatch bad.1)).symm
  | none =>
    dsimp only
    cases found : enclosingParent units unit with
    | none =>
      dsimp only
      rw [set]
      refine iff_of_false (fun same => nomatch same) (fun bad => ?_)
      rcases bad with same | tight
      · cases same
      · obtain ⟨-, outer, tight, -⟩ := tight
        exact enclosingParent_none found outer tight.member tight.other tight.encloses
    | some parent =>
      have tight := enclosingParent_some found
      refine ⟨fun same => .inr ⟨rfl, parent, tight, Option.some.inj same⟩, fun links => ?_⟩
      rcases links with same | links
      · cases same
      · obtain ⟨-, outer, other, same⟩ := links
        exact congrArg some ((tight.same_id other).trans same)

/-- The assigned links are those set before and those to tightest units. -/
theorem parentOf_assigned
    : ParentOf (assignParentsByEnclosure units) = Leads units := by
  funext child parent
  apply propext
  constructor
  · intro links
    obtain ⟨unit, member, same, linked⟩ := links
    obtain ⟨unit, listed, rfl⟩ := List.mem_map.mp member
    exact ⟨unit, listed, (assignParent_localId unit).symm.trans same,
      assignParent_parent.mp linked⟩
  · intro links
    obtain ⟨unit, listed, same, linked⟩ := links
    exact ⟨assignParent units unit, List.mem_map_of_mem listed,
      (assignParent_localId unit).trans same, assignParent_parent.mpr linked⟩

theorem exists_tightest {outer : ExtractedSemanticUnit} (member : outer ∈ units)
    (other : outer.localId ≠ child.localId) (encloses : Encloses outer child)
    : ∃ parent, Tightest units child parent := by
  cases found : enclosingParent units child with
  | none => exact absurd encloses (enclosingParent_none found outer member other)
  | some parent => exact ⟨parent, enclosingParent_some found⟩

def StrictlyEncloses (outer inner : ExtractedSemanticUnit) : Prop :=
  Encloses outer inner ∧ ¬(outer.startLine = inner.startLine ∧ outer.endLine = inner.endLine)

def Contains (edges : List ContainsEdge) (source target : String) : Prop :=
  ∃ edge ∈ edges, edge.sourceUnitLocalId = source ∧ edge.targetLocalId = target

/-- Units whose assigned parents, and the edges derived of them, nest as their ranges do. -/
structure Forest (units : List ExtractedSemanticUnit) : Prop where
  acyclic : ¬Cyclic (ParentOf (assignParentsByEnclosure units))
  encloses : ∀ unit ∈ units, unit.parentLocalId = none →
    ∀ id, (assignParent units unit).parentLocalId = some id →
      ∃ parent ∈ units, parent.localId = id ∧ Encloses parent unit
  found : ∀ unit ∈ units, ∀ outer ∈ units, StrictlyEncloses outer unit →
    (assignParent units unit).parentLocalId ≠ none
  edges : ¬Cyclic (Contains (deriveContainsRelationships (assignParentsByEnclosure units)))

/-- A unit without a parent that is strictly enclosed is enclosed by one of another id. -/
def Reachable (units : List ExtractedSemanticUnit) : Prop :=
  ∀ unit ∈ units, unit.parentLocalId = none → ∀ outer ∈ units, StrictlyEncloses outer unit →
    ∃ other ∈ units, other.localId ≠ unit.localId ∧ Encloses other unit

theorem contains_derived {source target : String}
    (linked : Contains (deriveContainsRelationships units) source target)
    : ParentOf units target source := by
  obtain ⟨edge, member, starts, ends⟩ := linked
  obtain ⟨unit, listed, made⟩ := List.mem_filterMap.mp ((List.mem_insertionSort _).mp member)
  obtain ⟨id, parent, made⟩ := Option.bind_eq_some_iff.mp made
  by_cases known : id ∈ units.map (·.localId)
  · rw [if_pos known] at made
    cases made
    exact ⟨unit, listed, ends, parent.trans (congrArg some starts)⟩
  · rw [if_neg known] at made
    cases made

/-- The edges turn the links around, so that they close no cycle of their own. -/
theorem not_cyclic_contains (acyclic : ¬Cyclic (ParentOf units))
    : ¬Cyclic (Contains (deriveContainsRelationships units)) := by
  intro cyclic
  obtain ⟨node, loop⟩ := cyclic
  refine acyclic ⟨node, transGen_swap.mp (TransGen.mono ?_ _ _ loop)⟩
  intro source target linked
  exact contains_derived linked

theorem assigned_encloses {unit : ExtractedSemanticUnit}
    (free : unit.parentLocalId = none) (linked : (assignParent units unit).parentLocalId = some id)
    : ∃ parent ∈ units, parent.localId = id ∧ Encloses parent unit := by
  rcases assignParent_parent.mp linked with set | tightest
  · rw [free] at set
    cases set
  · obtain ⟨-, outer, tight, same⟩ := tightest
    exact ⟨outer, tight.member, same, tight.encloses⟩

theorem assigned_ne_none {unit : ExtractedSemanticUnit}
    : (assignParent units unit).parentLocalId ≠ none
      ↔ unit.parentLocalId = none →
        ∃ other ∈ units, other.localId ≠ unit.localId ∧ Encloses other unit := by
  rw [Option.ne_none_iff_exists']
  constructor
  · intro linked free
    obtain ⟨id, linked⟩ := linked
    rcases assignParent_parent.mp linked with set | tightest
    · rw [free] at set
      cases set
    · obtain ⟨-, outer, tight, -⟩ := tightest
      exact ⟨outer, tight.member, tight.other, tight.encloses⟩
  · intro enclosed
    cases set : unit.parentLocalId with
    | some own => exact ⟨own, assignParent_parent.mpr (.inl set)⟩
    | none =>
      obtain ⟨other, member, apart, encloses⟩ := enclosed set
      obtain ⟨parent, tight⟩ := exists_tightest member apart encloses
      exact ⟨parent.localId, assignParent_parent.mpr (.inr ⟨set, parent, tight, rfl⟩)⟩

/-- Links of tightest units and links set before must close no cycle. -/
theorem forest_iff_leads : Forest units ↔ ¬Cyclic (Leads units) ∧ Reachable units := by
  constructor
  · intro forest
    refine ⟨(@parentOf_assigned units) ▸ forest.acyclic, ?_⟩
    intro unit member free outer listed strict
    exact assigned_ne_none.mp (forest.found unit member outer listed strict) free
  · intro leads
    obtain ⟨acyclic, reachable⟩ := leads
    rw [← parentOf_assigned] at acyclic
    exact {
      acyclic := acyclic
      encloses := fun unit _ free id linked => assigned_encloses free linked
      found := fun unit member outer listed strict => assigned_ne_none.mpr
        (fun free => reachable unit member free outer listed strict)
      edges := not_cyclic_contains acyclic
    }

/-- Units of distinct ids, none with a parent of its own. -/
structure Unlinked (units : List ExtractedSemanticUnit) : Prop where
  distinct : (units.map (·.localId)).Nodup
  free : ∀ unit ∈ units, unit.parentLocalId = none

def DistinctRanges (units : List ExtractedSemanticUnit) : Prop :=
  ∀ a ∈ units, ∀ b ∈ units, a.startLine = b.startLine → a.endLine = b.endLine →
    a.startLine ≤ a.endLine → a = b

variable {a : ExtractedSemanticUnit}

theorem Unlinked.eq_of_id (unlinked : Unlinked units) {b : ExtractedSemanticUnit}
    (first : a ∈ units) (second : b ∈ units) (same : a.localId = b.localId)
    : a = b :=
  List.inj_on_of_nodup_map unlinked.distinct first second same

def Widens (inner outer : ExtractedSemanticUnit) : Prop :=
  outer.startLine ≤ outer.endLine
    ∧ (inner.startLine ≤ inner.endLine →
      inner.endLine - inner.startLine < outer.endLine - outer.startLine)

theorem encloses_iff {outer inner : ExtractedSemanticUnit}
    : Encloses outer inner
      ↔ (outer.startLine ≤ inner.startLine ∧ inner.startLine ≤ outer.endLine)
        ∧ outer.startLine ≤ inner.endLine ∧ inner.endLine ≤ outer.endLine := by
  simp [Encloses, unitContainsLine]

theorem Widens.trans {b c : ExtractedSemanticUnit} (first : Widens a b) (second : Widens b c)
    : Widens a c :=
  ⟨second.1, fun range => (first.2 range).trans (second.2 first.1)⟩

theorem Widens.irrefl (widens : Widens a a) : False :=
  (widens.2 widens.1).false

theorem Tightest.widens (ranges : DistinctRanges units) (member : child ∈ units)
    (tight : Tightest units child parent)
    : Widens child parent := by
  obtain ⟨⟨starts, inside⟩, reaches, ends⟩ := encloses_iff.mp tight.encloses
  refine ⟨starts.trans inside, fun range => ?_⟩
  by_contra narrow
  have same : child = parent := ranges child member parent tight.member (by omega) (by omega) range
  exact tight.other (congrArg (·.localId) same.symm)

/-- Along a walk the ranges widen, so that no walk comes back. -/
theorem Unlinked.not_cyclic (unlinked : Unlinked units) (ranges : DistinctRanges units)
    : ¬Cyclic (Leads units) := by
  have step : ∀ {a b : String}, Leads units a b → ∃ inner ∈ units, ∃ outer ∈ units,
      inner.localId = a ∧ outer.localId = b ∧ Widens inner outer := by
    intro a b leads
    obtain ⟨inner, member, same, linked⟩ := leads
    rcases linked with set | tightest
    · rw [unlinked.free inner member] at set
      cases set
    · obtain ⟨-, outer, tight, leads⟩ := tightest
      exact ⟨inner, member, outer, tight.member, same, leads, tight.widens ranges member⟩
  have walk : ∀ {a b : String}, TransGen (Leads units) a b → ∃ inner ∈ units, ∃ outer ∈ units,
      inner.localId = a ∧ outer.localId = b ∧ Widens inner outer := by
    intro a b path
    induction path with
    | single leads => exact step leads
    | tail _ leads ih =>
      obtain ⟨inner, first, middle, second, starts, meets, widens⟩ := ih
      obtain ⟨middle', second', outer, third, meets', ends, widens'⟩ := step leads
      cases unlinked.eq_of_id second second' (meets.trans meets'.symm)
      exact ⟨inner, first, outer, third, starts, ends, widens.trans widens'⟩
  intro cyclic
  obtain ⟨id, loop⟩ := cyclic
  obtain ⟨inner, first, outer, second, starts, ends, widens⟩ := walk loop
  cases unlinked.eq_of_id first second (starts.trans ends.symm)
  exact widens.irrefl

theorem Tightest.same_range {twin : ExtractedSemanticUnit} (tight : Tightest units child parent)
    (member : twin ∈ units) (other : twin.localId ≠ child.localId)
    (starts : twin.startLine = child.startLine) (ends : twin.endLine = child.endLine)
    (range : child.startLine ≤ child.endLine)
    : parent.startLine = child.startLine ∧ parent.endLine = child.endLine := by
  have around : Encloses twin child := encloses_iff.mpr (by omega)
  have least := tight.least twin member other around
  have span : parent.endLine - parent.startLine ≤ twin.endLine - twin.startLine := by
    rcases Prod.Lex.toLex_le_toLex.mp least with less | same
    · exact less.le
    · exact same.1.le
  obtain ⟨⟨outside, -⟩, -, inside⟩ := encloses_iff.mp tight.encloses
  omega

/-- Units of one range lead to each other, and finitely many of them close a cycle. -/
theorem Unlinked.distinctRanges (unlinked : Unlinked units) (acyclic : ¬Cyclic (Leads units))
    : DistinctRanges units := by
  intro a first b second starts ends range
  by_contra apart
  let twins : Set String := { id | ∃ unit ∈ units, unit.localId = id
    ∧ unit.startLine = a.startLine ∧ unit.endLine = a.endLine }
  have finite : twins.Finite := by
    refine (List.finite_toSet (units.map (·.localId))).subset ?_
    intro id twin
    obtain ⟨unit, member, same, -⟩ := twin
    exact List.mem_map.mpr ⟨unit, member, same⟩
  obtain ⟨id, twin, free⟩ :=
    exists_free_of_acyclic acyclic finite ⟨a.localId, a, first, rfl, rfl, rfl⟩
  obtain ⟨unit, member, same, begins, closes⟩ := twin
  obtain ⟨twin, listed, other, beside, beneath⟩ : ∃ twin ∈ units, twin.localId ≠ unit.localId
      ∧ twin.startLine = unit.startLine ∧ twin.endLine = unit.endLine := by
    by_cases own : a.localId = unit.localId
    · refine ⟨b, second, fun same => ?_, by omega, by omega⟩
      exact apart (unlinked.eq_of_id first second (own.trans same.symm))
    · exact ⟨a, first, own, begins.symm, closes.symm⟩
  obtain ⟨parent, tight⟩ := exists_tightest listed other (encloses_iff.mpr (by omega))
  obtain ⟨starts', ends'⟩ := tight.same_range listed other beside beneath (by omega)
  refine free parent.localId
    ⟨parent, tight.member, rfl, starts'.trans begins, ends'.trans closes⟩ ?_
  exact ⟨unit, member, same, .inr ⟨unlinked.free unit member, parent, tight, rfl⟩⟩

theorem Unlinked.reachable (unlinked : Unlinked units) : Reachable units := by
  intro unit member _ outer listed strict
  refine ⟨outer, listed, fun same => ?_, strict.1⟩
  cases unlinked.eq_of_id listed member same
  exact strict.2 ⟨rfl, rfl⟩

/-- The parents form a forest as long as set links and links to tightest units close no cycle;
of units without links, as long as no two have one range. -/
theorem forest_iff
    : (Forest units ↔ ¬Cyclic (Leads units) ∧ Reachable units)
      ∧ (Unlinked units → (Forest units ↔ DistinctRanges units)) := by
  refine ⟨forest_iff_leads, fun unlinked => ?_⟩
  rw [forest_iff_leads]
  constructor
  · intro leads
    exact unlinked.distinctRanges leads.1
  · intro ranges
    exact ⟨unlinked.not_cyclic ranges, unlinked.reachable⟩

namespace Twins

def unit (name : String) (startLine endLine : Int) : ExtractedSemanticUnit where
  localId := name
  languageKind := "function"
  qualifiedName := name
  startLine := startLine
  endLine := endLine

/-- A class and its method, one range within the other. -/
theorem nested_forest : Forest [unit "outer" 1 10, unit "inner" 2 5] := by
  have unlinked : Unlinked [unit "outer" 1 10, unit "inner" 2 5] := {
    distinct := by decide
    free := by simp [unit]
  }
  refine (forest_iff.2 unlinked).mpr ?_
  intro a first b second
  simp only [List.mem_cons, List.not_mem_nil, or_false] at first second
  rcases first with rfl | rfl <;> rcases second with rfl | rfl <;> simp [unit]

/-- Two units of one line are each other's parents, although neither had one before. -/
theorem not_forest
    : ¬∀ units, ¬Cyclic (ParentOf units) → Forest units := by
  intro all
  have bare : ¬Cyclic (ParentOf [unit "a" 1 1, unit "b" 1 1]) := by
    intro cyclic
    obtain ⟨node, loop⟩ := cyclic
    obtain ⟨next, link, -⟩ := TransGen.head'_iff.mp loop
    obtain ⟨child, member, -, linked⟩ := link
    simp only [List.mem_cons, List.not_mem_nil, or_false] at member
    rcases member with rfl | rfl <;> simp [unit] at linked
  refine (all _ bare).acyclic ⟨"a", .tail (b := "b") (.single ?_) ?_⟩
  · exact ⟨{ unit "a" 1 1 with parentLocalId := some "b" }, by decide +kernel, rfl, rfl⟩
  · exact ⟨{ unit "b" 1 1 with parentLocalId := some "a" }, by decide +kernel, rfl, rfl⟩

end Twins

end Murder.Extraction
