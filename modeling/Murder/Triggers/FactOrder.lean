import Mathlib
import Murder.Library.Runs
import Murder.Triggers.Delivery

/-! What a fact trigger fires over a run of ticks: the matching facts behind its starting
cursor, in order and without a hole, wherever a tick stopped.
-/

namespace Murder.Triggers

open Murder.Contracts Murder.Facts Murder.Storage Murder.Workflows Library
open Library.Tables

theorem setCursor_base (triggerId : Uuid) (cursor : String) (now : Timestamp)
    (store : TriggerDatabase)
    : (setCursor triggerId cursor now store).base = store.base := by
  unfold setCursor
  dsimp only
  split <;> rfl

/-- Moving a cursor fires nothing. -/
theorem setCursor_unfired (triggerId : Uuid) (cursor : String) (now : Timestamp)
    (store : TriggerDatabase)
    : Unfired store (setCursor triggerId cursor now store) := by
  unfold setCursor
  dsimp only
  split
  · exact ⟨rfl, rfl, Outside.refl _⟩
  · exact ⟨rfl, rfl, Outside.refl _⟩

theorem moveCursor_keeps (cursor : String) (now : Timestamp)
    : Table.KeepsKeys cursorClash (fun row : CursorRow =>
        { row with cursor := cursor, updatedAt := now }) :=
  ⟨fun _ _ => rfl, fun _ _ => rfl⟩

theorem getCursor_setCursor (triggerId : Uuid) (cursor : String) (now : Timestamp)
    (store : TriggerDatabase)
    : getCursor (setCursor triggerId cursor now store).tables triggerId = some cursor := by
  unfold getCursor setCursor
  dsimp only
  split
  · next cursors inserted =>
      obtain ⟨fresh, rows⟩ := Table.insert?_eq_some inserted
      have found : cursors.find? (fun row => row.triggerId == triggerId)
          = some { triggerId := triggerId, cursor := cursor, updatedAt := now } := by
        refine Table.find?_eq_some ?_ (beq_self_eq_true _) (fun other member same => ?_)
        · exact (Table.mem_of_insert? inserted).mpr (.inr rfl)
        · rcases (Table.mem_of_insert? inserted).mp member with old | new
          · have apart := fresh other old
            unfold cursorClash at apart
            rw [same] at apart
            cases apart
          · exact new
      rw [found]
      rfl
  · next refused =>
      have stored : ∃ row ∈ store.tables.cursors, row.triggerId = triggerId := by
        by_contra none_
        push Not at none_
        let row : CursorRow := { triggerId := triggerId, cursor := cursor, updatedAt := now }
        have apart : ∀ stored ∈ store.tables.cursors, cursorClash stored row = false := by
          intro stored member
          simpa [cursorClash] using none_ stored member
        obtain ⟨next, inserted, -⟩ := Table.insert?_of_apart apart
        rw [inserted] at refused
        cases refused
      obtain ⟨row, member, rfl⟩ := stored
      refine Option.map_eq_some_iff.mpr ⟨{ row with cursor := cursor, updatedAt := now }, ?_, rfl⟩
      refine Table.find?_eq_some
        (Table.mem_update_of (moveCursor_keeps cursor now) member (beq_self_eq_true _))
        (beq_self_eq_true _) (fun other changed same => ?_)
      simp only [Table.mem_update] at changed
      obtain ⟨old, hold, rfl⟩ := changed
      have equal : old.triggerId = row.triggerId := by
        split at same
        · exact eq_of_beq same
        · exact eq_of_beq same
      rw [Table.eq_of_clash hold member (by simp [cursorClash, equal])
        (by simp [cursorClash, equal])]
      simp

theorem getCursor_setCursor_other {triggerId other : Uuid} (apart : triggerId ≠ other)
    (cursor : String) (now : Timestamp) (store : TriggerDatabase)
    : getCursor (setCursor triggerId cursor now store).tables other
      = getCursor store.tables other := by
  unfold getCursor setCursor
  dsimp only
  split
  · next cursors inserted =>
      rw [Table.find?_insert?_apart inserted (by simpa using apart)]
  · have missed : ∀ row : CursorRow,
        (row.triggerId == triggerId) = true → (row.triggerId == other) = false := by
      intro row same
      rw [eq_of_beq same]
      simpa using apart
    exact congrArg (Option.map CursorRow.cursor)
      (Table.find?_update_apart (moveCursor_keeps cursor now) missed missed)

theorem isCursorKey_sequence (sequence : Nat) : isCursorKey (toString sequence) = false := by
  have digits : (toString sequence).toList = Nat.toDigits 10 sequence := by simp [Nat.repr]
  have noUnderscore : '_' ∉ Nat.toDigits 10 sequence := Nat.underscore_not_in_toDigits
  unfold isCursorKey
  rw [digits]
  cases h : Nat.toDigits 10 sequence with
  | nil => rfl
  | cons first rest =>
    rw [h] at noUnderscore
    have other : '_' ≠ first := fun same => noUnderscore (same ▸ List.mem_cons_self)
    simp [cursorPrefix, List.isPrefixOf, other]

theorem isCursorKey_move (text : String) : isCursorKey (cursorPrefix ++ text) = true := by
  simp [isCursorKey, String.toList_append]

theorem cursorText_move (text : String) : cursorText (cursorPrefix ++ text) = text := by
  rw [cursorText, String.toList_append, List.drop_left' String.length_toList,
    String.ofList_toList]

theorem cursorSequence_sequence (sequence : Nat)
    : cursorSequence (some (toString sequence)) = some sequence :=
  Nat.toNat?_repr sequence

def ofKind (factKind : String) (fact : RetainedFactRecord) : Bool :=
  fact.draft.payload.kind == factKind

def sequenceKey (fact : RetainedFactRecord) : String := toString fact.sequence

/-- The facts a fact trigger reads behind a cursor. -/
def laterOfKind (db : Database) (factKind : String) (after : Nat) : List RetainedFactRecord :=
  Pages.later RetainedFactRecord.sequence (ofKind factKind) after db.facts.retained.rows

def firedKeys (store : TriggerDatabase) (triggerId : Uuid) : List String :=
  (store.tables.firings.select (fun firing => firing.triggerId == triggerId)).map
    TriggerFiringRecord.occurrenceKey

/-- The log a trigger reads, as the database keeps it. -/
def FactsOrdered (db : Database) : Prop :=
  Pages.Ordered RetainedFactRecord.sequence db.facts.retained.rows db.facts.lastFactSequence

variable {key : String} {firing : TriggerFiringRecord} {start stop : TriggerDatabase}

section Fired

variable {triggerId : Uuid} {factKind : String}

theorem mem_firedKeys {store : TriggerDatabase}
    : key ∈ firedKeys store triggerId
      ↔ ∃ firing ∈ store.tables.firings,
          firing.triggerId = triggerId ∧ firing.occurrenceKey = key := by
  simp [firedKeys, and_assoc]

theorem findFiring_some {store : TriggerDatabase}
    (found : findFiring store.tables triggerId key = some firing)
    : key ∈ firedKeys store triggerId := by
  obtain ⟨member, same⟩ := Table.mem_of_find? found
  simp only [Bool.and_eq_true, beq_iff_eq] at same
  exact mem_firedKeys.mpr ⟨firing, member, same⟩

theorem findFiring_none {store : TriggerDatabase}
    (missing : findFiring store.tables triggerId key = none)
    : key ∉ firedKeys store triggerId := by
  intro member
  obtain ⟨firing, stored, owner, same⟩ := mem_firedKeys.mp member
  have absent := Table.find?_eq_none.mp missing firing stored
  simp [owner, same] at absent

theorem Fired.firedKeys {owner : Uuid} (fired : Fired owner key firing start stop)
    : Murder.Triggers.firedKeys stop triggerId
      = Murder.Triggers.firedKeys start triggerId
        ++ if owner = triggerId then [key] else [] := by
  have rows := (Table.insert?_eq_some fired.firings).2
  unfold Murder.Triggers.firedKeys Table.select
  rw [rows, List.filter_append, List.map_append]
  by_cases same : owner = triggerId
  · simp [fired.owner, fired.key, same]
  · simp [fired.owner, same]

theorem Fired.grows {owner : Uuid} (fired : Fired owner key firing start stop)
    : FactsGrow start.base stop.base := by
  obtain ⟨trigger, -, -, performed⟩ := fired.trigger
  exact performed.grows

theorem Unfired.firedKeys (h : Unfired start stop)
    : Murder.Triggers.firedKeys stop triggerId = Murder.Triggers.firedKeys start triggerId := by
  unfold Murder.Triggers.firedKeys
  rw [h.firings]

/-- Behind the next fact of a held page lie the rest of the page and of the log. -/
theorem laterOfKind_next {db : Database} {after : Nat} (ordered : FactsOrdered db)
    {fact : RetainedFactRecord} {facts : List RetainedFactRecord}
    (held : fact :: facts <+: laterOfKind db factKind after)
    : ∃ rest, laterOfKind db factKind after = fact :: rest
        ∧ facts <+: laterOfKind db factKind fact.sequence := by
  obtain ⟨more, whole⟩ := held
  refine ⟨facts ++ more, whole.symm, ?_⟩
  have tail : laterOfKind db factKind fact.sequence = facts ++ more :=
    Pages.later_tail ordered.increasing whole.symm
  rw [tail]
  exact List.prefix_append _ _

end Fired

section FactTrigger

variable [FactPayloadDump]

def wants (factKind : String) (predicate : JsonObject) (fact : RetainedFactRecord) : Bool :=
  ofKind factKind fact && factMatches predicate fact

def matchingFacts (db : Database) (factKind : String) (predicate : JsonObject) (after : Nat)
    : List RetainedFactRecord :=
  Pages.later RetainedFactRecord.sequence (wants factKind predicate) after db.facts.retained.rows

def passed (db : Database) (factKind : String) (predicate : JsonObject) (first after : Nat)
    : List RetainedFactRecord :=
  Pages.between RetainedFactRecord.sequence (wants factKind predicate) first after
    db.facts.retained.rows

/-- Where a fact trigger's cursor stands, what it fired, and that it skipped nothing. -/
structure Progress (triggerId : Uuid) (factKind : String) (predicate : JsonObject)
    (first after : Nat) (store : TriggerDatabase) : Prop where
  cursor : cursorSequence (getCursor store.tables triggerId) = some after
  behind : first ≤ after
  reached : after = first ∨ after ≤ store.base.facts.lastFactSequence
  due
    : firedKeys store triggerId
      <+: (matchingFacts store.base factKind predicate first).map sequenceKey
  complete
    : (passed store.base factKind predicate first after).length
      ≤ (firedKeys store triggerId).length

variable {triggerId : Uuid} {factKind : String} {predicate : JsonObject} {first after : Nat}

theorem wants_ofKind (fact : RetainedFactRecord) (h : wants factKind predicate fact = true)
    : ofKind factKind fact = true := by
  unfold wants at h
  rw [Bool.and_eq_true] at h
  exact h.1

theorem matchingFacts_next {db : Database} (ordered : FactsOrdered db) (behind : first ≤ after)
    {fact : RetainedFactRecord} {rest : List RetainedFactRecord}
    (next : laterOfKind db factKind after = fact :: rest)
    : passed db factKind predicate first fact.sequence
        = passed db factKind predicate first after
          ++ [fact].filter (wants factKind predicate)
      ∧ matchingFacts db factKind predicate first
        = passed db factKind predicate first fact.sequence
          ++ matchingFacts db factKind predicate fact.sequence := by
  have member : fact ∈ laterOfKind db factKind after := by simp [next]
  have above := (Pages.mem_later.mp member).2.1
  have whole : passed db factKind predicate first fact.sequence
      ++ matchingFacts db factKind predicate fact.sequence
      = matchingFacts db factKind predicate first :=
    Pages.between_append_later ordered.increasing (by omega)
  have window : passed db factKind predicate first after
      ++ passed db factKind predicate after fact.sequence
      = passed db factKind predicate first fact.sequence :=
    Pages.between_append ordered.increasing behind (by omega)
  have alone : passed db factKind predicate after fact.sequence
      = [fact].filter (wants factKind predicate) :=
    Pages.between_next ordered.increasing wants_ofKind next
  rw [alone] at window
  exact ⟨window.symm, whole.symm⟩

theorem sequenceKey_not_mem {db : Database} {fact : RetainedFactRecord}
    (above : after < fact.sequence)
    : sequenceKey fact ∉ (passed db factKind predicate first after).map sequenceKey := by
  intro member
  obtain ⟨other, old, same⟩ := List.mem_map.mp member
  have upto := (Pages.mem_between.mp old).2.2.1
  have equal : other.sequence = fact.sequence := Nat.repr_injective same
  omega

/-- Progress survives growth of the log, and firings that were due. -/
theorem Progress.grow (progress : Progress triggerId factKind predicate first after start)
    (facts : FactsGrow start.base stop.base)
    (cursor : getCursor stop.tables triggerId = getCursor start.tables triggerId)
    (more : firedKeys start triggerId <+: firedKeys stop triggerId)
    (due
      : firedKeys stop triggerId
        <+: (matchingFacts start.base factKind predicate first).map sequenceKey)
    : Progress triggerId factKind predicate first after stop := by
  have le := facts.le
  constructor
  · rw [cursor]
    exact progress.cursor
  · exact progress.behind
  · rcases progress.reached with same | le'
    · exact .inl same
    · exact .inr (by omega)
  · exact due.trans ((facts.later_prefix first).map sequenceKey)
  · have window : passed stop.base factKind predicate first after
        = passed start.base factKind predicate first after := by
      rcases progress.reached with same | le'
      · subst same
        have nothing : ∀ db, passed db factKind predicate after after = [] := by
          intro db
          refine List.filter_eq_nil_iff.mpr (fun fact _ => ?_)
          simp only [Bool.and_eq_true, decide_eq_true_eq, not_and]
          omega
        rw [nothing, nothing]
      · exact facts.between_eq le'
    rw [window]
    exact progress.complete.trans more.length_le

section Next

variable {store : TriggerDatabase} {fact : RetainedFactRecord} {rest : List RetainedFactRecord}

theorem Progress.due_next
    (progress : Progress triggerId factKind predicate first after store)
    (ordered : FactsOrdered store.base)
    (next : laterOfKind store.base factKind after = fact :: rest)
    (matching : factMatches predicate fact = true)
    : (matchingFacts store.base factKind predicate first).map sequenceKey
        = (passed store.base factKind predicate first after).map sequenceKey
          ++ sequenceKey fact
            :: (matchingFacts store.base factKind predicate fact.sequence).map sequenceKey := by
  have member : fact ∈ laterOfKind store.base factKind after := by simp [next]
  have kind := (Pages.mem_later.mp member).2.2
  have wanted : wants factKind predicate fact = true := by simp [wants, kind, matching]
  obtain ⟨window, whole⟩ := @matchingFacts_next _ _ predicate _ _ _ ordered progress.behind _ _ next
  rw [whole, window, List.filter_cons_of_pos wanted]
  simp

theorem Progress.fired_next
    (progress : Progress triggerId factKind predicate first after store)
    (ordered : FactsOrdered store.base)
    (next : laterOfKind store.base factKind after = fact :: rest)
    (matching : factMatches predicate fact = true)
    : firedKeys store triggerId
        = (passed store.base factKind predicate first after).map sequenceKey
      ∨ (passed store.base factKind predicate first after).map sequenceKey
          ++ [sequenceKey fact] <+: firedKeys store triggerId := by
  have due := progress.due
  rw [progress.due_next ordered next matching] at due
  exact Pages.prefix_next due (by simpa using progress.complete)

theorem Progress.fresh_due
    (progress : Progress triggerId factKind predicate first after store)
    (ordered : FactsOrdered store.base)
    (next : laterOfKind store.base factKind after = fact :: rest)
    (matching : factMatches predicate fact = true)
    (fresh : sequenceKey fact ∉ firedKeys store triggerId)
    : firedKeys store triggerId ++ [sequenceKey fact]
        <+: (matchingFacts store.base factKind predicate first).map sequenceKey := by
  rcases progress.fired_next ordered next matching with stops | held
  · rw [stops, progress.due_next ordered next matching]
    refine (List.prefix_append_right_inj _).mpr ?_
    simp
  · exact absurd (held.subset (by simp)) fresh

/-- The cursor may move over the next fact once its key is fired, if it matches. -/
theorem Progress.move {stop : TriggerDatabase}
    (progress : Progress triggerId factKind predicate first after store)
    (ordered : FactsOrdered store.base)
    (next : laterOfKind store.base factKind after = fact :: rest)
    (fired : factMatches predicate fact = true → sequenceKey fact ∈ firedKeys store triggerId)
    (base : stop.base = store.base)
    (cursor : getCursor stop.tables triggerId = some (sequenceKey fact))
    (same : firedKeys stop triggerId = firedKeys store triggerId)
    : Progress triggerId factKind predicate first fact.sequence stop := by
  have member : fact ∈ laterOfKind store.base factKind after := by simp [next]
  obtain ⟨stored, above, kind⟩ := Pages.mem_later.mp member
  have behind := progress.behind
  constructor
  · rw [cursor]
    exact cursorSequence_sequence fact.sequence
  · omega
  · right
    rw [base]
    exact ordered.bound fact stored
  · rw [base, same]
    exact progress.due
  · obtain ⟨window, -⟩ := @matchingFacts_next _ _ predicate _ _ _ ordered behind _ _ next
    rw [base, same, window]
    cases matching : factMatches predicate fact with
    | false => simpa [wants, matching] using progress.complete
    | true =>
      have wanted : wants factKind predicate fact = true := by simp [wants, kind, matching]
      rcases progress.fired_next ordered next matching with stops | held
      · have member := fired matching
        rw [stops] at member
        exact absurd member (sequenceKey_not_mem above)
      · have length := held.length_le
        simpa [wanted] using length

end Next

/-- Progress survives a step that fires nothing and leaves the cursor alone. -/
theorem Progress.unfired (progress : Progress triggerId factKind predicate first after start)
    (unfired : Unfired start stop)
    (cursor : getCursor stop.tables triggerId = getCursor start.tables triggerId)
    : Progress triggerId factKind predicate first after stop := by
  have fired : firedKeys stop triggerId = firedKeys start triggerId := unfired.firedKeys
  refine progress.grow unfired.outside.facts cursor ?_ ?_
  · rw [fired]
  · rw [fired]
    exact progress.due

def Held (factKind : String) (predicate : JsonObject) (after : Nat) (store : TriggerDatabase)
    (keys : List String) : Prop :=
  ∃ facts, facts <+: laterOfKind store.base factKind after
    ∧ keys = facts.map (factKey predicate)

/-- The key in hand is fired and that of the next fact, with the held keys behind it. -/
def Claimed (triggerId : Uuid) (factKind : String) (predicate : JsonObject) (after : Nat)
    (store : TriggerDatabase) (key : String) (keys : List String) : Prop :=
  ∃ fact facts, fact :: facts <+: laterOfKind store.base factKind after
    ∧ key = sequenceKey fact ∧ key ∈ firedKeys store triggerId
    ∧ keys = facts.map (factKey predicate)

def Pending (triggerId : Uuid) (factKind : String) (predicate : JsonObject) (after : Nat)
    (store : TriggerDatabase) : Phase → Prop
  | .idle => True
  | .scanning .. => True
  | .working _ trigger keys _ =>
    trigger.triggerId = triggerId → Held factKind predicate after store keys
  | .waking _ trigger key keys _ _ =>
    trigger.triggerId = triggerId → Claimed triggerId factKind predicate after store key keys
  | .moving _ trigger key keys _ =>
    trigger.triggerId = triggerId → Claimed triggerId factKind predicate after store key keys

/-- What a tick holds stays good while the log grows and firings are added. -/
theorem Pending.grow {phase : Phase}
    (pending : Pending triggerId factKind predicate after start phase)
    (facts : FactsGrow start.base stop.base)
    (more : firedKeys start triggerId <+: firedKeys stop triggerId)
    : Pending triggerId factKind predicate after stop phase := by
  have grown : laterOfKind start.base factKind after <+: laterOfKind stop.base factKind after :=
    facts.later_prefix after
  have claimed : ∀ {key keys},
      Claimed triggerId factKind predicate after start key keys
      → Claimed triggerId factKind predicate after stop key keys := by
    intro key keys h
    obtain ⟨fact, rest, next, same, fired, held⟩ := h
    exact ⟨fact, rest, next.trans grown, same, more.subset fired, held⟩
  cases phase with
  | idle => trivial
  | scanning tick rest => trivial
  | working tick trigger keys rest =>
    intro owner
    obtain ⟨held, next, same⟩ := pending owner
    exact ⟨held, next.trans grown, same⟩
  | waking tick trigger key keys rest workflowId => exact fun owner => claimed (pending owner)
  | moving tick trigger key keys rest => exact fun owner => claimed (pending owner)

theorem pending_of_resting {store : TriggerDatabase} {phase : Phase}
    (resting : phase = .idle ∨ ∃ tick rest, phase = .scanning tick rest)
    : Pending triggerId factKind predicate after store phase := by
  rcases resting with rfl | ⟨tick, rest, rfl⟩
  · trivial
  · trivial

theorem factKey_occurrence {fact : RetainedFactRecord}
    (occurrence : isCursorKey (factKey predicate fact) = false)
    : factMatches predicate fact = true ∧ factKey predicate fact = sequenceKey fact := by
  unfold factKey at *
  cases matching : factMatches predicate fact with
  | true => exact ⟨rfl, if_pos rfl⟩
  | false =>
    rw [matching, if_neg (by simp), isCursorKey_move] at occurrence
    cases occurrence

theorem factKey_move {fact : RetainedFactRecord}
    (move : isCursorKey (factKey predicate fact) = true)
    : factMatches predicate fact = false
      ∧ cursorText (factKey predicate fact) = sequenceKey fact := by
  unfold factKey at *
  cases matching : factMatches predicate fact with
  | true =>
    rw [matching, if_pos rfl, isCursorKey_sequence] at move
    cases move
  | false =>
    rw [if_neg (by simp)]
    exact ⟨rfl, cursorText_move _⟩

end FactTrigger

end Murder.Triggers
