import Murder.Contracts.Identifiers
import Murder.Library.Pages
import Murder.Storage.Database

/-! The append-only fact log and its projection inputs.
A fact id is an idempotency identity: appending the same content again converges on the
stored row, and different content under a used id is refused.
-/

namespace Murder.Facts

open Murder.Contracts Murder.Storage Library.Tables Library.Transactions

/-- The stored content is the content of the draft. -/
def sameFact (existing : RetainedFactRecord) (draft : RetainedFactDraft) : Bool :=
  existing.draft == draft

variable (draft : RetainedFactDraft) (recordedAt : Timestamp) (sourceFactId : Uuid)
  (projectionInputs : List ProjectionInputDraft)

/-- Store a new fact under the next sequence number. -/
def insertFact : Sql RetainedFactRecord := do
  let db ← get
  let record : RetainedFactRecord := {
    sequence := db.facts.lastFactSequence + 1
    recordedAt := recordedAt
    draft := draft
  }
  insertInto fun db => do
    let retained ← db.facts.retained.insert? record
    pure { db with facts := {
      db.facts with
        retained := retained
        lastFactSequence := record.sequence
    } }
  pure record

/-- The row of a fact id: the one stored under it, or a new one. -/
def retainFact : Sql RetainedFactRecord := do
  let db ← get
  match db.facts.retained.find? (fun record => record.factId == draft.factId) with
  | none => insertFact draft recordedAt
  | some existing =>
    raiseIf (¬ sameFact existing draft)
      (.factIdentityConflict s!"fact id {draft.factId} already identifies different content")
    pure existing

/-- `INSERT … ON CONFLICT DO NOTHING`: a clashing projection input is dropped. -/
def insertProjectionInput (createdAt : Timestamp) (item : ProjectionInputDraft) : Sql Unit :=
  modify fun db =>
    let record : ProjectionInputRecord := {
      sequence := db.facts.lastInputSequence + 1
      inputId := item.inputId
      sourceFactId := some sourceFactId
      projection := item.projection
      subjectKey := item.subjectKey
      generation := item.generation
      createdAt := createdAt
    }
    match db.facts.inputs.insert? record with
    | some inputs =>
      { db with facts := {
        db.facts with
          inputs := inputs
          lastInputSequence := record.sequence
      } }
    | none => db

def appendFact (recordedAt : Timestamp) : Sql (RetainedFactRecord × List ProjectionInputRecord) :=
  transaction do
    raiseIf (¬ draft.actor.valid) (.valueError "fact actor does not validate")
    let fact ← retainFact draft recordedAt
    projectionInputs.forM (insertProjectionInput draft.factId recordedAt)
    let db ← get
    pure (fact, db.facts.inputs.select (fun input => input.sourceFactId == some draft.factId))

/-- The two states differ at most in their fact log. -/
def OnlyFacts (start stop : Database) : Prop := stop = { start with facts := stop.facts }

variable {start stop : Database}

namespace OnlyFacts

instance : IsPreorder Database OnlyFacts where
  refl _ := rfl
  trans start middle stop hl hr := by
    unfold OnlyFacts at *
    rw [hr, hl]

theorem repositoryId (h : OnlyFacts start stop)
    : stop.repositoryId = start.repositoryId := by rw [h]

theorem workflows (h : OnlyFacts start stop)
    : stop.workflows = start.workflows := by rw [h]

theorem activities (h : OnlyFacts start stop)
    : stop.activities = start.activities := by rw [h]

end OnlyFacts

theorem insertFact_onlyFacts
    : Relates OnlyFacts (insertFact draft recordedAt) := by
  refine Relates.bind .get (fun db => ?_)
  refine Relates.bind (Relates.insertInto (fun start stop h => ?_)) (fun _ => .pure _)
  obtain ⟨retained, -, hm⟩ := Option.bind_eq_some_iff.mp h
  cases hm
  rfl

theorem retainFact_onlyFacts
    : Relates OnlyFacts (retainFact draft recordedAt) := by
  refine Relates.bind .get (fun db => ?_)
  split
  · exact insertFact_onlyFacts draft recordedAt
  · exact .bind (.raiseIf _ _) (fun _ => .pure _)

theorem insertProjectionInput_onlyFacts (createdAt : Timestamp) (item : ProjectionInputDraft)
    : Relates OnlyFacts (insertProjectionInput sourceFactId createdAt item) := by
  apply Relates.modify
  intro db
  dsimp only
  split <;> rfl

/-- An append touches nothing but the fact log, whether it inserts, converges or raises. -/
theorem appendFact_onlyFacts (recordedAt : Timestamp)
    : Relates OnlyFacts (appendFact draft projectionInputs recordedAt) := by
  refine Relates.transaction (fun start value stop h => Relates.returns ?_ h)
  refine Relates.bind (.raiseIf _ _) (fun _ => ?_)
  refine Relates.bind (retainFact_onlyFacts draft recordedAt) (fun fact => ?_)
  refine Relates.bind (Relates.forM (insertProjectionInput_onlyFacts _ _)) (fun _ => ?_)
  exact .bind .get (fun _ => .pure _)

/-- Facts were at most appended, under sequences nobody had before. -/
def FactsGrow (start stop : Database) : Prop :=
  Library.Pages.Extends RetainedFactRecord.sequence start.facts.retained.rows
    start.facts.lastFactSequence stop.facts.retained.rows stop.facts.lastFactSequence

instance : IsPreorder Database FactsGrow where
  refl _ := .refl
  trans _ _ _ hl hr := Library.Pages.Extends.trans hl hr

theorem factsGrow_of_same (h : stop.facts = start.facts)
    : FactsGrow start stop := by
  unfold FactsGrow
  rw [h]
  exact .refl

theorem insertFact_grows
    : Relates FactsGrow (insertFact draft recordedAt) := by
  apply Relates.intro
  · intro start record stop h
    simp only [insertFact, returns_bind, returns_get, returns_insertInto, returns_pure] at h
    obtain ⟨_, _, ⟨rfl, rfl⟩, _, _, inserted, -, rfl⟩ := h
    obtain ⟨retained, added, hm⟩ := Option.bind_eq_some_iff.mp inserted
    cases hm
    refine ⟨⟨_, (Table.insert?_eq_some added).2, by simp [Library.Pages.Increasing], ?_⟩,
      Nat.le_succ _⟩
    intro row member
    rw [List.mem_singleton.mp member]
    exact ⟨Nat.lt_succ_self _, Nat.le_refl _⟩
  · intro start failure stop h
    rcases raises_bind.mp h with h | ⟨_, _, hg, h⟩
    · cases h
    obtain ⟨rfl, rfl⟩ := returns_get.mp hg
    rcases raises_bind.mp h with h | ⟨_, _, -, h⟩
    · rw [raises_insertInto h]
      exact .refl
    · cases h

theorem retainFact_grows
    : Relates FactsGrow (retainFact draft recordedAt) := by
  refine Relates.bind .get (fun db => ?_)
  split
  · exact insertFact_grows draft recordedAt
  · exact .bind (.raiseIf _ _) (fun _ => .pure _)

theorem insertProjectionInput_grows (createdAt : Timestamp) (item : ProjectionInputDraft)
    : Relates FactsGrow (insertProjectionInput sourceFactId createdAt item) := by
  apply Relates.modify
  intro db
  dsimp only
  split
  · exact .refl
  · exact .refl

theorem appendFact_grows (recordedAt : Timestamp)
    : Relates FactsGrow (appendFact draft projectionInputs recordedAt) := by
  refine Relates.transaction (fun start value stop h => Relates.returns ?_ h)
  refine Relates.bind (.raiseIf _ _) (fun _ => ?_)
  refine Relates.bind (retainFact_grows draft recordedAt) (fun fact => ?_)
  refine Relates.bind (Relates.forM (insertProjectionInput_grows _ _)) (fun _ => ?_)
  exact .bind .get (fun _ => .pure _)

end Murder.Facts
