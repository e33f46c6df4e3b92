import Murder.Evidence.Store

/-! Deliveries of the evidence ledger over histories of its operations.
The tables refine a ledger of entries that each operation keeps, settles or drops, and an
entry of that ledger is told by the operations behind its delivery.
-/

namespace Murder.Evidence

/-- An entry with its scope and the draft it was prepared from. -/
structure LiveEntry where
  key : ScopeKey
  deliveryId : String
  entryId : Nat
  draft : LedgerEntryDraft
  status : EvidenceLedgerStatus
deriving DecidableEq

namespace LedgerOperation

def Cleans (key : ScopeKey) : LedgerOperation → Prop
  | cleanupScope scope => scope.key = key
  | cleanupSession sessionId => key.sessionId = sessionId
  | cleanupRepository repositoryRoot => key.repositoryRoot = repositoryRoot
  | _ => False

instance (key : ScopeKey) (operation : LedgerOperation) : Decidable (operation.Cleans key) := by
  cases operation <;> unfold Cleans <;> infer_instance

/-- A delivery is stored whole or not at all. -/
def Accepts (drafts : List LedgerEntryDraft) : Prop :=
  drafts ≠ [] ∧ ∀ draft ∈ drafts, draft.text.length ≤ maxEvidenceBlobChars

instance (drafts : List LedgerEntryDraft) : Decidable (Accepts drafts) :=
  inferInstanceAs (Decidable (_ ∧ _))

def stored : LedgerOperation → List LedgerEntryDraft
  | prepareEntries _ drafts _ => if Accepts drafts then drafts else []
  | _ => []

end LedgerOperation

namespace LiveEntry

def settle (entry : LiveEntry) (deliveryId : String) (status : EvidenceLedgerStatus)
    : LiveEntry :=
  if entry.deliveryId = deliveryId ∧ entry.status = .prepared then { entry with status := status }
  else entry

def next (operation : LedgerOperation) (entry : LiveEntry) : Option LiveEntry :=
  match operation with
  | .markSupplied deliveryId => some (entry.settle deliveryId .supplied)
  | .markAbandoned deliveryId => some (entry.settle deliveryId .abandoned)
  | .cleanupAbandonedDeliveries => if entry.status = .abandoned then none else some entry
  | operation => if operation.Cleans entry.key then none else some entry

def fate (entry : LiveEntry) (operations : List LedgerOperation) : Option LiveEntry :=
  operations.foldl (fun left operation => left.bind (next operation)) (some entry)

end LiveEntry

structure LiveLedger where
  entries : List LiveEntry := []
  nextEntryId : Nat := 1

def deliveredEntries (key : ScopeKey) (deliveryId : String)
    : Nat → List LedgerEntryDraft → List LiveEntry
  | _, [] => []
  | entryId, draft :: drafts =>
    ⟨key, deliveryId, entryId, draft, .prepared⟩
      :: deliveredEntries key deliveryId (entryId + 1) drafts

def LedgerOperation.born (operation : LedgerOperation) (entryId : Nat) : List LiveEntry :=
  match operation with
  | .prepareEntries scope _ deliveryId =>
    deliveredEntries scope.key deliveryId entryId operation.stored
  | _ => []

def LiveLedger.step (ledger : LiveLedger) (operation : LedgerOperation) : LiveLedger where
  entries := ledger.entries.filterMap (LiveEntry.next operation)
    ++ operation.born ledger.nextEntryId
  nextEntryId := ledger.nextEntryId + operation.stored.length

def LiveLedger.run (history : List LedgerOperation) : LiveLedger :=
  history.foldl LiveLedger.step {}

def storedCount (history : List LedgerOperation) : Nat :=
  (history.map (fun operation => operation.stored.length)).sum

def SuppliedFirst (deliveryId : String) (operations : List LedgerOperation) : Prop :=
  ∃ front behind, operations = front ++ .markSupplied deliveryId :: behind
    ∧ .markAbandoned deliveryId ∉ front

/-- A draft delivered to a scope, supplied before abandoned, of a scope not cleaned since. -/
def Supplies (history : List LedgerOperation) (entry : LiveEntry) : Prop :=
  ∃ before scope drafts behind,
    history = before ++ .prepareEntries scope drafts entry.deliveryId :: behind
    ∧ scope.key = entry.key ∧ LedgerOperation.Accepts drafts
    ∧ (∃ index, drafts[index]? = some entry.draft
      ∧ entry.entryId = storedCount before + 1 + index)
    ∧ SuppliedFirst entry.deliveryId behind
    ∧ (∀ operation ∈ behind, ¬ operation.Cleans entry.key)
    ∧ entry.status = .supplied

namespace LiveEntry

variable {entry left : LiveEntry} {operations : List LedgerOperation}

@[simp] theorem fate_nil : entry.fate [] = some entry := rfl

theorem fate_append (operations : List LedgerOperation) (operation : LedgerOperation)
    : entry.fate (operations ++ [operation]) = (entry.fate operations).bind (next operation) := by
  rw [fate, List.foldl_append]
  rfl

theorem fate_cons (operation : LedgerOperation) (operations : List LedgerOperation)
    : entry.fate (operation :: operations)
      = (entry.next operation).bind (·.fate operations) := by
  induction operations using List.reverseRecOn with
  | nil => simp [fate]
  | append_singleton operations last ih =>
    rw [← List.cons_append, fate_append, ih, Option.bind_assoc]
    simp only [fate_append]

/-- A settled entry only waits for its cleanup. -/
theorem next_settled (settled : entry.status ≠ .prepared) (operation : LedgerOperation)
    : entry.next operation = some entry ∧ ¬ operation.Cleans entry.key
      ∨ entry.next operation = none
        ∧ (operation.Cleans entry.key ∨ entry.status = .abandoned) := by
  cases operation with
  | prepareEntries _ _ _ => exact .inl ⟨rfl, not_false⟩
  | markSupplied deliveryId =>
    exact .inl ⟨congrArg some (if_neg (fun pending => settled pending.2)), not_false⟩
  | markAbandoned deliveryId =>
    exact .inl ⟨congrArg some (if_neg (fun pending => settled pending.2)), not_false⟩
  | cleanupAbandonedDeliveries =>
    by_cases abandoned : entry.status = .abandoned
    · exact .inr ⟨if_pos abandoned, .inr abandoned⟩
    · exact .inl ⟨if_neg abandoned, not_false⟩
  | cleanupScope scope =>
    by_cases cleans : (LedgerOperation.cleanupScope scope).Cleans entry.key
    · exact .inr ⟨if_pos cleans, .inl cleans⟩
    · exact .inl ⟨if_neg cleans, cleans⟩
  | cleanupSession sessionId =>
    by_cases cleans : (LedgerOperation.cleanupSession sessionId).Cleans entry.key
    · exact .inr ⟨if_pos cleans, .inl cleans⟩
    · exact .inl ⟨if_neg cleans, cleans⟩
  | cleanupRepository repositoryRoot =>
    by_cases cleans : (LedgerOperation.cleanupRepository repositoryRoot).Cleans entry.key
    · exact .inr ⟨if_pos cleans, .inl cleans⟩
    · exact .inl ⟨if_neg cleans, cleans⟩

theorem fate_settled (settled : entry.status ≠ .prepared)
    (kept : entry.fate operations = some left)
    : left = entry := by
  induction operations with
  | nil => exact (Option.some.inj kept).symm
  | cons operation operations ih =>
    rw [fate_cons] at kept
    rcases next_settled settled operation with stays | gone
    · rw [stays.1] at kept
      exact ih kept
    · rw [gone.1] at kept
      cases kept

theorem fate_supplied (supplied : entry.status = .supplied)
    : entry.fate operations = some entry
      ↔ ∀ operation ∈ operations, ¬ operation.Cleans entry.key := by
  have settled : entry.status ≠ .prepared := by
    rw [supplied]
    decide
  induction operations with
  | nil => simp
  | cons operation operations ih =>
    rw [fate_cons, List.forall_mem_cons]
    rcases next_settled settled operation with stays | gone
    · rw [stays.1]
      simp [stays.2, ih]
    · rw [gone.1]
      rcases gone.2 with cleans | abandoned
      · simp [cleans]
      · rw [supplied] at abandoned
        cases abandoned

end LiveEntry

variable {deliveryId : String}

theorem suppliedFirst_nil : ¬ SuppliedFirst deliveryId [] := by
  intro ⟨front, behind, parts, _⟩
  cases front <;> cases parts

theorem suppliedFirst_cons {operation : LedgerOperation} {operations : List LedgerOperation}
    : SuppliedFirst deliveryId (operation :: operations)
      ↔ operation = .markSupplied deliveryId
        ∨ operation ≠ .markAbandoned deliveryId ∧ SuppliedFirst deliveryId operations := by
  constructor
  · intro ⟨front, behind, parts, free⟩
    cases front with
    | nil => exact .inl (List.cons.inj parts).1
    | cons first front =>
      obtain ⟨rfl, rest⟩ := List.cons.inj parts
      refine .inr ⟨fun same => free (same ▸ List.mem_cons_self), front, behind, rest, ?_⟩
      exact fun inside => free (List.mem_cons_of_mem _ inside)
  · intro first
    rcases first with same | later
    · exact ⟨[], operations, by rw [same]; rfl, List.not_mem_nil⟩
    · obtain ⟨other, front, behind, parts, free⟩ := later
      refine ⟨operation :: front, behind, by rw [parts]; rfl, fun inside => ?_⟩
      rcases List.mem_cons.mp inside with same | among
      · exact other same.symm
      · exact free among

namespace LiveEntry

variable {entry left : LiveEntry} {operation : LedgerOperation}
  {operations : List LedgerOperation}

theorem next_prepared (prepared : entry.status = .prepared)
    (unsupplied : operation ≠ .markSupplied entry.deliveryId)
    (unabandoned : operation ≠ .markAbandoned entry.deliveryId)
    : entry.next operation = if operation.Cleans entry.key then none else some entry := by
  cases operation with
  | prepareEntries _ _ _ => rfl
  | cleanupScope _ => rfl
  | cleanupSession _ => rfl
  | cleanupRepository _ => rfl
  | cleanupAbandonedDeliveries =>
    refine (if_neg (fun abandoned => ?_)).trans (if_neg not_false).symm
    rw [prepared] at abandoned
    cases abandoned
  | markSupplied deliveryId =>
    refine congrArg some (if_neg (fun pending => ?_))
    exact unsupplied (congrArg _ pending.1.symm)
  | markAbandoned deliveryId =>
    refine congrArg some (if_neg (fun pending => ?_))
    exact unabandoned (congrArg _ pending.1.symm)

/-- A prepared entry ends supplied exactly when it was supplied first and never cleaned, by
induction on the operations. -/
theorem fate_prepared (prepared : entry.status = .prepared)
    : entry.fate operations = some left ∧ left.status = .supplied
      ↔ SuppliedFirst entry.deliveryId operations
        ∧ (∀ operation ∈ operations, ¬ operation.Cleans entry.key)
        ∧ left = { entry with status := .supplied } := by
  induction operations with
  | nil =>
    constructor
    · intro ⟨same, supplied⟩
      cases same
      rw [prepared] at supplied
      cases supplied
    · intro ⟨supplied, _⟩
      exact absurd supplied suppliedFirst_nil
  | cons operation operations ih =>
    rw [fate_cons, suppliedFirst_cons, List.forall_mem_cons]
    by_cases supplies : operation = .markSupplied entry.deliveryId
    · have settled : entry.next operation = some { entry with status := .supplied } := by
        rw [supplies]
        exact congrArg some (if_pos ⟨rfl, prepared⟩)
      have waits := @fate_supplied { entry with status := .supplied } operations rfl
      rw [settled, Option.bind_some]
      constructor
      · intro ⟨kept, _⟩
        have same := fate_settled (by simp) kept
        subst same
        exact ⟨.inl supplies, ⟨supplies ▸ not_false, waits.mp kept⟩, rfl⟩
      · intro ⟨_, uncleaned, same⟩
        subst same
        exact ⟨waits.mpr uncleaned.2, rfl⟩
    · by_cases abandons : operation = .markAbandoned entry.deliveryId
      · have settled : entry.next operation = some { entry with status := .abandoned } := by
          rw [abandons]
          exact congrArg some (if_pos ⟨rfl, prepared⟩)
        rw [settled, Option.bind_some]
        constructor
        · intro ⟨kept, supplied⟩
          have same := fate_settled (by simp) kept
          subst same
          cases supplied
        · intro ⟨first, _⟩
          simp [abandons] at first
      · rw [next_prepared prepared supplies abandons]
        by_cases cleans : operation.Cleans entry.key
        · simp [cleans]
        · rw [if_neg cleans, Option.bind_some, ih]
          simp [supplies, abandons, cleans]

end LiveEntry

theorem mem_deliveredEntries {key : ScopeKey} {entryId : Nat}
    {drafts : List LedgerEntryDraft} {entry : LiveEntry}
    : entry ∈ deliveredEntries key deliveryId entryId drafts
      ↔ entry.key = key ∧ entry.deliveryId = deliveryId ∧ entry.status = .prepared
        ∧ ∃ index, drafts[index]? = some entry.draft ∧ entry.entryId = entryId + index := by
  induction drafts generalizing entryId with
  | nil => simp [deliveredEntries]
  | cons draft drafts ih =>
    rw [deliveredEntries, List.mem_cons, ih]
    constructor
    · intro member
      rcases member with same | later
      · subst same
        exact ⟨rfl, rfl, rfl, 0, rfl, rfl⟩
      · obtain ⟨key, delivery, status, index, found, number⟩ := later
        exact ⟨key, delivery, status, index + 1, found, by omega⟩
    · intro ⟨key, delivery, status, index, found, number⟩
      cases index with
      | zero =>
        cases found
        cases entry
        exact .inl (by simp_all)
      | succ index => exact .inr ⟨key, delivery, status, index, found, by omega⟩

section Histories

variable {history : List LedgerOperation} {entry : LiveEntry}

theorem LiveLedger.run_append (history : List LedgerOperation) (operation : LedgerOperation)
    : LiveLedger.run (history ++ [operation]) = (LiveLedger.run history).step operation := by
  rw [run, List.foldl_append]
  rfl

theorem LiveLedger.run_nextEntryId
    : (LiveLedger.run history).nextEntryId = storedCount history + 1 := by
  induction history using List.reverseRecOn with
  | nil => rfl
  | append_singleton history operation ih =>
    rw [run_append, step, ih]
    simp only [storedCount, List.map_append, List.sum_append, List.map_cons, List.map_nil,
      List.sum_cons, List.sum_nil]
    omega

/-- An entry of the ledger was delivered and came through the operations behind, by induction
on the history from its end. -/
theorem LiveLedger.mem_run
    : entry ∈ (LiveLedger.run history).entries
      ↔ ∃ before operation behind, history = before ++ operation :: behind
        ∧ ∃ born ∈ operation.born (storedCount before + 1), born.fate behind = some entry := by
  induction history using List.reverseRecOn generalizing entry with
  | nil =>
    constructor
    · intro member
      cases member
    · intro ⟨before, operation, behind, parts, _⟩
      simp at parts
  | append_singleton history last ih =>
    rw [run_append, step, List.mem_append, List.mem_filterMap, run_nextEntryId]
    constructor
    · intro member
      rcases member with kept | born
      · obtain ⟨earlier, member, left⟩ := kept
        obtain ⟨before, operation, behind, parts, born, delivered, fate⟩ := ih.mp member
        refine ⟨before, operation, behind ++ [last], by simp [parts], born, delivered, ?_⟩
        rw [LiveEntry.fate_append, fate, Option.bind_some, left]
      · exact ⟨history, last, [], rfl, entry, born, rfl⟩
    · intro ⟨before, operation, behind, parts, born, delivered, fate⟩
      cases behind using List.reverseRecOn with
      | nil =>
        obtain ⟨same, first⟩ := List.append_inj' parts rfl
        cases fate
        cases first
        subst same
        exact .inr delivered
      | append_singleton behind final =>
        rw [← List.cons_append, ← List.append_assoc] at parts
        obtain ⟨same, final⟩ := List.append_inj' parts rfl
        cases final
        rw [LiveEntry.fate_append] at fate
        obtain ⟨earlier, kept, left⟩ := Option.bind_eq_some_iff.mp fate
        exact .inl ⟨earlier, ih.mpr ⟨before, operation, behind, same, born, delivered, kept⟩,
          left⟩

theorem LiveLedger.mem_run_supplied
    : entry ∈ (LiveLedger.run history).entries ∧ entry.status = .supplied
      ↔ Supplies history entry := by
  rw [mem_run]
  constructor
  · intro ⟨⟨before, operation, behind, parts, born, delivered, fate⟩, supplied⟩
    cases operation with
    | prepareEntries scope drafts deliveryId =>
      obtain ⟨key, delivery, prepared, index, found, number⟩ :=
        mem_deliveredEntries.mp delivered
      obtain ⟨first, uncleaned, same⟩ :=
        (LiveEntry.fate_prepared prepared).mp ⟨fate, supplied⟩
      subst same
      subst delivery
      by_cases accepts : LedgerOperation.Accepts drafts
      · rw [LedgerOperation.stored, if_pos accepts] at found
        exact ⟨before, scope, drafts, behind, parts, key.symm, accepts, ⟨index, found, number⟩,
          first, uncleaned, rfl⟩
      · rw [LedgerOperation.stored, if_neg accepts] at found
        cases found
    | markSupplied _ => cases delivered
    | markAbandoned _ => cases delivered
    | cleanupScope _ => cases delivered
    | cleanupSession _ => cases delivered
    | cleanupRepository _ => cases delivered
    | cleanupAbandonedDeliveries => cases delivered
  · intro ⟨before, scope, drafts, behind, parts, key, accepts, found, first, uncleaned, supplied⟩
    have kept := (@LiveEntry.fate_prepared { entry with status := .prepared } entry behind rfl).mpr
      ⟨first, uncleaned, by rw [← supplied]⟩
    refine ⟨⟨before, _, behind, parts, { entry with status := .prepared }, ?_, kept.1⟩, supplied⟩
    obtain ⟨index, found, number⟩ := found
    refine mem_deliveredEntries.mpr ⟨key.symm, rfl, rfl, index, ?_, number⟩
    rw [LedgerOperation.stored, if_pos accepts]
    exact found

end Histories

end Murder.Evidence
