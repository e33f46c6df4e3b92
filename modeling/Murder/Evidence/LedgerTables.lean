import Mathlib.Data.List.Pairwise
import Murder.Evidence.Deliveries

/-! The tables of the evidence ledger refine the ledger of its live entries. -/

namespace Murder.Evidence

/-- Paired lists stay paired where both sides keep or drop their items together. -/
theorem exists_pairs {α β : Type} {good : α → β → Prop} {f : α → Option α} {g : β → Option β}
    {pairs : List (α × β)}
    (each : ∀ pair ∈ pairs, f pair.1 = none ∧ g pair.2 = none
      ∨ ∃ a b, f pair.1 = some a ∧ g pair.2 = some b ∧ good a b)
    : ∃ after : List (α × β), (pairs.map Prod.fst).filterMap f = after.map Prod.fst
      ∧ (pairs.map Prod.snd).filterMap g = after.map Prod.snd
      ∧ ∀ pair ∈ after, good pair.1 pair.2 := by
  induction pairs with
  | nil => exact ⟨[], rfl, rfl, fun _ none_ => absurd none_ List.not_mem_nil⟩
  | cons pair pairs ih =>
    obtain ⟨after, lefts, rights, goods⟩ :=
      ih (fun other member => each other (List.mem_cons_of_mem _ member))
    rcases each pair List.mem_cons_self with gone | kept
    · refine ⟨after, ?_, ?_, goods⟩
      · rw [List.map_cons, List.filterMap_cons_none gone.1, lefts]
      · rw [List.map_cons, List.filterMap_cons_none gone.2, rights]
    · obtain ⟨a, b, left, right, fits⟩ := kept
      refine ⟨(a, b) :: after, ?_, ?_, ?_⟩
      · rw [List.map_cons, List.filterMap_cons_some left, lefts]
        rfl
      · rw [List.map_cons, List.filterMap_cons_some right, rights]
        rfl
      · intro other member
        rcases List.mem_cons.mp member with same | among
        · rw [same]
          exact fits
        · exact goods other among

variable {operation : LedgerOperation} {deliveryId : String} {scope : EvidenceScope}

section Tables

variable [Sha256]

def LiveEntry.row (entry : LiveEntry) (scopeId : Nat) : EntryRow where
  entryId := entry.entryId
  scopeId := scopeId
  deliveryId := entry.deliveryId
  path := entry.draft.path
  range := entry.draft.range
  sourceHash := entry.draft.sourceHash
  contentHash := Sha256.digest entry.draft.text
  category := entry.draft.category
  payloadKind := entry.draft.payloadKind
  status := entry.status

def blobOf (text : String) : EvidenceBlob := ⟨Sha256.digest text, text⟩

/-- A row stands for an entry, whose scope and text are stored. -/
structure Stands (store : EvidenceStore) (row : EntryRow) (entry : LiveEntry) : Prop where
  fields : row = entry.row row.scopeId
  scope : ⟨row.scopeId, entry.key⟩ ∈ store.scopes
  blob : blobOf entry.draft.text ∈ store.blobs

/-- The tables hold the entries of the ledger; `texts` are those that were ever stored. -/
structure Represents (texts : String → Prop) (store : EvidenceStore) (ledger : LiveLedger)
    : Prop where
  pairs : ∃ pairs : List (EntryRow × LiveEntry), store.entries = pairs.map Prod.fst
    ∧ ledger.entries = pairs.map Prod.snd ∧ ∀ pair ∈ pairs, Stands store pair.1 pair.2
  scopes : store.scopes.Pairwise (fun left right =>
    left.scopeId ≠ right.scopeId ∧ left.key ≠ right.key)
  assigned : ∀ row ∈ store.scopes, row.scopeId < store.nextScopeId
  blobs : store.blobs.Pairwise (fun left right => left.contentHash ≠ right.contentHash)
  digests : ∀ blob ∈ store.blobs, blob = blobOf blob.text ∧ texts blob.text
  next : store.nextEntryId = ledger.nextEntryId

namespace Represents

variable {texts : String → Prop} {store left : EvidenceStore} {ledger : LiveLedger}

/-- An operation that only settles or drops entries, together with scopes. -/
theorem keep (represents : Represents texts store ledger)
    (f : EntryRow → Option EntryRow) (kept : ScopeRow → Bool) (plain : operation.stored = [])
    (entries : left.entries = store.entries.filterMap f)
    (scopes : left.scopes = store.scopes.filter kept) (blobs : left.blobs = store.blobs)
    (nextScopeId : left.nextScopeId = store.nextScopeId)
    (nextEntryId : left.nextEntryId = store.nextEntryId)
    (each : ∀ row entry, Stands store row entry
      → f row = none ∧ entry.next operation = none
        ∨ ∃ row' entry', f row = some row' ∧ entry.next operation = some entry'
          ∧ Stands left row' entry')
    : Represents texts left (ledger.step operation) := by
  obtain ⟨pairs, rows, lives, stands⟩ := represents.pairs
  have born : operation.born ledger.nextEntryId = [] := by
    cases operation with
    | prepareEntries scope drafts deliveryId =>
      rw [LedgerOperation.born, plain]
      rfl
    | _ => rfl
  constructor
  · obtain ⟨after, left', right, goods⟩ :=
      exists_pairs (fun pair member => each pair.1 pair.2 (stands pair member))
    refine ⟨after, by rw [entries, rows, left'], ?_, goods⟩
    rw [LiveLedger.step, born, List.append_nil, lives, right]
  · rw [scopes]
    exact represents.scopes.filter _
  · intro row member
    rw [scopes] at member
    rw [nextScopeId]
    exact represents.assigned row (List.mem_filter.mp member).1
  · rw [blobs]
    exact represents.blobs
  · rw [blobs]
    exact represents.digests
  · rw [nextEntryId, represents.next, LiveLedger.step, plain]
    rfl

/-- Collecting blobs keeps those of the entries. -/
theorem gc (represents : Represents texts store ledger)
    : Represents texts store.gcOrphanedBlobs ledger := by
  obtain ⟨pairs, rows, lives, stands⟩ := represents.pairs
  refine ⟨⟨pairs, rows, lives, fun pair member => ?_⟩, represents.scopes, represents.assigned,
    represents.blobs.filter _,
    fun blob member => represents.digests blob (List.mem_filter.mp member).1, represents.next⟩
  have standing := stands pair member
  refine ⟨standing.fields, standing.scope, List.mem_filter.mpr ⟨standing.blob, ?_⟩⟩
  refine List.any_eq_true.mpr ⟨pair.1, rows ▸ List.mem_map_of_mem member, ?_⟩
  rw [standing.fields]
  exact beq_self_eq_true _

theorem settle (represents : Represents texts store ledger) {status : EvidenceLedgerStatus}
    (plain : operation.stored = [])
    (next : ∀ entry : LiveEntry, entry.next operation = some (entry.settle deliveryId status))
    : Represents texts (store.settle deliveryId status) (ledger.step operation) := by
  refine represents.keep _ (fun _ => true) plain (congrFun List.filterMap_eq_map.symm _) ?_ rfl
    rfl rfl ?_
  · exact (List.filter_eq_self.mpr (fun _ _ => rfl)).symm
  · intro row entry standing
    refine .inr ⟨_, _, rfl, next entry, ?_⟩
    have fields := standing.fields
    have delivery : row.deliveryId = entry.deliveryId := congrArg EntryRow.deliveryId fields
    have same : row.status = entry.status := congrArg EntryRow.status fields
    unfold LiveEntry.settle
    dsimp only
    rw [delivery, same]
    by_cases pending : entry.deliveryId = deliveryId ∧ entry.status = .prepared
    · rw [if_pos pending, if_pos pending]
      refine ⟨?_, standing.scope, standing.blob⟩
      rw [fields]
      rfl
    · rw [if_neg pending, if_neg pending]
      exact ⟨fields, standing.scope, standing.blob⟩

theorem abandoned (represents : Represents texts store ledger)
    : Represents texts store.cleanupAbandonedDeliveries.1
        (ledger.step .cleanupAbandonedDeliveries) := by
  refine gc (represents.keep _ (fun _ => true) rfl (congrFun List.filterMap_eq_filter.symm _) ?_
    rfl rfl rfl ?_)
  · exact (List.filter_eq_self.mpr (fun _ _ => rfl)).symm
  · intro row entry standing
    have same : row.status = entry.status := congrArg EntryRow.status standing.fields
    by_cases gone : entry.status = .abandoned
    · refine .inl ⟨?_, if_pos gone⟩
      simp [Option.guard, same, gone]
    · refine .inr ⟨row, entry, ?_, if_neg gone, standing.fields, standing.scope, standing.blob⟩
      simp [Option.guard, same, gone]

omit [Sha256] in
theorem foldl_deleteScope {scopeIds : List Nat} {deleted : Nat}
    : (scopeIds.foldl EvidenceStore.deleteScope (store, deleted)).1
      = { store with
          entries := store.entries.filter (fun row => decide (row.scopeId ∉ scopeIds))
          scopes := store.scopes.filter (fun row => decide (row.scopeId ∉ scopeIds)) } := by
  induction scopeIds generalizing store deleted with
  | nil => simp
  | cons scopeId scopeIds ih =>
    rw [List.foldl_cons, EvidenceStore.deleteScope, ih]
    simp only [List.filter_filter, List.mem_cons, not_or, Bool.decide_and, Bool.and_comm]

theorem deleteScopes (represents : Represents texts store ledger) {operation : LedgerOperation}
    {scopeIds : List Nat} {deleted : Nat} (plain : operation.stored = [])
    (next : ∀ entry : LiveEntry,
      entry.next operation = if operation.Cleans entry.key then none else some entry)
    (cleans : ∀ row ∈ store.scopes, row.scopeId ∈ scopeIds ↔ operation.Cleans row.key)
    : Represents texts (scopeIds.foldl EvidenceStore.deleteScope (store, deleted)).1
        (ledger.step operation) := by
  rw [foldl_deleteScope]
  refine represents.keep _ _ plain (congrFun List.filterMap_eq_filter.symm _) rfl rfl rfl rfl ?_
  intro row entry standing
  have owned := cleans _ standing.scope
  rw [next]
  by_cases gone : operation.Cleans entry.key
  · refine .inl ⟨?_, if_pos gone⟩
    simp [Option.guard, owned.mpr gone]
  · have stays : row.scopeId ∉ scopeIds := fun inside => gone (owned.mp inside)
    refine .inr ⟨row, entry, ?_, if_neg gone, standing.fields, ?_, standing.blob⟩
    · simp [Option.guard, stays]
    · exact List.mem_filter.mpr ⟨standing.scope, decide_eq_true stays⟩

theorem scope_unique (represents : Represents texts store ledger) {row other : ScopeRow}
    (member : row ∈ store.scopes) (among : other ∈ store.scopes)
    (same : row.scopeId = other.scopeId ∨ row.key = other.key)
    : row = other := by
  by_contra apart
  have symmetric : Std.Symm (fun left right : ScopeRow =>
      left.scopeId ≠ right.scopeId ∧ left.key ≠ right.key) :=
    ⟨fun _ _ differ => ⟨differ.1.symm, differ.2.symm⟩⟩
  have differ := represents.scopes.forall member among apart
  rcases same with id | key
  · exact differ.1 id
  · exact differ.2 key

theorem findScopeId_some (represents : Represents texts store ledger) {scopeId : Nat}
    : store.findScopeId scope = some scopeId ↔ ⟨scopeId, scope.key⟩ ∈ store.scopes := by
  unfold EvidenceStore.findScopeId
  constructor
  · intro found
    obtain ⟨row, first, same⟩ := Option.map_eq_some_iff.mp found
    have key := List.find?_some first
    have member := List.mem_of_find?_eq_some first
    cases row
    simp only [decide_eq_true_eq] at key
    subst same
    subst key
    exact member
  · intro member
    cases found : store.scopes.find? (fun row => decide (row.key = scope.key)) with
    | none => simpa using List.find?_eq_none.mp found _ member
    | some row =>
      have key := List.find?_some found
      have same := represents.scope_unique (List.mem_of_find?_eq_some found) member
        (.inr (of_decide_eq_true key))
      rw [same]
      rfl

omit [Sha256] in
theorem findScopeId_none
    : store.findScopeId scope = none ↔ ∀ row ∈ store.scopes, row.key ≠ scope.key := by
  simp [EvidenceStore.findScopeId]

theorem cleanupScope (represents : Represents texts store ledger) (scope : EvidenceScope)
    : Represents texts (store.cleanupScope scope).1 (ledger.step (.cleanupScope scope)) := by
  unfold EvidenceStore.cleanupScope
  cases found : store.findScopeId scope with
  | none =>
    have absent := findScopeId_none.mp found
    exact @deleteScopes _ texts store ledger represents (.cleanupScope scope) [] 0 rfl
      (fun _ => rfl) (fun row member => by
        simpa [LedgerOperation.Cleans] using fun same => absent row member same.symm)
  | some scopeId =>
    have member := represents.findScopeId_some.mp found
    refine gc (@deleteScopes _ texts store ledger represents (.cleanupScope scope) [scopeId] 0
      rfl (fun _ => rfl) (fun row listed => ?_))
    rw [List.mem_singleton, LedgerOperation.Cleans]
    constructor
    · intro same
      rw [represents.scope_unique listed member (.inl same)]
    · intro same
      rw [represents.scope_unique listed member (.inr same.symm)]

theorem cleanupWhere (represents : Represents texts store ledger)
    {column : ScopeKey → String} {value : String} (plain : operation.stored = [])
    (next : ∀ entry : LiveEntry,
      entry.next operation = if operation.Cleans entry.key then none else some entry)
    (cleans : ∀ key, operation.Cleans key ↔ column key = value)
    : Represents texts (store.cleanupWhere column value).1 (ledger.step operation) := by
  refine gc (represents.deleteScopes plain next (fun row listed => ?_))
  rw [cleans, List.mem_map]
  constructor
  · intro ⟨other, among, same⟩
    obtain ⟨among, holds⟩ := List.mem_filter.mp among
    rw [← represents.scope_unique among listed (.inl same)]
    exact of_decide_eq_true holds
  · intro holds
    exact ⟨row, List.mem_filter.mpr ⟨listed, decide_eq_true holds⟩, rfl⟩

theorem opened (represents : Represents texts store ledger) (scope : EvidenceScope)
    : Represents texts (store.getOrCreateScope scope).2 ledger
      ∧ ⟨(store.getOrCreateScope scope).1, scope.key⟩
        ∈ (store.getOrCreateScope scope).2.scopes := by
  unfold EvidenceStore.getOrCreateScope
  cases found : store.findScopeId scope with
  | some scopeId => exact ⟨represents, represents.findScopeId_some.mp found⟩
  | none =>
    have absent := findScopeId_none.mp found
    obtain ⟨pairs, rows, lives, stands⟩ := represents.pairs
    refine ⟨⟨⟨pairs, rows, lives, fun pair member => ?_⟩, ?_, ?_, represents.blobs,
      represents.digests, represents.next⟩, List.mem_append_right _ (List.mem_singleton_self _)⟩
    · have standing := stands pair member
      exact ⟨standing.fields, List.mem_append_left _ standing.scope, standing.blob⟩
    · refine List.pairwise_append.mpr ⟨represents.scopes, List.pairwise_singleton _ _, ?_⟩
      intro row member other last
      rw [List.mem_singleton.mp last]
      exact ⟨(represents.assigned row member).ne, absent row member⟩
    · intro row member
      rcases List.mem_append.mp member with old | new
      · exact (represents.assigned row old).trans (Nat.lt_succ_self _)
      · rw [List.mem_singleton.mp new]
        exact Nat.lt_succ_self _

theorem upsert (represents : Represents texts store ledger)
    (distinct : ∀ text other, texts text → texts other
      → Sha256.digest text = Sha256.digest other → text = other)
    {text : String} (known : texts text)
    : Represents texts (store.upsertBlob (Sha256.digest text) text) ledger
      ∧ blobOf text ∈ (store.upsertBlob (Sha256.digest text) text).blobs
      ∧ (store.upsertBlob (Sha256.digest text) text).scopes = store.scopes
      ∧ (store.upsertBlob (Sha256.digest text) text).entries = store.entries := by
  unfold EvidenceStore.upsertBlob
  by_cases held : store.blobs.any (·.contentHash == Sha256.digest text) = true
  · rw [if_pos held]
    refine ⟨represents, ?_, rfl, rfl⟩
    obtain ⟨blob, member, same⟩ := List.any_eq_true.mp held
    obtain ⟨written, stored⟩ := represents.digests blob member
    have same := beq_iff_eq.mp same
    rw [written] at same
    have equal := distinct _ _ stored known same
    rw [written, equal] at member
    exact member
  · rw [if_neg held]
    obtain ⟨pairs, rows, lives, stands⟩ := represents.pairs
    refine ⟨⟨⟨pairs, rows, lives, fun pair member => ?_⟩, represents.scopes, represents.assigned,
      ?_, ?_, represents.next⟩, List.mem_append_right _ (List.mem_singleton_self _), rfl, rfl⟩
    · have standing := stands pair member
      exact ⟨standing.fields, standing.scope, List.mem_append_left _ standing.blob⟩
    · refine List.pairwise_append.mpr ⟨represents.blobs, List.pairwise_singleton _ _, ?_⟩
      intro blob member other last same
      rw [List.mem_singleton.mp last] at same
      exact held (List.any_eq_true.mpr ⟨blob, member, beq_iff_eq.mpr same⟩)
    · intro blob member
      rcases List.mem_append.mp member with old | new
      · exact represents.digests blob old
      · rw [List.mem_singleton.mp new]
        exact ⟨rfl, known⟩

theorem insertDraft (represents : Represents texts store ledger)
    (distinct : ∀ text other, texts text → texts other
      → Sha256.digest text = Sha256.digest other → text = other)
    {scopeId : Nat} {key : ScopeKey} {deliveryId : String} {draft : LedgerEntryDraft}
    (owned : ⟨scopeId, key⟩ ∈ store.scopes) (known : texts draft.text)
    (small : draft.text.length ≤ maxEvidenceBlobChars)
    : ∃ next, EvidenceStore.insertDraft scopeId deliveryId store draft = .ok next
      ∧ ⟨scopeId, key⟩ ∈ next.scopes
      ∧ Represents texts next
        ⟨ledger.entries ++ [⟨key, deliveryId, ledger.nextEntryId, draft, .prepared⟩],
          ledger.nextEntryId + 1⟩ := by
  obtain ⟨upserted, blob, scopes, entries⟩ := represents.upsert distinct known
  obtain ⟨pairs, rows, lives, stands⟩ := upserted.pairs
  let entry : LiveEntry := ⟨key, deliveryId, ledger.nextEntryId, draft, .prepared⟩
  refine ⟨_, if_neg (Nat.not_lt.mpr small), ?_, ⟨⟨pairs ++ [(entry.row scopeId, entry)], ?_, ?_,
    ?_⟩, upserted.scopes, upserted.assigned, upserted.blobs, upserted.digests, ?_⟩⟩
  · exact scopes ▸ owned
  · have number : ledger.nextEntryId = _ := upserted.next.symm
    rw [List.map_append, ← rows, List.map_singleton]
    simp only [LiveEntry.row, entry, number]
  · rw [List.map_append, ← lives, List.map_singleton]
  · intro pair member
    rcases List.mem_append.mp member with old | new
    · have standing := stands pair old
      exact ⟨standing.fields, standing.scope, standing.blob⟩
    · rw [List.mem_singleton.mp new]
      exact ⟨rfl, scopes ▸ owned, blob⟩
  · exact congrArg (· + 1) upserted.next

/-- All drafts of a delivery, by induction over them. -/
theorem insertDrafts (represents : Represents texts store ledger)
    (distinct : ∀ text other, texts text → texts other
      → Sha256.digest text = Sha256.digest other → text = other)
    {scopeId : Nat} {key : ScopeKey} {deliveryId : String} {drafts : List LedgerEntryDraft}
    (owned : ⟨scopeId, key⟩ ∈ store.scopes) (known : ∀ draft ∈ drafts, texts draft.text)
    (small : ∀ draft ∈ drafts, draft.text.length ≤ maxEvidenceBlobChars)
    : ∃ next, drafts.foldlM (EvidenceStore.insertDraft scopeId deliveryId) store = .ok next
      ∧ Represents texts next
        ⟨ledger.entries ++ deliveredEntries key deliveryId ledger.nextEntryId drafts,
          ledger.nextEntryId + drafts.length⟩ := by
  induction drafts generalizing store ledger with
  | nil =>
    refine ⟨store, rfl, ?_⟩
    rw [deliveredEntries, List.append_nil]
    exact represents
  | cons draft drafts ih =>
    obtain ⟨middle, inserted, kept, first⟩ := @insertDraft _ texts store ledger represents
      distinct scopeId key deliveryId draft owned (known draft List.mem_cons_self)
      (small draft List.mem_cons_self)
    obtain ⟨next, rest, whole⟩ := ih first kept
      (fun other member => known other (List.mem_cons_of_mem _ member))
      (fun other member => small other (List.mem_cons_of_mem _ member))
    refine ⟨next, ?_, ?_⟩
    · rw [List.foldlM_cons, inserted]
      exact rest
    · rw [List.append_assoc, List.singleton_append] at whole
      rw [List.length_cons, Nat.add_comm drafts.length 1, ← Nat.add_assoc]
      exact whole

omit [Sha256] in
theorem foldlM_refused [Sha256] {scopeId : Nat}
    {drafts : List LedgerEntryDraft} {draft : LedgerEntryDraft} (member : draft ∈ drafts)
    (long : maxEvidenceBlobChars < draft.text.length) {next : EvidenceStore}
    : drafts.foldlM (EvidenceStore.insertDraft scopeId deliveryId) store ≠ .ok next := by
  induction drafts generalizing store with
  | nil => cases member
  | cons first drafts ih =>
    intro stored
    rw [List.foldlM_cons] at stored
    obtain ⟨middle, inserted, rest⟩ := Library.Transactions.except_bind_ok.mp stored
    rcases List.mem_cons.mp member with same | later
    · subst same
      rw [EvidenceStore.insertDraft, if_pos long] at inserted
      cases inserted
    · exact ih later rest

/-- What a ledger step does that stores nothing and settles nothing. -/
theorem prepareEntries (represents : Represents texts store ledger)
    (distinct : ∀ text other, texts text → texts other
      → Sha256.digest text = Sha256.digest other → text = other)
    {drafts : List LedgerEntryDraft} (known : ∀ draft ∈ drafts, texts draft.text)
    : Represents texts (store.step (.prepareEntries scope drafts deliveryId))
        (ledger.step (.prepareEntries scope drafts deliveryId)) := by
  have unchanged : ledger.entries.filterMap
      (LiveEntry.next (.prepareEntries scope drafts deliveryId)) = ledger.entries :=
    List.filterMap_some
  unfold EvidenceStore.step LiveLedger.step
  rw [unchanged]
  dsimp only [LedgerOperation.born]
  by_cases accepts : LedgerOperation.Accepts drafts
  · obtain ⟨some_, small⟩ := accepts
    obtain ⟨open_, owned⟩ := represents.opened scope
    obtain ⟨next, stored, whole⟩ := @insertDrafts _ texts _ ledger open_ distinct _ scope.key
      deliveryId drafts owned known small
    have prepared : store.prepareEntries scope drafts deliveryId = .ok next := by
      rw [EvidenceStore.prepareEntries, if_neg some_]
      exact stored
    rw [prepared, LedgerOperation.stored, if_pos ⟨some_, small⟩]
    exact whole
  · have refused : ∀ next, store.prepareEntries scope drafts deliveryId ≠ .ok next := by
      intro next stored
      unfold EvidenceStore.prepareEntries at stored
      by_cases none_ : drafts = []
      · rw [if_pos none_] at stored
        cases stored
      · rw [if_neg none_] at stored
        refine accepts ⟨none_, fun draft member => Nat.not_lt.mp (fun long => ?_)⟩
        exact foldlM_refused member long stored
    rw [LedgerOperation.stored, if_neg accepts, deliveredEntries, List.append_nil]
    cases result : store.prepareEntries scope drafts deliveryId with
    | ok next => exact absurd result (refused next)
    | error raised => exact represents

theorem step (represents : Represents texts store ledger)
    (distinct : ∀ text other, texts text → texts other
      → Sha256.digest text = Sha256.digest other → text = other)
    {operation : LedgerOperation}
    (known : ∀ scope drafts deliveryId, operation = .prepareEntries scope drafts deliveryId
      → ∀ draft ∈ drafts, texts draft.text)
    : Represents texts (store.step operation) (ledger.step operation) := by
  cases operation with
  | prepareEntries scope drafts deliveryId =>
    exact represents.prepareEntries distinct (known scope drafts deliveryId rfl)
  | markSupplied deliveryId => exact represents.settle rfl (fun _ => rfl)
  | markAbandoned deliveryId => exact (represents.settle rfl (fun _ => rfl)).gc
  | cleanupScope scope => exact represents.cleanupScope scope
  | cleanupSession sessionId =>
    exact represents.cleanupWhere rfl (fun _ => rfl) (fun _ => Iff.rfl)
  | cleanupRepository repositoryRoot =>
    exact represents.cleanupWhere rfl (fun _ => rfl) (fun _ => Iff.rfl)
  | cleanupAbandonedDeliveries => exact represents.abandoned

end Represents

end Tables

end Murder.Evidence
