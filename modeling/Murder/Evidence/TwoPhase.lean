import Murder.Evidence.LedgerTables

/-! What the two-phase ledger holds over every history of its operations. -/

namespace Murder.Evidence

def PreparedText (history : List LedgerOperation) (text : String) : Prop :=
  ∃ scope drafts deliveryId, .prepareEntries scope drafts deliveryId ∈ history
    ∧ ∃ draft ∈ drafts, draft.text = text

def DistinctDigests [Sha256] (history : List LedgerOperation) : Prop :=
  ∀ text other, PreparedText history text → PreparedText history other
    → Sha256.digest text = Sha256.digest other → text = other

def LiveEntry.loaded [Sha256] (entry : LiveEntry) : LoadedEntry where
  entryId := entry.entryId
  deliveryId := entry.deliveryId
  key := entry.key
  path := entry.draft.path
  range := entry.draft.range
  sourceHash := entry.draft.sourceHash
  contentHash := Sha256.digest entry.draft.text
  category := entry.draft.category
  payloadKind := entry.draft.payloadKind
  payloadText := entry.draft.text

def LedgerOperation.isCleanup : LedgerOperation → Bool
  | cleanupScope _ | cleanupSession _ | cleanupRepository _ | cleanupAbandonedDeliveries => true
  | _ => false

variable {operation : LedgerOperation}

section Ledgers

variable {history front behind : List LedgerOperation} {entry other : LiveEntry}

theorem mem_born {entryId : Nat} (member : entry ∈ operation.born entryId)
    : entryId ≤ entry.entryId ∧ entry.entryId < entryId + operation.stored.length := by
  cases operation with
  | prepareEntries scope drafts deliveryId =>
    obtain ⟨-, -, -, index, found, number⟩ := mem_deliveredEntries.mp member
    have bound := (List.getElem?_eq_some_iff.mp found).1
    omega
  | _ => cases member

theorem LiveEntry.next_entryId (kept : entry.next operation = some other)
    : other.entryId = entry.entryId := by
  have settled : ∀ deliveryId status, (entry.settle deliveryId status).entryId = entry.entryId := by
    intro deliveryId status
    unfold LiveEntry.settle
    split <;> rfl
  cases operation with
  | prepareEntries _ _ _ =>
    cases kept
    rfl
  | markSupplied deliveryId =>
    cases kept
    exact settled deliveryId .supplied
  | markAbandoned deliveryId =>
    cases kept
    exact settled deliveryId .abandoned
  | _ =>
    obtain ⟨-, same⟩ := Option.ite_none_left_eq_some.mp kept
    rw [Option.some.inj same]

theorem pairwise_deliveredEntries {key : ScopeKey} {deliveryId : String} {entryId : Nat}
    {drafts : List LedgerEntryDraft}
    : (deliveredEntries key deliveryId entryId drafts).Pairwise
        (fun left right => left.entryId < right.entryId) := by
  induction drafts generalizing entryId with
  | nil => exact .nil
  | cons draft drafts ih =>
    refine List.pairwise_cons.mpr ⟨fun later member => ?_, ih⟩
    obtain ⟨-, -, -, index, -, number⟩ := mem_deliveredEntries.mp member
    show entryId < later.entryId
    omega

/-- Entries have identifiers in order, below the next one. -/
theorem LiveLedger.run_entryIds
    : (LiveLedger.run history).entries.Pairwise (fun left right => left.entryId < right.entryId)
      ∧ ∀ entry ∈ (LiveLedger.run history).entries,
        entry.entryId < (LiveLedger.run history).nextEntryId := by
  induction history using List.reverseRecOn with
  | nil => exact ⟨.nil, fun _ none_ => absurd none_ List.not_mem_nil⟩
  | append_singleton history operation ih =>
    obtain ⟨ordered, below⟩ := ih
    rw [run_append, step]
    have kept : ∀ entry ∈ (LiveLedger.run history).entries.filterMap (LiveEntry.next operation),
        entry.entryId < (LiveLedger.run history).nextEntryId := by
      intro entry member
      obtain ⟨earlier, listed, left⟩ := List.mem_filterMap.mp member
      rw [LiveEntry.next_entryId left]
      exact below earlier listed
    constructor
    · refine List.pairwise_append.mpr ⟨?_, ?_, ?_⟩
      · refine List.pairwise_filterMap.mpr (ordered.imp (fun less left kept right kept' => ?_))
        rw [LiveEntry.next_entryId kept, LiveEntry.next_entryId kept']
        exact less
      · cases operation with
        | prepareEntries _ _ _ => exact pairwise_deliveredEntries
        | _ => exact .nil
      · intro left member right born
        exact (kept left member).trans_le (mem_born born).1
    · intro entry member
      rcases List.mem_append.mp member with old | born
      · exact (kept entry old).trans_le (Nat.le_add_right _ _)
      · exact (mem_born born).2

/-- An entry of a longer history is one of the front or was delivered behind it. -/
theorem LiveLedger.mem_run_append (member : entry ∈ (LiveLedger.run (front ++ behind)).entries)
    : (∃ earlier ∈ (LiveLedger.run front).entries, earlier.fate behind = some entry
        ∧ earlier.entryId = entry.entryId)
      ∨ (LiveLedger.run front).nextEntryId ≤ entry.entryId := by
  induction behind using List.reverseRecOn generalizing entry with
  | nil =>
    rw [List.append_nil] at member
    exact .inl ⟨entry, member, rfl, rfl⟩
  | append_singleton behind operation ih =>
    rw [← List.append_assoc, run_append, step, List.mem_append, List.mem_filterMap] at member
    rcases member with kept | born
    · obtain ⟨middle, listed, left⟩ := kept
      have same := LiveEntry.next_entryId left
      rcases ih listed with old | new
      · obtain ⟨earlier, among, fate, number⟩ := old
        refine .inl ⟨earlier, among, ?_, number.trans same.symm⟩
        rw [LiveEntry.fate_append, fate, Option.bind_some, left]
      · exact .inr (new.trans same.ge)
    · refine .inr (Nat.le_trans ?_ (mem_born born).1)
      rw [run_nextEntryId, run_nextEntryId]
      simp only [storedCount, List.map_append, List.sum_append]
      omega

/-- A settled entry has its status in every longer history that keeps it. -/
theorem LiveLedger.settled_forever (member : entry ∈ (LiveLedger.run front).entries)
    (settled : entry.status ≠ .prepared)
    (later : other ∈ (LiveLedger.run (front ++ behind)).entries)
    (same : other.entryId = entry.entryId)
    : other = entry := by
  obtain ⟨ordered, below⟩ := @LiveLedger.run_entryIds front
  rcases LiveLedger.mem_run_append later with old | new
  · obtain ⟨earlier, listed, fate, number⟩ := old
    have equal : earlier = entry := by
      by_contra apart
      have symmetric : Std.Symm (fun left right : LiveEntry => left.entryId ≠ right.entryId) :=
        ⟨fun _ _ differ => differ.symm⟩
      exact (ordered.imp Nat.ne_of_lt).forall listed member apart (number.trans same)
    rw [equal] at fate
    exact LiveEntry.fate_settled settled fate
  · have bound := below entry member
    omega

end Ledgers

variable {row : EntryRow}

section Stores

variable [Sha256] {texts : String → Prop} {store : EvidenceStore} {ledger : LiveLedger}

theorem EvidenceStore.run_append (history : List LedgerOperation) (operation : LedgerOperation)
    : EvidenceStore.run (history ++ [operation])
      = (EvidenceStore.run history).step operation := by
  rw [run, List.foldl_append]
  rfl

omit [Sha256] in
theorem EvidenceStore.joined_entryId {loaded : LoadedEntry}
    (joined : store.joined row = some loaded)
    : loaded.entryId = row.entryId := by
  obtain ⟨blob, -, rest⟩ := Option.bind_eq_some_iff.mp joined
  obtain ⟨scope, -, same⟩ := Option.bind_eq_some_iff.mp rest
  cases same
  rfl

/-- The tables refine the ledger over every history. -/
theorem represents_run {history : List LedgerOperation}
    (distinct : ∀ text other, texts text → texts other
      → Sha256.digest text = Sha256.digest other → text = other)
    (known : ∀ text, PreparedText history text → texts text)
    : Represents texts (EvidenceStore.run history) (LiveLedger.run history) := by
  induction history using List.reverseRecOn with
  | nil =>
    exact ⟨⟨[], rfl, rfl, fun _ none_ => absurd none_ List.not_mem_nil⟩, .nil,
      fun _ none_ => absurd none_ List.not_mem_nil, .nil,
      fun _ none_ => absurd none_ List.not_mem_nil, rfl⟩
  | append_singleton history operation ih =>
    rw [EvidenceStore.run_append, LiveLedger.run_append]
    refine (ih (fun text prepared => known text ?_)).step distinct ?_
    · obtain ⟨scope, drafts, deliveryId, member, drafted⟩ := prepared
      exact ⟨scope, drafts, deliveryId, List.mem_append_left _ member, drafted⟩
    · intro scope drafts deliveryId same draft member
      refine known _ ⟨scope, drafts, deliveryId, ?_, draft, member, rfl⟩
      rw [same]
      exact List.mem_append_right _ (List.mem_singleton_self _)

namespace Represents

theorem joined (represents : Represents texts store ledger) {entry : LiveEntry}
    (standing : Stands store row entry)
    : store.joined row = some entry.loaded := by
  have digest : row.contentHash = Sha256.digest entry.draft.text :=
    congrArg EntryRow.contentHash standing.fields
  have blob : store.blobs.find? (fun blob => decide (blob.contentHash = row.contentHash))
      = some (blobOf entry.draft.text) := by
    cases found : store.blobs.find? (fun blob => decide (blob.contentHash = row.contentHash)) with
    | none =>
      have absent := List.find?_eq_none.mp found _ standing.blob
      exact absurd (decide_eq_true digest.symm) absent
    | some blob =>
      have hash := List.find?_some found
      have same : blob.contentHash = (blobOf entry.draft.text).contentHash :=
        (of_decide_eq_true hash).trans digest
      by_contra apart
      have symmetric : Std.Symm (fun left right : EvidenceBlob =>
        left.contentHash ≠ right.contentHash) := ⟨fun _ _ differ => differ.symm⟩
      exact represents.blobs.forall (List.mem_of_find?_eq_some found) standing.blob
        (fun equal => apart (congrArg some equal)) same
  have scope : store.scopes.find? (fun scope => decide (scope.scopeId = row.scopeId))
      = some ⟨row.scopeId, entry.key⟩ := by
    cases found : store.scopes.find? (fun scope => decide (scope.scopeId = row.scopeId)) with
    | none =>
      have absent := List.find?_eq_none.mp found _ standing.scope
      exact absurd (decide_eq_true rfl) absent
    | some scope =>
      have same := List.find?_some found
      rw [represents.scope_unique (List.mem_of_find?_eq_some found) standing.scope
        (.inl (of_decide_eq_true same))]
  unfold EvidenceStore.joined
  rw [blob, scope]
  have fields := standing.fields
  simp only [Option.bind_eq_bind, Option.bind_some, Option.pure_def]
  rw [fields]
  rfl

theorem mem_loadSupplied (represents : Represents texts store ledger) {scope : EvidenceScope}
    {loaded : LoadedEntry}
    : loaded ∈ store.loadSupplied scope
      ↔ ∃ entry ∈ ledger.entries, entry.status = .supplied ∧ entry.key = scope.key
        ∧ entry.loaded = loaded := by
  obtain ⟨pairs, rows, lives, stands⟩ := represents.pairs
  unfold EvidenceStore.loadSupplied
  cases found : store.findScopeId scope with
  | none =>
    have absent := findScopeId_none.mp found
    constructor
    · intro member
      cases member
    · intro ⟨entry, member, _, key, _⟩
      rw [lives] at member
      obtain ⟨pair, listed, rfl⟩ := List.mem_map.mp member
      exact absurd key (absent _ (stands pair listed).scope)
  | some scopeId =>
    have owned := represents.findScopeId_some.mp found
    simp only [List.mem_filterMap, List.mem_insertionSort, List.mem_filter, decide_eq_true_eq]
    constructor
    · intro ⟨row, ⟨member, same, supplied⟩, joined⟩
      rw [rows] at member
      obtain ⟨pair, listed, rfl⟩ := List.mem_map.mp member
      have standing := stands pair listed
      rw [represents.joined standing] at joined
      refine ⟨pair.2, lives ▸ List.mem_map_of_mem listed, ?_, ?_, Option.some.inj joined⟩
      · rw [← supplied]
        exact (congrArg EntryRow.status standing.fields).symm
      · exact congrArg ScopeRow.key
          (represents.scope_unique standing.scope owned (.inl same))
    · intro ⟨entry, member, supplied, key, loaded⟩
      rw [lives] at member
      obtain ⟨pair, listed, rfl⟩ := List.mem_map.mp member
      have standing := stands pair listed
      refine ⟨pair.1, ⟨rows ▸ List.mem_map_of_mem listed, ?_, ?_⟩, ?_⟩
      · exact congrArg ScopeRow.scopeId
          (represents.scope_unique standing.scope owned (.inr key))
      · rw [← supplied]
        exact congrArg EntryRow.status standing.fields
      · rw [represents.joined standing, loaded]

theorem nodup_loadSupplied (represents : Represents texts store ledger)
    (ordered : ledger.entries.Pairwise (fun left right => left.entryId < right.entryId))
    (scope : EvidenceScope)
    : ((store.loadSupplied scope).map (·.entryId)).Nodup := by
  obtain ⟨pairs, rows, lives, stands⟩ := represents.pairs
  have distinct : store.entries.Pairwise (fun left right => left.entryId ≠ right.entryId) := by
    rw [lives, List.pairwise_map] at ordered
    rw [rows, List.pairwise_map]
    refine ordered.imp_of_mem (fun left right less same => ?_)
    rw [(stands _ left).fields, (stands _ right).fields] at same
    exact less.ne same
  unfold EvidenceStore.loadSupplied
  cases found : store.findScopeId scope with
  | none => exact .nil
  | some scopeId =>
    have sorted := ((distinct.filter (fun row => decide (row.scopeId = scopeId
      ∧ row.status = .supplied))).perm
        (List.perm_insertionSort EntryRow.Before _).symm (fun differ => differ.symm))
    refine List.pairwise_map.mpr (List.pairwise_filterMap.mpr (sorted.imp ?_))
    intro left right differ first joined second joined'
    rw [EvidenceStore.joined_entryId joined, EvidenceStore.joined_entryId joined']
    exact differ

theorem blob_of_row (represents : Represents texts store ledger) (member : row ∈ store.entries)
    : ∃ blob ∈ store.blobs, blob.contentHash = row.contentHash := by
  obtain ⟨pairs, rows, -, stands⟩ := represents.pairs
  rw [rows] at member
  obtain ⟨pair, listed, rfl⟩ := List.mem_map.mp member
  have standing := stands pair listed
  exact ⟨_, standing.blob, (congrArg EntryRow.contentHash standing.fields).symm⟩

theorem entry_of_row (represents : Represents texts store ledger) (member : row ∈ store.entries)
    : ∃ entry ∈ ledger.entries, row = entry.row row.scopeId := by
  obtain ⟨pairs, rows, lives, stands⟩ := represents.pairs
  rw [rows] at member
  obtain ⟨pair, listed, rfl⟩ := List.mem_map.mp member
  exact ⟨pair.2, lives ▸ List.mem_map_of_mem listed, (stands pair listed).fields⟩

/-- A cleanup keeps the rows of a scope it does not clean, abandoned ones apart. -/
theorem cleanup_keeps (represents : Represents texts store ledger)
    (cleanup : operation.isCleanup = true) {key : ScopeKey}
    (member : row ∈ store.entries) (owned : ⟨row.scopeId, key⟩ ∈ store.scopes)
    (other : ¬ operation.Cleans key)
    (live : operation = .cleanupAbandonedDeliveries → row.status ≠ .abandoned)
    : row ∈ (store.step operation).entries := by
  have whole : ∀ {column : ScopeKey → String} {value : String}, column key ≠ value
      → row ∈ (store.cleanupWhere column value).1.entries := by
    intro column value differ
    unfold EvidenceStore.cleanupWhere EvidenceStore.gcOrphanedBlobs
    dsimp only
    rw [foldl_deleteScope]
    refine List.mem_filter.mpr ⟨member, decide_eq_true (fun inside => ?_)⟩
    obtain ⟨listed, among, same⟩ := List.mem_map.mp inside
    obtain ⟨among, holds⟩ := List.mem_filter.mp among
    rw [represents.scope_unique among owned (.inl same)] at holds
    exact differ (of_decide_eq_true holds)
  cases operation with
  | prepareEntries _ _ _ => cases cleanup
  | markSupplied _ => cases cleanup
  | markAbandoned _ => cases cleanup
  | cleanupSession sessionId => exact whole other
  | cleanupRepository repositoryRoot => exact whole other
  | cleanupAbandonedDeliveries =>
    refine List.mem_filter.mpr ⟨member, ?_⟩
    simpa using live rfl
  | cleanupScope scope =>
    show row ∈ (store.cleanupScope scope).1.entries
    unfold EvidenceStore.cleanupScope
    cases found : store.findScopeId scope with
    | none => exact member
    | some scopeId =>
      refine List.mem_filter.mpr ⟨member, decide_eq_true (fun same => other ?_)⟩
      exact congrArg ScopeRow.key (represents.scope_unique
        (represents.findScopeId_some.mp found) owned (.inl same.symm))

end Represents

/-- Over every history a scope's load is what was supplied to it, once each and with its exact
text; an abandoned entry stays so, a cleanup keeps the entries of other scopes, and every entry
has its blob. -/
theorem ledger_exact (history : List LedgerOperation) (distinct : DistinctDigests history)
    : (∀ scope, (((EvidenceStore.run history).loadSupplied scope).map (·.entryId)).Nodup
        ∧ ∀ loaded, loaded ∈ (EvidenceStore.run history).loadSupplied scope
          ↔ ∃ entry, Supplies history entry ∧ entry.key = scope.key ∧ entry.loaded = loaded)
      ∧ (∀ front behind, history = front ++ behind
        → ∀ row ∈ (EvidenceStore.run front).entries, row.status = .abandoned
        → ∀ later ∈ (EvidenceStore.run history).entries, later.entryId = row.entryId
          → later.status = .abandoned)
      ∧ (∀ operation : LedgerOperation, operation.isCleanup = true
        → ∀ row ∈ (EvidenceStore.run history).entries, ∀ key,
          ⟨row.scopeId, key⟩ ∈ (EvidenceStore.run history).scopes
          → ¬ operation.Cleans key
          → (operation = .cleanupAbandonedDeliveries → row.status ≠ .abandoned)
          → row ∈ ((EvidenceStore.run history).step operation).entries)
      ∧ ∀ row ∈ (EvidenceStore.run history).entries,
        ∃ blob ∈ (EvidenceStore.run history).blobs, blob.contentHash = row.contentHash := by
  have represents := represents_run distinct (fun _ prepared => prepared)
  refine ⟨fun scope => ⟨?_, fun loaded => ?_⟩, ?_, ?_, fun row => represents.blob_of_row⟩
  · exact represents.nodup_loadSupplied LiveLedger.run_entryIds.1 scope
  · rw [represents.mem_loadSupplied]
    constructor
    · intro ⟨entry, member, supplied, key, same⟩
      exact ⟨entry, LiveLedger.mem_run_supplied.mp ⟨member, supplied⟩, key, same⟩
    · intro ⟨entry, supplies, key, same⟩
      obtain ⟨member, supplied⟩ := LiveLedger.mem_run_supplied.mpr supplies
      exact ⟨entry, member, supplied, key, same⟩
  · intro front behind parts row member abandoned later listed same
    have front_ := @represents_run _ _ front distinct (fun text prepared => by
      obtain ⟨scope, drafts, deliveryId, asked, drafted⟩ := prepared
      exact ⟨scope, drafts, deliveryId, parts ▸ List.mem_append_left _ asked, drafted⟩)
    obtain ⟨entry, among, fields⟩ := front_.entry_of_row member
    obtain ⟨entry', among', fields'⟩ := represents.entry_of_row listed
    rw [fields, fields'] at same
    rw [fields] at abandoned
    rw [parts] at among'
    have settled : entry.status ≠ .prepared := by
      intro prepared
      cases prepared.symm.trans abandoned
    have equal := LiveLedger.settled_forever among settled among' same
    rw [fields', equal]
    exact abandoned
  · intro operation cleanup row member key owned other live
    exact represents.cleanup_keeps cleanup member owned other live

end Stores

namespace EmptySession

abbrev sha256 : Sha256 where
  digest text :=
    if text = "x" then "2d711642b726b04401627ca9fbac32f5c8530fb1903cc4db02258717921a4881" else text

def draft : LedgerEntryDraft where
  path := "a.py"
  range := .first
  sourceHash := "old"
  text := "x"
  category := .contract

def scope : EvidenceScope := ⟨"/repo", "/repo", "crow", none, none⟩

def blank : EvidenceScope := ⟨"/repo", "/repo", "crow", some "", none⟩

def history : List LedgerOperation :=
  [.prepareEntries scope [draft] "deliv-1", .markSupplied "deliv-1"]

theorem prepared {text : String} (asked : PreparedText history text) : text = "x" := by
  obtain ⟨other, drafts, deliveryId, member, listed, among, rfl⟩ := asked
  rcases List.mem_cons.mp member with same | later
  · cases same
    rw [List.mem_singleton.mp among]
    rfl
  · cases List.mem_singleton.mp later

theorem distinct : @DistinctDigests sha256 history :=
  fun _ _ asked asked' _ => (prepared asked).trans (prepared asked').symm

theorem exact_scope
    : (((@EvidenceStore.run sha256 history).loadSupplied scope).map (·.entryId)).Nodup
      ∧ ∀ loaded, loaded ∈ (@EvidenceStore.run sha256 history).loadSupplied scope
        ↔ ∃ entry, Supplies history entry ∧ entry.key = scope.key
          ∧ @LiveEntry.loaded sha256 entry = loaded :=
  (@ledger_exact sha256 history distinct).1 scope

/-- The entries of a scope without a session are loaded for the empty one. -/
theorem loads_other_scope
    : ¬ ∀ [Sha256] (history : List LedgerOperation), DistinctDigests history
      → ∀ scope, ∀ loaded ∈ (EvidenceStore.run history).loadSupplied scope,
        ∃ drafts, .prepareEntries scope drafts loaded.deliveryId ∈ history := by
  intro claimed
  have loads : (@EvidenceStore.run sha256 history).loadSupplied blank
      = [@LiveEntry.loaded sha256 ⟨scope.key, "deliv-1", 1, draft, .supplied⟩] := by
    decide +kernel
  obtain ⟨drafts, member⟩ := @claimed sha256 history distinct blank _
    (loads ▸ List.mem_singleton_self _)
  rcases List.mem_cons.mp member with same | later
  · have scopes := (LedgerOperation.prepareEntries.inj same).1
    exact absurd scopes (by decide)
  · cases List.mem_singleton.mp later

end EmptySession

end Murder.Evidence
