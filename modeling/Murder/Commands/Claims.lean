import Murder.Library.Runs
import Murder.Commands.Queue

/-! Which claim a finished command answers to, and how often a command is dispatched. -/

namespace Murder.Commands

open Contracts Library.Runs Library.Tables

/-- One dispatch of a command to a worker; the attempt tells two claims of one worker apart. -/
structure Claim where
  commandId : CommandId
  worker : WorkerName
  attempt : Nat
deriving DecidableEq

/-- The claim is the one the row carries. -/
structure Claim.Current (claim : Claim) (row : CommandRow) : Prop where
  inFlight : row.status = .inFlight
  worker : row.claimedBy = some claim.worker
  attempt : row.attemptCount = claim.attempt

/-- What a worker records about a command it worked on. -/
inductive Outcome
  | completed (result : Option JsonObject)
  | failed (lastError : String) (retryable : Bool)

inductive QueueEvent
  | enqueue (command : NewCommand) (now : Timestamp)
  | claim (targetWorker claimedBy : WorkerName) (leaseExpiresAt : Int) (now : Timestamp)
  | renew (commandId : CommandId) (claimedBy : WorkerName) (leaseExpiresAt : Int)
    (now : Timestamp)
  | finish (claim : Claim) (outcome : Outcome) (now : Timestamp)
  | reap (nowEpoch : Int) (now : Timestamp)

/-- The queue, the claims that are neither finished nor reaped, and every dispatch made. -/
structure QueueRun where
  db : RepoDb
  held : List Claim := []
  dispatched : List CommandId := []

def QueueRun.afterClaim (run : QueueRun) (claimedBy : WorkerName)
    : Option CommandRow × RepoDb → QueueRun
  | (none, db) => { run with db := db }
  | (some row, db) => {
      db := db
      held := ⟨row.id, claimedBy, row.attemptCount⟩ :: run.held
      dispatched := row.id :: run.dispatched }

def RepoDb.record (db : RepoDb) (commandId : CommandId) (now : Timestamp) : Outcome → RepoDb
  | .completed result => completeCommand db commandId result now
  | .failed lastError retryable => failCommand db commandId lastError retryable now

def ReapedCommands.mentions (reaped : ReapedCommands) (id : CommandId) : Bool :=
  reaped.retried.contains id || reaped.failed.contains id

def QueueRun.afterReap (run : QueueRun) : ReapedCommands × RepoDb → QueueRun
  | (reaped, db) =>
    { run with
      db := db
      held := run.held.filter (fun claim => !reaped.mentions claim.commandId) }

/-- One call on the queue by some worker; an insert that breaks a constraint changes nothing. -/
inductive QueueStep (maxAttempts : Int) : QueueRun → QueueEvent → QueueRun → Prop
  | enqueued {run command now db} (pending : command.status = .pending)
    (stored : enqueueCommand run.db command now = some db)
    : QueueStep maxAttempts run (.enqueue command now) { run with db := db }
  | refused {run command now} (pending : command.status = .pending)
    (raised : enqueueCommand run.db command now = none)
    : QueueStep maxAttempts run (.enqueue command now) run
  | claim (run targetWorker claimedBy leaseExpiresAt now)
    : QueueStep maxAttempts run (.claim targetWorker claimedBy leaseExpiresAt now)
        (run.afterClaim claimedBy
          (claimNextCommand run.db targetWorker claimedBy leaseExpiresAt now))
  | renew (run commandId claimedBy leaseExpiresAt now)
    : QueueStep maxAttempts run (.renew commandId claimedBy leaseExpiresAt now)
        { run with db := (renewCommandLease run.db commandId claimedBy leaseExpiresAt now).2 }
  | finish (run claim outcome now)
    : QueueStep maxAttempts run (.finish claim outcome now)
        { run with
          db := run.db.record claim.commandId now outcome
          held := run.held.filter (· ≠ claim) }
  | reap (run nowEpoch now)
    : QueueStep maxAttempts run (.reap nowEpoch now)
        (run.afterReap (reapStaleCommands run.db nowEpoch maxAttempts now))

def QueueStart (run : QueueRun) : Prop := ∃ repositoryId, run = { db := { repositoryId } }

def CommandRow.settled (row : CommandRow) : Bool :=
  row.status == .done || row.status == .failed

/-- The row's status and what was recorded about it are the same. -/
structure SameOutcome (row next : CommandRow) : Prop where
  id : next.id = row.id
  status : next.status = row.status
  result : next.result = row.result
  lastError : next.lastError = row.lastError

/-- A step that keeps settled commands, records for the current claim only and stays within
the attempts.
-/
structure FencedStep (maxAttempts : Int) (run : QueueRun) (event : QueueEvent)
    (next : QueueRun) : Prop where
  step : QueueStep maxAttempts run event next
  absorbed
    : ∀ row ∈ run.db.commands, row.settled = true
        → ∃ kept ∈ next.db.commands, SameOutcome row kept
  fenced
    : ∀ claim outcome now, event = .finish claim outcome now
        → ∀ row ∈ run.db.commands, run.db.addressed claim.commandId row = true
          → claim.Current row
  bounded : ∀ id, (next.dispatched.count id : Int) ≤ max 1 maxAttempts

/-- A step in which a worker finishes only a command whose claim it still holds. -/
structure HeldStep (maxAttempts : Int) (run : QueueRun) (event : QueueEvent)
    (next : QueueRun) : Prop where
  step : QueueStep maxAttempts run event next
  held
    : ∀ claim outcome now, event = .finish claim outcome now
        → (∃ row ∈ run.db.commands, run.db.addressed claim.commandId row = true)
        → claim ∈ run.held

/-- A command is in flight under a held claim, and its dispatches are counted. -/
structure CommandSound (maxAttempts : Int) (held : List Claim) (dispatched : List CommandId)
    (row : CommandRow) : Prop where
  holder
    : row.status = .inFlight
        → ∃ worker, row.claimedBy = some worker ∧ ⟨row.id, worker, row.attemptCount⟩ ∈ held
  counted : dispatched.count row.id ≤ row.attemptCount
  bounded : (dispatched.count row.id : Int) ≤ max 1 maxAttempts
  pending
    : row.status = .pending
        → dispatched.count row.id = 0 ∨ (row.attemptCount : Int) < maxAttempts

structure QueueSound (maxAttempts : Int) (run : QueueRun) : Prop where
  home : ∀ row ∈ run.db.commands, row.repositoryId = run.db.repositoryId
  rows : ∀ row ∈ run.db.commands, CommandSound maxAttempts run.held run.dispatched row
  held : ∀ claim ∈ run.held, ∃ row ∈ run.db.commands, row.id = claim.commandId ∧ claim.Current row
  known : ∀ id ∈ run.dispatched, ∃ row ∈ run.db.commands, row.id = id

variable {db : RepoDb} {row other : CommandRow}

theorem command_eq_of_id (hr : row ∈ db.commands)
    (ho : other ∈ db.commands) (same : row.id = other.id)
    : row = other :=
  Table.eq_of_clash hr ho (by simp [commandClash, same]) (by simp [commandClash, same])

theorem addressed_iff {id : CommandId} (home : row.repositoryId = db.repositoryId)
    : db.addressed id row = true ↔ row.id = id := by
  simp [RepoDb.addressed, home]

theorem id_of_addressed {id : CommandId} (h : db.addressed id row = true)
    : row.id = id := by
  simp only [RepoDb.addressed, Bool.and_eq_true, beq_iff_eq] at h
  exact h.1

variable {held : List Claim} {dispatched : List CommandId}

theorem CommandSound.congr {maxAttempts : Int}
    (h : CommandSound maxAttempts held dispatched row) (id : other.id = row.id)
    (status : other.status = row.status) (worker : other.claimedBy = row.claimedBy)
    (attempts : other.attemptCount = row.attemptCount)
    : CommandSound maxAttempts held dispatched other := by
  obtain ⟨holder, counted, bounded, pending⟩ := h
  constructor
  · rw [id, status, worker, attempts]
    exact holder
  · rw [id, attempts]
    exact counted
  · rw [id]
    exact bounded
  · rw [id, status, attempts]
    exact pending

theorem CommandSound.held_of {maxAttempts : Int} {next : List Claim}
    (h : CommandSound maxAttempts held dispatched row)
    (kept : ∀ claim ∈ held, claim.commandId = row.id → claim ∈ next)
    : CommandSound maxAttempts next dispatched row where
  holder inFlight := by
    obtain ⟨worker, claimed, member⟩ := h.holder inFlight
    exact ⟨worker, claimed, kept _ member rfl⟩
  counted := h.counted
  bounded := h.bounded
  pending := h.pending

/-- A row that is not in flight any more keeps its count. -/
theorem CommandSound.released {maxAttempts : Int} {next : List Claim}
    (h : CommandSound maxAttempts held dispatched row) (id : other.id = row.id)
    (attempts : other.attemptCount = row.attemptCount) (idle : other.status ≠ .inFlight)
    (pending : other.status = .pending → (row.attemptCount : Int) < maxAttempts)
    : CommandSound maxAttempts next dispatched other where
  holder inFlight := absurd inFlight idle
  counted := by
    rw [id, attempts]
    exact h.counted
  bounded := by
    rw [id]
    exact h.bounded
  pending waiting := by
    rw [attempts]
    exact .inr (pending waiting)

section Steps

variable {maxAttempts : Int} {run : QueueRun}

theorem queueSound_of_start (h : QueueStart run) : QueueSound maxAttempts run := by
  obtain ⟨repositoryId, rfl⟩ := h
  constructor
  · intro row member
    exact absurd member Table.not_mem_empty
  · intro row member
    exact absurd member Table.not_mem_empty
  · intro claim member
    exact absurd member List.not_mem_nil
  · intro id member
    exact absurd member List.not_mem_nil

theorem QueueSound.enqueued {command : NewCommand} {now : Timestamp}
    (h : QueueSound maxAttempts run) (waiting : command.status = .pending)
    (stored : enqueueCommand run.db command now = some db)
    : QueueSound maxAttempts { run with db := db } := by
  unfold enqueueCommand at stored
  obtain ⟨commands, inserted, rfl⟩ := Option.map_eq_some_iff.mp stored
  have rows : ∀ row, row ∈ commands
      ↔ row ∈ run.db.commands ∨ row = command.row run.db.repositoryId now :=
    fun row => Table.mem_of_insert? inserted
  have fresh : run.dispatched.count command.commandId = 0 := by
    apply List.count_eq_zero.mpr
    intro member
    obtain ⟨row, known, same⟩ := h.known _ member
    have apart := (Table.insert?_eq_some inserted).1 row known
    simp [commandClash, NewCommand.row, same] at apart
  constructor
  · intro row member
    rcases (rows row).mp member with old | rfl
    · exact h.home row old
    · rfl
  · intro row member
    rcases (rows row).mp member with old | rfl
    · exact h.rows row old
    · constructor
      · intro inFlight
        exact absurd (waiting.symm.trans inFlight) (by decide)
      · exact fresh.le.trans (Nat.zero_le _)
      · have none_ : (run.dispatched.count (command.row run.db.repositoryId now).id : Int) = 0 :=
          Int.natCast_eq_zero.mpr fresh
        change (run.dispatched.count _ : Int) ≤ _
        rw [none_]
        omega
      · exact fun _ => .inl fresh
  · intro claim member
    obtain ⟨row, old, current⟩ := h.held claim member
    exact ⟨row, (rows row).mpr (.inl old), current⟩
  · intro id member
    obtain ⟨row, old, same⟩ := h.known id member
    exact ⟨row, (rows row).mpr (.inl old), same⟩

theorem claimNextCommand_cases (db : RepoDb) (targetWorker claimedBy : WorkerName)
    (leaseExpiresAt : Int) (now : Timestamp)
    : claimNextCommand db targetWorker claimedBy leaseExpiresAt now = (none, db)
      ∨ ∃ row ∈ db.commands,
          row.status = .pending ∧ db.addressed row.id row = true
          ∧ claimNextCommand db targetWorker claimedBy leaseExpiresAt now
            = (some (row.claim claimedBy leaseExpiresAt now),
              { db with
                commands := db.commands.update (db.addressed row.id)
                  (.claim claimedBy leaseExpiresAt now) }) := by
  unfold claimNextCommand
  cases found : nextPending db targetWorker with
  | none => exact .inl rfl
  | some row =>
    right
    have selected := (List.mem_insertionSort _).mp (List.mem_of_head? found)
    obtain ⟨stored, matching⟩ := Table.mem_select.mp selected
    simp only [Bool.and_eq_true, beq_iff_eq] at matching
    obtain ⟨⟨home, -⟩, waiting⟩ := matching
    have own : db.addressed row.id row = true := (addressed_iff home).mpr rfl
    refine ⟨row, stored, waiting, own, ?_⟩
    dsimp only
    congr 1
    apply Table.find?_eq_some
    · exact Table.mem_update_of _ stored own
    · exact own
    · intro other member matching
      obtain ⟨old, known, rfl⟩ := Table.mem_update.mp member
      have same : old = row := by
        apply command_eq_of_id known stored
        split at matching
        · exact id_of_addressed matching
        · exact id_of_addressed matching
      rw [same, if_pos own]

theorem QueueSound.claim (h : QueueSound maxAttempts run) (targetWorker claimedBy : WorkerName)
    (leaseExpiresAt : Int) (now : Timestamp)
    : QueueSound maxAttempts
        (run.afterClaim claimedBy
          (claimNextCommand run.db targetWorker claimedBy leaseExpiresAt now)) := by
  rcases claimNextCommand_cases run.db targetWorker claimedBy leaseExpiresAt now with
    nothing | ⟨row, stored, waiting, own, claimed⟩
  · rw [nothing]
    exact h
  rw [claimed]
  have sound := h.rows row stored
  have keeps := CommandRow.claim_keeps claimedBy leaseExpiresAt now
  constructor
  · intro next member
    obtain ⟨old, known, rfl⟩ := (@Table.mem_update _ _ _ _ _ keeps _).mp member
    split
    · exact h.home old known
    · exact h.home old known
  · intro next member
    obtain ⟨old, known, rfl⟩ := (@Table.mem_update _ _ _ _ _ keeps _).mp member
    split
    · next taken =>
        obtain rfl := command_eq_of_id known stored (id_of_addressed taken)
        have counted : (old.id :: run.dispatched).count old.id = run.dispatched.count old.id + 1 :=
          List.count_cons_self
        constructor
        · exact fun _ => ⟨claimedBy, rfl, List.mem_cons_self⟩
        · exact counted.le.trans (Nat.succ_le_succ sound.counted)
        · change ((old.id :: run.dispatched).count old.id : Int) ≤ _
          have first := sound.pending waiting
          have less := sound.counted
          rw [counted]
          omega
        · intro other
          cases other
    · next other =>
        have apart : row.id ≠ old.id := by
          intro same
          exact other ((addressed_iff (h.home old known)).mpr same.symm)
        have same : (row.id :: run.dispatched).count old.id = run.dispatched.count old.id :=
          List.count_cons_of_ne apart
        obtain ⟨holder, counted, bounded, pending⟩ := h.rows old known
        constructor
        · intro inFlight
          obtain ⟨worker, by_, held⟩ := holder inFlight
          exact ⟨worker, by_, List.mem_cons_of_mem _ held⟩
        · exact same.le.trans counted
        · change ((row.id :: run.dispatched).count old.id : Int) ≤ _
          rw [same]
          exact bounded
        · intro idle
          rcases pending idle with none_ | less
          · exact .inl (same.trans none_)
          · exact .inr less
  · intro claim member
    rcases List.mem_cons.mp member with rfl | member
    · have taken := @Table.mem_update_of _ _ _ _ (.claim claimedBy leaseExpiresAt now)
        ⟨fun _ _ => rfl, fun _ _ => rfl⟩ _ stored own
      exact ⟨_, taken, rfl, rfl, rfl, rfl⟩
    · obtain ⟨old, known, same, current⟩ := h.held claim member
      have other : ¬ run.db.addressed row.id old = true := by
        intro taken
        obtain rfl := command_eq_of_id known stored (id_of_addressed taken)
        rw [current.inFlight] at waiting
        cases waiting
      exact ⟨old, Table.mem_update_other keeps known other, same, current⟩
  · intro id member
    have kept : ∃ old ∈ run.db.commands, old.id = id := by
      rcases List.mem_cons.mp member with rfl | member
      · exact ⟨row, stored, rfl⟩
      · exact h.known id member
    obtain ⟨old, known, same⟩ := kept
    refine ⟨_, Table.mem_update_row keeps known, ?_⟩
    split
    · exact same
    · exact same

theorem QueueSound.renew (h : QueueSound maxAttempts run) (commandId : CommandId)
    (claimedBy : WorkerName) (leaseExpiresAt : Int) (now : Timestamp)
    : QueueSound maxAttempts
        { run with
          db := (renewCommandLease run.db commandId claimedBy leaseExpiresAt now).2 } := by
  have keeps := CommandRow.renew_keeps leaseExpiresAt now
  constructor
  · intro next member
    obtain ⟨old, known, rfl⟩ := (@Table.mem_update _ _ _ _ _ keeps _).mp member
    split
    · exact h.home old known
    · exact h.home old known
  · intro next member
    obtain ⟨old, known, rfl⟩ := (@Table.mem_update _ _ _ _ _ keeps _).mp member
    split
    · exact (h.rows old known).congr rfl rfl rfl rfl
    · exact h.rows old known
  · intro claim member
    obtain ⟨old, known, same, current⟩ := h.held claim member
    refine ⟨_, Table.mem_update_row keeps known, ?_⟩
    split
    · exact ⟨same, current.inFlight, current.worker, current.attempt⟩
    · exact ⟨same, current⟩
  · intro id member
    obtain ⟨old, known, same⟩ := h.known id member
    refine ⟨_, Table.mem_update_row keeps known, ?_⟩
    split
    · exact same
    · exact same

theorem mem_record {db : RepoDb} {commandId : CommandId} {now : Timestamp} {outcome : Outcome}
    : ∃ settle : CommandRow → CommandRow,
        (∀ row, (settle row).settled = true ∧ (settle row).id = row.id
          ∧ (settle row).repositoryId = row.repositoryId
          ∧ (settle row).attemptCount = row.attemptCount)
        ∧ ∀ row, row ∈ (db.record commandId now outcome).commands
          ↔ ∃ old ∈ db.commands,
            (if db.addressed commandId old then settle old else old) = row := by
  cases outcome with
  | completed result =>
    have keeps := CommandRow.complete_keeps result now
    exact ⟨.complete result now, fun row => ⟨rfl, rfl, rfl, rfl⟩,
      fun row => @Table.mem_update _ _ _ _ _ keeps _⟩
  | failed lastError retryable =>
    have keeps := CommandRow.fail_keeps lastError retryable now
    exact ⟨.fail lastError retryable now, fun row => ⟨rfl, rfl, rfl, rfl⟩,
      fun row => @Table.mem_update _ _ _ _ _ keeps _⟩

theorem CommandRow.idle_of_settled (h : row.settled = true)
    : row.status ≠ .inFlight ∧ row.status ≠ .pending := by
  unfold CommandRow.settled at h
  cases status : row.status <;> simp [status] at h ⊢

theorem Claim.Current.unique {claim other : Claim} (h : claim.Current row)
    (ho : other.Current row) (same : claim.commandId = other.commandId)
    : claim = other := by
  obtain ⟨id, worker, attempt⟩ := claim
  obtain ⟨id', worker', attempt'⟩ := other
  have workers : worker = worker' := Option.some.inj (h.worker.symm.trans ho.worker)
  have attempts : attempt = attempt' := h.attempt.symm.trans ho.attempt
  have ids : id = id' := same
  rw [ids, workers, attempts]

theorem QueueSound.finish (h : QueueSound maxAttempts run) (claim : Claim) (outcome : Outcome)
    (now : Timestamp)
    (holds : (∃ row ∈ run.db.commands, run.db.addressed claim.commandId row = true)
      → claim ∈ run.held)
    : QueueSound maxAttempts
        { run with
          db := run.db.record claim.commandId now outcome
          held := run.held.filter (· ≠ claim) } := by
  obtain ⟨settle, settled, rows⟩ :=
    @mem_record run.db claim.commandId now outcome
  have home : (run.db.record claim.commandId now outcome).repositoryId = run.db.repositoryId := by
    cases outcome <;> rfl
  constructor
  · intro next member
    obtain ⟨old, known, rfl⟩ := (rows next).mp member
    change _ = (run.db.record claim.commandId now outcome).repositoryId
    rw [home]
    split
    · exact (settled old).2.2.1.trans (h.home old known)
    · exact h.home old known
  · intro next member
    obtain ⟨old, known, rfl⟩ := (rows next).mp member
    split
    · obtain ⟨done, id, -, attempts⟩ := settled old
      have idle := CommandRow.idle_of_settled done
      exact (h.rows old known).released id attempts idle.1 fun waiting => absurd waiting idle.2
    · next other =>
        refine (h.rows old known).held_of fun held member same => ?_
        have apart : held ≠ claim := by
          intro claimed
          rw [claimed] at same
          exact other ((addressed_iff (h.home old known)).mpr same.symm)
        exact List.mem_filter.mpr ⟨member, by simpa using apart⟩
  · intro held member
    obtain ⟨member, apart⟩ := List.mem_filter.mp member
    obtain ⟨old, known, same, current⟩ := h.held held member
    have other : ¬ run.db.addressed claim.commandId old = true := by
      intro taken
      obtain ⟨row, stored, own, currently⟩ := h.held claim (holds ⟨old, known, taken⟩)
      obtain rfl := command_eq_of_id known stored ((id_of_addressed taken).trans own.symm)
      have equal : held = claim := current.unique currently (same.symm.trans own)
      simp [equal] at apart
    exact ⟨old, (rows old).mpr ⟨old, known, if_neg other⟩, same, current⟩
  · intro id member
    obtain ⟨old, known, same⟩ := h.known id member
    refine ⟨_, (rows _).mpr ⟨old, known, rfl⟩, ?_⟩
    split
    · exact (settled old).2.1.trans same
    · exact same

theorem mentions_iff {db : RepoDb} {nowEpoch : Int} {now : Timestamp} {id : CommandId}
    : (reapStaleCommands db nowEpoch maxAttempts now).1.mentions id = true
      ↔ ∃ row ∈ db.commands, db.expired nowEpoch row = true ∧ row.id = id := by
  unfold reapStaleCommands ReapedCommands.mentions inUpdateOrder
  simp only [Bool.or_eq_true, List.contains_iff_mem, List.mem_map, List.mem_filter,
    List.mem_insertionSort, Table.mem_select]
  constructor
  · intro reaped
    rcases reaped with ⟨row, ⟨selected, -⟩, same⟩ | ⟨row, ⟨selected, -⟩, same⟩
    · exact ⟨row, selected.1, selected.2, same⟩
    · exact ⟨row, selected.1, selected.2, same⟩
  · intro reaped
    obtain ⟨row, stored, expired, same⟩ := reaped
    cases again : row.redispatchable maxAttempts with
    | true => exact .inl ⟨row, ⟨⟨stored, expired⟩, by simp [again]⟩, same⟩
    | false => exact .inr ⟨row, ⟨⟨stored, expired⟩, by simp [again]⟩, same⟩

theorem mem_held_afterReap {nowEpoch : Int} {now : Timestamp} {claim : Claim}
    : claim ∈ (run.afterReap (reapStaleCommands run.db nowEpoch maxAttempts now)).held
      ↔ claim ∈ run.held
        ∧ ∀ row ∈ run.db.commands, run.db.expired nowEpoch row = true
          → row.id ≠ claim.commandId := by
  have mentioned := @mentions_iff maxAttempts run.db nowEpoch now claim.commandId
  refine List.mem_filter.trans (and_congr_right fun _ => ?_)
  change (!(reapStaleCommands run.db nowEpoch maxAttempts now).1.mentions claim.commandId) = true
    ↔ _
  rw [Bool.not_eq_true', ← Bool.not_eq_true, mentioned]
  constructor
  · intro none_ row stored expired same
    exact none_ ⟨row, stored, expired, same⟩
  · intro live ⟨row, stored, expired, same⟩
    exact live row stored expired same

theorem CommandRow.reap_cases (now : Timestamp) (row : CommandRow)
    : (row.reap maxAttempts now).id = row.id
      ∧ (row.reap maxAttempts now).repositoryId = row.repositoryId
      ∧ (row.reap maxAttempts now).attemptCount = row.attemptCount
      ∧ (row.reap maxAttempts now).status ≠ .inFlight
      ∧ ((row.reap maxAttempts now).status = .pending
        → (row.attemptCount : Int) < maxAttempts) := by
  unfold CommandRow.reap
  split
  · next again =>
      simp only [CommandRow.redispatchable, Bool.and_eq_true, decide_eq_true_eq] at again
      exact ⟨rfl, rfl, rfl, CommandStatus.noConfusion, fun _ => again.2⟩
  · exact ⟨rfl, rfl, rfl, CommandStatus.noConfusion, fun waiting => nomatch waiting⟩

theorem QueueSound.reap (h : QueueSound maxAttempts run) (nowEpoch : Int) (now : Timestamp)
    : QueueSound maxAttempts
        (run.afterReap (reapStaleCommands run.db nowEpoch maxAttempts now)) := by
  have keeps := CommandRow.reap_keeps maxAttempts now
  constructor
  · intro next member
    obtain ⟨old, known, rfl⟩ := (@Table.mem_update _ _ _ _ _ keeps _).mp member
    split
    · exact (CommandRow.reap_cases now old).2.1.trans (h.home old known)
    · exact h.home old known
  · intro next member
    obtain ⟨old, known, rfl⟩ := (@Table.mem_update _ _ _ _ _ keeps _).mp member
    split
    · obtain ⟨id, -, attempts, idle, again⟩ := @CommandRow.reap_cases maxAttempts now old
      exact (h.rows old known).released id attempts idle again
    · next live =>
        refine (h.rows old known).held_of fun claim member same => ?_
        refine mem_held_afterReap.mpr ⟨member, fun row stored expired own => ?_⟩
        obtain rfl := command_eq_of_id stored known (own.trans same)
        exact live expired
  · intro claim member
    obtain ⟨member, live⟩ := mem_held_afterReap.mp member
    obtain ⟨old, known, same, current⟩ := h.held claim member
    have untouched : ¬ run.db.expired nowEpoch old = true :=
      fun expired => live old known expired same
    exact ⟨old, Table.mem_update_other keeps known untouched, same, current⟩
  · intro id member
    obtain ⟨old, known, same⟩ := h.known id member
    refine ⟨_, Table.mem_update_row keeps known, ?_⟩
    split
    · exact (CommandRow.reap_cases now old).1.trans same
    · exact same

theorem QueueSound.step {event : QueueEvent} {next : QueueRun} (h : QueueSound maxAttempts run)
    (taken : HeldStep maxAttempts run event next)
    : QueueSound maxAttempts next := by
  obtain ⟨step, holds⟩ := taken
  cases step with
  | enqueued pending stored => exact h.enqueued pending stored
  | refused pending raised => exact h
  | claim targetWorker claimedBy leaseExpiresAt now => exact h.claim _ _ _ _
  | renew commandId claimedBy leaseExpiresAt now => exact h.renew _ _ _ _
  | finish claim outcome now => exact h.finish claim outcome now (holds claim outcome now rfl)
  | reap nowEpoch now => exact h.reap _ _

theorem QueueSound.bounded (h : QueueSound maxAttempts run) (id : CommandId)
    : (run.dispatched.count id : Int) ≤ max 1 maxAttempts := by
  by_cases member : id ∈ run.dispatched
  · obtain ⟨row, stored, rfl⟩ := h.known id member
    exact (h.rows row stored).bounded
  · rw [List.count_eq_zero.mpr member]
    change (0 : Int) ≤ _
    omega

theorem SameOutcome.refl (row : CommandRow) : SameOutcome row row := ⟨rfl, rfl, rfl, rfl⟩

/-- An update that leaves settled rows alone keeps what was recorded about them. -/
theorem sameOutcome_of_update {commands : Table CommandRow commandClash}
    {where_ : CommandRow → Bool} {change : CommandRow → CommandRow}
    (keeps : Table.KeepsKeys commandClash change)
    (live : ∀ row ∈ commands, where_ row = true → row.settled = false)
    : ∀ row ∈ commands, row.settled = true
        → ∃ kept ∈ commands.update where_ change keeps, SameOutcome row kept := by
  intro row stored settled
  have untouched : ¬ where_ row = true := by
    intro touched
    rw [live row stored touched] at settled
    cases settled
  exact ⟨row, Table.mem_update_other keeps stored untouched, .refl row⟩

theorem not_settled (h : row.status = .inFlight ∨ row.status = .pending)
    : row.settled = false := by
  unfold CommandRow.settled
  rcases h with status | status
  · rw [status]
    rfl
  · rw [status]
    rfl

/-- Settled commands stay as they are when only held claims are finished. -/
theorem QueueSound.absorbs {event : QueueEvent} {next : QueueRun}
    (h : QueueSound maxAttempts run) (taken : HeldStep maxAttempts run event next)
    : ∀ row ∈ run.db.commands, row.settled = true
        → ∃ kept ∈ next.db.commands, SameOutcome row kept := by
  obtain ⟨step, holds⟩ := taken
  cases step with
  | enqueued pending stored =>
    intro row member settled
    obtain ⟨commands, inserted, rfl⟩ := Option.map_eq_some_iff.mp stored
    exact ⟨row, (Table.mem_of_insert? inserted).mpr (.inl member), .refl row⟩
  | refused pending raised => exact fun row member settled => ⟨row, member, .refl row⟩
  | claim targetWorker claimedBy leaseExpiresAt now =>
    rcases claimNextCommand_cases run.db targetWorker claimedBy leaseExpiresAt now with
      nothing | ⟨row, stored, waiting, own, claimed⟩
    · rw [nothing]
      exact fun row member settled => ⟨row, member, .refl row⟩
    · rw [claimed]
      refine sameOutcome_of_update (CommandRow.claim_keeps claimedBy leaseExpiresAt now)
        fun old known touched => ?_
      obtain rfl := command_eq_of_id known stored (id_of_addressed touched)
      exact not_settled (.inr waiting)
  | renew commandId claimedBy leaseExpiresAt now =>
    refine sameOutcome_of_update (CommandRow.renew_keeps leaseExpiresAt now)
      fun old known touched => ?_
    simp only [Bool.and_eq_true, beq_iff_eq] at touched
    exact not_settled (.inl touched.1.2)
  | finish claim outcome now =>
    have live : ∀ row ∈ run.db.commands, run.db.addressed claim.commandId row = true
        → row.settled = false := by
      intro row stored own
      obtain ⟨held, known, same, current⟩ := h.held claim (holds _ _ _ rfl ⟨row, stored, own⟩)
      obtain rfl := command_eq_of_id stored known ((id_of_addressed own).trans same.symm)
      exact not_settled (.inl current.inFlight)
    cases outcome with
    | completed result =>
      exact sameOutcome_of_update (CommandRow.complete_keeps result now) live
    | failed lastError retryable =>
      exact sameOutcome_of_update (CommandRow.fail_keeps lastError retryable now) live
  | reap nowEpoch now =>
    refine sameOutcome_of_update (CommandRow.reap_keeps maxAttempts now)
      fun old known touched => ?_
    simp only [RepoDb.expired, Bool.and_eq_true, beq_iff_eq] at touched
    exact not_settled (.inl touched.1.2)

theorem fenced_iff_held {event : QueueEvent} {next : QueueRun} (h : QueueSound maxAttempts run)
    : FencedStep maxAttempts run event next ↔ HeldStep maxAttempts run event next := by
  constructor
  · intro fenced
    refine ⟨fenced.step, fun claim outcome now same => ?_⟩
    intro ⟨row, stored, own⟩
    have current := fenced.fenced claim outcome now same row stored own
    obtain ⟨worker, claimed, held⟩ := (h.rows row stored).holder current.inFlight
    have workers : claim.worker = worker := Option.some.inj (current.worker.symm.trans claimed)
    have carried : claim = ⟨row.id, worker, row.attemptCount⟩ := by
      rw [id_of_addressed own, current.attempt, ← workers]
    rw [carried]
    exact held
  · intro held
    refine ⟨held.step, h.absorbs held, fun claim outcome now same row stored own => ?_,
      (h.step held).bounded⟩
    obtain ⟨known, member, id, current⟩ := h.held claim (held.held _ _ _ same ⟨row, stored, own⟩)
    obtain rfl := command_eq_of_id member stored (id.trans (id_of_addressed own).symm)
    exact current

/-- The queue keeps its settled commands, records for current claims only and stays within
the attempts exactly when no worker finishes a command whose claim was reaped or finished.
-/
theorem commandsFenced_iff {events : List QueueEvent} {stop : QueueRun}
    : Run QueueStart (FencedStep maxAttempts) events stop
      ↔ Run QueueStart (HeldStep maxAttempts) events stop :=
  @Run.iff_of_invariant _ _ QueueStart (FencedStep maxAttempts) (QueueSound maxAttempts) _
    (fun _ start => queueSound_of_start start)
    (fun _ _ _ sound fenced => sound.step ((fenced_iff_held sound).mp fenced))
    (fun _ _ _ sound => fenced_iff_held sound) _ _

end Steps

namespace SlowWorker

def command : NewCommand where
  commandId := "c"
  targetWorker := "w"
  idempotencyKey := "k"

/-- The first claim outlives its lease, and a second worker completes the command. -/
def events : List QueueEvent :=
  [.enqueue command 0, .claim "w" "first" 30 0, .reap 31 31, .claim "w" "second" 61 31,
    .finish ⟨"c", "second", 2⟩ (.completed none) 32]

/-- The first worker fails the command that the second one completed. -/
theorem completed_then_failed
    : ∃ run, Run QueueStart (QueueStep 3) events run
        ∧ ∃ next, QueueStep 3 run (.finish ⟨"c", "first", 1⟩ (.failed "late" false) 33) next
          ∧ ¬ FencedStep 3 run (.finish ⟨"c", "first", 1⟩ (.failed "late" false) 33) next := by
  have steps : ∃ run, Steps (QueueStep 3) { db := { repositoryId := "r" } } events run
      ∧ ∃ row ∈ run.db.commands, run.db.addressed "c" row = true
        ∧ row.claimedBy = some "second" := by
    refine ⟨_, .cons (.enqueued rfl rfl) (.cons (.claim _ _ _ _ _) (.cons (.reap _ _ _)
      (.cons (.claim _ _ _ _ _) (.cons (.finish _ _ _ _) (.nil _))))), ?_⟩
    decide +kernel
  obtain ⟨run, taken, row, stored, own, second⟩ := steps
  refine ⟨run, ⟨_, ⟨"r", rfl⟩, taken⟩, _, .finish _ _ _ _, fun fenced => ?_⟩
  have first := (fenced.fenced _ _ _ rfl row stored own).worker
  rw [second] at first
  exact absurd first (by decide)

end SlowWorker

end Murder.Commands
