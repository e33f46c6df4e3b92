import Mathlib.Data.List.Nodup

/-! Ticket status transitions, the walk that completes a ticket, and reopening: the ticket goes back
to PLANNED, and so do the dependents that the transition table lets go.
-/

namespace Murder.Completion

inductive TicketStatus
  | draft
  | planned
  | ready
  | inProgress
  | blocked
  | done
  | failed
  | archived
deriving DecidableEq

/-- `VALID_TRANSITIONS` -/
def validTransitions : TicketStatus → List TicketStatus
  | .draft => [.planned, .archived]
  | .planned => [.ready, .archived]
  | .ready => [.inProgress, .planned, .archived]
  | .inProgress => [.done, .blocked, .failed, .archived]
  | .blocked => [.inProgress, .failed, .archived]
  | .failed => [.planned, .ready, .archived]
  | .done => [.planned, .archived]
  | .archived => [.planned]

/-- `InvalidTransition` -/
structure InvalidTransition where
  previous : TicketStatus
  next : TicketStatus
deriving DecidableEq

/-- The status behind `lifecycle.transition`. -/
def transition (previous next : TicketStatus) : Except InvalidTransition TicketStatus :=
  if previous = next then .ok next
  else if next ∈ validTransitions previous then .ok next
  else .error ⟨previous, next⟩

def promotable : TicketStatus → Bool
  | .ready | .inProgress | .blocked | .planned => true
  | _ => false

variable (status : TicketStatus) (deps : TicketDeps) (ticketId : String) (tickets : Tickets)

/-- `complete_ticket`: a done ticket stays, a promotable one is walked up to DONE, any other one
is skipped.
-/
def completeTicket : Except InvalidTransition TicketStatus := do
  if status = .done then return status
  if !promotable status then return status
  let status ← if status = .planned then transition status .ready else pure status
  let status ←
    if status = .ready ∨ status = .blocked then transition status .inProgress else pure status
  transition status .done

/-- The walk takes no invalid transition: a promotable ticket ends done, any other one stays. -/
theorem completeTicket_eq
    : completeTicket status = .ok (if promotable status then .done else status) := by
  cases status <;> rfl

def TicketStatus.value : TicketStatus → String
  | .draft => "draft"
  | .planned => "planned"
  | .ready => "ready"
  | .inProgress => "in_progress"
  | .blocked => "blocked"
  | .done => "done"
  | .failed => "failed"
  | .archived => "archived"

/-- The rows of `ticket_deps`: each ticket depends on another one at most once, and never on
itself.
-/
structure TicketDeps where
  edges : List (String × String)
  distinct : edges.Nodup
  irreflexive : ∀ edge ∈ edges, edge.1 ≠ edge.2

def TicketDeps.dependentsOf : List String :=
  (deps.edges.filter (fun edge => edge.2 = ticketId)).map Prod.fst

structure StatusChange where
  ticketId : String
  previous : TicketStatus
  next : TicketStatus
deriving DecidableEq

/-- The statuses of the tickets, and the changes written so far. -/
@[ext]
structure Tickets where
  status : String → Option TicketStatus
  changes : List StatusChange := []

inductive LifecycleError
  | keyError (message : String)
  | invalidTransition (message : String)
deriving DecidableEq

def Tickets.updateStatus (ticketId : String) (previous next : TicketStatus) : Tickets where
  status := fun id => if id = ticketId then some next else tickets.status id
  changes := tickets.changes ++ [⟨ticketId, previous, next⟩]

/-- `lifecycle.transition` -/
def transitionTicket (ticketId : String) (next : TicketStatus) (reason : String)
    : Except LifecycleError Tickets :=
  match tickets.status ticketId with
  | none => .error (.keyError s!"ticket not found: {ticketId}")
  | some previous =>
    if previous = next then .ok tickets
    else
      match transition previous next with
      | .ok _ => .ok (tickets.updateStatus ticketId previous next)
      | .error _ =>
        .error (.invalidTransition
          s!"{ticketId}: {previous.value} → {next.value} not allowed (reason={reason})")

/-- The statuses a dependent is sent back from. -/
def cascades : List TicketStatus := [.ready, .inProgress, .blocked]

/-- The loop over the dependents: a transition that is not allowed is skipped. -/
def cascade : List String → Tickets → Except LifecycleError (List String × Tickets)
  | [], tickets => .ok ([], tickets)
  | depId :: rest, tickets =>
    if (tickets.status depId).any (· ∈ cascades) then
      match transitionTicket tickets depId .planned "upstream_reopened" with
      | .ok moved => do
          let (cascaded, after) ← cascade rest moved
          pure (depId :: cascaded, after)
      | .error (.invalidTransition _) => cascade rest tickets
      | .error failure => .error failure
    else cascade rest tickets

/-- `reopen`, with the ids of the dependents that were sent back. -/
def reopen (ticketId : String) : Except LifecycleError (List String × Tickets) := do
  let moved ← transitionTicket tickets ticketId .planned "reopened"
  cascade (deps.dependentsOf ticketId) moved

theorem nodup_dependentsOf
    : (deps.dependentsOf ticketId).Nodup := by
  refine List.Nodup.map_on (fun left among right also same => ?_) (deps.distinct.filter _)
  have here := of_decide_eq_true (List.mem_filter.mp among).2
  have there := of_decide_eq_true (List.mem_filter.mp also).2
  exact Prod.ext same (here.trans there.symm)

theorem not_mem_dependentsOf
    : ticketId ∉ deps.dependentsOf ticketId := by
  intro among
  obtain ⟨edge, kept, same⟩ := List.mem_map.mp among
  obtain ⟨member, on⟩ := List.mem_filter.mp kept
  exact deps.irreflexive edge member (same.trans (of_decide_eq_true on).symm)

/-- Only a READY dependent is sent back: the table has no way to PLANNED from the other two. -/
theorem cascade_cons (depId : String) (rest : List String) (tickets : Tickets)
    : cascade (depId :: rest) tickets
      = if tickets.status depId = some .ready then do
          let (cascaded, after) ← cascade rest (tickets.updateStatus depId .ready .planned)
          pure (depId :: cascaded, after)
        else cascade rest tickets := by
  rw [cascade]
  cases status : tickets.status depId with
  | none => simp
  | some current =>
    simp only [transitionTicket, status]
    cases current <;> simp [cascades, transition, validTransitions]

/-- The tickets behind the loop, by induction over the dependents. -/
theorem cascade_eq {dependents : List String} (distinct : dependents.Nodup) (tickets : Tickets)
    : cascade dependents tickets = .ok (
        dependents.filter (fun id => tickets.status id = some .ready),
        {
          status := fun id =>
            if id ∈ dependents ∧ tickets.status id = some .ready then some .planned
            else tickets.status id
          changes := tickets.changes
            ++ (dependents.filter (fun id => tickets.status id = some .ready)).map
              (fun id => ⟨id, .ready, .planned⟩)
        }) := by
  induction dependents generalizing tickets with
  | nil => simp [cascade]
  | cons depId rest ih =>
    obtain ⟨fresh, distinct⟩ := List.nodup_cons.mp distinct
    rw [cascade_cons]
    by_cases ready : tickets.status depId = some .ready
    · have same : ∀ id ∈ rest, (tickets.updateStatus depId .ready .planned).status id
          = tickets.status id :=
        fun id member => if_neg (fun same : id = depId => fresh (same ▸ member))
      have listed : rest.filter (fun id =>
          (tickets.updateStatus depId .ready .planned).status id = some .ready)
          = rest.filter (fun id => tickets.status id = some .ready) :=
        List.filter_congr (fun id member => by rw [same id member])
      rw [if_pos ready, ih distinct, listed]
      refine congrArg Except.ok (Prod.ext ?_ (Tickets.ext (funext fun id => ?_) ?_))
      · simp [ready]
      · by_cases own : id = depId
        · simp [Tickets.updateStatus, own, ready, fresh]
        · simp [Tickets.updateStatus, own]
      · simp [Tickets.updateStatus, ready]
    · rw [if_neg ready, ih distinct]
      refine congrArg Except.ok (Prod.ext ?_ (Tickets.ext (funext fun id => ?_) ?_))
      · simp [ready]
      · by_cases own : id = depId
        · simp [own, ready]
        · simp [own]
      · simp [ready]

theorem transitionTicket_ok {tickets moved : Tickets} {ticketId reason : String}
    {next : TicketStatus} (ok : transitionTicket tickets ticketId next reason = .ok moved)
    : moved = tickets ∨ ∃ previous, tickets.status ticketId = some previous
        ∧ next ∈ validTransitions previous
        ∧ moved = tickets.updateStatus ticketId previous next := by
  unfold transitionTicket at ok
  split at ok
  · cases ok
  · next previous status =>
    split at ok
    · exact .inl (Except.ok.inj ok).symm
    · next other =>
      split at ok
      · next allowed =>
        unfold transition at allowed
        rw [if_neg other] at allowed
        split at allowed
        · next valid => exact .inr ⟨previous, status, valid, (Except.ok.inj ok).symm⟩
        · cases allowed
      · cases ok

theorem transitionTicket_spec {tickets moved : Tickets} {ticketId reason : String}
    {next : TicketStatus} (ok : transitionTicket tickets ticketId next reason = .ok moved)
    : (∀ id, id ≠ ticketId → moved.status id = tickets.status id)
      ∧ ∃ written, moved.changes = tickets.changes ++ written
        ∧ ∀ change ∈ written, change.next ∈ validTransitions change.previous := by
  rcases transitionTicket_ok ok with rfl | found
  · exact ⟨fun _ _ => rfl, [], (List.append_nil _).symm, by simp⟩
  · obtain ⟨previous, _, valid, rfl⟩ := found
    exact ⟨fun id other => if_neg other, _, rfl, by simpa using valid⟩

/-- What reopening a ticket promises of its dependents. -/
structure Invalidates (dependents cascaded : List String) (before after : Tickets) : Prop where
  settled : ∀ id ∈ dependents, ∀ status ∈ after.status id, status ∉ cascades
  distinct : cascaded.Nodup
  exact_ : ∀ id, id ∈ cascaded ↔ id ∈ dependents ∧ after.status id ≠ before.status id
  permitted : ∃ written, after.changes = before.changes ++ written
    ∧ ∀ change ∈ written, change.next ∈ validTransitions change.previous

def NoneRunning (dependents : List String) (tickets : Tickets) : Prop :=
  ∀ id ∈ dependents, tickets.status id ≠ some .inProgress ∧ tickets.status id ≠ some .blocked

/-- A ticket that is reopened invalidates its dependents exactly if none of them is running or
blocked: those stay as they are, since the table sends only READY tickets back to PLANNED.
-/
theorem invalidates_iff_noneRunning {deps : TicketDeps} {before after : Tickets}
    {ticketId : String} {cascaded : List String}
    (reopened : reopen deps before ticketId = .ok (cascaded, after))
    : Invalidates (deps.dependentsOf ticketId) cascaded before after
      ↔ NoneRunning (deps.dependentsOf ticketId) before := by
  unfold reopen at reopened
  cases moving : transitionTicket before ticketId .planned "reopened" with
  | error failure =>
    rw [moving] at reopened
    cases reopened
  | ok moved =>
    obtain ⟨others, written, logged, permitted⟩ := transitionTicket_spec moving
    rw [moving] at reopened
    have looped : cascade (deps.dependentsOf ticketId) moved = .ok (cascaded, after) := reopened
    have distinct := nodup_dependentsOf deps ticketId
    rw [cascade_eq distinct] at looped
    obtain ⟨rfl, rfl⟩ := Prod.mk.inj (Except.ok.inj looped)
    have kept : ∀ id ∈ deps.dependentsOf ticketId, moved.status id = before.status id :=
      fun id among => others id (fun same => not_mem_dependentsOf deps _ (same ▸ among))
    have settles : (∀ id ∈ deps.dependentsOf ticketId, ∀ status ∈
        (if id ∈ deps.dependentsOf ticketId ∧ moved.status id = some .ready then some .planned
          else moved.status id), status ∉ cascades)
        ↔ NoneRunning (deps.dependentsOf ticketId) before := by
      refine forall₂_congr (fun id among => ?_)
      rw [← kept id among]
      cases moved.status id with
      | none => simp
      | some status => cases status <;> simp [among, cascades]
    refine ⟨fun invalidates => settles.mp invalidates.settled, fun none_ => ?_⟩
    refine ⟨settles.mpr none_, distinct.filter _, fun id => ?_, written ++ _,
      by rw [logged, List.append_assoc], fun change member => ?_⟩
    · simp only [List.mem_filter, decide_eq_true_eq]
      refine and_congr_right (fun among => ?_)
      rw [← kept id among]
      by_cases ready : moved.status id = some .ready
      · simp [among, ready]
      · simp [ready]
    · rcases List.mem_append.mp member with own | cascaded
      · exact permitted change own
      · obtain ⟨id, _, rfl⟩ := List.mem_map.mp cascaded
        exact List.mem_cons_of_mem _ List.mem_cons_self

/-- Ticket `t2` depends on `t1`. -/
def oneDependent : TicketDeps where
  edges := [("t2", "t1")]
  distinct := List.nodup_singleton _
  irreflexive := by decide

/-- `t1` is done, `t2` has another status. -/
def doneBelow : Tickets where
  status id := if id = "t1" then some .done else if id = "t2" then some status else none

theorem invalidates_ready
    : ∃ after, reopen oneDependent (doneBelow .ready) "t1" = .ok (["t2"], after)
      ∧ Invalidates (oneDependent.dependentsOf "t1") ["t2"] (doneBelow .ready) after := by
  obtain ⟨after, reopened⟩ : ∃ after,
      reopen oneDependent (doneBelow .ready) "t1" = .ok (["t2"], after) := ⟨_, rfl⟩
  have none_ : ∀ id ∈ oneDependent.dependentsOf "t1",
      (doneBelow .ready).status id ≠ some .inProgress
        ∧ (doneBelow .ready).status id ≠ some .blocked := by decide
  exact ⟨after, reopened, (invalidates_iff_noneRunning reopened).mpr none_⟩

/-- A dependent in progress stays in progress. -/
theorem not_invalidates_inProgress
    : ∃ after, reopen oneDependent (doneBelow .inProgress) "t1" = .ok ([], after)
      ∧ after.status "t2" = some .inProgress
      ∧ ¬ Invalidates (oneDependent.dependentsOf "t1") [] (doneBelow .inProgress) after := by
  refine ⟨_, rfl, rfl, fun invalidates => ?_⟩
  exact invalidates.settled "t2" List.mem_cons_self .inProgress rfl (by decide)

end Murder.Completion
