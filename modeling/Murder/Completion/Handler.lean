import Murder.Completion.Tickets
import Murder.Harness.Operations

/-! The driver of one crow: its DONE latch, and the completion checks a latched DONE runs. The
coordinator's awaits are the stages between which other parties act.
-/

namespace Murder.Completion

open Contracts

/-! ### Signals -/

/-- What stands behind `DONE`: blanks up to the end of the line. -/
def endsLine : List Char → Bool
  | [] => true
  | c :: rest => c = '\n' || ((c = ' ' || c = '\t') && endsLine rest)

/-- A marker at the head of a text: `>>>\s*DONE[ \t]*(?:\n|\Z)`. -/
def doneHere (text : List Char) : Bool :=
  match text with
  | '>' :: '>' :: '>' :: rest =>
    match rest.dropWhile isSpace with
    | 'D' :: 'O' :: 'N' :: 'E' :: behind => endsLine behind
    | _ => false
  | _ => false

/-- `_DONE.search`: a marker at the start of the text or of a line, or behind whitespace. -/
def doneWithin : Bool → List Char → Bool
  | _, [] => false
  | opening, c :: rest => (opening && doneHere (c :: rest)) || doneWithin (isSpace c) rest

/-- A captured pane with the assistant blocks of its transcript. -/
structure Frame where
  rawText : String
  assistant : List String

/-- `signals.done` -/
def Frame.done (frame : Frame) : Bool :=
  doneWithin true (String.intercalate "\n" frame.assistant).toList

/-! ### Resolution -/

inductive CheckStatus
  | pass
  | fail
deriving DecidableEq

structure CheckResult where
  status : CheckStatus
  message : String := ""
  hint : String := ""
deriving DecidableEq

abbrev Checked := String × Option CheckResult

inductive Owner
  | reprompt
  | askPlanner
  | askUser
  | failTicket
deriving DecidableEq

def resolutionPolicy (attempts : Nat) : Owner :=
  match attempts with
  | 0 => .reprompt
  | 1 => .askPlanner
  | 2 => .askUser
  | _ => .failTicket

def passed (results : List Checked) : List String :=
  (results.filter (fun checked => checked.2.any (fun result => result.status = .pass))).map
    Prod.fst

def failures (results : List Checked) : List Checked :=
  results.filter (fun checked => checked.2.all (fun result => result.status = .fail))

def repromptLine (checked : Checked) : String :=
  let message :=
    match checked.2 with
    | some result => if result.hint = "" then result.message else result.hint
    | none => "Check '" ++ checked.1 ++ "' failed with an internal error."
  "[" ++ checked.1 ++ "] " ++ message

def combinedReprompt (lines : List String) : String :=
  "The following checks failed. Please fix them:\n\n" ++ String.intercalate "\n\n" lines

/-! ### State -/

/-- Where a run of `handle_done` waits. -/
inductive Stage
  | checking (check : String) (pending : List String) (results : List Checked)
  | announcing
  | pruning
  | planning (pending : List Checked) (reprompts : List String)
  | escalating (pending : List Checked) (reprompts : List String)
  | failing
  | sending (reprompt : String)
  | verdict (completed : Bool)
deriving DecidableEq

/-- `CrowHandler`, in the fields its ticks decide by. -/
structure Handler where
  doneLatched : Bool := false
  completionInFlight : Bool := false
  completionSucceeded : Bool := false
  resolvedPaneHash : Option String := none
  stopRequested : Bool := false
  terminalFailure : Bool := false
  consecutiveTickFailures : Nat := 0

/-- What `handle_done` returned, and the ticket's status then. -/
structure Report where
  completed : Bool
  status : Option TicketStatus
deriving DecidableEq

structure Crow where
  handler : Handler := {}
  status : Option TicketStatus
  attempts : String → Nat := fun _ => 0
  /-- The pane a run of `handle_done` was started on, and where the run waits. -/
  run : Option (String × Stage) := none
  /-- Markers the crow emitted, runs of `handle_done`, and what they reported. -/
  emitted : Nat := 0
  calls : Nat := 0
  reports : List Report := []

/-- `TICK_FAILURE_BUDGET` -/
def tickFailureBudget : Nat := 3

namespace Crow

variable (crow : Crow)

def waitAt (pane : String) (stage : Stage) : Crow := { crow with run := some (pane, stage) }

/-- `bump_attempts` -/
def bump (check : String) : Crow :=
  { crow with attempts := fun name =>
      if name = check then crow.attempts name + 1 else crow.attempts name }

/-- `reset_attempts` of the checks that passed. -/
def reset (checks : List String) : Crow :=
  { crow with attempts := fun name => if name ∈ checks then 0 else crow.attempts name }

def moved (status : TicketStatus) : Crow :=
  { crow with status := crow.status.map (fun _ => status) }

def ticked : Crow :=
  { crow with handler := { crow.handler with consecutiveTickFailures := 0 } }

/-- `handle_done` returned to `_maybe_complete`. -/
def finish (pane : String) (completed : Bool) : Crow :=
  { crow with
    run := none
    reports := crow.reports ++ [Report.mk completed crow.status]
    handler := { crow.handler with
      completionInFlight := false
      resolvedPaneHash := some pane
      completionSucceeded := crow.handler.completionSucceeded || completed
      doneLatched := crow.handler.doneLatched && completed } }.ticked

/-- `_handle_tick_failure`; the last failure of the budget fails the ticket. -/
def tickFailed : Crow :=
  let failures := crow.handler.consecutiveTickFailures + 1
  if failures < tickFailureBudget then
    { crow with handler := { crow.handler with consecutiveTickFailures := failures } }
  else
    { crow.moved .failed with
      handler := { crow.handler with
        consecutiveTickFailures := failures
        terminalFailure := true } }

/-- A run of `handle_done` that raised. -/
def raise : Crow :=
  { crow with
    run := none
    handler := { crow.handler with completionInFlight := false } }.tickFailed

def dispatch (pane : String) (crow : Crow) : List Checked → List String → Crow
  | [], [] => crow.waitAt pane (.verdict false)
  | [], reprompts => crow.waitAt pane (.sending (combinedReprompt reprompts))
  | checked :: pending, reprompts =>
    let bumped := crow.bump checked.1
    match resolutionPolicy (crow.attempts checked.1) with
    | .reprompt => dispatch pane bumped pending (reprompts ++ [repromptLine checked])
    | .askPlanner => bumped.waitAt pane (.planning pending reprompts)
    | .askUser => bumped.waitAt pane (.escalating pending reprompts)
    | .failTicket => (bumped.moved .failed).waitAt pane .failing

/-- `complete_ticket` up to its first await. -/
def complete (pane : String) : Crow :=
  match crow.status with
  | some status =>
    if promotable status then
      match completeTicket status with
      | .ok reached => { crow with status := some reached }.waitAt pane .announcing
      | .error _ => crow.raise
    else crow.waitAt pane (.verdict true)
  | none => crow.waitAt pane (.verdict true)

def judge (pane : String) (results : List Checked) : Crow :=
  let judged := crow.reset (passed results)
  match failures results with
  | [] => judged.complete pane
  | failed => dispatch pane judged failed []

def runChecks (pane : String) (pending : List String) (results : List Checked) : Crow :=
  match pending with
  | [] => crow.judge pane results
  | check :: pending => crow.waitAt pane (.checking check pending results)

/-- `handle_done` up to its first await; `checks` are those assigned to the ticket's row. -/
def handleDone (pane : String) (checks : List String) : Crow :=
  let called := { crow with calls := crow.calls + 1 }
  match crow.status with
  | none => called.finish pane false
  | some _ => called.runChecks pane checks []

/-- `_maybe_complete` -/
def maybeComplete (pane : String) (checks : List String) : Crow :=
  if crow.handler.completionInFlight || crow.handler.completionSucceeded then crow.ticked
  else if crow.handler.resolvedPaneHash = some pane then crow.ticked
  else if !crow.status.any promotable then
    { crow with handler := { crow.handler with doneLatched := false } }.ticked
  else
    { crow with handler := { crow.handler with completionInFlight := true } }.handleDone
      pane checks

/-- `_orchestration_tick`, where it stops the handler. -/
def orchestrationTick : Crow :=
  match crow.status with
  | none => crow.tickFailed
  | some .done | some .failed =>
    { crow with handler := { crow.handler with stopRequested := true } }.ticked
  | some _ => crow.ticked

variable [Harness.Sha256]

/-- `_tick` on a captured frame; `due` when the orchestration interval has passed. -/
def tick (frame : Frame) (checks : List String) (due : Bool) : Crow :=
  let settled := { crow with handler := { crow.handler with
    doneLatched := crow.handler.doneLatched || frame.done } }
  if settled.handler.doneLatched then
    settled.maybeComplete (Harness.Sha256.hexdigest frame.rawText) checks
  else if due then settled.orchestrationTick
  else settled.ticked

end Crow

/-! ### Steps -/

/-- How an await ends. -/
inductive Answer
  | checked (result : CheckResult)
  | returned
  | raised

/-- A run of `handle_done` goes on behind the await it stands at. A check that raises counts as
failed; anything else that raises ends the run.
-/
def Crow.resume (crow : Crow) (pane : String) : Stage → Answer → Option Crow
  | .checking check pending results, .checked result =>
    some (crow.runChecks pane pending (results ++ [(check, some result)]))
  | .checking check pending results, .raised =>
    some (crow.runChecks pane pending (results ++ [(check, none)]))
  | .checking .., .returned => none
  | .pruning, .raised => none
  | _, .raised => some crow.raise
  | _, .checked _ => none
  | .announcing, .returned => some (crow.waitAt pane .pruning)
  | .pruning, .returned => some (crow.waitAt pane (.verdict true))
  | .planning pending reprompts, .returned => some (Crow.dispatch pane crow pending reprompts)
  | .escalating pending reprompts, .returned =>
    some (Crow.dispatch pane (crow.moved .blocked) pending reprompts)
  | .failing, .returned => some (crow.waitAt pane (.verdict false))
  | .sending _, .returned => some (crow.waitAt pane (.verdict false))
  | .verdict completed, .returned => some (crow.finish pane completed)

inductive Event
  | emit
  | setStatus (status : Option TicketStatus)
  | tick (frame : Frame) (checks : List String) (due : Bool)
  | resume (answer : Answer)

/-- One step: the crow emits a marker, somebody writes the ticket's status, the loop ticks on a
frame whose markers the crow emitted, or a run of `handle_done` goes on.
-/
inductive CrowStep [Harness.Sha256] : Crow → Event → Crow → Prop
  | emit (crow) : CrowStep crow .emit { crow with emitted := crow.emitted + 1 }
  | setStatus (crow status) : CrowStep crow (.setStatus status) { crow with status }
  | tick {crow frame checks due}
    (looping : ¬crow.handler.stopRequested ∧ ¬crow.handler.terminalFailure)
    (shown : frame.done = true → 0 < crow.emitted)
    : CrowStep crow (.tick frame checks due) (crow.tick frame checks due)
  | resume {crow pane stage answer after} (waiting : crow.run = some (pane, stage))
    (continued : crow.resume pane stage answer = some after)
    : CrowStep crow (.resume answer) after

/-- A handler just started. -/
def Crow.Fresh (crow : Crow) : Prop := ∃ status, crow = { status }

end Murder.Completion
