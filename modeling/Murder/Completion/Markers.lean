import Murder.Completion.Handler
import Murder.Library.Runs

/-! One check run for each marker, over every run of ticks, awaits and status writes that shows
the handler no stale marker.
-/

namespace Murder.Completion

open Library.Runs

/-! ### A run of `handle_done` -/

/-- The awaits behind the walk to DONE. -/
def Stage.completing : Stage → Bool
  | .announcing | .pruning | .verdict true => true
  | _ => false

/-- A ticket that can be completed, or is done already. -/
def completable (status : Option TicketStatus) : Bool :=
  status.any promotable || status = some .done

/-- A run of `handle_done` that waits again: it writes only the attempts and the status, and
completes none but a done ticket.
-/
structure Continues (pane : String) (before after : Crow) : Prop where
  handler : after.handler = before.handler
  emitted : after.emitted = before.emitted
  calls : after.calls = before.calls
  reports : after.reports = before.reports
  waits
    : ∃ stage, after.run = some (pane, stage)
        ∧ (stage.completing = true → after.status = some .done)

theorem continues_waitAt (pane : String) (crow : Crow) {stage : Stage}
    (done : stage.completing = true → crow.status = some .done)
    : Continues pane crow (crow.waitAt pane stage) :=
  ⟨rfl, rfl, rfl, rfl, stage, rfl, done⟩

theorem continues_waitAt_early (pane : String) (crow : Crow) {stage : Stage}
    (early : stage.completing = false)
    : Continues pane crow (crow.waitAt pane stage) :=
  continues_waitAt pane crow (fun completing => by rw [early] at completing; cases completing)

/-- Attempts and statuses written before a run goes on. -/
theorem Continues.behind {pane : String} {crow after : Crow} {attempts : String → Nat}
    {status : Option TicketStatus}
    (go : Continues pane { crow with attempts, status } after)
    : Continues pane crow after :=
  ⟨go.handler, go.emitted, go.calls, go.reports, go.waits⟩

/-- By induction over the failed checks: the run waits at the first that is not reprompted, or
behind the last one.
-/
theorem continues_dispatch (pane : String) (crow : Crow) (failed : List Checked)
    (reprompts : List String)
    : Continues pane crow (Crow.dispatch pane crow failed reprompts) := by
  induction failed generalizing crow reprompts with
  | nil => cases reprompts <;> exact continues_waitAt_early pane crow rfl
  | cons checked pending ih =>
    simp only [Crow.dispatch]
    cases resolutionPolicy (crow.attempts checked.1) with
    | reprompt => exact (ih (crow.bump checked.1) _).behind
    | askPlanner => exact (continues_waitAt_early pane (crow.bump checked.1) rfl).behind
    | askUser => exact (continues_waitAt_early pane (crow.bump checked.1) rfl).behind
    | failTicket =>
      have early : Stage.failing.completing = false := rfl
      have below := continues_waitAt_early pane ((crow.bump checked.1).moved .failed) early
      exact ⟨below.handler, below.emitted, below.calls, below.reports, below.waits⟩

variable {crow : Crow}

theorem continues_complete (pane : String) (able : completable crow.status = true)
    : Continues pane crow (crow.complete pane) := by
  simp only [completable, Bool.or_eq_true, decide_eq_true_eq] at able
  unfold Crow.complete
  split
  · rename_i status found
    split_ifs with promotes
    · rw [completeTicket_eq, if_pos promotes]
      exact ⟨rfl, rfl, rfl, rfl, _, rfl, fun _ => rfl⟩
    · refine continues_waitAt pane crow (fun _ => ?_)
      rcases able with able | done
      · rw [found] at able
        exact absurd able promotes
      · exact done
  · rename_i missing
    rw [missing] at able
    rcases able with able | done
    · cases able
    · cases done

theorem continues_judge (pane : String) {results : List Checked}
    (able : failures results = [] → completable crow.status = true)
    : Continues pane crow (crow.judge pane results) := by
  simp only [Crow.judge]
  split
  · rename_i allPassed
    have completes : completable (crow.reset (passed results)).status = true := able allPassed
    exact (continues_complete pane completes).behind
  · exact (continues_dispatch pane (crow.reset (passed results)) _ []).behind

theorem continues_runChecks (pane : String) {pending : List String} {results : List Checked}
    (able : pending = [] → failures results = [] → completable crow.status = true)
    : Continues pane crow (crow.runChecks pane pending results) := by
  cases pending with
  | nil => exact continues_judge pane (able rfl)
  | cons check pending => exact continues_waitAt_early pane crow rfl

/-! ### Steps -/

def Answer.result? : Answer → Option CheckResult
  | .checked result => some result
  | _ => none

/-- An answer that raises nothing but in a check, and ends the checks without a failure only on
a ticket that can be completed.
-/
def Stage.carefully (status : Option TicketStatus) : Stage → Answer → Bool
  | .checking check pending results, answer =>
    pending ≠ [] || failures (results ++ [(check, answer.result?)]) ≠ [] || completable status
  | _, .raised => false
  | _, _ => true

/-- An event that leaves the check runs to the markers emitted since the last one: a frame that
latches shows such a marker, and nobody else takes the status away from a ticket that is being
completed.
-/
def careful (crow : Crow) : Event → Bool
  | .emit => true
  | .setStatus status =>
    crow.run.all (fun waiting => !waiting.2.completing || status = some .done)
  | .tick frame _ _ => crow.handler.doneLatched || !frame.done || crow.calls < crow.emitted
  | .resume answer => crow.run.all (fun waiting => waiting.2.carefully crow.status answer)

/-- What careful steps keep: a latch that is not yet used stands for a marker of its own. -/
structure Sound (crow : Crow) : Prop where
  runs : crow.calls ≤ crow.emitted
  latched
    : crow.handler.doneLatched = true → crow.handler.completionSucceeded = false
        → crow.handler.completionInFlight = false → crow.calls < crow.emitted
  flight : crow.run.isSome = true → crow.handler.completionInFlight = true
  completing
    : ∀ pane stage, crow.run = some (pane, stage) → stage.completing = true
        → crow.status = some .done
  reports : ∀ report ∈ crow.reports, report.completed = true → report.status = some .done

theorem Sound.of_fresh (fresh : crow.Fresh) : Sound crow := by
  obtain ⟨status, rfl⟩ := fresh
  constructor <;> simp

variable {pane : String}

theorem Sound.continues {after : Crow} (sound : Sound crow)
    (flying : crow.handler.completionInFlight = true) (go : Continues pane crow after)
    : Sound after where
  runs := by
    rw [go.calls, go.emitted]
    exact sound.runs
  latched _ _ grounded := by
    rw [go.handler, flying] at grounded
    cases grounded
  flight _ := by
    rw [go.handler]
    exact flying
  completing _ stage waits done := by
    obtain ⟨stage', waits', done'⟩ := go.waits
    rw [waits'] at waits
    cases waits
    exact done' done
  reports := by
    rw [go.reports]
    exact sound.reports

/-- A completion is reported from the stage behind the walk to DONE. -/
theorem Sound.finish {completed : Bool} (sound : Sound crow)
    (done : completed = true → crow.status = some .done)
    : Sound (crow.finish pane completed) where
  runs := sound.runs
  latched latched fails _ := by
    cases completed with
    | true => simp [Crow.finish, Crow.ticked] at fails
    | false => simp [Crow.finish, Crow.ticked] at latched
  flight waits := by cases waits
  completing _ _ waits := by cases waits
  reports report member completes := by
    rcases List.mem_append.mp member with earlier | here
    · exact sound.reports report earlier completes
    · cases List.mem_singleton.mp here
      exact done completes

theorem Sound.resume {crow after : Crow} {pane : String} {stage : Stage} {answer : Answer}
    (sound : Sound crow) (waiting : crow.run = some (pane, stage))
    (spared : careful crow (.resume answer) = true)
    (continued : crow.resume pane stage answer = some after)
    : Sound after := by
  have flying : crow.handler.completionInFlight = true := sound.flight (by rw [waiting]; rfl)
  have care : stage.carefully crow.status answer = true := by
    simpa only [careful, waiting, Option.all_some] using spared
  have done := sound.completing pane stage waiting
  cases stage with
  | checking check pending results =>
    simp only [Stage.carefully, Bool.or_eq_true, decide_eq_true_eq] at care
    have able : pending = [] → failures (results ++ [(check, answer.result?)]) = []
        → completable crow.status = true := by
      intro last allPassed
      rcases care with (more | failed) | able
      · exact absurd last more
      · exact absurd allPassed failed
      · exact able
    cases answer <;> simp only [Crow.resume, Option.some.injEq, reduceCtorEq] at continued
    all_goals
      subst continued
      exact sound.continues flying (continues_runChecks pane able)
  | announcing =>
    cases answer <;> simp only [Crow.resume, Option.some.injEq, reduceCtorEq] at continued
    · subst continued
      exact sound.continues flying (continues_waitAt pane crow (fun _ => done rfl))
    · cases care
  | pruning =>
    cases answer <;> simp only [Crow.resume, Option.some.injEq, reduceCtorEq] at continued
    subst continued
    exact sound.continues flying (continues_waitAt pane crow (fun _ => done rfl))
  | planning pending reprompts =>
    cases answer <;> simp only [Crow.resume, Option.some.injEq, reduceCtorEq] at continued
    · subst continued
      exact sound.continues flying (continues_dispatch pane crow pending reprompts)
    · cases care
  | escalating pending reprompts =>
    cases answer <;> simp only [Crow.resume, Option.some.injEq, reduceCtorEq] at continued
    · subst continued
      have below := continues_dispatch pane (crow.moved .blocked) pending reprompts
      exact sound.continues flying below.behind
    · cases care
  | failing =>
    cases answer <;> simp only [Crow.resume, Option.some.injEq, reduceCtorEq] at continued
    · subst continued
      exact sound.continues flying (continues_waitAt_early pane crow rfl)
    · cases care
  | sending reprompt =>
    cases answer <;> simp only [Crow.resume, Option.some.injEq, reduceCtorEq] at continued
    · subst continued
      exact sound.continues flying (continues_waitAt_early pane crow rfl)
    · cases care
  | verdict completed =>
    cases answer <;> simp only [Crow.resume, Option.some.injEq, reduceCtorEq] at continued
    · subst continued
      refine sound.finish (fun completes => done ?_)
      rw [completes]
      rfl
    · cases care

/-- A tick that raised nothing leaves the latch and the run alone. -/
theorem Sound.ticked (sound : Sound crow) : Sound crow.ticked :=
  ⟨sound.runs, sound.latched, sound.flight, sound.completing, sound.reports⟩

theorem Sound.tickFailed (sound : Sound crow) (missing : crow.status = none)
    : Sound crow.tickFailed := by
  unfold Crow.tickFailed
  simp only
  split_ifs
  · exact ⟨sound.runs, sound.latched, sound.flight, sound.completing, sound.reports⟩
  · refine ⟨sound.runs, sound.latched, sound.flight, fun pane stage waiting completes => ?_,
      sound.reports⟩
    have done := sound.completing pane stage waiting completes
    rw [missing] at done
    cases done

theorem Sound.handleDone {checks : List String}
    (sound : Sound crow) (flying : crow.handler.completionInFlight = true)
    (spare : crow.calls < crow.emitted) (promotes : crow.status.any promotable = true)
    : Sound (crow.handleDone pane checks) := by
  have called : Sound { crow with calls := crow.calls + 1 } := by
    refine ⟨spare, fun _ _ landed => ?_, sound.flight, sound.completing, sound.reports⟩
    rw [flying] at landed
    cases landed
  unfold Crow.handleDone
  split
  · rename_i missing
    rw [missing] at promotes
    cases promotes
  · have able : completable crow.status = true := by simp [completable, promotes]
    exact called.continues flying (continues_runChecks pane (fun _ _ => able))

/-- A latched DONE that runs the checks uses up the marker the latch stands for. -/
theorem Sound.maybeComplete {checks : List String}
    (sound : Sound crow) (latched : crow.handler.doneLatched = true)
    : Sound (crow.maybeComplete pane checks) := by
  unfold Crow.maybeComplete
  split_ifs with busy evaluated stuck
  · exact sound.ticked
  · exact sound.ticked
  · refine Sound.ticked ⟨sound.runs, fun latched => ?_, sound.flight, sound.completing,
      sound.reports⟩
    cases latched
  · simp only [Bool.or_eq_true, not_or, Bool.not_eq_true] at busy
    have spare := sound.latched latched busy.2 busy.1
    have promotes : crow.status.any promotable = true := by simpa using stuck
    refine Sound.handleDone ?_ rfl spare promotes
    exact ⟨sound.runs, fun _ _ _ => spare, fun _ => rfl, sound.completing, sound.reports⟩

theorem Sound.orchestrationTick (sound : Sound crow)
    : Sound crow.orchestrationTick := by
  unfold Crow.orchestrationTick
  split
  · rename_i missing
    exact sound.tickFailed missing
  · exact Sound.ticked ⟨sound.runs, sound.latched, sound.flight, sound.completing, sound.reports⟩
  · exact Sound.ticked ⟨sound.runs, sound.latched, sound.flight, sound.completing, sound.reports⟩
  · exact sound.ticked

section Ticks

variable [Harness.Sha256]

theorem Sound.tick {crow : Crow} {frame : Frame} {checks : List String} {due : Bool}
    (sound : Sound crow) (spared : careful crow (.tick frame checks due) = true)
    : Sound (crow.tick frame checks due) := by
  have settled : Sound { crow with handler := { crow.handler with
      doneLatched := crow.handler.doneLatched || frame.done } } := by
    refine ⟨sound.runs, fun latched fails grounded => ?_, sound.flight, sound.completing,
      sound.reports⟩
    cases before : crow.handler.doneLatched with
    | true => exact sound.latched before fails grounded
    | false =>
      simp only [before, Bool.false_or] at latched
      simpa [careful, before, latched] using spared
  unfold Crow.tick
  simp only
  split_ifs with latched now
  · exact settled.maybeComplete latched
  · exact settled.orchestrationTick
  · exact settled.ticked

theorem Sound.step {crow after : Crow} {event : Event} (sound : Sound crow)
    (step : CrowStep crow event after) (spared : careful crow event = true)
    : Sound after := by
  cases step with
  | emit =>
    exact {
      runs := Nat.le_succ_of_le sound.runs
      latched := fun latched fails grounded =>
        Nat.lt_succ_of_lt (sound.latched latched fails grounded)
      flight := sound.flight
      completing := sound.completing
      reports := sound.reports
    }
  | setStatus status =>
    refine ⟨sound.runs, sound.latched, sound.flight, fun pane stage waiting completes => ?_,
      sound.reports⟩
    have waiting' : crow.run = some (pane, stage) := waiting
    simpa [careful, waiting', completes] using spared
  | tick _ _ => exact sound.tick spared
  | resume waiting continued => exact sound.resume waiting spared continued

/-- One run of the checks for each marker the crow emitted, and no completion reported of a
ticket that is not done.
-/
structure OneRunPerMarker (crow : Crow) : Prop where
  runs : crow.calls ≤ crow.emitted
  reports : ∀ report ∈ crow.reports, report.completed = true → report.status = some .done

/-- In every run of careful steps the crow's markers bound the check runs. -/
theorem oneRunPerMarker {events : List Event} {crow : Crow}
    (run : Run Crow.Fresh
      (fun crow event after => CrowStep crow event after ∧ careful crow event = true) events crow)
    : OneRunPerMarker crow := by
  have sound : Sound crow :=
    run.invariant (fun _ fresh => .of_fresh fresh)
      (fun _ _ _ sound step => sound.step step.1 step.2)
  exact ⟨sound.runs, sound.reports⟩

end Ticks

/-! ### A reprompted crow -/

namespace Reprompt

abbrev sha256 : Harness.Sha256 := ⟨id⟩

def donePane : Frame := ⟨"> go\n>>> DONE", [">>> DONE"]⟩

def echoPane : Frame := ⟨"> go\n>>> DONE\n> The following checks failed.", [">>> DONE"]⟩

def failing : CheckResult := { status := .fail, message := "checklist verification failed" }

def passing : CheckResult := { status := .pass }

def next (crow : Crow) : Event → Option Crow
  | .emit => some { crow with emitted := crow.emitted + 1 }
  | .setStatus status => some { crow with status }
  | .tick frame checks due =>
    if !crow.handler.stopRequested && !crow.handler.terminalFailure
        && (!frame.done || 0 < crow.emitted) then
      some (@Crow.tick crow sha256 frame checks due)
    else none
  | .resume answer => crow.run.bind (fun waiting => crow.resume waiting.1 waiting.2 answer)

theorem step_of_next {after : Crow} {event : Event} (h : next crow event = some after)
    : @CrowStep sha256 crow event after := by
  cases event with
  | emit =>
    cases h
    exact @CrowStep.emit sha256 crow
  | setStatus status =>
    cases h
    exact @CrowStep.setStatus sha256 crow status
  | tick frame checks due =>
    simp only [next, Option.ite_none_right_eq_some, Option.some.injEq] at h
    obtain ⟨guard, rfl⟩ := h
    simp only [Bool.and_eq_true, Bool.not_eq_true', Bool.or_eq_true, decide_eq_true_eq] at guard
    have looping : ¬crow.handler.stopRequested ∧ ¬crow.handler.terminalFailure := by
      simp [guard.1.1, guard.1.2]
    refine @CrowStep.tick sha256 _ _ _ _ looping (fun done => ?_)
    simpa [done] using guard.2
  | resume answer =>
    obtain ⟨waiting, waits, continued⟩ := Option.bind_eq_some_iff.mp h
    exact @CrowStep.resume sha256 _ _ _ _ _ waits continued

/-- A marker, a failed check run, and the reprompt sent. -/
def reprompted : List Event :=
  [.emit, .tick donePane ["checklist"] true, .resume (.checked failing), .resume .returned,
    .resume .returned]

/-- The next capture shows the old marker above the reprompt. -/
def stale : List Event := reprompted ++ [.tick echoPane ["checklist"] true]

/-- The crow emits another marker before that capture. -/
def fresh : List Event :=
  reprompted ++ [.emit, .tick echoPane ["checklist"] true, .resume (.checked passing),
    .resume .returned, .resume .returned, .resume .returned]

def guarded (guard : Crow → Event → Bool) (crow : Crow) (event : Event) : Option Crow :=
  if guard crow event then next crow event else none

theorem step_of_guarded {guard : Crow → Event → Bool} (crow : Crow) (event : Event) (after : Crow)
    (h : guarded guard crow event = some after)
    : @CrowStep sha256 crow event after ∧ guard crow event = true := by
  simp only [guarded, Option.ite_none_right_eq_some] at h
  exact ⟨step_of_next h.2, h.1⟩

def ticket : Crow := { status := some .inProgress }

theorem fresh_ticket : ticket.Fresh := ⟨some .inProgress, rfl⟩

/-- Two markers, two check runs, and the ticket done. -/
theorem oneRunPerMarker_fresh
    : ∃ crow, play (guarded careful) ticket fresh = some crow ∧ crow.calls = 2
        ∧ OneRunPerMarker crow := by
  have played : ∃ crow, play (guarded careful) ticket fresh = some crow ∧ crow.calls = 2 := by
    exact ⟨_, rfl, rfl⟩
  obtain ⟨crow, played, calls⟩ := played
  have steps := steps_of_play step_of_guarded played
  exact ⟨crow, played, calls, @oneRunPerMarker sha256 fresh crow ⟨ticket, fresh_ticket, steps⟩⟩

/-- A pane that changed under the old marker runs the checks again. -/
theorem staleMarker
    : ¬∀ (events : List Event) (crow : Crow), Run Crow.Fresh (@CrowStep sha256) events crow
      → OneRunPerMarker crow := by
  intro claim
  have played : ∃ crow, play next ticket stale = some crow
      ∧ crow.calls = 2 ∧ crow.emitted = 1 := by
    exact ⟨_, rfl, rfl, rfl⟩
  obtain ⟨crow, played, calls, emitted⟩ := played
  have steps := steps_of_play (fun _ _ _ => step_of_next) played
  have runs := (claim stale crow ⟨ticket, fresh_ticket, steps⟩).runs
  omega

end Reprompt

end Murder.Completion
