import Murder.Contracts.Common
import Murder.Library.Runs

/-! Raw terminal input: accepting numbered batches and the one writer behind their queue. -/

namespace Murder.Terminal

open Contracts Library.Runs

def base64Digit (c : Char) : Option Nat :=
  if 'A' ≤ c ∧ c ≤ 'Z' then some (c.toNat - 'A'.toNat)
  else if 'a' ≤ c ∧ c ≤ 'z' then some (c.toNat - 'a'.toNat + 26)
  else if '0' ≤ c ∧ c ≤ '9' then some (c.toNat - '0'.toNat + 52)
  else if c = '+' then some 62
  else if c = '/' then some 63
  else none

def base64Bytes : List Nat → List UInt8
  | a :: b :: c :: d :: rest =>
    (a * 4 + b / 16).toUInt8 :: (b % 16 * 16 + c / 4).toUInt8 :: (c % 4 * 64 + d).toUInt8
      :: base64Bytes rest
  | [a, b, c] => [(a * 4 + b / 16).toUInt8, (b % 16 * 16 + c / 4).toUInt8]
  | [a, b] => [(a * 4 + b / 16).toUInt8]
  | _ => []

/-- `base64.b64decode(data, validate=True)`: digits, then at most two pads, and enough of
them.
-/
def b64decode (data : String) : Option (List UInt8) :=
  let digits := (data.toList.takeWhile (fun c => (base64Digit c).isSome)).filterMap base64Digit
  let pads := data.toList.dropWhile (fun c => (base64Digit c).isSome)
  let needed := match digits.length % 4 with
    | 0 => 0
    | 2 => 2
    | 3 => 1
    | _ => 3
  if pads.all (· == '=') ∧ pads.length ≤ 2 ∧ needed ≤ pads.length then
    some (base64Bytes digits)
  else
    none

structure TerminalInputMessage where
  sessionId : Uuid
  leaseId : Uuid
  fence : Nat
  inputSequence : Nat
  data : String
deriving DecidableEq

/-- A message whose bytes are decoded. -/
structure InputBatch where
  sessionId : Uuid
  leaseId : Uuid
  fence : Nat
  inputSequence : Nat
  data : List UInt8
deriving DecidableEq

/-- What the queue holds of a batch. -/
structure InputItem where
  sequence : Nat
  leaseId : Uuid
  fence : Nat
  data : List UInt8
deriving DecidableEq

def InputBatch.item (batch : InputBatch) : InputItem :=
  ⟨batch.inputSequence, batch.leaseId, batch.fence, batch.data⟩

inductive InputError
  | runtimeError (message : String)
  | valueError (message : String)
deriving DecidableEq

/-- `_MAX_TERMINAL_INPUT_BYTES`. -/
def maxTerminalInputBytes : Nat := 256 * 1024

/-- `_MAX_TERMINAL_INPUT_QUEUE_ITEMS`. -/
def maxTerminalInputQueueItems : Nat := 128

/-- `_MAX_TERMINAL_INPUT_QUEUE_BYTES`. -/
def maxTerminalInputQueueBytes : Nat := 512 * 1024

/-- Whether the coordinator has its runtime callbacks. -/
structure TerminalInputCoordinator where
  writer : Bool := true
  validator : Bool := true

/-- What `accept` checks before it awaits the validator. -/
def TerminalInputCoordinator.decode (coordinator : TerminalInputCoordinator)
    (message : TerminalInputMessage)
    : Except InputError InputBatch :=
  if !coordinator.writer then
    .error (.runtimeError "terminal input is unavailable")
  else if !coordinator.validator then
    .error (.runtimeError "terminal input validation is unavailable")
  else
    match b64decode message.data with
    | none => .error (.valueError "terminal input contains invalid base64")
    | some data =>
      if data = [] then
        .error (.valueError "terminal input must not be empty")
      else if maxTerminalInputBytes < data.length then
        .error (.valueError "terminal input batch exceeds byte limit")
      else
        .ok ⟨message.sessionId, message.leaseId, message.fence, message.inputSequence, data⟩

structure TerminalInputState where
  sessionId : Uuid
  nextSequence : Nat := 1
  queuedBytes : Int := 0
  queue : List InputItem := []

/-- An ack, with the batch the call queued before it. -/
structure InputAck where
  acceptedThrough : Nat
  queued : Option InputItem := none
deriving DecidableEq

/-- What `accept` does between the validator and the sending of its ack. -/
def TerminalInputState.admitBatch (state : TerminalInputState) (batch : InputBatch)
    : Except InputError (TerminalInputState × InputAck) :=
  if state.sessionId ≠ batch.sessionId then
    .error (.valueError "terminal input stream changed target")
  else if batch.inputSequence < state.nextSequence then
    .ok (state, { acceptedThrough := state.nextSequence - 1 })
  else if state.nextSequence < batch.inputSequence then
    .error (.valueError ("terminal input sequence gap: expected "
      ++ toString state.nextSequence ++ ", got " ++ toString batch.inputSequence))
  else if maxTerminalInputQueueBytes < state.queuedBytes + batch.data.length
      ∨ maxTerminalInputQueueItems ≤ state.queue.length then
    .error (.runtimeError "terminal input queue is full. Input is temporarily suspended.")
  else
    .ok (
      { state with
        queue := state.queue ++ [batch.item]
        queuedBytes := state.queuedBytes + batch.data.length
        nextSequence := state.nextSequence + 1 },
      { acceptedThrough := batch.inputSequence, queued := some batch.item })

/-- Where the writer coroutine of a stream waits. -/
inductive WriterPhase
  | waiting
  | writing (item : InputItem)
  | reporting (item : InputItem)
  | ended
deriving DecidableEq

def WriterPhase.inFlight : WriterPhase → List InputItem
  | .writing item => [item]
  | .reporting item => [item]
  | _ => []

/-- One input stream of a connection: its state, its writer, the calls suspended in the
validator and in their ack, and what was queued, written and acknowledged so far.
-/
structure InputStream where
  state : Option TerminalInputState := none
  writer : WriterPhase := .waiting
  validating : List InputBatch := []
  sending : List InputAck := []
  accepted : List InputItem := []
  passed : List InputItem := []
  acks : List Nat := []

namespace InputStream

def queue (stream : InputStream) : List InputItem := (stream.state.map (·.queue)).getD []

def nextSequence (stream : InputStream) : Nat := (stream.state.map (·.nextSequence)).getD 1

def queuedBytes (stream : InputStream) : Int := (stream.state.map (·.queuedBytes)).getD 0

/-- The state a validated call works on, made when there is none. -/
def opened (stream : InputStream) (batch : InputBatch) : TerminalInputState :=
  stream.state.getD { sessionId := batch.sessionId }

def settle (stream : InputStream) (item : InputItem) (writer : WriterPhase) : InputStream :=
  { stream with
    writer := writer
    state := stream.state.map (fun state =>
      { state with queuedBytes := state.queuedBytes - item.data.length }) }

end InputStream

inductive InputEvent
  | call (message : TerminalInputMessage)
  | validated (batch : InputBatch)
  | refused (batch : InputBatch)
  | ackSent (ack : InputAck)
  | ackFailed (ack : InputAck)
  | take
  | written
  | writeFailed
  | reported
  | reportFailed
  | cancelled

section Steps

variable (coordinator : TerminalInputCoordinator)

def InputStream.step (stream : InputStream) : InputEvent → Option InputStream
  | .call message =>
    match coordinator.decode message with
    | .error _ => some stream
    | .ok batch => some { stream with validating := batch :: stream.validating }
  | .validated batch =>
    if batch ∈ stream.validating then
      let calls := stream.validating.erase batch
      match (stream.opened batch).admitBatch batch with
      | .error _ =>
        some { stream with state := some (stream.opened batch), validating := calls }
      | .ok (state, ack) =>
        some { stream with
          state := some state
          validating := calls
          sending := ack :: stream.sending
          acks := ack.acceptedThrough :: stream.acks
          accepted := stream.accepted ++ ack.queued.toList }
    else
      none
  | .refused batch =>
    if batch ∈ stream.validating then
      some { stream with validating := stream.validating.erase batch }
    else
      none
  | .ackSent ack =>
    if ack ∈ stream.sending then some { stream with sending := stream.sending.erase ack }
    else none
  | .ackFailed ack =>
    if ack ∈ stream.sending then some { stream with sending := stream.sending.erase ack }
    else none
  | .take =>
    match stream.state, stream.writer with
    | some state, .waiting =>
      match state.queue with
      | [] => none
      | item :: rest =>
        some { stream with
          state := some { state with queue := rest }
          writer := .writing item
          passed := stream.passed ++ [item] }
    | _, _ => none
  | .written =>
    match stream.writer with
    | .writing item => some (stream.settle item .waiting)
    | _ => none
  | .writeFailed =>
    match stream.writer with
    | .writing item => some { stream with writer := .reporting item }
    | _ => none
  | .reported =>
    match stream.writer with
    | .reporting item => some (stream.settle item .waiting)
    | _ => none
  | .reportFailed =>
    match stream.writer with
    -- the raise leaves the loop and ends the task
    | .reporting item => some (stream.settle item .ended)
    | _ => none
  | .cancelled =>
    match stream.writer with
    | .waiting => if stream.state = none then none else some { stream with writer := .ended }
    | .writing item => some (stream.settle item .ended)
    | .reporting item => some (stream.settle item .ended)
    | .ended => none

def InputStream.raises (stream : InputStream) : InputEvent → Bool
  | .call message =>
    match coordinator.decode message with
    | .error _ => true
    | .ok _ => false
  | .validated batch =>
    match (stream.opened batch).admitBatch batch with
    | .error _ => true
    | .ok _ => false
  | .refused _ => true
  | .ackFailed _ => true
  | _ => false

def InputStep (stream : InputStream) (event : InputEvent) (next : InputStream) : Prop :=
  stream.step coordinator event = some next

end Steps

def InputStart (stream : InputStream) : Prop := stream = {}

def inputBytes (items : List InputItem) : Int :=
  (items.map (fun item => (item.data.length : Int))).sum

/-- Input is queued and written in order, each accepted batch once, and counted. -/
structure InputSerial (stream : InputStream) : Prop where
  numbered : stream.accepted.map (·.sequence) = List.range' 1 stream.accepted.length
  next : stream.nextSequence = stream.accepted.length + 1
  order : stream.passed ++ stream.queue = stream.accepted
  acks : ∀ through ∈ stream.acks, through ≤ stream.accepted.length
  bytes : stream.queuedBytes = inputBytes (stream.writer.inFlight ++ stream.queue)
  bounded : stream.queuedBytes ≤ maxTerminalInputQueueBytes

def SameQueue (stream next : InputStream) : Prop :=
  next.queue = stream.queue ∧ next.nextSequence = stream.nextSequence

/-- A call that raises changes nothing, and one that changes the queue goes on to ack the
batch it queued.
-/
structure CleanStep (coordinator : TerminalInputCoordinator) (stream : InputStream)
    (event : InputEvent) (next : InputStream) : Prop where
  raising : stream.raises coordinator event = true → SameQueue stream next
  admitting
    : ∀ batch, event = .validated batch
        → SameQueue stream next
          ∨ next.queue = stream.queue ++ [batch.item]
            ∧ next.sending = ⟨batch.inputSequence, some batch.item⟩ :: stream.sending

variable {state : TerminalInputState}

section Serial

variable {coordinator : TerminalInputCoordinator} {stream next : InputStream}

theorem inputBytes_append (left right : List InputItem)
    : inputBytes (left ++ right) = inputBytes left + inputBytes right := by
  simp [inputBytes]

theorem inputBytes_singleton (item : InputItem)
    : inputBytes [item] = item.data.length := by
  simp [inputBytes]

theorem admit_cases {after : TerminalInputState} {batch : InputBatch} {ack : InputAck}
    (h : state.admitBatch batch = .ok (after, ack))
    : (after = state ∧ ack = ⟨state.nextSequence - 1, none⟩)
      ∨ (batch.inputSequence = state.nextSequence
        ∧ state.queuedBytes + batch.data.length ≤ maxTerminalInputQueueBytes
        ∧ after = { state with
          queue := state.queue ++ [batch.item]
          queuedBytes := state.queuedBytes + batch.data.length
          nextSequence := state.nextSequence + 1 }
        ∧ ack = ⟨batch.inputSequence, some batch.item⟩) := by
  unfold TerminalInputState.admitBatch at h
  split at h
  · cases h
  split at h
  · cases h
    exact .inl ⟨rfl, rfl⟩
  split at h
  · cases h
  split at h
  · cases h
  next same fresh full =>
    cases h
    exact .inr ⟨by omega, by omega, rfl, rfl⟩

theorem opened_queue (stream : InputStream) (batch : InputBatch)
    : (stream.opened batch).queue = stream.queue
      ∧ (stream.opened batch).nextSequence = stream.nextSequence
      ∧ (stream.opened batch).queuedBytes = stream.queuedBytes := by
  obtain ⟨state, writer, validating, sending, accepted, passed, acks⟩ := stream
  cases state with
  | none => exact ⟨rfl, rfl, rfl⟩
  | some state => exact ⟨rfl, rfl, rfl⟩

theorem InputSerial.of_same (h : InputSerial stream) (queue : next.queue = stream.queue)
    (sequence : next.nextSequence = stream.nextSequence)
    (bytes : next.queuedBytes = stream.queuedBytes)
    (flight : next.writer.inFlight = stream.writer.inFlight)
    (accepted : next.accepted = stream.accepted) (passed : next.passed = stream.passed)
    (acks : next.acks = stream.acks)
    : InputSerial next := by
  constructor
  · rw [accepted]
    exact h.numbered
  · rw [sequence, accepted]
    exact h.next
  · rw [passed, queue, accepted]
    exact h.order
  · rw [acks, accepted]
    exact h.acks
  · rw [bytes, flight, queue]
    exact h.bytes
  · rw [bytes]
    exact h.bounded

/-- A serial stream whose writer only works once there is a state. -/
structure InputSound (stream : InputStream) : Prop where
  serial : InputSerial stream
  unopened : stream.state = none → stream.writer.inFlight = []

theorem inputSound_of_start (h : InputStart stream) : InputSound stream := by
  rw [h]
  refine ⟨⟨rfl, rfl, rfl, ?_, rfl, ?_⟩, fun _ => rfl⟩
  · intro through member
    cases member
  · decide

/-- Settling the item in flight takes its bytes from the count. -/
theorem InputSound.settle {item : InputItem} {writer : WriterPhase} (h : InputSound stream)
    (flight : stream.writer.inFlight = [item]) (idle : writer.inFlight = [])
    : InputSound (stream.settle item writer) := by
  obtain ⟨⟨numbered, next, order, acks, bytes, bounded⟩, unopened⟩ := h
  cases opened : stream.state with
  | none =>
    rw [unopened opened] at flight
    cases flight
  | some state =>
    have queue : (stream.settle item writer).queue = stream.queue := by
      simp [InputStream.queue, InputStream.settle, opened]
    have sequence : (stream.settle item writer).nextSequence = stream.nextSequence := by
      simp [InputStream.nextSequence, InputStream.settle, opened]
    have less : (stream.settle item writer).queuedBytes
        = stream.queuedBytes - item.data.length := by
      simp [InputStream.queuedBytes, InputStream.settle, opened]
    rw [flight, inputBytes_append, inputBytes_singleton] at bytes
    refine ⟨⟨numbered, sequence.trans next, ?_, acks, ?_, ?_⟩, fun missing => ?_⟩
    · rw [queue]
      exact order
    · change _ = inputBytes (writer.inFlight ++ _)
      rw [less, queue, idle, List.nil_append]
      omega
    · rw [less]
      omega
    · simp [InputStream.settle, opened] at missing

theorem InputSound.take {item : InputItem} {rest : List InputItem}
    (h : InputSound stream) (opened : stream.state = some state)
    (idle : stream.writer = .waiting) (queued : state.queue = item :: rest)
    : InputSound { stream with
        state := some { state with queue := rest }
        writer := .writing item
        passed := stream.passed ++ [item] } := by
  obtain ⟨⟨numbered, next, order, acks, bytes, bounded⟩, unopened⟩ := h
  have queue : stream.queue = item :: rest := by simp [InputStream.queue, opened, queued]
  have count : stream.queuedBytes = state.queuedBytes := by
    simp [InputStream.queuedBytes, opened]
  have sequence : stream.nextSequence = state.nextSequence := by
    simp [InputStream.nextSequence, opened]
  refine ⟨⟨numbered, sequence.symm.trans next, ?_, acks, ?_, ?_⟩, fun missing => nomatch missing⟩
  · rw [queue] at order
    simpa [InputStream.queue] using order
  · rw [idle, queue, count] at bytes
    simpa [InputStream.queuedBytes, InputStream.queue, WriterPhase.inFlight] using bytes
  · rw [count] at bounded
    exact bounded

theorem InputSound.validated {batch : InputBatch} {calls : List InputBatch}
    {ack : InputAck} (h : InputSound stream)
    (admitted : (stream.opened batch).admitBatch batch = .ok (state, ack))
    : InputSound { stream with
        state := some state
        validating := calls
        sending := ack :: stream.sending
        acks := ack.acceptedThrough :: stream.acks
        accepted := stream.accepted ++ ack.queued.toList } := by
  obtain ⟨queue, sequence, count⟩ := opened_queue stream batch
  obtain ⟨⟨numbered, next, order, acks, bytes, bounded⟩, unopened⟩ := h
  rcases admit_cases admitted with ⟨rfl, rfl⟩ | ⟨same, room, rfl, rfl⟩
  · refine ⟨⟨?_, ?_, ?_, ?_, ?_, ?_⟩, fun missing => nomatch missing⟩
    · simpa using numbered
    · change (stream.opened batch).nextSequence = _
      rw [sequence, next]
      simp
    · change stream.passed ++ (stream.opened batch).queue = _
      rw [queue, order]
      simp
    · intro through member
      rcases List.mem_cons.mp member with rfl | member
      · change (stream.opened batch).nextSequence - 1 ≤ _
        rw [sequence, next]
        simp
      · simpa using acks through member
    · change (stream.opened batch).queuedBytes = inputBytes (_ ++ (stream.opened batch).queue)
      rw [count, queue]
      exact bytes
    · change (stream.opened batch).queuedBytes ≤ _
      rw [count]
      exact bounded
  · have numberedNext : batch.inputSequence = stream.accepted.length + 1 := by
      rw [same, sequence, next]
    refine ⟨⟨?_, ?_, ?_, ?_, ?_, room⟩, fun missing => nomatch missing⟩
    · change (stream.accepted ++ [batch.item]).map (·.sequence)
        = List.range' 1 (stream.accepted ++ [batch.item]).length
      rw [List.map_append, numbered, List.length_append, List.length_singleton,
        List.range'_concat]
      simp [InputBatch.item, numberedNext, Nat.add_comm]
    · change (stream.opened batch).nextSequence + 1 = (stream.accepted ++ [batch.item]).length + 1
      rw [sequence, next]
      simp
    · change stream.passed ++ ((stream.opened batch).queue ++ [batch.item])
        = stream.accepted ++ [batch.item]
      rw [queue, ← order, List.append_assoc]
    · intro through member
      change through ≤ (stream.accepted ++ [batch.item]).length
      rcases List.mem_cons.mp member with rfl | member
      · simp [numberedNext]
      · have before := acks through member
        simp
        omega
    · change (stream.opened batch).queuedBytes + batch.data.length
        = inputBytes (stream.writer.inFlight ++ ((stream.opened batch).queue ++ [batch.item]))
      rw [count, queue, bytes, ← List.append_assoc, inputBytes_append _ [batch.item],
        inputBytes_singleton]
      rfl

theorem InputSound.step {event : InputEvent} (h : InputSound stream)
    (step : InputStep coordinator stream event next)
    : InputSound next := by
  have unmoved : ∀ {other : InputStream}, other.state = stream.state
      → other.writer.inFlight = stream.writer.inFlight → other.accepted = stream.accepted
      → other.passed = stream.passed → other.acks = stream.acks → InputSound other := by
    intro other state flight accepted passed acks
    refine ⟨h.serial.of_same ?_ ?_ ?_ flight accepted passed acks, fun missing => ?_⟩
    · simp [InputStream.queue, state]
    · simp [InputStream.nextSequence, state]
    · simp [InputStream.queuedBytes, state]
    · exact flight.trans (h.unopened (state.symm.trans missing))
  unfold InputStep InputStream.step at step
  cases event with
  | call message =>
    dsimp only at step
    split at step
    · cases step
      exact h
    · cases step
      exact unmoved rfl rfl rfl rfl rfl
  | validated batch =>
    dsimp only at step
    split at step
    · split at step
      · cases step
        obtain ⟨queue, sequence, count⟩ := opened_queue stream batch
        refine ⟨h.serial.of_same queue sequence count rfl rfl rfl rfl, fun missing => ?_⟩
        cases missing
      · next state ack admitted =>
          cases step
          exact h.validated admitted
    · cases step
  | refused batch =>
    dsimp only at step
    split at step
    · cases step
      exact unmoved rfl rfl rfl rfl rfl
    · cases step
  | ackSent ack =>
    dsimp only at step
    split at step
    · cases step
      exact unmoved rfl rfl rfl rfl rfl
    · cases step
  | ackFailed ack =>
    dsimp only at step
    split at step
    · cases step
      exact unmoved rfl rfl rfl rfl rfl
    · cases step
  | take =>
    dsimp only at step
    split at step
    · next state opened idle =>
        split at step
        · cases step
        · next item rest queued =>
            cases step
            exact h.take opened idle queued
    · cases step
  | written =>
    dsimp only at step
    split at step
    · next item writing =>
        cases step
        exact h.settle (by rw [writing]; rfl) rfl
    · cases step
  | writeFailed =>
    dsimp only at step
    split at step
    · next item writing =>
        cases step
        exact unmoved rfl (by rw [writing]; rfl) rfl rfl rfl
    · cases step
  | reported =>
    dsimp only at step
    split at step
    · next item reporting =>
        cases step
        exact h.settle (by rw [reporting]; rfl) rfl
    · cases step
  | reportFailed =>
    dsimp only at step
    split at step
    · next item reporting =>
        cases step
        exact h.settle (by rw [reporting]; rfl) rfl
    · cases step
  | cancelled =>
    dsimp only at step
    split at step
    · next idle =>
        split at step
        · cases step
        · cases step
          exact unmoved rfl (by rw [idle]; rfl) rfl rfl rfl
    · next item writing =>
        cases step
        exact h.settle (by rw [writing]; rfl) rfl
    · next item reporting =>
        cases step
        exact h.settle (by rw [reporting]; rfl) rfl
    · cases step

/-- A call changes the queue only by queuing the batch it then acks. -/
theorem cleanStep {event : InputEvent} (step : InputStep coordinator stream event next)
    : CleanStep coordinator stream event next := by
  unfold InputStep InputStream.step at step
  cases event with
  | call message =>
    refine ⟨fun _ => ?_, fun batch other => nomatch other⟩
    dsimp only at step
    split at step
    · cases step
      exact ⟨rfl, rfl⟩
    · cases step
      exact ⟨rfl, rfl⟩
  | validated batch =>
    obtain ⟨queue, sequence, -⟩ := opened_queue stream batch
    dsimp only at step
    split at step
    · split at step
      · cases step
        exact ⟨fun _ => ⟨queue, sequence⟩, fun _ _ => .inl ⟨queue, sequence⟩⟩
      · next state ack admitted =>
          cases step
          refine ⟨fun raises => ?_, fun other same => ?_⟩
          · simp [InputStream.raises, admitted] at raises
          · cases same
            rcases admit_cases admitted with ⟨rfl, rfl⟩ | ⟨-, -, rfl, rfl⟩
            · exact .inl ⟨queue, sequence⟩
            · exact .inr ⟨congrArg (· ++ [batch.item]) queue, rfl⟩
    · cases step
  | refused batch =>
    refine ⟨fun _ => ?_, fun batch other => nomatch other⟩
    dsimp only at step
    split at step
    · cases step
      exact ⟨rfl, rfl⟩
    · cases step
  | ackFailed ack =>
    refine ⟨fun _ => ?_, fun batch other => nomatch other⟩
    dsimp only at step
    split at step
    · cases step
      exact ⟨rfl, rfl⟩
    · cases step
  | ackSent ack => exact ⟨fun raises => (nomatch raises), fun batch other => nomatch other⟩
  | take => exact ⟨fun raises => (nomatch raises), fun batch other => nomatch other⟩
  | written => exact ⟨fun raises => (nomatch raises), fun batch other => nomatch other⟩
  | writeFailed => exact ⟨fun raises => (nomatch raises), fun batch other => nomatch other⟩
  | reported => exact ⟨fun raises => (nomatch raises), fun batch other => nomatch other⟩
  | reportFailed => exact ⟨fun raises => (nomatch raises), fun batch other => nomatch other⟩
  | cancelled => exact ⟨fun raises => (nomatch raises), fun batch other => nomatch other⟩

/-- Input is written in order and at most once, whatever the order of calls and writes. -/
theorem terminalInput_serial {events : List InputEvent}
    (run : Run InputStart (InputStep coordinator) events stream)
    : InputSerial stream
      ∧ ∀ event next, InputStep coordinator stream event next
          → CleanStep coordinator stream event next := by
  have sound : InputSound stream :=
    run.invariant (fun _ start => inputSound_of_start start) fun _ _ _ holds step =>
      holds.step step
  exact ⟨sound.serial, fun _ _ step => cleanStep step⟩

end Serial

namespace LostAck

def message : TerminalInputMessage := ⟨7, 8, 1, 1, "eA=="⟩

def batch : InputBatch := ⟨7, 8, 1, 1, [0x78]⟩

/-- The stream whose first batch is queued and whose ack is being sent. -/
def acking : InputStream where
  state := some { sessionId := 7, nextSequence := 2, queuedBytes := 1, queue := [batch.item] }
  sending := [⟨1, some batch.item⟩]
  accepted := [batch.item]
  acks := [1]

theorem run_acking : Run InputStart (InputStep {}) [.call message, .validated batch] acking :=
  ⟨{}, rfl, .cons rfl (.cons rfl (.nil acking))⟩

theorem serial_acking : InputSerial acking := (terminalInput_serial run_acking).1

/-- The one call of a stream raises when its ack cannot be sent, with its batch queued. -/
theorem raises_behind_queued_batch
    : Run InputStart (InputStep {}) [.call message, .validated batch] acking
      ∧ (∃ next, InputStep {} acking (.ackFailed ⟨1, some batch.item⟩) next)
      ∧ acking.raises {} (.ackFailed ⟨1, some batch.item⟩) = true
      ∧ ¬ SameQueue {} acking :=
  ⟨run_acking, ⟨_, rfl⟩, rfl, fun same => absurd same.2 (by decide)⟩

end LostAck

end Murder.Terminal
