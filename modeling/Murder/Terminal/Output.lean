import Murder.Library.Runs
import Murder.Terminal.Emulator

/-! One terminal output, what its publishers do to it, and the raw stream of a subscriber. -/

namespace Murder.Terminal

structure TerminalKeyframe where
  sequence : Nat
  snapshot : VtSnapshot
deriving DecidableEq

/-- One sequenced update of a terminal session. -/
inductive TerminalOutputUpdate
  | chunk (sequence : Nat) (data : List UInt8)
  | keyframe (keyframe : TerminalKeyframe)
deriving DecidableEq

def TerminalOutputUpdate.sequence : TerminalOutputUpdate → Nat
  | .chunk sequence _ => sequence
  | .keyframe frame => frame.sequence

structure TmuxTerminalOutput where
  emulator : VtEmulator
  sequence : Nat := 0
  updates : List TerminalOutputUpdate := []
  closed : Bool := false

/-- `_RETAINED_UPDATES`. -/
def retainedUpdates : Nat := 512

/-- `append` of a deque of bounded length. -/
def appendBounded {α : Type} (limit : Nat) (items : List α) (item : α) : List α :=
  (items ++ [item]).drop (items.length + 1 - limit)

namespace TmuxTerminalOutput

/-- The keyframe `_publish_keyframe` returns. -/
def nextKeyframe (output : TmuxTerminalOutput) : TerminalKeyframe :=
  ⟨output.sequence + 1, output.emulator.snapshot⟩

def publishKeyframe (output : TmuxTerminalOutput) : TmuxTerminalOutput :=
  { output with
    emulator := output.emulator.storeActiveState
    sequence := output.sequence + 1
    updates := appendBounded retainedUpdates output.updates (.keyframe output.nextKeyframe) }

def publishChunk [UnicodeData] (data : List UInt8) (output : TmuxTerminalOutput)
    : Except VtError TmuxTerminalOutput :=
  if data = [] then
    .ok output
  else do
    let emulator ← output.emulator.feed data
    pure { output with
      emulator := emulator
      sequence := output.sequence + 1
      updates := appendBounded retainedUpdates output.updates (.chunk (output.sequence + 1) data) }

/-- What is retained behind a sequence, or the newest update when something was lost. -/
def updatesAfter (sequence : Nat) (output : TmuxTerminalOutput)
    : List TerminalOutputUpdate :=
  match output.updates.head?, output.updates.getLast? with
  | some first, some last =>
    if sequence < first.sequence - 1 then
      [last]
    else
      output.updates.filter (sequence < ·.sequence)
  | _, _ => []

/-- `wait_for_update`, which blocks until the output closes or moves on. -/
def waitForUpdate (sequence : Nat) (output : TmuxTerminalOutput)
    : Option (Option TerminalOutputUpdate) :=
  if output.closed then
    some none
  else if sequence < output.sequence then
    some (output.updates.find? (sequence < ·.sequence))
  else
    none

end TmuxTerminalOutput

/-- What a stream sends its client. -/
inductive StreamMessage
  | attached
  | gap (expected next : Nat)
  | chunk (sequence : Nat) (data : List UInt8)
  | keyframe (keyframe : TerminalKeyframe)
  | resynced (keyframe : TerminalKeyframe)
deriving DecidableEq

/-- Where `_run_raw` stands between two of its awaits. -/
inductive RawPhase
  | attaching
  | opened
  | gapping (keyframe : TerminalKeyframe)
  | presenting (keyframe : TerminalKeyframe)
  | polling
  | waiting
  | sending (updates : List TerminalOutputUpdate)
  | replacing
  | replaced (keyframe : TerminalKeyframe)
  | returned
  | raised
deriving DecidableEq

structure RawStream where
  resync : Bool
  phase : RawPhase := .attaching
  sequence : Nat := 0
  sent : List StreamMessage := []

namespace RawStream

def send (message : StreamMessage) (phase : RawPhase) (stream : RawStream) : RawStream :=
  { stream with phase := phase, sent := stream.sent ++ [message] }

/-- Send a sequenced message and move on to its sequence. -/
def deliver (message : StreamMessage) (sequence : Nat) (phase : RawPhase)
    (stream : RawStream) : RawStream :=
  { stream with phase := phase, sequence := sequence, sent := stream.sent ++ [message] }

def messageOf : TerminalOutputUpdate → StreamMessage
  | .chunk sequence data => .chunk sequence data
  | .keyframe frame => .keyframe frame

/-- The next step of `_run_raw`, when it is not blocked. -/
def advance (output : TmuxTerminalOutput) (stream : RawStream)
    : Option (TmuxTerminalOutput × RawStream) :=
  match stream.phase with
  | .attaching =>
    some (output,
      if stream.resync then { stream with phase := .opened }
      else stream.send .attached .opened)
  | .opened =>
    let keyframe := output.nextKeyframe
    some (output.publishKeyframe,
      { stream with
        phase := if stream.resync then .presenting keyframe else .gapping keyframe })
  | .gapping keyframe =>
    some (output, stream.send (.gap 1 keyframe.sequence) (.presenting keyframe))
  | .presenting keyframe =>
    let message := if stream.resync then .resynced keyframe else .keyframe keyframe
    some (output, stream.deliver message keyframe.sequence .polling)
  | .polling =>
    match output.updatesAfter stream.sequence with
    | [] => some (output, { stream with phase := .waiting })
    | updates => some (output, { stream with phase := .sending updates })
  | .waiting =>
    match output.waitForUpdate stream.sequence with
    | none => none
    | some none => some (output, { stream with phase := .returned })
    | some (some update) => some (output, { stream with phase := .sending [update] })
  | .sending [] => some (output, { stream with phase := .polling })
  | .sending (update :: rest) =>
    if update.sequence ≠ stream.sequence + 1 then
      some (output, stream.send (.gap (stream.sequence + 1) update.sequence) .replacing)
    else
      some (output, stream.deliver (messageOf update) update.sequence (.sending rest))
  | .replacing =>
    some (output.publishKeyframe, { stream with phase := .replaced output.nextKeyframe })
  | .replaced keyframe =>
    some (output, stream.deliver (.keyframe keyframe) keyframe.sequence .polling)
  | .returned => none
  | .raised => none

end RawStream

/-- An output and one stream of it, with the last sequence published before the close. -/
structure StreamSystem where
  output : TmuxTerminalOutput
  stream : RawStream
  beforeClose : Nat := 0

def StreamSystem.close (system : StreamSystem) : StreamSystem :=
  if system.output.closed then
    system
  else
    { system with
      output := { system.output with closed := true }
      beforeClose := system.output.sequence }

/-- Who moves: a publisher of the output, or the stream. -/
inductive StreamEvent
  | chunk (data : List UInt8)
  | keyframe
  | refuse (data : List UInt8)
  | close
  | advance
  | drop

/-- One step of the output's publishers or of the stream; a chunk the emulator refuses
leaves it partly fed and closes the output, and a send may fail at any time.
-/
inductive StreamStep [UnicodeData] : StreamSystem → StreamEvent → StreamSystem → Prop
  | chunk {system data output} (published : system.output.publishChunk data = .ok output)
    : StreamStep system (.chunk data) { system with output := output }
  | keyframe (system)
    : StreamStep system .keyframe { system with output := system.output.publishKeyframe }
  | refuse {system : StreamSystem} {data raised} (partly : VtEmulator)
    (refused : system.output.publishChunk data = .error raised)
    : StreamStep system (.refuse data)
        { system.close with output := { system.close.output with emulator := partly } }
  | close (system) : StreamStep system .close system.close
  | advance {system : StreamSystem} {output stream}
    (moved : system.stream.advance system.output = some (output, stream))
    : StreamStep system .advance { system with output := output, stream := stream }
  | drop {system : StreamSystem} (running : system.stream.phase ≠ .returned)
    : StreamStep system .drop
        { system with stream := { system.stream with phase := .raised } }

def StreamStart (system : StreamSystem) : Prop :=
  ∃ emulator resync,
    system = { output := { emulator := emulator }, stream := { resync := resync } }

end Murder.Terminal
