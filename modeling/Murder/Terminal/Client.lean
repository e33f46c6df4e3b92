import Murder.Terminal.Delivery

/-! A client of a session's raw terminal across connections, resyncs and re-created outputs.
What was published, and where the client's last sequence is from, is recorded beside the code's
own state.
-/

namespace Murder.Terminal

/-- An update with the emulator behind it and the output that published it. -/
structure Published where
  generation : Nat
  update : TerminalOutputUpdate
  emulator : VtEmulator

/-- `TerminalOutputRegistry` for one session: every output it ever opened, the one it would
share now, and what all of them published.
-/
structure TerminalOutputRegistry where
  outputs : Nat → TmuxTerminalOutput
  created : Nat
  current : Option Nat
  log : List Published

variable (generation : Nat) (registry : TerminalOutputRegistry) (emulator : VtEmulator)
  (terminal : TerminalRegistration)

namespace TerminalOutputRegistry

def publish (output : TmuxTerminalOutput) (update : TerminalOutputUpdate)
    (registry : TerminalOutputRegistry) : TerminalOutputRegistry :=
  { registry with
    outputs := Function.update registry.outputs generation output
    log := registry.log ++ [⟨generation, update, output.emulator⟩] }

def publishKeyframe : TerminalOutputRegistry :=
  let output := registry.outputs generation
  registry.publish generation output.publishKeyframe (.keyframe output.nextKeyframe)

/-- A closed output, whose emulator a refused chunk may have left partly fed. -/
def closeOutput (registry : TerminalOutputRegistry) : TerminalOutputRegistry :=
  let output := { registry.outputs generation with emulator := emulator, closed := true }
  { registry with outputs := Function.update registry.outputs generation output }

def close (generation : Nat) (registry : TerminalOutputRegistry) : TerminalOutputRegistry :=
  registry.closeOutput generation (registry.outputs generation).emulator

/-- `TmuxTerminalOutput.start` of a new output over the captured pane. -/
def create (registry : TerminalOutputRegistry) : TerminalOutputRegistry :=
  publishKeyframe registry.created
    { registry with
      outputs := Function.update registry.outputs registry.created { emulator := emulator }
      created := registry.created + 1
      current := some registry.created }

/-- The output that `open` would share. -/
def shared : Option Nat :=
  registry.current.filter (fun generation => !(registry.outputs generation).closed)

/-- `open`: the shared output, or a new one. -/
def open_ (registry : TerminalOutputRegistry) : TerminalOutputRegistry × Nat :=
  match registry.shared with
  | some generation => (registry, generation)
  | none => (registry.create emulator, registry.created)

/-- `remove`: the entry is dropped and its output closed. -/
def remove : TerminalOutputRegistry :=
  match registry.current with
  | some generation => { registry.close generation with current := none }
  | none => registry

end TerminalOutputRegistry

/-- What a client asks for over its connection. -/
inductive TerminalRequest
  | attach
  | resync
deriving DecidableEq

/-- The emulator a keyframe stands for, with a parser between two sequences. -/
def VtEmulator.ofSnapshot (snapshot : VtSnapshot) : VtEmulator where
  size := ⟨snapshot.columns, snapshot.rows⟩
  buffer :=
    match snapshot.activeBuffer with
    | .primary => snapshot.primary.restore
    | .alternate => snapshot.alternate.restore
  modes := snapshot.modes
  usingAlternate := snapshot.activeBuffer == .alternate
  primaryState := snapshot.primary
  alternateState := snapshot.alternate

/-- `TerminalRegistration`, the server it knows, the screen folded from what it accepted, and
the output its last sequence is from.
-/
structure TerminalRegistration where
  serverId : Option Nat := none
  lastSequence : Nat := 0
  suspended : Bool := false
  resyncPending : Bool := false
  screen : Option VtEmulator := none
  generation : Nat := 0

namespace TerminalRegistration

/-- Ask for a resync, at most once until a keyframe is accepted. -/
def requestTerminalResync : TerminalRegistration × List TerminalRequest :=
  if terminal.resyncPending then
    (terminal, [])
  else
    ({ terminal with resyncPending := true }, [.resync])

def acceptTerminalKeyframe (keyframe : TerminalKeyframe) (terminal : TerminalRegistration)
    : TerminalRegistration :=
  if keyframe.sequence ≤ terminal.lastSequence then
    terminal
  else
    { terminal with
      lastSequence := keyframe.sequence
      suspended := false
      resyncPending := false
      screen := some (.ofSnapshot keyframe.snapshot)
      generation := generation }

def acceptTerminalChunk [UnicodeData] (sequence : Nat) (data : List UInt8)
    (terminal : TerminalRegistration) : TerminalRegistration × List TerminalRequest :=
  if sequence ≤ terminal.lastSequence ∨ terminal.suspended then
    (terminal, [])
  else if sequence ≠ terminal.lastSequence + 1 then
    requestTerminalResync { terminal with suspended := true }
  else
    ({ terminal with
        lastSequence := sequence
        screen := terminal.screen.bind (fun screen => (screen.feed data).toOption)
        generation := generation },
      [])

/-- `dispatch` of a message of the terminal's stream. -/
def dispatch [UnicodeData] (message : StreamMessage) (terminal : TerminalRegistration)
    : TerminalRegistration × List TerminalRequest :=
  match message with
  | .attached => (terminal, [])
  | .gap _ _ => requestTerminalResync { terminal with suspended := true }
  | .chunk sequence data => terminal.acceptTerminalChunk generation sequence data
  | .keyframe keyframe => (terminal.acceptTerminalKeyframe generation keyframe, [])
  | .resynced keyframe => (terminal.acceptTerminalKeyframe generation keyframe, [])

/-- `server.hello`: another server starts its sequences again. -/
def hello (serverId : Nat) (terminal : TerminalRegistration) : TerminalRegistration :=
  let terminal' := { terminal with serverId := some serverId }
  if terminal.serverId ≠ none ∧ terminal.serverId ≠ some serverId then
    { terminal' with lastSequence := 0, suspended := false, resyncPending := false }
  else
    terminal'

/-- `sendTerminalAttach` -/
def sendTerminalAttach : TerminalRegistration × List TerminalRequest :=
  if 0 < terminal.lastSequence then
    let (terminal, requests) := terminal.requestTerminalResync
    (terminal, .attach :: requests)
  else
    (terminal, [.attach])

/-- The connection is gone. -/
def disconnected : TerminalRegistration :=
  { terminal with
    resyncPending := false
    suspended := if 0 < terminal.lastSequence then true else terminal.suspended }

end TerminalRegistration

/-- A message on its way to the client; `opening` marks the first keyframe of a stream. -/
structure Delivery where
  generation : Nat
  opening : Bool
  message : StreamMessage

/-- One connection of the client: its requests, the stream the server runs for it, the
messages on their way, and the output and sequence of the last update received over it.
-/
structure TerminalLink where
  connected : Bool := false
  requests : List TerminalRequest := []
  starting : Option Bool := none
  stream : Option (Nat × RawStream) := none
  inbox : List Delivery := []
  position : Option (Nat × Nat) := none

structure TerminalWorld where
  registry : TerminalOutputRegistry
  serverId : Nat
  link : TerminalLink := {}
  client : TerminalRegistration := {}
  /-- First keyframes that the client received and did not accept. -/
  ignored : List Delivery := []

def RawStream.publishes (stream : RawStream) : Bool :=
  stream.phase = .opened || stream.phase = .replacing

/-- Whether the next step of a stream sends its first keyframe. -/
def RawStream.opens (stream : RawStream) : Bool :=
  match stream.phase with
  | .presenting _ => true
  | _ => false

def RawStream.deliveries (stream next : RawStream) : List Delivery :=
  (next.sent.drop stream.sent.length).map (⟨generation, stream.opens, ·⟩)

def TerminalWorld.receive [UnicodeData] (w : TerminalWorld) (delivery : Delivery)
    (rest : List Delivery) : TerminalWorld :=
  let (client, requests) := w.client.dispatch delivery.generation delivery.message
  { w with
    client := client
    ignored :=
      if delivery.opening
          ∧ delivery.message.sequence?.any (fun sequence => sequence ≤ w.client.lastSequence) then
        w.ignored ++ [delivery]
      else
        w.ignored
    link := { w.link with
      requests := w.link.requests ++ requests
      inbox := rest
      position :=
        match delivery.message.sequence? with
        | some sequence => some (delivery.generation, sequence)
        | none => w.link.position } }

/-- A new connection: the greeting, then the attachment. -/
def TerminalWorld.connect (w : TerminalWorld) : TerminalWorld :=
  let (client, requests) := (w.client.hello w.serverId).sendTerminalAttach
  { w with client := client, link := { connected := true, requests := requests } }

def TerminalWorld.disconnect (w : TerminalWorld) : TerminalWorld :=
  { w with client := w.client.disconnected, link := {} }

inductive TerminalEvent
  | chunk (generation : Nat) (data : List UInt8)
  | keyframe (generation : Nat)
  | refuse (generation : Nat) (data : List UInt8)
  | close (generation : Nat)
  | open_ (emulator : VtEmulator)
  | replace (emulator : VtEmulator)
  | remove
  | restart (serverId : Nat)
  | disconnect
  | connect
  | serve
  | begin_ (emulator : VtEmulator)
  | advance
  | fail
  | receive

/-- One step of a publisher, of another opener of the session, of the server's side of the
connection, of the network or of the client. A reader stops at the close of its output.
-/
inductive TerminalStep [UnicodeData] : TerminalWorld → TerminalEvent → TerminalWorld → Prop
  | chunk {w generation data output} (live : generation < w.registry.created)
    (reading : (w.registry.outputs generation).closed = false) (some_ : data ≠ [])
    (published : (w.registry.outputs generation).publishChunk data = .ok output)
    : TerminalStep w (.chunk generation data)
        { w with registry := w.registry.publish generation output (.chunk output.sequence data) }
  | keyframe {w : TerminalWorld} {generation} (live : generation < w.registry.created)
    : TerminalStep w (.keyframe generation)
        { w with registry := w.registry.publishKeyframe generation }
  | refuse {w : TerminalWorld} {generation data raised} (partly : VtEmulator)
    (live : generation < w.registry.created)
    (refused : (w.registry.outputs generation).publishChunk data = .error raised)
    : TerminalStep w (.refuse generation data)
        { w with registry := w.registry.closeOutput generation partly }
  | close {w : TerminalWorld} {generation} (live : generation < w.registry.created)
    : TerminalStep w (.close generation) { w with registry := w.registry.close generation }
  | open_ {w : TerminalWorld} (emulator)
    : TerminalStep w (.open_ emulator) { w with registry := (w.registry.open_ emulator).1 }
  | replace {w : TerminalWorld} (emulator)
    : TerminalStep w (.replace emulator)
        { w with registry := w.registry.remove.create emulator }
  | remove {w : TerminalWorld}
    : TerminalStep w .remove { w with registry := w.registry.remove }
  | restart {w : TerminalWorld} (serverId)
    : TerminalStep w (.restart serverId)
        { w.disconnect with
          serverId := serverId
          registry := { w.registry with current := none } }
  | disconnect {w : TerminalWorld} : TerminalStep w .disconnect w.disconnect
  | connect {w : TerminalWorld} (apart : w.link.connected = false)
    : TerminalStep w .connect w.connect
  | serve {w : TerminalWorld} {request rest} (asked : w.link.requests = request :: rest)
    : TerminalStep w .serve
        { w with
          link := { w.link with
            requests := rest
            starting := some (request == .resync)
            stream := none } }
  | begin_ {w : TerminalWorld} {resync} (emulator) (starts : w.link.starting = some resync)
    : TerminalStep w (.begin_ emulator)
        { w with
          registry := (w.registry.open_ emulator).1
          link := { w.link with
            starting := none
            stream := some ((w.registry.open_ emulator).2, { resync := resync }) } }
  | advance {w : TerminalWorld} {generation stream output next}
    (running : w.link.stream = some (generation, stream))
    (moved : stream.advance (w.registry.outputs generation) = some (output, next))
    : TerminalStep w .advance
        { w with
          registry :=
            if stream.publishes then w.registry.publishKeyframe generation else w.registry
          link := { w.link with
            stream := some (generation, next)
            inbox := w.link.inbox ++ stream.deliveries generation next } }
  | fail {w : TerminalWorld} {generation stream}
    (running : w.link.stream = some (generation, stream))
    : TerminalStep w .fail
        { w with
          link := { w.link with stream := some (generation, { stream with phase := .raised }) } }
  | receive {w : TerminalWorld} {delivery rest} (first : w.link.inbox = delivery :: rest)
    : TerminalStep w .receive (w.receive delivery rest)

/-- A server without outputs and a terminal that was never attached. -/
def TerminalStart (w : TerminalWorld) : Prop :=
  ∃ outputs serverId, w = { registry := ⟨outputs, 0, none, []⟩, serverId := serverId }

end Murder.Terminal
