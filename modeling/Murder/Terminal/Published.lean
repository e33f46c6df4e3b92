import Murder.Terminal.Client

/-! What the outputs of a session published, and which emulator stands behind each update. -/

namespace Murder.Terminal

def Published.sequence (published : Published) : Nat := published.update.sequence

def Recorded (log : List Published) (generation : Nat) (update : TerminalOutputUpdate) : Prop :=
  ∃ published ∈ log, published.generation = generation ∧ published.update = update

theorem Recorded.mono {log more : List Published} {generation : Nat}
    {update : TerminalOutputUpdate} (recorded : Recorded log generation update)
    (grown : log ⊆ more)
    : Recorded more generation update := by
  obtain ⟨published, listed, same⟩ := recorded
  exact ⟨published, grown listed, same⟩

theorem snapshot_storeActiveState (emulator : VtEmulator)
    : emulator.storeActiveState.snapshot = emulator.snapshot := by
  unfold VtEmulator.snapshot VtEmulator.storeActiveState
  cases emulator.usingAlternate
  · rfl
  · rfl

theorem mem_appendBounded {α : Type} {limit : Nat} {items : List α} {item other : α}
    (member : other ∈ appendBounded limit items item)
    : other = item ∨ other ∈ items := by
  rcases List.mem_append.mp (List.mem_of_mem_drop member) with old | new
  · exact .inr old
  · exact .inl (List.mem_singleton.mp new)

namespace TerminalOutputRegistry

/-- The log is below the outputs' sequences, holds what they retain, and follows the emulator:
a keyframe shows it, and a chunk is fed to the emulator of the sequence before.
-/
structure Sound [UnicodeData] (registry : TerminalOutputRegistry) : Prop where
  created : ∀ published ∈ registry.log, published.generation < registry.created
  below
    : ∀ published ∈ registry.log,
        published.sequence ≤ (registry.outputs published.generation).sequence
  positive : ∀ published ∈ registry.log, 0 < published.sequence
  current : ∀ generation, registry.current = some generation → generation < registry.created
  retained
    : ∀ generation, generation < registry.created
        → ∀ update ∈ (registry.outputs generation).updates,
          Recorded registry.log generation update
  newest
    : ∀ published ∈ registry.log, (registry.outputs published.generation).closed = false
        → published.sequence = (registry.outputs published.generation).sequence
        → published.emulator = (registry.outputs published.generation).emulator
  keyframes
    : ∀ published ∈ registry.log, ∀ frame, published.update = .keyframe frame
        → frame.snapshot = published.emulator.snapshot
  chunks
    : ∀ published ∈ registry.log, ∀ sequence data, published.update = .chunk sequence data
        → ∀ before ∈ registry.log, before.generation = published.generation
          → before.sequence + 1 = sequence
          → before.emulator.feed data = .ok published.emulator

section Registry

variable [UnicodeData] {registry : TerminalOutputRegistry} {generation : Nat}

/-- A recorded update of an output continues its sequence. -/
theorem Sound.publish (sound : registry.Sound) (live : generation < registry.created)
    {output : TmuxTerminalOutput} {update : TerminalOutputUpdate}
    (next : output.sequence = (registry.outputs generation).sequence + 1)
    (numbered : update.sequence = output.sequence)
    (kept : output.updates
      = appendBounded retainedUpdates (registry.outputs generation).updates update)
    (keyframe : ∀ frame, update = .keyframe frame → frame.snapshot = output.emulator.snapshot)
    (chunk : ∀ sequence data, update = .chunk sequence data
      → (registry.outputs generation).closed = false
        ∧ (registry.outputs generation).emulator.feed data = .ok output.emulator)
    : (registry.publish generation output update).Sound where
  created := by
    intro published listed
    rcases List.mem_append.mp listed with old | new
    · exact sound.created published old
    · rw [List.mem_singleton.mp new]
      exact live
  below := by
    intro published listed
    rcases List.mem_append.mp listed with old | new
    · have bound := sound.below published old
      by_cases own : published.generation = generation
      · show _ ≤ (Function.update registry.outputs generation output _).sequence
        rw [own, Function.update_self, next]
        rw [own] at bound
        exact Nat.le_succ_of_le bound
      · show _ ≤ (Function.update registry.outputs generation output _).sequence
        rw [Function.update_of_ne own]
        exact bound
    · rw [List.mem_singleton.mp new]
      show _ ≤ (Function.update registry.outputs generation output _).sequence
      rw [Function.update_self]
      exact Nat.le_of_eq numbered
  positive := by
    intro published listed
    rcases List.mem_append.mp listed with old | new
    · exact sound.positive published old
    · rw [List.mem_singleton.mp new]
      show 0 < update.sequence
      omega
  current := sound.current
  retained := by
    intro other below update' listed
    have grown : registry.log ⊆ (registry.publish generation output update).log :=
      List.subset_append_left _ _
    by_cases own : other = generation
    · subst own
      have listed : update' ∈ (Function.update registry.outputs other output other).updates :=
        listed
      rw [Function.update_self, kept] at listed
      rcases mem_appendBounded listed with new | old
      · exact ⟨_, List.mem_append_right _ List.mem_cons_self, rfl, new.symm⟩
      · exact (sound.retained other below update' old).mono grown
    · have listed : update' ∈ (Function.update registry.outputs generation output other).updates :=
        listed
      rw [Function.update_of_ne own] at listed
      exact (sound.retained other below update' listed).mono grown
  newest := by
    intro published listed
    show (Function.update registry.outputs generation output _).closed = false
      → _ = (Function.update registry.outputs generation output _).sequence
      → _ = (Function.update registry.outputs generation output _).emulator
    rcases List.mem_append.mp listed with old | new
    · by_cases own : published.generation = generation
      · have bound := sound.below published old
        rw [own] at bound ⊢
        rw [Function.update_self]
        intro _ same
        omega
      · rw [Function.update_of_ne own]
        exact sound.newest published old
    · rw [List.mem_singleton.mp new]
      rw [Function.update_self]
      exact fun _ _ => rfl
  keyframes := by
    intro published listed
    rcases List.mem_append.mp listed with old | new
    · exact sound.keyframes published old
    · rw [List.mem_singleton.mp new]
      exact keyframe
  chunks := by
    intro published listed sequence data same before earlier
    rcases List.mem_append.mp listed with old | new
    · rcases List.mem_append.mp earlier with before_ | after
      · exact sound.chunks published old sequence data same before before_
      · -- a later record never comes before
        rw [List.mem_singleton.mp after]
        intro own follows
        have bound := sound.below published old
        have number : published.sequence = sequence := congrArg (·.sequence) same
        have later : update.sequence + 1 = sequence := follows
        have own : generation = published.generation := own
        rw [← own] at bound
        omega
    · rw [List.mem_singleton.mp new] at same ⊢
      obtain ⟨reading, fed⟩ := chunk sequence data same
      have number : update.sequence = sequence := congrArg (·.sequence) same
      rcases List.mem_append.mp earlier with before_ | itself
      · intro own follows
        have own : before.generation = generation := own
        rw [← own] at reading fed next
        have emulator := sound.newest before before_ reading (by omega)
        rw [emulator]
        exact fed
      · rw [List.mem_singleton.mp itself]
        intro _ follows
        have follows : update.sequence + 1 = sequence := follows
        omega

theorem Sound.publishKeyframe (sound : registry.Sound) (live : generation < registry.created)
    : (registry.publishKeyframe generation).Sound := by
  refine sound.publish live rfl rfl (by simp only [TmuxTerminalOutput.publishKeyframe])
    (fun frame same => ?_) (fun _ _ same => nomatch same)
  cases same
  exact (snapshot_storeActiveState _).symm

theorem Sound.publishChunk (sound : registry.Sound) (live : generation < registry.created)
    {data : List UInt8} {output : TmuxTerminalOutput}
    (reading : (registry.outputs generation).closed = false) (some_ : data ≠ [])
    (published : (registry.outputs generation).publishChunk data = .ok output)
    : (registry.publish generation output (.chunk output.sequence data)).Sound := by
  unfold TmuxTerminalOutput.publishChunk at published
  rw [if_neg some_] at published
  obtain ⟨emulator, fed, made⟩ := Library.Transactions.except_bind_ok.mp published
  cases made
  refine sound.publish live rfl rfl (by dsimp only) (fun _ same => nomatch same)
    (fun sequence data' same => ?_)
  cases same
  exact ⟨reading, fed⟩

theorem Sound.closeOutput (sound : registry.Sound) (emulator : VtEmulator)
    : (registry.closeOutput generation emulator).Sound := by
  have same : ∀ other, ((registry.closeOutput generation emulator).outputs other).sequence
        = (registry.outputs other).sequence
      ∧ ((registry.closeOutput generation emulator).outputs other).updates
        = (registry.outputs other).updates
      ∧ (((registry.closeOutput generation emulator).outputs other).closed = false
        → (registry.closeOutput generation emulator).outputs other = registry.outputs other) := by
    intro other
    unfold TerminalOutputRegistry.closeOutput
    dsimp only
    by_cases own : other = generation
    · subst own
      rw [Function.update_self]
      exact ⟨rfl, rfl, fun open_ => nomatch open_⟩
    · rw [Function.update_of_ne own]
      exact ⟨rfl, rfl, fun _ => rfl⟩
  refine ⟨sound.created, ?_, sound.positive, sound.current, ?_, ?_, sound.keyframes,
    sound.chunks⟩
  · intro published listed
    rw [(same _).1]
    exact sound.below published listed
  · intro other below update listed
    rw [(same _).2.1] at listed
    exact sound.retained other below update listed
  · intro published listed reading
    have alike := (same published.generation).2.2 reading
    rw [alike] at reading ⊢
    exact sound.newest published listed reading

/-- A new output publishes its first keyframe. -/
theorem Sound.create (sound : registry.Sound) (emulator : VtEmulator)
    : (registry.create emulator).Sound := by
  have apart : ∀ published ∈ registry.log, published.generation ≠ registry.created :=
    fun published listed => Nat.ne_of_lt (sound.created published listed)
  refine Sound.publishKeyframe ?_ (Nat.lt_succ_self registry.created)
  refine ⟨fun published listed => Nat.lt_succ_of_lt (sound.created published listed), ?_,
    sound.positive, ?_, ?_, ?_, sound.keyframes, sound.chunks⟩
  · intro published listed
    dsimp only
    rw [Function.update_of_ne (apart published listed)]
    exact sound.below published listed
  · intro other same
    cases same
    exact Nat.lt_succ_self _
  · intro other below update listed
    dsimp only at listed
    by_cases own : other = registry.created
    · subst own
      rw [Function.update_self] at listed
      cases listed
    · rw [Function.update_of_ne own] at listed
      exact sound.retained other
        (Nat.lt_of_le_of_ne (Nat.le_of_lt_succ below) own) update listed
  · intro published listed
    dsimp only
    rw [Function.update_of_ne (apart published listed)]
    exact sound.newest published listed

/-- A registry that continues another one. -/
structure Grown (registry next : TerminalOutputRegistry) : Prop where
  sound : next.Sound
  log : registry.log ⊆ next.log
  created : registry.created ≤ next.created

theorem Grown.trans {middle next : TerminalOutputRegistry} (first : registry.Grown middle)
    (second : middle.Grown next)
    : registry.Grown next :=
  ⟨second.sound, List.Subset.trans first.log second.log, Nat.le_trans first.created second.created⟩

theorem Sound.grown_publishKeyframe (sound : registry.Sound)
    (live : generation < registry.created)
    : registry.Grown (registry.publishKeyframe generation) :=
  ⟨sound.publishKeyframe live, List.subset_append_left _ _, Nat.le_refl _⟩

theorem Sound.grown_closeOutput (sound : registry.Sound) (emulator : VtEmulator)
    : registry.Grown (registry.closeOutput generation emulator) :=
  ⟨sound.closeOutput emulator, List.Subset.refl _, Nat.le_refl _⟩

theorem Sound.grown_create (sound : registry.Sound) (emulator : VtEmulator)
    : registry.Grown (registry.create emulator) :=
  ⟨sound.create emulator, List.subset_append_left _ _, Nat.le_succ _⟩

theorem Sound.grown_refl (sound : registry.Sound) : registry.Grown registry :=
  ⟨sound, List.Subset.refl _, Nat.le_refl _⟩

theorem Sound.dropped (sound : registry.Sound)
    : TerminalOutputRegistry.Sound { registry with current := none } :=
  ⟨sound.created, sound.below, sound.positive, nofun, sound.retained, sound.newest,
    sound.keyframes, sound.chunks⟩

theorem Sound.grown_remove (sound : registry.Sound) : registry.Grown registry.remove := by
  unfold TerminalOutputRegistry.remove
  split
  · next generation _ =>
      exact ⟨(sound.closeOutput _).dropped, List.Subset.refl _, Nat.le_refl _⟩
  · exact sound.grown_refl

/-- `open` shares a live output or creates one. -/
theorem Sound.grown_open (sound : registry.Sound) (emulator : VtEmulator)
    : registry.Grown (registry.open_ emulator).1
      ∧ (registry.open_ emulator).2 < (registry.open_ emulator).1.created := by
  unfold TerminalOutputRegistry.open_ TerminalOutputRegistry.shared
  split
  · next generation shared =>
      have current := Option.filter_eq_some_iff.mp shared
      exact ⟨sound.grown_refl, sound.current generation current.1⟩
  · exact ⟨sound.grown_create emulator, Nat.lt_succ_self _⟩

end Registry

end TerminalOutputRegistry

end Murder.Terminal
