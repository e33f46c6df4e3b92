import Murder.Workflows.Propagation

/-! One decision of the static DAG: signals, propagation and the stages it stores.
A decision in a state that satisfies the stage invariant terminates and satisfies it again.
-/

namespace Murder.Workflows

open Murder.Contracts Library.Loops

/-- Every stage has a state under its own id; a ready stage has only succeeded dependencies,
and a blocked one has dependencies.
-/
structure Sound (stages : List StageDef) (byStage : ByStage) : Prop where
  keyed
    : ∀ stageDef ∈ stages,
        (byStage stageDef.id).map StageRunState.stageId = some stageDef.id
  ready
    : ∀ stageDef ∈ stages,
        statusOf byStage stageDef.id = some .ready
          → ∀ dependency ∈ stageDef.dependsOn, statusOf byStage dependency = some .succeeded
  blocked
    : ∀ stageDef ∈ stages,
        statusOf byStage stageDef.id = some .blocked → stageDef.dependsOn ≠ []

section Sound

variable {stages : List StageDef} {byStage next : ByStage} {stageDef : StageDef}

theorem Sound.found (sound : Sound stages byStage) (member : stageDef ∈ stages)
    : ∃ stage, byStage stageDef.id = some stage ∧ stage.stageId = stageDef.id :=
  Option.map_eq_some_iff.mp (sound.keyed stageDef member)

theorem Sound.isSome (sound : Sound stages byStage) (member : stageDef ∈ stages)
    : (byStage stageDef.id).isSome := by
  obtain ⟨stage, found, -⟩ := sound.found member
  simp [found]

/-- The invariant reads only the stages of the definition and their dependencies. -/
theorem Sound.of_agree (wellFormed : WellFormed stages) (sound : Sound stages byStage)
    (agree : ∀ stageDef ∈ stages, next stageDef.id = byStage stageDef.id)
    : Sound stages next := by
  have statuses : ∀ stageDef ∈ stages,
      statusOf next stageDef.id = statusOf byStage stageDef.id := by
    intro stageDef member
    simp [statusOf, agree stageDef member]
  refine ⟨?_, ?_, ?_⟩
  · intro stageDef member
    rw [agree stageDef member]
    exact sound.keyed stageDef member
  · intro stageDef member ready dependency listed
    obtain ⟨upstream, known, same⟩ := wellFormed.closed stageDef member dependency listed
    rw [statuses stageDef member] at ready
    rw [← same, statuses upstream known, same]
    exact sound.ready stageDef member ready dependency listed
  · intro stageDef member blocked
    rw [statuses stageDef member] at blocked
    exact sound.blocked stageDef member blocked

/-- A step that keeps the ids and the terminal stages, blocks no stage, and readies only
stages whose dependencies succeeded, keeps the invariant.
-/
theorem Sound.step (sound : Sound stages byStage) (keeps : KeepsStages byStage next)
    (same_ids
      : ∀ stageId,
          (next stageId).map StageRunState.stageId
            = (byStage stageId).map StageRunState.stageId)
    (ready
      : ∀ stageDef ∈ stages,
          statusOf next stageDef.id = some .ready
            → statusOf byStage stageDef.id = some .ready ∨ Released byStage stageDef)
    (blocked
      : ∀ stageId,
          statusOf next stageId = some .blocked → statusOf byStage stageId = some .blocked)
    : Sound stages next := by
  refine ⟨?_, ?_, ?_⟩
  · intro stageDef member
    rw [same_ids]
    exact sound.keyed stageDef member
  · intro stageDef member isReady dependency listed
    have succeeded : statusOf byStage dependency = some .succeeded := by
      rcases ready stageDef member isReady with before | released
      · exact sound.ready stageDef member before dependency listed
      · exact released.2 dependency listed
    exact keeps.status succeeded rfl
  · intro stageDef member isBlocked
    exact sound.blocked stageDef member (blocked stageDef.id isBlocked)

theorem Applied.sound [PyRepr] {machine : StaticDagMachine} {signal : WorkflowSignalRecord}
    (sound : Sound stages byStage) (h : Applied machine byStage signal next)
    : Sound stages next :=
  sound.step h.keeps h.same_ids (fun _ _ ready => .inl (h.of_open ready rfl))
    (fun _ blocked => h.of_open blocked rfl)

theorem Settled.sound {changed : Bool} (wellFormed : WellFormed stages)
    (sound : Sound stages byStage) (member : stageDef ∈ stages)
    (h : Settled byStage stageDef next changed)
    : Sound stages next := by
  refine sound.step h.keeps h.same_ids ?_ (fun _ => h.of_blocked)
  intro other listed ready
  rcases h.status other.id with same | ⟨own, -, readied | cancelled⟩
  · rw [same] at ready
    exact .inl ready
  · have equal := wellFormed.same listed member own
    exact .inr (equal ▸ readied.2)
  · simp [cancelled.1] at ready

/-- Settling a stage of a sound state succeeds, and every change leaves fewer blocked. -/
theorem settle_progresses (wellFormed : WellFormed stages)
    : Progresses StaticDagMachine.settle stages (Sound stages)
        (fun byStage => stages.countP (StaticDagMachine.isBlocked byStage)) where
  total := by
    intro byStage stageDef sound member
    refine settle_total (sound.isSome member) (fun dependency listed => ?_)
    obtain ⟨upstream, known, same⟩ := wellFormed.closed stageDef member dependency listed
    rw [← same]
    exact sound.isSome known
  kept := fun _ _ _ _ sound member settled =>
    (settle_returns settled).sound wellFormed sound member
  unchanged := fun _ _ _ _ _ settled => (settle_returns settled).still
  lowers := by
    intro byStage stageDef next _ member settled
    have effect := settle_returns settled
    obtain ⟨before, after⟩ := effect.unblocks
    refine countP_lt_countP ?_ member ?_ ?_
    · intro other _ blocked
      have isBlocked : statusOf next other.id = some .blocked := by
        simpa [StaticDagMachine.isBlocked, statusOf] using blocked
      simpa [StaticDagMachine.isBlocked, statusOf] using effect.of_blocked isBlocked
    · simpa [StaticDagMachine.isBlocked, statusOf] using before
    · simpa [StaticDagMachine.isBlocked, statusOf] using after

end Sound

def Quiet (stages : List StageDef) (byStage : ByStage) : Prop :=
  ∀ stageDef ∈ stages,
    statusOf byStage stageDef.id = some .blocked
      → ¬ Released byStage stageDef ∧ ¬ Obstructed byStage stageDef

section Propagate

open StaticDagMachine

variable {stages : List StageDef} {byStage : ByStage}

/-- The propagation loop ends, with nothing left to settle. -/
theorem propagate_ends (wellFormed : WellFormed stages) (sound : Sound stages byStage)
    : ∃ settled,
        propagate stages byStage = .ok settled
          ∧ Ends (pass stages) byStage settled
          ∧ Sound stages settled
          ∧ Quiet stages settled := by
  obtain ⟨settled, result, ends, soundSettled, still⟩ :=
    whileChanged_ends (settle_progresses wellFormed) sound (Nat.lt_succ_self _)
  refine ⟨settled, result, ends, soundSettled, ?_⟩
  intro stageDef member blocked
  exact (settle_returns (still stageDef member)).nothing blocked

theorem propagation_keeps {property : ByStage → Prop} {settled : ByStage}
    (kept
      : ∀ byStage stageDef next changed,
          stageDef ∈ stages → property byStage → Settled byStage stageDef next changed
            → property next)
    (holds : property byStage) (ends : Ends (pass stages) byStage settled)
    : property settled :=
  Ends.keeps (fun byStage stageDef next changed member before settles =>
    kept byStage stageDef next changed member before (settle_returns settles)) holds ends

theorem propagation_keepsTerminal {settled : ByStage} (ends : Ends (pass stages) byStage settled)
    : KeepsStages byStage settled :=
  propagation_keeps (fun _ _ _ _ _ before settles => before.trans settles.keeps)
    (KeepsStages.refl byStage) ends

variable [PyRepr] {machine : StaticDagMachine}

/-- What applying a signal keeps, applying a batch keeps, by induction over the batch. -/
theorem applySignals_keeps {property : ByStage → Prop}
    (kept
      : ∀ byStage signal next,
          property byStage → Applied machine byStage signal next → property next)
    (holds : property byStage) (signals : List WorkflowSignalRecord)
    : property (signals.foldl machine.applySignal byStage) := by
  induction signals generalizing byStage with
  | nil => exact holds
  | cons signal rest ih =>
    exact ih (kept _ signal _ holds (applySignal_applied machine byStage signal))

end Propagate

section Ordered

open StaticDagMachine

variable {stages : List StageDef} {byStage : ByStage} {ordered : List StageRunState}

/-- The stages listed are those of the definition, by induction over it. -/
theorem orderedStages_returns
    (present : ∀ stageDef ∈ stages, (byStage stageDef.id).isSome)
    : ∃ ordered,
        orderedStages byStage stages = .ok ordered
          ∧ stages.map (fun stageDef => byStage stageDef.id) = ordered.map some := by
  induction stages with
  | nil => exact ⟨[], rfl, rfl⟩
  | cons stageDef rest ih =>
    obtain ⟨stage, found⟩ := Option.isSome_iff_exists.mp (present stageDef (by simp))
    obtain ⟨others, remaining, same⟩ :=
      ih (fun other member => present other (by simp [member]))
    refine ⟨stage :: others, ?_, ?_⟩
    · simp [orderedStages, ByStage.require, found, remaining, bind, Except.bind]
    · simp [found, same]

theorem ordered_ids (sound : Sound stages byStage)
    (listed : stages.map (fun stageDef => byStage stageDef.id) = ordered.map some)
    : ordered.map StageRunState.stageId = stages.map StageDef.id := by
  have keyed : stages.map (fun stageDef => (byStage stageDef.id).map StageRunState.stageId)
      = stages.map (fun stageDef => some stageDef.id) :=
    List.map_congr_left sound.keyed
  have mapped := congrArg (List.map (Option.map StageRunState.stageId)) listed
  simp only [List.map_map, Function.comp_def, Option.map_some] at mapped
  have equal := mapped.symm.trans keyed
  have injective : Function.Injective (List.map (some : String → Option String)) :=
    List.map_injective_iff.mpr (fun _ _ => Option.some.inj)
  apply injective
  simpa [List.map_map, Function.comp_def] using equal

/-- A stage listed under an id is the one kept for it when ids do not repeat. -/
theorem ofStages_of_mem (unique : (ordered.map StageRunState.stageId).Nodup)
    {stage : StageRunState} (member : stage ∈ ordered)
    : ByStage.ofStages ordered stage.stageId = some stage := by
  cases found : ByStage.ofStages ordered stage.stageId with
  | none =>
    have absent := List.find?_eq_none.mp found stage (by simpa using member)
    simp at absent
  | some other =>
    have listed : other ∈ ordered := by simpa using List.mem_of_find?_eq_some found
    have sameId : other.stageId = stage.stageId := by simpa using List.find?_some found
    rw [List.inj_on_of_nodup_map unique listed member sameId]

/-- Reading back the ordered stages gives the stages they were taken from. -/
theorem ofStages_of_listed (wellFormed : WellFormed stages) (sound : Sound stages byStage)
    (listed : stages.map (fun stageDef => byStage stageDef.id) = ordered.map some)
    {stageDef : StageDef} (member : stageDef ∈ stages)
    : ByStage.ofStages ordered stageDef.id = byStage stageDef.id := by
  obtain ⟨stage, found, sameId⟩ := sound.found member
  have inOrdered : some stage ∈ ordered.map some := by
    rw [← listed, ← found]
    exact List.mem_map_of_mem member
  have unique : (ordered.map StageRunState.stageId).Nodup := by
    rw [ordered_ids sound listed]
    exact wellFormed.unique
  have read := ofStages_of_mem unique (by simpa using inOrdered)
  rw [sameId] at read
  rw [read, found]

end Ordered

def StaticDagState.statusOf (state : StaticDagState) (stageId : String) : Option StageStatus :=
  Workflows.statusOf (ByStage.ofStages state.stages) stageId

/-- What a decision leaves: the stages of the settled loop, in the definition's order. -/
structure Advanced [PyRepr] (machine : StaticDagMachine) (state : StaticDagState)
    (signals : List WorkflowSignalRecord) (settled : ByStage)
    (decision : StaticDagMachine.Decision)
    : Prop where
  ends
    : Ends (StaticDagMachine.pass machine.definition.stages)
        (signals.foldl machine.applySignal (ByStage.ofStages state.stages)) settled
  sound : Sound machine.definition.stages settled
  quiet : Quiet machine.definition.stages settled
  listed
    : machine.definition.stages.map (fun stageDef => settled stageDef.id)
        = decision.state.stages.map some
  status
    : decision.status
        = StaticDagMachine.runStatus (decision.state.stages.map StageRunState.status)

/-- The stages of a state are those of the definition, in its order. -/
def Listed (machine : StaticDagMachine) (state : StaticDagState) : Prop :=
  state.stages.map StageRunState.stageId = machine.definition.stages.map StageDef.id

/-- The states a machine may stand in between two decisions. -/
structure Steady (machine : StaticDagMachine) (state : StaticDagState) : Prop where
  sound : Sound machine.definition.stages (ByStage.ofStages state.stages)
  listed : Listed machine state

section Advance

variable [PyRepr] {machine : StaticDagMachine} {state : StaticDagState}
  {signals : List WorkflowSignalRecord} {settled : ByStage}
  {decision : StaticDagMachine.Decision}

theorem advance_returns (wellFormed : WellFormed machine.definition.stages)
    (steady : Steady machine state) (signals : List WorkflowSignalRecord)
    : ∃ settled decision,
        machine.advance state signals = .ok decision
          ∧ Advanced machine state signals settled decision := by
  have applied : Sound machine.definition.stages
      (signals.foldl machine.applySignal (ByStage.ofStages state.stages)) :=
    applySignals_keeps (fun _ _ _ sound effect => effect.sound sound) steady.sound signals
  obtain ⟨settled, propagated, ends, sound, quiet⟩ := propagate_ends wellFormed applied
  obtain ⟨ordered, taken, listed⟩ := orderedStages_returns (fun _ => sound.isSome)
  let decision : StaticDagMachine.Decision := {
    state := { state with stages := ordered }
    status := StaticDagMachine.runStatus (ordered.map StageRunState.status)
  }
  refine ⟨settled, decision, ?_, ends, sound, quiet, listed, rfl⟩
  simp [StaticDagMachine.advance, propagated, taken, bind, Except.bind, decision]

theorem Advanced.of_advance (wellFormed : WellFormed machine.definition.stages)
    (steady : Steady machine state) (h : machine.advance state signals = .ok decision)
    : ∃ settled, Advanced machine state signals settled decision := by
  obtain ⟨settled, other, result, advanced⟩ := advance_returns wellFormed steady signals
  have same : other = decision := Except.ok.inj (result.symm.trans h)
  exact ⟨settled, same ▸ advanced⟩

namespace Advanced

theorem stored (advanced : Advanced machine state signals settled decision)
    (wellFormed : WellFormed machine.definition.stages) {stageDef : StageDef}
    (member : stageDef ∈ machine.definition.stages)
    : ByStage.ofStages decision.state.stages stageDef.id = settled stageDef.id :=
  ofStages_of_listed wellFormed advanced.sound advanced.listed member

theorem statusOf_stored (advanced : Advanced machine state signals settled decision)
    (wellFormed : WellFormed machine.definition.stages) {stageDef : StageDef}
    (member : stageDef ∈ machine.definition.stages)
    : decision.state.statusOf stageDef.id = statusOf settled stageDef.id := by
  simp [StaticDagState.statusOf, statusOf, advanced.stored wellFormed member]

theorem ids (advanced : Advanced machine state signals settled decision)
    : Listed machine decision.state :=
  ordered_ids advanced.sound advanced.listed

theorem steady (advanced : Advanced machine state signals settled decision)
    (wellFormed : WellFormed machine.definition.stages)
    : Steady machine decision.state where
  sound := advanced.sound.of_agree wellFormed (fun _ => advanced.stored wellFormed)
  listed := advanced.ids

theorem mem_stages (advanced : Advanced machine state signals settled decision)
    {stage : StageRunState}
    : stage ∈ decision.state.stages
        ↔ ∃ stageDef ∈ machine.definition.stages, settled stageDef.id = some stage := by
  have mapped : stage ∈ decision.state.stages ↔ some stage ∈ decision.state.stages.map some := by
    simp
  rw [mapped, ← advanced.listed, List.mem_map]

/-- Terminal stages stay listed as they were. -/
theorem kept (advanced : Advanced machine state signals settled decision)
    (ids : Listed machine state)
    (wellFormed : WellFormed machine.definition.stages) {stage : StageRunState}
    (member : stage ∈ state.stages) (finished : stage.status.terminal = true)
    : stage ∈ decision.state.stages := by
  have unique : (state.stages.map StageRunState.stageId).Nodup := by
    rw [ids]
    exact wellFormed.unique
  have before := ofStages_of_mem unique member
  have applied : KeepsStages (ByStage.ofStages state.stages)
      (signals.foldl machine.applySignal (ByStage.ofStages state.stages)) :=
    applySignals_keeps (fun _ _ _ keeps effect => keeps.trans effect.keeps)
      (KeepsStages.refl _) signals
  have after := (applied.trans (propagation_keepsTerminal advanced.ends)) _ _ before finished
  have listedId : stage.stageId ∈ machine.definition.stages.map StageDef.id := by
    rw [← ids]
    exact List.mem_map_of_mem member
  obtain ⟨stageDef, known, same⟩ := List.mem_map.mp listedId
  exact advanced.mem_stages.mpr ⟨stageDef, known, same ▸ after⟩

end Advanced

end Advance

end Murder.Workflows
