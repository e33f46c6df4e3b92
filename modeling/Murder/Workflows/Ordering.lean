import Murder.Workflows.Cycles

/-! The order in which a workflow's stages are materialized: every stage behind those it
depends on.
-/

namespace Murder.Workflows

open Murder.Contracts Library.Graphs Relation

/-! ### The dependency graph -/

def DependsOn (stages : List StageDef) (id dependency : String) : Prop :=
  (∃ stage ∈ stages, stage.id = id ∧ dependency ∈ stage.dependsOn) ∧ dependency ≠ id
    ∧ dependency ∈ stages.map StageDef.id

def FirstDependsOn (stages : List StageDef) (id dependency : String) : Prop :=
  (∃ stage, stages.find? (fun stage => stage.id == id) = some stage
    ∧ dependency ∈ stage.dependsOn)
  ∧ dependency ≠ id ∧ dependency ∈ stages.map StageDef.id

variable {stages : List StageDef} {id dependency : String}

theorem FirstDependsOn.dependsOn (first : FirstDependsOn stages id dependency)
    : DependsOn stages id dependency := by
  obtain ⟨⟨stage, found, listed⟩, rest⟩ := first
  exact ⟨⟨stage, List.mem_of_find?_eq_some found, by simpa using List.find?_some found, listed⟩,
    rest⟩

theorem lookup_filter_ne {α : Type} {entries : List (String × α)} {other : String}
    (apart : id ≠ other)
    : (entries.filter (fun entry => entry.1 != other)).lookup id = entries.lookup id := by
  induction entries with
  | nil => rfl
  | cons entry rest ih =>
    obtain ⟨key, value⟩ := entry
    by_cases gone : key = other
    · have drops : (key != other) = false := by simpa using gone
      have distinct : (id == key) = false := by simpa [gone] using apart
      rw [List.filter_cons_of_neg (by simpa using drops), ih, List.lookup_cons, distinct]
    · have stays : (key != other) = true := by simpa using gone
      simp only [List.filter_cons, stays, if_true, List.lookup_cons, ih]

/-- The edges of an id are those of its first stage, by induction over the stages. -/
theorem adjacency_lookup (stages : List StageDef) (id : String)
    : (adjacency stages).lookup id
      = (stages.find? (fun stage => stage.id == id)).map (fun stage =>
          stage.dependsOn.filter (fun dependency => dependency != stage.id)) := by
  induction stages with
  | nil => rfl
  | cons stage rest ih =>
    by_cases same : id = stage.id
    · simp [adjacency, same]
    · have distinct : (id == stage.id) = false := by simpa using same
      have distinct' : (stage.id == id) = false := by simpa using Ne.symm same
      simp only [adjacency, List.lookup_cons, distinct, lookup_filter_ne same, ih,
        List.find?_cons, distinct']

theorem follows_iff
    : Follows (adjacency stages) id dependency ↔ FirstDependsOn stages id dependency := by
  have known : ((adjacency stages).lookup dependency).isSome
      ↔ dependency ∈ stages.map StageDef.id := by
    rw [adjacency_lookup, Option.isSome_map, List.find?_isSome]
    simp
  unfold Follows FirstDependsOn
  rw [known, dependencies, adjacency_lookup]
  cases found : stages.find? (fun stage => stage.id == id) with
  | none => simp
  | some stage =>
    have same : stage.id = id := by simpa using List.find?_some found
    simp [same, and_assoc]

/-- Without equal ids the first stage of an id is the only one. -/
theorem firstDependsOn_of_nodup
    (unique : (stages.map StageDef.id).Nodup) (depends : DependsOn stages id dependency)
    : FirstDependsOn stages id dependency := by
  obtain ⟨⟨stage, member, same, listed⟩, rest⟩ := depends
  refine ⟨⟨stage, ?_, listed⟩, rest⟩
  have exists_ : (stages.find? (fun other => other.id == id)).isSome :=
    List.find?_isSome.mpr ⟨stage, member, by simpa using same⟩
  obtain ⟨found, first⟩ := Option.isSome_iff_exists.mp exists_
  have foundSame : found.id = id := by simpa using List.find?_some first
  rw [first, List.inj_on_of_nodup_map unique (List.mem_of_find?_eq_some first) member
    (foundSame.trans same.symm)]

theorem Valid.dependsOn_acyclic {definition : WorkflowDef} (valid : Valid definition)
    : ¬Cyclic (DependsOn definition.stages) := by
  intro cyclic
  have found : (findCycle definition).isSome :=
    (findCycle_isSome_iff definition).mpr
      (cyclic.mono (fun _ _ depends =>
        follows_iff.mpr (firstDependsOn_of_nodup valid.unique depends)))
  rw [valid.acyclic] at found
  cases found

/-! ### Kahn's sweep -/

def byStageId (stages : List StageDef) (id : String) : Option StageDef :=
  stages.reverse.find? (fun stage => stage.id == id)

/-- The stages that depend on an id, once for each time they name it. -/
def dependents (stages : List StageDef) (id : String) : List String :=
  stages.flatMap (fun stage =>
    (stage.dependsOn.filter (fun dependency => dependency == id)).map (fun _ => stage.id))

/-- The open dependencies of each id, the ids ready to go out, and the stages that went. -/
structure Sweep where
  indegree : String → Int
  ready : List String
  out : List StageDef := []

def Sweep.start (stages : List StageDef) : Sweep :=
  let indegree := fun id =>
    ((byStageId stages id).map (fun stage => (stage.dependsOn.length : Int))).getD 0
  {
    indegree := indegree
    ready := (stages.map StageDef.id).filter (fun id => indegree id == 0)
  }

/-- One dependency fewer for a dependent, which is ready behind the last one. -/
def Sweep.release (sweep : Sweep) (child : String) : Sweep :=
  let left := sweep.indegree child - 1
  {
    sweep with
      indegree := Function.update sweep.indegree child left
      ready := if left = 0 then sweep.ready ++ [child] else sweep.ready
  }

/-- One round: the first ready stage goes out and releases its dependents. -/
def Sweep.round (stages : List StageDef) (sweep : Sweep) (id : String) (rest : List String)
    : Sweep :=
  (dependents stages id).foldl Sweep.release
    { sweep with ready := rest, out := sweep.out ++ (byStageId stages id).toList }

/-- `while ready`, bounded by a number of rounds. -/
def Sweep.run (stages : List StageDef) : Nat → Sweep → Sweep
  | 0, sweep => sweep
  | rounds + 1, sweep =>
    match sweep.ready with
    | [] => sweep
    | id :: rest => run stages rounds (sweep.round stages id rest)

/-- `_topo_sorted`. An entry becomes ready when it has no dependency or loses its last one,
so twice the stages bound the rounds; a dependency that is no stage raises.
-/
def topoSorted (definition : WorkflowDef) : Except Failure (List StageDef) :=
  match (definition.stages.flatMap StageDef.dependsOn).find? (fun dependency =>
      !(definition.stages.map StageDef.id).contains dependency) with
  | some dangling => .error (.keyError dangling)
  | none =>
    .ok (Sweep.run definition.stages (2 * definition.stages.length)
      (Sweep.start definition.stages)).out

def DependencyOrder (sorted : List StageDef) : Prop :=
  ∀ before stage after, sorted = before ++ stage :: after
    → ∀ dependency ∈ stage.dependsOn, dependency ∈ before.map StageDef.id

/-- Releasing distinct children takes one from each count, by induction over them. -/
theorem foldl_release {children : List String} (distinct : children.Nodup) (sweep : Sweep)
    : children.foldl Sweep.release sweep = {
        indegree := fun id => sweep.indegree id - (if id ∈ children then 1 else 0)
        ready := sweep.ready ++ children.filter (fun child => sweep.indegree child - 1 == 0)
        out := sweep.out
      } := by
  induction children generalizing sweep with
  | nil => simp
  | cons child rest ih =>
    obtain ⟨absent, distinct⟩ := List.nodup_cons.mp distinct
    rw [List.foldl_cons, ih distinct]
    have others : ∀ id ∈ rest, (sweep.release child).indegree id = sweep.indegree id := by
      intro id member
      have apart : id ≠ child := fun same => absent (same ▸ member)
      simp [Sweep.release, apart]
    have filtered : rest.filter (fun id => (sweep.release child).indegree id - 1 == 0)
        = rest.filter (fun id => sweep.indegree id - 1 == 0) :=
      List.filter_congr (fun id member => by rw [others id member])
    rw [filtered]
    refine Sweep.mk.injEq .. |>.mpr ⟨?_, ?_, rfl⟩
    · funext id
      by_cases same : id = child
      · subst same
        simp [Sweep.release, absent]
      · simp [Sweep.release, same]
    · by_cases last : sweep.indegree child - 1 = 0
      · simp [Sweep.release, last]
      · simp [Sweep.release, last]

/-- A stage without repeated dependencies is one dependent, by induction over the stages. -/
theorem dependents_eq (distinct : ∀ stage ∈ stages, stage.dependsOn.Nodup)
    : dependents stages id
      = (stages.filter (fun stage => stage.dependsOn.contains id)).map StageDef.id := by
  induction stages with
  | nil => rfl
  | cons stage rest ih =>
    obtain ⟨here, later⟩ := List.forall_mem_cons.mp distinct
    have own : (stage.dependsOn.filter (fun dependency => dependency == id)).map
        (fun _ => stage.id) = if stage.dependsOn.contains id then [stage.id] else [] := by
      rw [List.filter_beq, List.Nodup.count here]
      by_cases listed : id ∈ stage.dependsOn
      · simp [listed]
      · simp [listed]
    have rest_ := ih later
    unfold dependents at rest_ ⊢
    rw [List.flatMap_cons, own, rest_, List.filter_cons]
    split_ifs <;> simp

/-- One more stage out leaves one open dependency fewer to those that depend on it. -/
theorem open_length {dependencies gone : List String}
    (distinct : dependencies.Nodup) (waiting : id ∉ gone)
    : ((dependencies.filter (fun dependency => !(gone ++ [id]).contains dependency)).length : Int)
      = (dependencies.filter (fun dependency => !gone.contains dependency)).length
        - (if id ∈ dependencies then 1 else 0) := by
  induction dependencies with
  | nil => simp
  | cons dependency rest ih =>
    obtain ⟨absent, distinct⟩ := List.nodup_cons.mp distinct
    have later := ih distinct
    by_cases same : dependency = id
    · subst same
      have rest_ : (rest.filter (fun other => !(gone ++ [dependency]).contains other))
          = rest.filter (fun other => !gone.contains other) := by
        refine List.filter_congr (fun other member => ?_)
        have apart : other ≠ dependency := fun same => absent (same ▸ member)
        simp [apart]
      rw [List.filter_cons_of_neg (by simp), List.filter_cons_of_pos (by simpa using waiting),
        rest_]
      simp
    · have keeps : (gone ++ [id]).contains dependency = gone.contains dependency := by
        simp [same]
      simp only [List.filter_cons, keeps, List.mem_cons, Ne.symm same, false_or]
      split_ifs at later ⊢ <;> simp_all

/-- What holds between the rounds of a sweep over valid stages. -/
structure Sweep.Sound (stages : List StageDef) (sweep : Sweep) : Prop where
  sorted : DependencyOrder sweep.out
  listed : ∀ stage ∈ sweep.out, stage ∈ stages
  distinct : (sweep.out.map StageDef.id ++ sweep.ready).Nodup
  known : ∀ id ∈ sweep.ready, id ∈ stages.map StageDef.id
  counts
    : ∀ stage ∈ stages, sweep.indegree stage.id
        = (stage.dependsOn.filter (fun dependency =>
            !(sweep.out.map StageDef.id).contains dependency)).length
  readies
    : ∀ stage ∈ stages, stage.id ∈ sweep.out.map StageDef.id ++ sweep.ready
        ↔ ∀ dependency ∈ stage.dependsOn, dependency ∈ sweep.out.map StageDef.id

section Valid

variable {definition : WorkflowDef} {sweep : Sweep}

theorem Valid.byStageId (valid : Valid definition) {stage : StageDef}
    (member : stage ∈ definition.stages)
    : byStageId definition.stages stage.id = some stage := by
  have exists_ : (Workflows.byStageId definition.stages stage.id).isSome := by
    unfold Workflows.byStageId
    rw [List.find?_isSome]
    exact ⟨stage, List.mem_reverse.mpr member, beq_self_eq_true _⟩
  obtain ⟨found, first⟩ := Option.isSome_iff_exists.mp exists_
  have same : found.id = stage.id := by simpa using List.find?_some first
  rw [first, List.inj_on_of_nodup_map valid.unique
    (List.mem_reverse.mp (List.mem_of_find?_eq_some first)) member same]

theorem Valid.mem_dependents (valid : Valid definition) {stage : StageDef}
    (member : stage ∈ definition.stages)
    : stage.id ∈ dependents definition.stages id ↔ id ∈ stage.dependsOn := by
  rw [dependents_eq valid.distinct, List.mem_map]
  constructor
  · intro found
    obtain ⟨other, listed, same⟩ := found
    obtain ⟨stored, depends⟩ := List.mem_filter.mp listed
    rw [← List.inj_on_of_nodup_map valid.unique stored member same]
    simpa using depends
  · intro depends
    exact ⟨stage, List.mem_filter.mpr ⟨member, by simpa using depends⟩, rfl⟩

theorem Valid.dependents_nodup (valid : Valid definition) (id : String)
    : (dependents definition.stages id).Nodup := by
  rw [dependents_eq valid.distinct]
  exact valid.unique.sublist (List.filter_sublist.map StageDef.id)

theorem Valid.sweep_start (valid : Valid definition)
    : (Sweep.start definition.stages).Sound definition.stages := by
  have degree : ∀ stage ∈ definition.stages,
      (Sweep.start definition.stages).indegree stage.id = stage.dependsOn.length := by
    intro stage member
    simp [Sweep.start, valid.byStageId member]
  refine ⟨?_, ?_, ?_, ?_, ?_, ?_⟩
  · intro before stage after split
    have split' : [] = before ++ stage :: after := split
    simp at split'
  · intro stage member
    cases member
  · exact valid.unique.filter _
  · intro id member
    exact List.mem_of_mem_filter member
  · intro stage member
    rw [degree stage member]
    simp [Sweep.start]
  · intro stage member
    have known : stage.id ∈ definition.stages.map StageDef.id := List.mem_map_of_mem member
    have zero : stage.id ∈ (Sweep.start definition.stages).ready
        ↔ (Sweep.start definition.stages).indegree stage.id = 0 := by
      change stage.id ∈ (definition.stages.map StageDef.id).filter _ ↔ _
      rw [List.mem_filter]
      simp only [known, true_and, beq_iff_eq]
      rfl
    have out : (Sweep.start definition.stages).out = [] := rfl
    rw [out, List.map_nil, List.nil_append, zero, degree stage member]
    simp [List.eq_nil_iff_forall_not_mem]

theorem Valid.sweep_round (valid : Valid definition) (sound : sweep.Sound definition.stages)
    {rest : List String} (first : sweep.ready = id :: rest)
    : ∃ stage ∈ definition.stages, stage.id = id
        ∧ (sweep.round definition.stages id rest).out = sweep.out ++ [stage]
        ∧ (sweep.round definition.stages id rest).Sound definition.stages := by
  obtain ⟨top, topMember, rfl⟩ := List.mem_map.mp (sound.known id (by simp [first]))
  have children := valid.dependents_nodup top.id
  have round := foldl_release children
    { sweep with ready := rest, out := sweep.out ++ [top] }
  have out : (sweep.round definition.stages top.id rest).out = sweep.out ++ [top] := by
    simp only [Sweep.round, valid.byStageId topMember, Option.toList_some, round]
  have distinct := sound.distinct
  rw [first] at distinct
  have waiting : top.id ∉ sweep.out.map StageDef.id := by
    intro member
    exact (List.nodup_append.mp distinct).2.2 _ member _ List.mem_cons_self rfl
  have topReady : ∀ dependency ∈ top.dependsOn, dependency ∈ sweep.out.map StageDef.id :=
    (sound.readies top topMember).mp (by simp [first])
  -- the counts behind the round are those of the longer output
  have counts : ∀ stage ∈ definition.stages,
      (sweep.round definition.stages top.id rest).indegree stage.id
        = (stage.dependsOn.filter (fun dependency =>
            !((sweep.out ++ [top]).map StageDef.id).contains dependency)).length := by
    intro stage member
    simp only [Sweep.round, valid.byStageId topMember, Option.toList_some, round,
      valid.mem_dependents member, List.map_append, List.map_cons, List.map_nil]
    rw [sound.counts stage member, open_length (valid.distinct stage member) waiting]
  have released : (sweep.round definition.stages top.id rest).ready
      = rest ++ (dependents definition.stages top.id).filter (fun child =>
          sweep.indegree child - 1 == 0) := by
    simp only [Sweep.round, valid.byStageId topMember, Option.toList_some, round]
  have freed : ∀ stage ∈ definition.stages, top.id ∈ stage.dependsOn
      → (sweep.indegree stage.id - 1 = 0
        ↔ ∀ dependency ∈ stage.dependsOn, dependency ∈ (sweep.out ++ [top]).map StageDef.id) := by
    intro stage member depends
    have here := counts stage member
    simp only [Sweep.round, valid.byStageId topMember, Option.toList_some, round,
      valid.mem_dependents member, depends, if_true] at here
    rw [here, Int.natCast_eq_zero, List.length_eq_zero_iff, List.filter_eq_nil_iff]
    simp only [Bool.not_eq_true', Bool.not_eq_false, List.contains_iff_mem]
  refine ⟨top, topMember, rfl, out, ?_, ?_, ?_, ?_, ?_, ?_⟩
  · rw [out]
    intro before stage after split
    rcases List.eq_nil_or_concat after with rfl | ⟨inner, last, rfl⟩
    · obtain ⟨rfl, same⟩ := List.append_inj' split rfl
      cases same
      exact topReady
    · have split' : sweep.out ++ [top] = (before ++ stage :: inner) ++ [last] := by
        simpa using split
      obtain ⟨same, -⟩ := List.append_inj' split' rfl
      exact sound.sorted before stage inner same
  · rw [out]
    intro stage member
    rcases List.mem_append.mp member with earlier | here
    · exact sound.listed stage earlier
    · cases List.mem_singleton.mp here
      exact topMember
  · rw [out, released]
    have before : (((sweep.out ++ [top]).map StageDef.id) ++ rest).Nodup := by
      simpa using distinct
    rw [← List.append_assoc]
    refine before.append (children.filter _) ?_
    intro child earlier later
    obtain ⟨listed, -⟩ := List.mem_filter.mp later
    rw [dependents_eq valid.distinct] at listed
    obtain ⟨stage, stored, rfl⟩ := List.mem_map.mp listed
    obtain ⟨member, depends⟩ := List.mem_filter.mp stored
    have ready : stage.id ∈ sweep.out.map StageDef.id ++ sweep.ready := by
      simpa [first, or_assoc] using earlier
    exact waiting ((sound.readies stage member).mp ready top.id (by simpa using depends))
  · rw [released]
    intro child member
    rcases List.mem_append.mp member with earlier | later
    · exact sound.known child (by simp [first, earlier])
    · have listed := (List.mem_filter.mp later).1
      rw [dependents_eq valid.distinct] at listed
      obtain ⟨stage, stored, rfl⟩ := List.mem_map.mp listed
      exact List.mem_map_of_mem (List.mem_filter.mp stored).1
  · intro stage member
    rw [out]
    exact counts stage member
  · intro stage member
    rw [out, released]
    by_cases depends : top.id ∈ stage.dependsOn
    · rw [← freed stage member depends]
      have blocked : stage.id ∉ (sweep.out ++ [top]).map StageDef.id ++ rest := by
        intro earlier
        have ready : stage.id ∈ sweep.out.map StageDef.id ++ sweep.ready := by
          simpa [first, or_assoc] using earlier
        exact waiting ((sound.readies stage member).mp ready top.id depends)
      rw [← List.append_assoc, List.mem_append, List.mem_filter, beq_iff_eq]
      constructor
      · intro ready
        exact (ready.resolve_left blocked).2
      · intro zero
        exact .inr ⟨(valid.mem_dependents member).mpr depends, zero⟩
    · have absent : stage.id ∉ dependents definition.stages top.id := fun listed =>
        depends ((valid.mem_dependents member).mp listed)
      have before := sound.readies stage member
      constructor
      · intro ready dependency listed
        have earlier : stage.id ∈ sweep.out.map StageDef.id ++ sweep.ready := by
          simp only [List.mem_append, List.mem_filter, absent, false_and, or_false] at ready
          simpa [first, or_assoc] using ready
        simp [before.mp earlier dependency listed]
      · intro all
        have earlier : stage.id ∈ sweep.out.map StageDef.id ++ sweep.ready := by
          refine before.mpr (fun dependency listed => ?_)
          have gone := all dependency listed
          rw [List.map_append, List.mem_append] at gone
          refine gone.resolve_right (fun here => depends ?_)
          simp only [List.map_cons, List.map_nil, List.mem_singleton] at here
          exact here ▸ listed
        simp only [first, List.mem_append, List.mem_cons] at earlier
        simp only [List.map_append, List.mem_append, List.map_cons, List.map_nil,
          List.mem_singleton]
        rcases earlier with earlier | here | later
        · exact .inl (.inl earlier)
        · exact .inl (.inr here)
        · exact .inr (.inl later)

/-- At most the stages themselves are out or ready. -/
theorem Sweep.Sound.bounded (sound : sweep.Sound definition.stages)
    : sweep.out.length + sweep.ready.length ≤ definition.stages.length := by
  have within : sweep.out.map StageDef.id ++ sweep.ready ⊆ definition.stages.map StageDef.id := by
    intro id member
    rcases List.mem_append.mp member with out | ready
    · obtain ⟨stage, listed, rfl⟩ := List.mem_map.mp out
      exact List.mem_map_of_mem (sound.listed stage listed)
    · exact sound.known id ready
  have fewer := (List.subperm_of_subset sound.distinct within).length_le
  simpa using fewer

/-- Enough rounds empty the queue, by induction on the rounds. -/
theorem Valid.sweep_run (valid : Valid definition) {rounds : Nat}
    (sound : sweep.Sound definition.stages)
    (enough : definition.stages.length ≤ sweep.out.length + rounds)
    : (Sweep.run definition.stages rounds sweep).Sound definition.stages
      ∧ (Sweep.run definition.stages rounds sweep).ready = [] := by
  induction rounds generalizing sweep with
  | zero =>
    have bound := sound.bounded
    refine ⟨sound, List.eq_nil_of_length_eq_zero ?_⟩
    change sweep.ready.length = 0
    omega
  | succ rounds ih =>
    cases first : sweep.ready with
    | nil =>
      simp only [Sweep.run, first]
      exact ⟨sound, trivial⟩
    | cons id rest =>
      obtain ⟨stage, -, -, out, sound'⟩ := valid.sweep_round sound first
      simp only [Sweep.run, first]
      refine ih sound' ?_
      rw [out, List.length_append, List.length_singleton]
      omega

theorem Valid.topoSorted (valid : Valid definition)
    : ∃ sorted, topoSorted definition = .ok sorted ∧ sorted.Perm definition.stages
        ∧ DependencyOrder sorted := by
  have enough : definition.stages.length
      ≤ (Sweep.start definition.stages).out.length + 2 * definition.stages.length := by
    change _ ≤ 0 + _
    omega
  obtain ⟨sound, empty⟩ := valid.sweep_run valid.sweep_start enough
  have resolved : (definition.stages.flatMap StageDef.dependsOn).find? (fun dependency =>
      !(definition.stages.map StageDef.id).contains dependency) = none := by
    rw [List.find?_eq_none]
    intro dependency listed
    obtain ⟨stage, member, depends⟩ := List.mem_flatMap.mp listed
    have known := valid.closed stage member dependency depends
    simpa using known
  generalize stopped : Sweep.run definition.stages (2 * definition.stages.length)
    (Sweep.start definition.stages) = stop at sound empty
  refine ⟨stop.out, ?_, ?_, sound.sorted⟩
  · unfold Workflows.topoSorted
    rw [resolved]
    simp only [stopped]
  -- a stage left out would have a dependency left out, and so on around a cycle
  have all : ∀ stage ∈ definition.stages, stage.id ∈ stop.out.map StageDef.id := by
    by_contra missing
    push Not at missing
    obtain ⟨left, leftMember, leftOut⟩ := missing
    have finite : {id | id ∈ definition.stages.map StageDef.id
        ∧ id ∉ stop.out.map StageDef.id}.Finite :=
      (List.finite_toSet (definition.stages.map StageDef.id)).subset (fun _ member => member.1)
    obtain ⟨id, member, free⟩ := exists_free_of_acyclic valid.dependsOn_acyclic finite
      ⟨left.id, List.mem_map_of_mem leftMember, leftOut⟩
    obtain ⟨stage, stored, rfl⟩ := List.mem_map.mp member.1
    have ready : stage.id ∈ stop.out.map StageDef.id ++ stop.ready := by
      refine (sound.readies stage stored).mpr (fun dependency depends => ?_)
      by_contra waits
      have known := valid.closed stage stored dependency depends
      have apart : dependency ≠ stage.id := by
        intro same
        exact valid.apart stage stored (same ▸ depends)
      exact free dependency ⟨known, waits⟩ ⟨⟨stage, stored, rfl, depends⟩, apart, known⟩
    rw [empty, List.append_nil] at ready
    exact member.2 ready
  have distinct : (stop.out.map StageDef.id).Nodup := (List.nodup_append.mp sound.distinct).1
  refine (List.perm_ext_iff_of_nodup (List.Nodup.of_map _ distinct)
    (List.Nodup.of_map _ valid.unique)).mpr (fun stage => ⟨sound.listed stage, fun member => ?_⟩)
  obtain ⟨found, among, same⟩ := List.mem_map.mp (all stage member)
  rwa [← List.inj_on_of_nodup_map valid.unique (sound.listed found among) member same]

end Valid

/-- The cycle search ends and finds a cycle of first stages exactly when there is one, of all
stages where no ids are equal; a validated definition sorts behind its dependencies.
-/
theorem validatedOrder [PyRepr] (definition : WorkflowDef)
    : FindCycleEnds definition (findCycle definition)
      ∧ ((findCycle definition).isSome ↔ Cyclic (FirstDependsOn definition.stages))
      ∧ ((definition.stages.map StageDef.id).Nodup
          → ((findCycle definition).isSome ↔ Cyclic (DependsOn definition.stages)))
      ∧ (validateWorkflow definition = []
          → ∃ sorted, topoSorted definition = .ok sorted ∧ sorted.Perm definition.stages
              ∧ DependencyOrder sorted) := by
  have first : (findCycle definition).isSome ↔ Cyclic (FirstDependsOn definition.stages) := by
    rw [findCycle_isSome_iff]
    constructor
    · exact Cyclic.mono (fun _ _ => follows_iff.mp)
    · exact Cyclic.mono (fun _ _ => follows_iff.mpr)
  refine ⟨findCycle_ends definition, first, fun unique => first.trans ?_, fun valid => ?_⟩
  · constructor
    · exact Cyclic.mono (fun _ _ => FirstDependsOn.dependsOn)
    · exact Cyclic.mono (fun _ _ => firstDependsOn_of_nodup unique)
  · exact (validateWorkflow_eq_nil.mp valid).topoSorted

namespace Diamond

scoped instance : PyRepr := ⟨fun _ => ""⟩

def stage (id : String) (dependsOn : List String) : StageDef :=
  { id, harness := some "codex", model := some "gpt", dependsOn }

/-- The last stage is listed first. -/
def definition : WorkflowDef :=
  {
    name := "diamond"
    stages := [stage "d" ["b", "c"], stage "b" ["a"], stage "c" ["a"], stage "a" []]
  }

theorem validatedOrder_diamond
    : ((findCycle definition).isSome ↔ Cyclic (DependsOn definition.stages))
      ∧ ∃ sorted, topoSorted definition = .ok sorted ∧ sorted.Perm definition.stages
          ∧ DependencyOrder sorted :=
  ⟨(validatedOrder definition).2.2.1 (by decide +kernel),
    (validatedOrder definition).2.2.2 (by decide +kernel)⟩

/-- The second stage of an id closes a cycle that the search does not follow. -/
def shadowed : WorkflowDef :=
  { name := "shadowed", stages := [stage "a" [], stage "b" ["a"], stage "a" ["b"]] }

theorem shadowedCycle
    : ¬∀ definition : WorkflowDef,
        (findCycle definition).isSome ↔ Cyclic (DependsOn definition.stages) := by
  intro claim
  have none_ : (findCycle shadowed).isSome = false := by decide +kernel
  have forward : DependsOn shadowed.stages "a" "b" :=
    ⟨⟨stage "a" ["b"], by decide, rfl, by decide⟩, by decide, by decide⟩
  have back : DependsOn shadowed.stages "b" "a" :=
    ⟨⟨stage "b" ["a"], by decide, rfl, by decide⟩, by decide, by decide⟩
  have found := (claim shadowed).mpr ⟨"a", (TransGen.single forward).tail back⟩
  rw [none_] at found
  cases found

end Diamond

end Murder.Workflows
