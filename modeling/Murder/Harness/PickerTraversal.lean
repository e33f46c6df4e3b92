import Murder.Harness.ModelDiscovery

/-! The traversal of a picker finds every row exactly when no other row has the marker of the one it
starts from.
-/

namespace Murder.Harness

open Library.Histories Library.Runs
open LateCompletion (envelope)

namespace Picker

variable (picker : Picker) {start : Nat}

theorem at_mem (position : Nat) : picker.at position ∈ picker.rows := List.get_mem _ _

/-- Once around the picker. -/
theorem at_add_length (position : Nat)
    : picker.at (position + picker.rows.length) = picker.at position := by
  unfold Picker.at
  congr 1
  exact Fin.ext (Nat.add_mod_right _ _)

/-- The position some steps on, less than twice around. -/
theorem mod_steps {start steps length : Nat} (few : steps ≤ length) (some_ : 0 < length)
    : (start + steps) % length
      = if start % length + steps < length then start % length + steps
        else start % length + steps - length := by
  have below := Nat.mod_lt start some_
  rw [← Nat.mod_add_mod]
  split
  · next inside => exact Nat.mod_eq_of_lt inside
  · next around =>
      rw [Nat.mod_eq_sub_mod (Nat.le_of_not_lt around)]
      exact Nat.mod_eq_of_lt (by omega)

theorem exists_steps {row : PickerRow} (member : row ∈ picker.rows) (start : Nat)
    : ∃ steps, 0 < steps ∧ steps ≤ picker.rows.length ∧ picker.at (start + steps) = row := by
  obtain ⟨⟨position, inside⟩, found⟩ := List.mem_iff_get.mp member
  have below := Nat.mod_lt start picker.some_
  have reach : ∀ steps, steps ≤ picker.rows.length
      → (start + steps) % picker.rows.length = position
      → picker.at (start + steps) = row := by
    intro steps _ lands
    rw [← found]
    unfold Picker.at
    congr 1
    exact Fin.ext lands
  by_cases later : start % picker.rows.length < position
  · refine ⟨position - start % picker.rows.length, by omega, by omega, reach _ (by omega) ?_⟩
    rw [mod_steps (by omega) picker.some_, if_pos (by omega)]
    omega
  · refine ⟨position + picker.rows.length - start % picker.rows.length, by omega, by omega,
      reach _ (by omega) ?_⟩
    rw [mod_steps (by omega) picker.some_, if_neg (by omega)]
    omega

theorem at_ne {steps : Nat} (positive : 0 < steps) (few : steps < picker.rows.length)
    : picker.at (start + steps) ≠ picker.at start := by
  intro same
  have positions := congrArg Fin.val (List.nodup_iff_injective_get.mp picker.distinct same)
  have below := Nat.mod_lt start picker.some_
  dsimp only at positions
  rw [mod_steps (Nat.le_of_lt few) picker.some_] at positions
  split at positions <;> omega

def Apart (start steps : Nat) : Prop :=
  (picker.at (start + steps)).marker ≠ (picker.at start).marker

/-- While no marker was the start's, the traversal is not around yet. -/
theorem steps_le {steps : Nat} (apart : ∀ earlier, 0 < earlier → earlier < steps
      → picker.Apart start earlier)
    : steps ≤ picker.rows.length := by
  by_contra far
  apply apart picker.rows.length picker.some_ (Nat.lt_of_not_le far)
  rw [picker.at_add_length]

/-- The first step back to the marker of the start is the one around the picker exactly when no
other row has this marker.
-/
theorem around_iff {steps : Nat} (positive : 0 < steps)
    (returned : ¬ picker.Apart start steps)
    (apart : ∀ earlier, 0 < earlier → earlier < steps → picker.Apart start earlier)
    : steps = picker.rows.length ↔ SingleMarker picker start := by
  constructor
  · rintro rfl row member same
    obtain ⟨steps, positive, few, found⟩ := picker.exists_steps member start
    rcases Nat.lt_or_eq_of_le few with before | around
    · exact absurd (found ▸ same) (apart steps positive before)
    · rw [← found, around, picker.at_add_length]
  · intro single
    have few := picker.steps_le apart
    by_contra before
    have lands := single _ (picker.at_mem (start + steps)) (not_not.mp returned)
    exact picker.at_ne positive (by omega) lands

end Picker

namespace ShowsRows

variable {picker : Picker} {cursor : Nat} {snapshot : ObservationSnapshot}

theorem visible (shows : ShowsRows picker cursor snapshot) : pickerVisible snapshot = true := by
  obtain ⟨config, value, -⟩ := shows.rows
  simp [pickerVisible, shows.active, value]

theorem highlighted (shows : ShowsRows picker cursor snapshot)
    : highlightedRow snapshot = some (picker.at cursor).marker := by
  obtain ⟨config, value, listed, rows⟩ := shows.rows
  obtain ⟨choice, member, row⟩ := List.mem_map.mp listed
  have marks : ∃ choice ∈ config.available, (choice.highlighted == some true) = true :=
    ⟨choice, member, by simpa using ((rows choice member).2.mpr row)⟩
  obtain ⟨found, search⟩ := Option.isSome_iff_exists.mp (List.find?_isSome.mpr marks)
  have highlighted := List.find?_some search
  have same := (rows found (List.mem_of_find?_eq_some search)).2.mp (by simpa using highlighted)
  rw [highlightedRow, if_pos shows.visible, highlightedModelId, value, Option.bind_some, search,
    ← same]
  rfl

theorem mem_visibleModels (shows : ShowsRows picker cursor snapshot)
    : (∀ model ∈ visibleModels snapshot, ∃ row ∈ picker.rows, row.model? = some model)
      ∧ ∀ model, (picker.at cursor).model? = some model → model ∈ visibleModels snapshot := by
  obtain ⟨config, value, listed, rows⟩ := shows.rows
  have models : visibleModels snapshot
      = config.available.filterMap (fun choice => choice.row.model?) := by
    rw [visibleModels, if_pos shows.visible, value]
    rfl
  rw [models]
  constructor
  · intro model member
    obtain ⟨choice, inside, shown⟩ := List.mem_filterMap.mp member
    exact ⟨choice.row, (rows choice inside).1, shown⟩
  · intro model shown
    obtain ⟨choice, inside, row⟩ := List.mem_map.mp listed
    exact List.mem_filterMap.mpr ⟨choice, inside, row ▸ shown⟩

end ShowsRows

theorem not_visible_of_safe {snapshot : ObservationSnapshot}
    (safe : safeComposerSurface snapshot = true)
    : pickerVisible snapshot = false := by
  unfold safeComposerSurface at safe
  unfold pickerVisible modelPickerIsActive
  cases shown : snapshot.surface.value with
  | none => rfl
  | some surface =>
    simp only [shown, Option.any_some, Bool.or_eq_true, beq_iff_eq] at safe ⊢
    rcases safe with primary | primary <;> simp [primary]

theorem visibleModels_of_safe {snapshot : ObservationSnapshot}
    (safe : safeComposerSurface snapshot = true)
    : visibleModels snapshot = [] := by
  rw [visibleModels, if_neg (by simp [not_visible_of_safe safe])]

/-- What holds of the models throughout, with the rows seen so far. -/
structure Collects (picker : Picker) (start seen : Nat) (models : List (String × String))
    : Prop where
  once : models.Nodup
  listed : ∀ model ∈ models, ∃ row ∈ picker.rows, row.model? = some model
  seen
    : ∀ steps < seen, ∀ model, (picker.at (start + steps)).model? = some model
      → model ∈ models

/-- The steps of a traversal so far; no marker before the last one was the start's. -/
structure Scans (picker : Picker) (start steps : Nat) (driven : Driven) : Prop where
  cursor : driven.cursor = start + steps
  counted : driven.op.navigationActionIds.length = steps
  origin
    : driven.op.startModelId = if steps = 0 then none else some (picker.at start).marker
  apart : ∀ earlier, 0 < earlier → earlier < steps → picker.Apart start earlier

namespace Scans

variable {picker : Picker} {start steps : Nat} {driven : Driven}

/-- The first step keeps the marker it starts from, a later one the marker that was kept. -/
theorem origin_orElse (scans : Scans picker start steps driven)
    : (driven.op.startModelId <|> some (picker.at driven.cursor).marker)
      = some (picker.at start).marker := by
  rw [scans.origin, scans.cursor]
  split
  · next first =>
      rw [first]
      rfl
  · rfl

theorem navigated (scans : Scans picker start steps driven)
    : driven.op.navigationActionIds ≠ [] ↔ 0 < steps := by
  rw [← scans.counted, List.length_pos_iff]

/-- A step that is not back at the marker of the start. -/
theorem apart_succ (scans : Scans picker start steps driven)
    (further
      : ¬ (driven.op.navigationActionIds ≠ []
        ∧ some (picker.at (start + steps)).marker = driven.op.startModelId))
    : ∀ earlier, 0 < earlier → earlier < steps + 1 → picker.Apart start earlier := by
  intro earlier positive few
  rcases Nat.lt_succ_iff_lt_or_eq.mp few with before | rfl
  · exact scans.apart earlier positive before
  · intro same
    apply further
    rw [scans.origin, if_neg (Nat.ne_of_gt positive), same]
    exact ⟨scans.navigated.mpr positive, rfl⟩

end Scans

/-- The stages of a discovery with the frames they took. -/
inductive Stage (picker : Picker) (start : Nat) (history : DiscoveryHistory) : Prop
  | created (phase : history.state.op.envelope.phase = .created)
    (going : history.open_ discoveryReducer = true)
    (scans : Scans picker start 0 history.state)
    (models : Collects picker start 0 history.state.op.models) (none_ : history.entries = [])
  | opening (phase : history.state.op.envelope.phase = .awaitingPicker)
    (going : history.open_ discoveryReducer = true)
    (scans : Scans picker start 0 history.state) (opened : history.state.opened = true)
    (recorded
      : history.state.op.pickerActionId ≠ none
        ∧ history.state.op.pickerBaselineRevision ≠ none)
    (models : Collects picker start 0 history.state.op.models)
    (moves : traversal history.entries = []) (frames : history.entries.length ≤ 1)
  | scanning {steps} (phase : history.state.op.envelope.phase = .scanning)
    (going : history.open_ discoveryReducer = true)
    (scans : Scans picker start steps history.state) (opened : history.state.opened = true)
    (models : Collects picker start (steps + 1) history.state.op.models)
    (moves
      : traversal history.entries = List.replicate steps (.navigateModelPicker "down"))
    (frames : history.entries.length ≤ 2 * steps + 2)
  | stepping {steps} (phase : history.state.op.envelope.phase = .awaitingStep)
    (going : history.open_ discoveryReducer = true) (positive : 0 < steps)
    (scans : Scans picker start steps history.state) (opened : history.state.opened = true)
    (recorded : history.state.op.navigationBaselineRevision ≠ none)
    (models : Collects picker start steps history.state.op.models)
    (moves
      : traversal history.entries = List.replicate steps (.navigateModelPicker "down"))
    (frames : history.entries.length ≤ 2 * steps + 1)
  | dismissing {steps} (phase : history.state.op.envelope.phase = .awaitingDismissal)
    (going : history.open_ discoveryReducer = true)
    (positive : 0 < steps) (scans : Scans picker start steps history.state)
    (returned : ¬ picker.Apart start steps) (closed : history.state.opened = false)
    (recorded
      : history.state.op.dismissalActionId ≠ none
        ∧ history.state.op.dismissalBaselineRevision ≠ none)
    (models : Collects picker start (steps + 1) history.state.op.models)
    (moves
      : traversal history.entries
        = List.replicate steps (.navigateModelPicker "down")
          ++ [.dismissOverlay "model_picker"])
    (frames : history.entries.length ≤ 2 * steps + 3)
  | done {steps} (phase : history.state.op.envelope.phase = .succeeded)
    (ended : history.open_ discoveryReducer = false) (positive : 0 < steps)
    (scans : Scans picker start steps history.state)
    (returned : ¬ picker.Apart start steps)
    (models : Collects picker start (steps + 1) history.state.op.models)
    (moves
      : traversal history.entries
        = List.replicate steps (.navigateModelPicker "down")
          ++ [.dismissOverlay "model_picker"])

theorem stage_of_created {picker : Picker} {start : Nat} {history : DiscoveryHistory}
    (created : Started (DiscoveryCreated start) history)
    : Stage picker start history := by
  obtain ⟨⟨cursor, envelope, request, phase, fresh⟩, none_⟩ := created
  refine .created (by simp [fresh, phase]) (by simp [History.open_, none_])
    ⟨cursor, by simp [fresh], by simp [fresh], ?_⟩
    ⟨by simp [fresh], by simp [fresh], ?_⟩ none_
  · exact fun _ _ few => absurd few (Nat.not_lt_zero _)
  · exact fun _ few => absurd few (Nat.not_lt_zero _)

/-- A list without its repetitions has each item once, by induction over what is left of it. -/
theorem nodup_eraseDups {α : Type} [BEq α] [LawfulBEq α] (items : List α)
    : items.eraseDups.Nodup := by
  induction length : items.length using Nat.strong_induction_on generalizing items with
  | h _ ih =>
    cases items with
    | nil => simp
    | cons item rest =>
      rw [List.eraseDups_cons, List.nodup_cons, List.mem_eraseDups]
      refine ⟨by simp, ih _ ?_ _ rfl⟩
      rw [← length]
      exact Nat.lt_succ_of_le (List.length_filter_le _ _)

namespace Collects

variable {picker : Picker} {start seen : Nat} {models : List (String × String)}
  {snapshot : ObservationSnapshot}

/-- The models behind one more frame. -/
theorem append {new : List (String × String)} (collects : Collects picker start seen models)
    (listed : ∀ model ∈ new, ∃ row ∈ picker.rows, row.model? = some model)
    : Collects picker start seen (models ++ new).eraseDups := by
  refine ⟨nodup_eraseDups _, ?_, ?_⟩
  · intro model member
    rcases List.mem_append.mp (List.mem_eraseDups.mp member) with earlier | shown
    · exact collects.listed model earlier
    · exact listed model shown
  · intro steps few model shown
    rw [List.mem_eraseDups, List.mem_append]
    exact .inl (collects.seen steps few model shown)

theorem frame {cursor : Nat} (collects : Collects picker start seen models)
    (shows : ShowsRows picker cursor snapshot)
    : Collects picker start seen (models ++ visibleModels snapshot).eraseDups :=
  collects.append shows.mem_visibleModels.1

theorem closed (collects : Collects picker start seen models)
    (safe : safeComposerSurface snapshot = true)
    : Collects picker start seen (models ++ visibleModels snapshot).eraseDups := by
  apply collects.append
  simp [visibleModels_of_safe safe]

/-- A frame with the cursor on the next row shows the model of this row. -/
theorem grow (collects : Collects picker start seen models)
    (shows : ShowsRows picker (start + seen) snapshot)
    : Collects picker start (seen + 1) (models ++ visibleModels snapshot).eraseDups := by
  have more := collects.frame shows
  refine ⟨more.once, more.listed, ?_⟩
  intro steps few model shown
  rcases Nat.lt_succ_iff_lt_or_eq.mp few with earlier | rfl
  · exact more.seen steps earlier model shown
  · rw [List.mem_eraseDups, List.mem_append]
    exact .inr (shows.mem_visibleModels.2 model shown)

end Collects

section Steps

variable {picker : Picker} {start steps : Nat} {driven : Driven} {frame : DiscoveryFrame}
  {history next : DiscoveryHistory}

theorem isAfter_of_fresh {snapshot : ObservationSnapshot}
    {recorded : Option ObservationRevision} (some_ : recorded ≠ none)
    (fresh : ∀ baseline, recorded = some baseline → baseline < snapshot.revision)
    : isAfter snapshot recorded = true := by
  obtain ⟨baseline, same⟩ := Option.ne_none_iff_exists'.mp some_
  rw [same]
  simpa [isAfter] using fresh baseline same

def discoveryDecision (driven : Driven) (frame : DiscoveryFrame) : DiscoveryDecision :=
  reconcileModelDiscovery driven.op frame.snapshot frame.actionId frame.now

theorem decision_of_phase (fresh : FreshFrame picker driven frame)
    : discoveryDecision driven frame
      = reconcileDiscoveryPhase driven.op frame.snapshot frame.actionId := by
  unfold discoveryDecision reconcileModelDiscovery
  rw [if_neg (by simp [fresh.healthy]), if_neg (by simp [fresh.timely])]

theorem FreshFrame.rows (fresh : FreshFrame picker driven frame)
    (opened : driven.opened = true)
    : ShowsRows picker driven.cursor frame.snapshot := by
  have shows := fresh.shows
  rwa [if_pos opened] at shows

theorem FreshFrame.safe (fresh : FreshFrame picker driven frame)
    (closed : driven.opened = false)
    : safeComposerSurface frame.snapshot = true := by
  have shows := fresh.shows
  rwa [if_neg (by simp [closed])] at shows

def decidedTo (history : DiscoveryHistory) (frame : DiscoveryFrame)
    (decision : DiscoveryDecision) : DiscoveryHistory where
  state := history.state.perform
    (advanceModelDiscovery history.state.op decision frame.snapshot frame.now)
    (decision.action.map (·.payload))
  entries := history.entries ++ [⟨history.state, frame, decision⟩]

theorem traversal_concat (entries : List DiscoveryEntry) (entry : DiscoveryEntry)
    : traversal (entries ++ [entry]) = traversal entries ++ traversal [entry] := by
  simp [traversal, List.filterMap_append]

theorem length_decidedTo (history : DiscoveryHistory) (frame : DiscoveryFrame)
    (decision : DiscoveryDecision)
    : (decidedTo history frame decision).entries.length = history.entries.length + 1 := by
  simp [decidedTo]

theorem traversal_silent {decision : DiscoveryDecision} (silent : decision.action = none)
    : traversal (decidedTo history frame decision).entries = traversal history.entries := by
  rw [decidedTo, traversal_concat]
  simp [traversal, silent]

theorem Stage.created_step (fresh : FreshFrame picker history.state frame)
    (phase : history.state.op.envelope.phase = .created)
    (scans : Scans picker start 0 history.state)
    (models : Collects picker start 0 history.state.op.models) (none_ : history.entries = [])
    : Stage picker start (decidedTo history frame (discoveryDecision history.state frame)) := by
  rw [decision_of_phase fresh, reconcileDiscoveryPhase, phase]
  dsimp only
  unfold reconcileDiscoveryCreated
  cases opened : history.state.opened with
  | true =>
    have shows := fresh.rows opened
    rw [if_pos shows.visible]
    rw [scans.cursor] at shows
    refine .scanning rfl (open_concat.mpr rfl)
      ⟨scans.cursor, scans.counted, scans.origin, scans.apart⟩ opened
      (models.grow shows) ?_ ?_
    · rw [traversal_silent rfl, none_]
      rfl
    · rw [length_decidedTo, none_]
      exact Nat.le_succ _
  | false =>
    have safe := fresh.safe opened
    rw [if_neg (by simp [not_visible_of_safe safe]), if_neg (by simp [safe])]
    refine .opening rfl (open_concat.mpr rfl)
      ⟨scans.cursor, scans.counted, scans.origin, scans.apart⟩ rfl
      ⟨nofun, nofun⟩ (models.closed safe) ?_ ?_
    · rw [decidedTo, none_]
      rfl
    · rw [length_decidedTo, none_]
      exact Nat.le_refl _

theorem Stage.opening_step (fresh : FreshFrame picker history.state frame)
    (phase : history.state.op.envelope.phase = .awaitingPicker)
    (scans : Scans picker start 0 history.state) (opened : history.state.opened = true)
    (recorded
      : history.state.op.pickerActionId ≠ none
        ∧ history.state.op.pickerBaselineRevision ≠ none)
    (models : Collects picker start 0 history.state.op.models)
    (moves : traversal history.entries = []) (frames : history.entries.length ≤ 1)
    : Stage picker start (decidedTo history frame (discoveryDecision history.state frame)) := by
  have shows := fresh.rows opened
  have after := isAfter_of_fresh recorded.2 (fun _ same => fresh.fresh _ (.inl same))
  rw [decision_of_phase fresh, reconcileDiscoveryPhase, phase]
  dsimp only
  unfold reconcileDiscoveryPicker
  rw [if_neg (not_or.mpr recorded), if_neg (by simp [after]), if_neg (by simp [shows.visible])]
  rw [scans.cursor] at shows
  refine .scanning rfl (open_concat.mpr rfl)
    ⟨scans.cursor, scans.counted, scans.origin, scans.apart⟩ opened
    (models.grow shows) ?_ ?_
  · rw [traversal_silent rfl, moves]
    rfl
  · rw [length_decidedTo]
    omega

/-- With the cursor back on the marker of its start the traversal ends, otherwise it goes on. -/
theorem Stage.scanning_step (fresh : FreshFrame picker history.state frame)
    (phase : history.state.op.envelope.phase = .scanning)
    (scans : Scans picker start steps history.state) (opened : history.state.opened = true)
    (models : Collects picker start (steps + 1) history.state.op.models)
    (moves
      : traversal history.entries = List.replicate steps (.navigateModelPicker "down"))
    (frames : history.entries.length ≤ 2 * steps + 2)
    : Stage picker start (decidedTo history frame (discoveryDecision history.state frame)) := by
  have shows := fresh.rows opened
  have highlighted := shows.highlighted
  rw [scans.cursor] at highlighted
  rw [decision_of_phase fresh, reconcileDiscoveryPhase, phase]
  dsimp only
  unfold reconcileScanning
  rw [highlighted]
  dsimp only
  split
  · next returned =>
      have positive := scans.navigated.mp returned.1
      have back : ¬ picker.Apart start steps := by
        rw [scans.origin, if_neg (by omega)] at returned
        exact not_not.mpr (Option.some.inj returned.2)
      refine .dismissing rfl (open_concat.mpr rfl) positive
        ⟨scans.cursor, scans.counted, scans.origin, scans.apart⟩
        back rfl ⟨nofun, nofun⟩ (models.frame shows) ?_ ?_
      · rw [decidedTo, traversal_concat, moves]
        rfl
      · rw [length_decidedTo]
        omega
  · next further =>
      refine .stepping rfl (open_concat.mpr rfl) (Nat.succ_pos steps) ⟨?_, ?_, ?_, ?_⟩ opened
        nofun
        (models.frame shows) ?_ ?_
      · exact congrArg (· + 1) scans.cursor
      · exact List.length_append.trans (congrArg (· + 1) scans.counted)
      · rw [if_neg (Nat.succ_ne_zero steps), ← scans.origin_orElse]
        exact congrArg (history.state.op.startModelId <|> ·) shows.highlighted
      · exact scans.apart_succ further
      · rw [decidedTo, traversal_concat, moves, List.replicate_succ']
        rfl
      · rw [length_decidedTo]
        omega

theorem Stage.stepping_step (fresh : FreshFrame picker history.state frame)
    (phase : history.state.op.envelope.phase = .awaitingStep) (positive : 0 < steps)
    (scans : Scans picker start steps history.state) (opened : history.state.opened = true)
    (recorded : history.state.op.navigationBaselineRevision ≠ none)
    (models : Collects picker start steps history.state.op.models)
    (moves
      : traversal history.entries = List.replicate steps (.navigateModelPicker "down"))
    (frames : history.entries.length ≤ 2 * steps + 1)
    : Stage picker start (decidedTo history frame (discoveryDecision history.state frame)) := by
  have shows := fresh.rows opened
  have after := isAfter_of_fresh recorded (fun _ same => fresh.fresh _ (.inr (.inl same)))
  have navigated := scans.navigated.mpr positive
  rw [decision_of_phase fresh, reconcileDiscoveryPhase, phase]
  dsimp only
  unfold reconcileDiscoveryStep
  rw [if_neg (not_or.mpr ⟨navigated, recorded⟩), if_neg (by simp [after])]
  rw [scans.cursor] at shows
  refine .scanning rfl (open_concat.mpr rfl)
    ⟨scans.cursor, scans.counted, scans.origin, scans.apart⟩ opened
    (models.grow shows) ?_ ?_
  · rw [traversal_silent rfl, moves]
  · rw [length_decidedTo]
    omega

theorem Stage.dismissing_step (fresh : FreshFrame picker history.state frame)
    (phase : history.state.op.envelope.phase = .awaitingDismissal) (positive : 0 < steps)
    (scans : Scans picker start steps history.state) (returned : ¬ picker.Apart start steps)
    (closed : history.state.opened = false)
    (recorded
      : history.state.op.dismissalActionId ≠ none
        ∧ history.state.op.dismissalBaselineRevision ≠ none)
    (models : Collects picker start (steps + 1) history.state.op.models)
    (moves
      : traversal history.entries
        = List.replicate steps (.navigateModelPicker "down")
          ++ [.dismissOverlay "model_picker"])
    : Stage picker start (decidedTo history frame (discoveryDecision history.state frame)) := by
  have safe := fresh.safe closed
  have after := isAfter_of_fresh recorded.2 (fun _ same => fresh.fresh _ (.inr (.inr same)))
  rw [decision_of_phase fresh, reconcileDiscoveryPhase, phase]
  dsimp only
  unfold reconcileDismissal
  rw [if_neg (not_or.mpr recorded), if_neg (by simp [after]), if_pos safe]
  refine .done rfl ?_ positive ⟨scans.cursor, scans.counted, scans.origin, scans.apart⟩ returned
    (models.closed safe) ?_
  · simp [History.open_, decidedTo, discoveryReducer, ControllerDecision.succeed,
      ControllerDecisionKind.settles]
  · rw [traversal_silent rfl, moves]

theorem Stage.step (stage : Stage picker start history)
    (step : DiscoveryStep picker history frame next)
    : Stage picker start next := by
  cases step with
  | step going fresh decided =>
    cases decided
    cases stage with
    | created phase _ scans models none_ => exact created_step fresh phase scans models none_
    | opening phase _ scans opened recorded models moves frames =>
      exact opening_step fresh phase scans opened recorded models moves frames
    | scanning phase _ scans opened models moves frames =>
      exact scanning_step fresh phase scans opened models moves frames
    | stepping phase _ positive scans opened recorded models moves frames =>
      exact stepping_step fresh phase positive scans opened recorded models moves frames
    | dismissing phase _ positive scans returned closed recorded models moves frames =>
      exact dismissing_step fresh phase positive scans returned closed recorded models moves
    | done _ ended => exact absurd ended (by simp [going])

theorem stage_of_run {frames : List DiscoveryFrame}
    (run : Run (Started (DiscoveryCreated start)) (DiscoveryStep picker) frames history)
    : Stage picker start history :=
  run.invariant (fun _ created => stage_of_created created)
    (fun _ _ _ stage step => stage.step step)

/-- An open discovery took few frames. -/
theorem Stage.length_lt (stage : Stage picker start history)
    (going : history.open_ discoveryReducer = true)
    : history.entries.length < 2 * picker.rows.length + 4 := by
  cases stage with
  | created _ _ _ _ none_ =>
    rw [none_]
    exact Nat.succ_pos _
  | opening _ _ _ _ _ _ _ frames => omega
  | scanning _ _ scans _ _ _ frames =>
    have few := picker.steps_le scans.apart
    omega
  | stepping _ _ _ scans _ _ _ _ frames =>
    have few := picker.steps_le scans.apart
    omega
  | dismissing _ _ _ scans _ _ _ _ _ frames =>
    have few := picker.steps_le scans.apart
    omega
  | done _ ended => exact absurd ended (by simp [going])

end Steps

section Ends

variable {picker : Picker} {start steps : Nat} {history : DiscoveryHistory}

theorem Picker.nodup_models (picker : Picker)
    : (picker.rows.filterMap PickerRow.model?).Nodup := by
  refine picker.distinct.filterMap ?_
  rintro ⟨_, _⟩ ⟨_, _⟩ model shown same
  simp only [PickerRow.model?, Option.mem_def, Option.map_eq_some_iff] at shown same
  obtain ⟨id, found, rfl⟩ := shown
  obtain ⟨id', found', same⟩ := same
  cases same
  rw [found, found']

/-- Once around the picker every row was seen. -/
theorem Collects.perm {models : List (String × String)}
    (collects : Collects picker start (picker.rows.length + 1) models)
    : models.Perm (picker.rows.filterMap PickerRow.model?) := by
  rw [List.perm_ext_iff_of_nodup collects.once picker.nodup_models]
  intro model
  rw [List.mem_filterMap]
  constructor
  · exact collects.listed model
  · rintro ⟨row, member, shown⟩
    obtain ⟨steps, -, few, found⟩ := picker.exists_steps member start
    exact collects.seen steps (Nat.lt_succ_of_le few) model (by rw [found, shown])

theorem length_of_fullTraversal
    (moves
      : List.replicate steps (.navigateModelPicker "down") ++ [.dismissOverlay "model_picker"]
        = fullTraversal picker)
    : steps = picker.rows.length := by
  have lengths := congrArg List.length moves
  simpa [fullTraversal] using lengths

theorem Stage.exhaustive_iff (stage : Stage picker start history)
    (ended : history.open_ discoveryReducer = false)
    : (history.state.op.envelope.phase = .succeeded
        ∧ traversal history.entries = fullTraversal picker
        ∧ history.state.op.models.Perm (picker.rows.filterMap PickerRow.model?))
      ↔ SingleMarker picker start := by
  cases stage with
  | done phase _ positive scans returned models moves =>
    rw [← picker.around_iff positive returned scans.apart, moves]
    constructor
    · intro exhaustive
      exact length_of_fullTraversal exhaustive.2.1
    · intro around
      subst around
      exact ⟨phase, rfl, models.perm⟩
  | created _ going | opening _ going | scanning _ going | stepping _ going
  | dismissing _ going => exact absurd going (by simp [ended])

end Ends

section Frames

def Picker.viewport (picker : Picker) (cursor : Nat) : List ChoiceState :=
  picker.rows.map (fun row => ⟨row.id, row.label, some (row = picker.at cursor), none⟩)

def DiscoverModelsOperation.laterRevision (op : DiscoverModelsOperation)
    : ObservationRevision :=
  let epoch : Option ObservationRevision → Nat := fun recorded => recorded.elim 0 (·.paneEpoch)
  ⟨epoch op.pickerBaselineRevision + epoch op.navigationBaselineRevision
    + epoch op.dismissalBaselineRevision + 1, 0, 0⟩

def Driven.view (picker : Picker) (driven : Driven) : ObservationSnapshot where
  revision := driven.op.laterRevision
  surface :=
    .present {
      blocksComposerInput := driven.opened
      primary := if driven.opened then .modelPicker else .composer }
  composer := .unknown
  transcriptTail := .unknown
  health := {}
  modelConfiguration := .present ⟨picker.viewport driven.cursor, none, none, none, []⟩

variable {picker : Picker} {start : Nat} {driven : Driven}

theorem baseline_lt_later {op : DiscoverModelsOperation} {baseline : ObservationRevision}
    (recorded
      : op.pickerBaselineRevision = some baseline
        ∨ op.navigationBaselineRevision = some baseline
        ∨ op.dismissalBaselineRevision = some baseline)
    : baseline < op.laterRevision := by
  refine .inl ?_
  rcases recorded with same | same | same
    <;> simp only [DiscoverModelsOperation.laterRevision, same, Option.elim_some]
    <;> omega

theorem showsRows_viewport {snapshot : ObservationSnapshot} {cursor : Nat}
    (active : modelPickerIsActive snapshot = true)
    (shown
      : snapshot.modelConfiguration.value
        = some ⟨picker.viewport cursor, none, none, none, []⟩)
    : ShowsRows picker cursor snapshot := by
  refine ⟨active, _, shown, ?_, ?_⟩
  · simp [Picker.viewport, ChoiceState.row, Function.comp_def, picker.at_mem]
  · simp [Picker.viewport, ChoiceState.row]

/-- The discovery can be given a fresh frame at any time. -/
theorem exists_freshFrame (picker : Picker) (driven : Driven)
    : ∃ frame, FreshFrame picker driven frame := by
  refine ⟨⟨driven.view picker, "", driven.op.envelope.deadline.getD 0⟩, rfl, ?_, ?_, ?_⟩
  · cases limit : driven.op.envelope.deadline <;>
      simp [DiscoverModelsOperation.expired, limit]
  · exact fun _ recorded => baseline_lt_later recorded
  · split
    · next opened =>
        refine showsRows_viewport ?_ rfl
        simp only [modelPickerIsActive, Driven.view, opened, if_true]
        rfl
    · next closed =>
        simp only [safeComposerSurface, Driven.view, closed]
        rfl

def createdDiscovery (start : Nat) : Driven where
  op := { envelope := envelope ModelDiscoveryPhase .created, request := ⟨0⟩ }
  cursor := start
  opened := false

/-- A discovery has runs of every length it is still open at, or one that settles, by induction
over the number of frames.
-/
theorem exists_settled_or (picker : Picker) (start length : Nat)
    : ∃ frames history,
        Run (Started (DiscoveryCreated start)) (DiscoveryStep picker) frames history
        ∧ (history.open_ discoveryReducer = false ∨ history.entries.length = length) := by
  induction length with
  | zero =>
    have created : DiscoveryCreated start (createdDiscovery start) := ⟨rfl, _, _, rfl, rfl⟩
    exact ⟨[], ⟨createdDiscovery start, []⟩, ⟨_, ⟨created, rfl⟩, .nil _⟩, .inr rfl⟩
  | succ length ih =>
    obtain ⟨frames, history, run, settled | counted⟩ := ih
    · exact ⟨frames, history, run, .inl settled⟩
    · cases going : history.open_ discoveryReducer with
      | false => exact ⟨frames, history, run, .inl going⟩
      | true =>
        obtain ⟨frame, fresh⟩ := exists_freshFrame picker history.state
        refine ⟨frames ++ [frame], _, run.snoc (.step going fresh rfl), .inr ?_⟩
        rw [List.length_append, counted]
        rfl

/-- Some frames drive the discovery to its end. -/
theorem exists_settled (picker : Picker) (start : Nat)
    : ∃ frames history,
        Run (Started (DiscoveryCreated start)) (DiscoveryStep picker) frames history
        ∧ history.open_ discoveryReducer = false := by
  obtain ⟨frames, history, run, settled | counted⟩ :=
    exists_settled_or picker start (2 * picker.rows.length + 4)
  · exact ⟨frames, history, run, settled⟩
  · refine ⟨frames, history, run, Bool.eq_false_of_not_eq_true (fun going => ?_)⟩
    exact absurd counted (Nat.ne_of_lt ((stage_of_run run).length_lt going))

theorem singleMarker_of_discovers (discovers : Discovers picker start)
    : SingleMarker picker start := by
  obtain ⟨frames, history, run, ended⟩ := exists_settled picker start
  exact ((stage_of_run run).exhaustive_iff ended).mp ((discovers frames history run).2 ended)

/-- A picker is discovered exhaustively exactly when no other row has the marker of the row the
traversal starts from.
-/
theorem discovers_iff (picker : Picker) (start : Nat)
    : Discovers picker start ↔ SingleMarker picker start := by
  constructor
  · exact singleMarker_of_discovers
  · intro single frames history run
    have stage := stage_of_run run
    exact ⟨stage.length_lt, fun ended => (stage.exhaustive_iff ended).mpr single⟩

end Frames

/-- A row without an identifier, and one whose identifier is empty, of one label. -/
def blankPicker : Picker where
  rows := [⟨none, "auto"⟩, ⟨some "", "auto"⟩]
  distinct := by decide
  some_ := Nat.succ_pos 1

/-- The traversal stops behind the first step of two. -/
theorem not_discovers_blank : ¬ Discovers blankPicker 0 := by
  intro discovers
  have single := singleMarker_of_discovers discovers ⟨some "", "auto"⟩
  exact absurd (single (by decide) (by decide)) (by decide)

end Murder.Harness
