import Murder.Harness.Questions
import Murder.Harness.Permissions

/-! Answers to a menu as keys, and the row of the menu that the keys come to. -/

namespace Murder.Harness

open Contracts

/-- A row of an observed menu: its choice, and what only the lowering reads of it. -/
structure MenuRow where
  choice : ChoiceState
  selected : Option Bool
  checked : Option Bool
deriving DecidableEq

inductive NamedKey
  | up
  | down
  | space
  | enter
deriving DecidableEq

inductive TerminalEffect
  | sendNamedKey (key : NamedKey)
  | sendLiteralKeys (text : String)
deriving DecidableEq

def cursorRow (rows : List MenuRow) : Nat :=
  (rows.findIdx? (fun row =>
    row.choice.highlighted == some true || row.selected == some true)).getD 0

def namedRow (rows : List MenuRow) (choiceId label : Option String) : Option Nat :=
  rows.findIdx? (fun row => row.choice.stableChoiceId == choiceId || some row.choice.label == label)

def checkedRow (rows : List MenuRow) (row : Nat) : Bool := rows[row]?.bind (·.checked) == some true

def moveKeys (current target : Nat) : List TerminalEffect :=
  if current ≤ target then List.replicate (target - current) (.sendNamedKey .down)
  else List.replicate (current - target) (.sendNamedKey .up)

/-- `_lower_choice`; a menu that is not observed has no rows to read. -/
def lowerChoice (choiceId label custom : Option String) (observed : Option (List MenuRow))
    : List TerminalEffect :=
  match observed with
  | none => []
  | some rows =>
    let target := namedRow rows choiceId label
    if target = none ∧ custom = none then
      []
    else
      let current := cursorRow rows
      moveKeys current (target.getD current) ++ (custom.map .sendLiteralKeys).toList
        ++ [.sendNamedKey .enter]

def checkKeys (rows : List MenuRow) (cursor : Nat)
    : List QuestionChoiceSelection → Option (List TerminalEffect)
  | [] => some []
  | selection :: rest =>
    match namedRow rows selection.stableChoiceId (some selection.label) with
    | none => none
    | some target =>
      (checkKeys rows target rest).map (fun later =>
        moveKeys cursor target
          ++ (if checkedRow rows target then [] else [.sendNamedKey .space]) ++ later)

def lowerQuestion (action : AnswerQuestion) (observed : Option (List MenuRow))
    : List TerminalEffect :=
  match action.mode with
  | .decline => lowerChoice none (some "Chat about this") none observed
  | .multiple =>
    match observed with
    | none => []
    | some rows =>
      match checkKeys rows (cursorRow rows) action.selections with
      | none => []
      | some keys => keys ++ [.sendNamedKey .enter]
  | _ =>
    let selection := action.selections.head?
    lowerChoice (selection.bind (·.stableChoiceId)) (selection.map (·.label))
      action.customAnswer observed

def lowerPermission (action : AnswerPermission) (observed : Option (List MenuRow))
    : List TerminalEffect :=
  lowerChoice action.responseId action.responseLabel none observed

/-- A menu under the keys. -/
structure Menu where
  row : Int
  checked : Int → Bool
  typed : List (Int × String) := []
  confirmed : Option Int := none

def Menu.opened (rows : List MenuRow) (start : Nat) : Menu where
  row := start
  checked row := decide (0 ≤ row) && checkedRow rows row.toNat

def Menu.press (menu : Menu) : TerminalEffect → Menu
  | .sendNamedKey .up => { menu with row := menu.row - 1 }
  | .sendNamedKey .down => { menu with row := menu.row + 1 }
  | .sendNamedKey .space =>
    { menu with
      checked := fun row => if row = menu.row then !menu.checked row else menu.checked row }
  | .sendNamedKey .enter => { menu with confirmed := some menu.row }
  | .sendLiteralKeys text => { menu with typed := menu.typed ++ [(menu.row, text)] }

def Menu.run (menu : Menu) (effects : List TerminalEffect) : Menu := effects.foldl Menu.press menu

theorem Menu.run_append (menu : Menu) (first later : List TerminalEffect)
    : menu.run (first ++ later) = (menu.run first).run later :=
  List.foldl_append

theorem Menu.run_down (menu : Menu) (count : Nat)
    : menu.run (List.replicate count (.sendNamedKey .down))
      = { menu with row := menu.row + count } := by
  induction count generalizing menu with
  | zero => simp [Menu.run]
  | succ count ih =>
    rw [List.replicate_succ]
    change (menu.press (.sendNamedKey .down)).run _ = _
    rw [ih]
    simp [Menu.press, Int.add_assoc, Int.add_comm 1]

theorem Menu.run_up (menu : Menu) (count : Nat)
    : menu.run (List.replicate count (.sendNamedKey .up))
      = { menu with row := menu.row - count } := by
  induction count generalizing menu with
  | zero => simp [Menu.run]
  | succ count ih =>
    rw [List.replicate_succ]
    change (menu.press (.sendNamedKey .up)).run _ = _
    rw [ih]
    simp [Menu.press]
    omega

theorem Menu.run_moveKeys (menu : Menu) (current target : Nat)
    : menu.run (moveKeys current target)
      = { menu with row := menu.row + (target - current : Int) } := by
  unfold moveKeys
  by_cases down : current ≤ target
  · rw [if_pos down, Menu.run_down, Int.ofNat_sub down]
  · rw [if_neg down, Menu.run_up, Int.ofNat_sub (by omega)]
    congr 1
    omega

/-- The row of the choice that `findChoice` selects. -/
def verifiedRow (rows : List MenuRow) (stableId : Option String) (label : String) : Option Nat :=
  match given stableId with
  | some id => rows.findIdx? (fun row => row.choice.stableChoiceId == some id)
  | none =>
    if rows.countP (fun row => row.choice.label == label) = 1 then
      rows.findIdx? (fun row => row.choice.label == label)
    else
      none

variable {rows : List MenuRow} {start : Nat}

/-- The keys that choose come from the named row, as far as the cursor is where it is read. -/
theorem run_lowerChoice {choiceId label : Option String}
    : (Menu.opened rows start).run (lowerChoice choiceId label none (some rows))
      = match namedRow rows choiceId label with
        | none => Menu.opened rows start
        | some named =>
          { Menu.opened rows start with
            row := start + (named - cursorRow rows : Int)
            confirmed := some (start + (named - cursorRow rows : Int)) } := by
  unfold lowerChoice
  dsimp only
  cases named : namedRow rows choiceId label with
  | none => rfl
  | some row =>
    rw [if_neg (by simp), Menu.run_append, Menu.run_append, Menu.run_moveKeys]
    rfl

/-- The text of a custom answer is typed in the row of the cursor, if no row lacks an id. -/
theorem run_lowerCustom (text : String)
    : (Menu.opened rows start).run (lowerChoice none none (some text) (some rows))
      = let row : Int :=
          start + ((namedRow rows none none).getD (cursorRow rows) - cursorRow rows : Int)
        { Menu.opened rows start with row, typed := [(row, text)], confirmed := some row } := by
  unfold lowerChoice
  dsimp only
  rw [if_neg (by simp), Menu.run_append, Menu.run_append, Menu.run_moveKeys]
  rfl

/-- How often the keys of the selections toggle a row, with the cursor so far from the row it is
read at.
-/
def toggles (rows : List MenuRow) (selections : List QuestionChoiceSelection) (shift row : Int)
    : Nat :=
  selections.countP (fun selection =>
    match namedRow rows selection.stableChoiceId (some selection.label) with
    | some named => decide (named + shift = row) && !checkedRow rows named
    | none => false)

variable {selections : List QuestionChoiceSelection}

theorem toggles_cons {selection : QuestionChoiceSelection} {shift row : Int} {target : Nat}
    (named : namedRow rows selection.stableChoiceId (some selection.label) = some target)
    : toggles rows (selection :: selections) shift row
      = toggles rows selections shift row
        + if target + shift = row ∧ checkedRow rows target = false then 1 else 0 := by
  simp [toggles, List.countP_cons, named]

/-- The keys of the selections toggle rows and confirm none, by induction on the selections. -/
theorem run_checkKeys {selections : List QuestionChoiceSelection} {cursor : Nat}
    {keys : List TerminalEffect} {menu : Menu} {shift : Int}
    (lowered : checkKeys rows cursor selections = some keys) (reading : menu.row = cursor + shift)
    : (menu.run keys).typed = menu.typed
      ∧ ∀ row, (menu.run keys).checked row
        = (menu.checked row != decide (toggles rows selections shift row % 2 = 1)) := by
  induction selections generalizing cursor keys menu with
  | nil =>
    cases lowered
    exact ⟨rfl, fun row => by simp [toggles, Menu.run]⟩
  | cons selection selections ih =>
    rw [checkKeys] at lowered
    cases named : namedRow rows selection.stableChoiceId (some selection.label) with
    | none =>
      rw [named] at lowered
      cases lowered
    | some target =>
      rw [named] at lowered
      obtain ⟨later, rest, rfl⟩ := Option.map_eq_some_iff.mp lowered
      rw [Menu.run_append, Menu.run_append, Menu.run_moveKeys, reading]
      by_cases checked : checkedRow rows target
      · rw [if_pos checked]
        have run := @ih target later
          { menu with row := cursor + shift + (target - cursor : Int) } rest (by simp; omega)
        refine ⟨run.1, fun row => ?_⟩
        refine (run.2 row).trans ?_
        simp [toggles_cons named, checked]
      · rw [if_neg checked]
        have run := @ih target later
          (Menu.press { menu with row := cursor + shift + (target - cursor : Int) }
            (.sendNamedKey .space)) rest (by simp [Menu.press]; omega)
        refine ⟨run.1, fun row => ?_⟩
        refine (run.2 row).trans ?_
        have parity : ∀ count, decide ((count + 1) % 2 = 1) = !decide (count % 2 = 1) := by
          intro count
          rw [← decide_not, decide_eq_decide]
          omega
        have here : cursor + shift + (target - cursor : Int) = target + shift := by omega
        rw [toggles_cons named]
        by_cases same : target + shift = row
        · rw [if_pos ⟨same, Bool.eq_false_iff.mpr checked⟩, parity]
          simp [Menu.press, here, same]
        · rw [if_neg (fun both => same both.1)]
          simp [Menu.press, here, Ne.symm same]

def answeredMenu (op : AnswerQuestionOperation) (rows : List MenuRow) (start : Nat) : Menu :=
  (Menu.opened rows start).run (lowerQuestion (answerAction op).payload (some rows))

def respondedMenu (op : AnswerPermissionOperation) (rows : List MenuRow) (start : Nat) : Menu :=
  (Menu.opened rows start).run (lowerPermission (responseAction op).payload (some rows))

def CustomRow [CaseMapping] (rows : List MenuRow) (row : Nat) : Prop :=
  ∃ shown, rows[row]? = some shown
    ∧ occursIn "type something" (CaseMapping.lower shown.choice.label)

def declineRow (question : QuestionState) (rows : List MenuRow) : Option Nat :=
  question.declineLabel.bind (fun label => rows.findIdx? (fun row => row.choice.label == label))

def Confirms (menu : Menu) (verified : Option Nat) : Prop :=
  ∃ row, verified = some row ∧ menu.confirmed = some (row : Int)

def HitsAnswer [CaseMapping] (op : AnswerQuestionOperation) (question : QuestionState)
    (rows : List MenuRow) (start : Nat) : Prop :=
  let menu := answeredMenu op rows start
  match op.request.mode with
  | .single => ∃ target, op.request.selections = [target]
      ∧ Confirms menu (verifiedRow rows target.stableChoiceId target.label)
  | .multiple => menu.confirmed ≠ none ∧ ∀ row < rows.length, menu.checked row ↔
      ∃ target ∈ op.request.selections,
        verifiedRow rows target.stableChoiceId target.label = some row
  | .custom => ∃ text row, op.request.customAnswer = some text ∧ CustomRow rows row
      ∧ menu.typed = [((row : Int), text)] ∧ menu.confirmed = some (row : Int)
  | .decline => Confirms menu (declineRow question rows)

def HitsResponse (op : AnswerPermissionOperation) (rows : List MenuRow) (start : Nat) : Prop :=
  Confirms (respondedMenu op rows start)
    (verifiedRow rows op.request.response.stableResponseId op.request.response.label)

def Lands (rows : List MenuRow) (start : Nat) (named verified : Option Nat) : Prop :=
  ∃ target row, named = some target ∧ verified = some row
    ∧ row + cursorRow rows = start + target

def TogglesRequested (rows : List MenuRow) (selections : List QuestionChoiceSelection)
    (start : Nat) : Prop :=
  (∀ target ∈ selections, namedRow rows target.stableChoiceId (some target.label) ≠ none)
  ∧ ∀ row < rows.length,
    (checkedRow rows row != decide
      (toggles rows selections (start - cursorRow rows : Int) row % 2 = 1)) = true
    ↔ ∃ target ∈ selections, verifiedRow rows target.stableChoiceId target.label = some row

def LandsAnswer [CaseMapping] (op : AnswerQuestionOperation) (question : QuestionState)
    (rows : List MenuRow) (start : Nat) : Prop :=
  match op.request.mode with
  | .single => ∃ target, op.request.selections = [target]
      ∧ Lands rows start (namedRow rows target.stableChoiceId (some target.label))
        (verifiedRow rows target.stableChoiceId target.label)
  | .multiple => TogglesRequested rows op.request.selections start
  | .custom => ∃ row, CustomRow rows row
      ∧ row + cursorRow rows = start + (namedRow rows none none).getD (cursorRow rows)
  | .decline => Lands rows start (namedRow rows none (some "Chat about this"))
      (declineRow question rows)

/-- Keys that choose confirm the verified row exactly when they land on it. -/
theorem confirms_iff {choiceId label : Option String} {verified : Option Nat}
    : Confirms ((Menu.opened rows start).run (lowerChoice choiceId label none (some rows))) verified
      ↔ Lands rows start (namedRow rows choiceId label) verified := by
  rw [run_lowerChoice]
  cases namedRow rows choiceId label with
  | none =>
    refine iff_of_false (fun confirms => ?_) (fun lands => ?_)
    · obtain ⟨row, -, confirmed⟩ := confirms
      cases confirmed
    · obtain ⟨target, row, named, -⟩ := lands
      cases named
  | some target =>
    constructor
    · intro confirms
      obtain ⟨row, same, confirmed⟩ := confirms
      have place := Option.some.inj confirmed
      exact ⟨target, row, rfl, same, by omega⟩
    · intro lands
      obtain ⟨target', row, named, same, place⟩ := lands
      cases named
      refine ⟨row, same, congrArg some ?_⟩
      omega

theorem checkKeys_eq_none {cursor : Nat}
    : checkKeys rows cursor selections = none
      ↔ ¬∀ target ∈ selections, namedRow rows target.stableChoiceId (some target.label) ≠ none := by
  induction selections generalizing cursor with
  | nil => simp [checkKeys]
  | cons selection selections ih =>
    rw [checkKeys, List.forall_mem_cons]
    cases named : namedRow rows selection.stableChoiceId (some selection.label) with
    | none => simp
    | some target => simp [ih]

theorem multiple_iff {action : AnswerQuestion}
    (mode : action.mode = .multiple) (chosen : action.selections = selections)
    : (((Menu.opened rows start).run (lowerQuestion action (some rows))).confirmed ≠ none
        ∧ ∀ row < rows.length,
          ((Menu.opened rows start).run (lowerQuestion action (some rows))).checked row
          ↔ ∃ target ∈ selections,
            verifiedRow rows target.stableChoiceId target.label = some row)
      ↔ TogglesRequested rows selections start := by
  unfold lowerQuestion TogglesRequested
  rw [mode, chosen]
  dsimp only
  cases lowered : checkKeys rows (cursorRow rows) selections with
  | none =>
    refine iff_of_false (fun hits => hits.1 rfl) (fun lands => ?_)
    exact checkKeys_eq_none.mp lowered lands.1
  | some keys =>
    dsimp only
    have named : ∀ target ∈ selections,
        namedRow rows target.stableChoiceId (some target.label) ≠ none := by
      by_contra missing
      rw [checkKeys_eq_none.mpr missing] at lowered
      cases lowered
    have run := @run_checkKeys rows selections (cursorRow rows) keys (Menu.opened rows start)
      (start - cursorRow rows : Int) lowered (by simp [Menu.opened])
    rw [Menu.run_append, and_iff_right named]
    have confirmed : ((((Menu.opened rows start).run keys).run
        [.sendNamedKey .enter]).confirmed ≠ none) = True := eq_true (Option.some_ne_none _)
    rw [confirmed, true_and]
    refine forall₂_congr (fun row inside => ?_)
    have checked : (((Menu.opened rows start).run keys).run [.sendNamedKey .enter]).checked row
        = (checkedRow rows row != decide
          (toggles rows selections (start - cursorRow rows : Int) row % 2 = 1)) := by
      refine (run.2 row).trans ?_
      simp [Menu.opened]
    rw [checked]

section Outcomes

variable [CaseMapping] {op : AnswerQuestionOperation} {question : QuestionState}

theorem hits_single_iff (mode : op.request.mode = .single)
    : HitsAnswer op question rows start ↔ LandsAnswer op question rows start := by
  have admitted := op.request.admitted
  rw [mode] at admitted
  obtain ⟨target, single⟩ := List.length_eq_one_iff.mp admitted.1
  have keys : lowerQuestion (answerAction op).payload (some rows)
      = lowerChoice target.stableChoiceId (some target.label) none (some rows) := by
    simp [lowerQuestion, answerAction, mode, single, admitted.2]
  unfold HitsAnswer LandsAnswer answeredMenu
  rw [mode, keys]
  dsimp only
  exact exists_congr (fun target' => and_congr_right (fun chosen => by
    cases List.cons.inj (single.symm.trans chosen) with
    | intro same _ =>
      rw [← same]
      exact confirms_iff))

theorem hits_multiple_iff (mode : op.request.mode = .multiple)
    : HitsAnswer op question rows start ↔ LandsAnswer op question rows start := by
  unfold HitsAnswer LandsAnswer answeredMenu
  rw [mode]
  exact multiple_iff mode rfl

theorem hits_custom_iff (mode : op.request.mode = .custom)
    : HitsAnswer op question rows start ↔ LandsAnswer op question rows start := by
  have admitted := op.request.admitted
  rw [mode] at admitted
  obtain ⟨text, custom⟩ : ∃ text, op.request.customAnswer = some text := by
    refine Option.ne_none_iff_exists'.mp (fun none_ => ?_)
    rw [none_] at admitted
    exact admitted.2.2 rfl
  have keys : lowerQuestion (answerAction op).payload (some rows)
      = lowerChoice none none (some text) (some rows) := by
    simp [lowerQuestion, answerAction, mode, admitted.1, custom]
  unfold HitsAnswer LandsAnswer answeredMenu
  rw [mode, keys, run_lowerCustom]
  dsimp only
  constructor
  · intro hits
    obtain ⟨text', row, -, shown, -, confirmed⟩ := hits
    have place := Option.some.inj confirmed
    exact ⟨row, shown, by omega⟩
  · intro lands
    obtain ⟨row, shown, place⟩ := lands
    have here : (start + ((namedRow rows none none).getD (cursorRow rows) - cursorRow rows : Int))
        = row := by
      omega
    exact ⟨text, row, custom, shown, by rw [here], by rw [here]⟩

theorem hits_decline_iff (mode : op.request.mode = .decline)
    : HitsAnswer op question rows start ↔ LandsAnswer op question rows start := by
  have keys : lowerQuestion (answerAction op).payload (some rows)
      = lowerChoice none (some "Chat about this") none (some rows) := by
    simp [lowerQuestion, answerAction, mode]
  unfold HitsAnswer LandsAnswer answeredMenu
  rw [mode, keys]
  exact confirms_iff

/-- Keys do what was verified exactly when the rows they name are the verified ones. -/
theorem lowered_hits_iff
    : (∀ (op : AnswerQuestionOperation) (question : QuestionState) (rows : List MenuRow)
        (start : Nat), HitsAnswer op question rows start ↔ LandsAnswer op question rows start)
      ∧ ∀ (op : AnswerPermissionOperation) (rows : List MenuRow) (start : Nat),
        HitsResponse op rows start
          ↔ Lands rows start
            (namedRow rows op.request.response.stableResponseId (some op.request.response.label))
            (verifiedRow rows op.request.response.stableResponseId op.request.response.label) := by
  constructor
  · intro op question rows start
    cases mode : op.request.mode with
    | single => exact hits_single_iff mode
    | multiple => exact hits_multiple_iff mode
    | custom => exact hits_custom_iff mode
    | decline => exact hits_decline_iff mode
  · intro op rows start
    exact confirms_iff

end Outcomes

namespace TypedAnswer

abbrev pyRepr : PyRepr := ⟨fun _ => ""⟩

abbrev caseMapping : CaseMapping := ⟨String.toLower, String.toLower⟩

def shownRows : List MenuRow :=
  [⟨⟨some "number:1", "Red", some true, none⟩, some true, none⟩,
    ⟨⟨some "number:2", "Type something.", some false, none⟩, some false, none⟩]

def question : QuestionState where
  questionIdHint := some "q"
  promptText := some "Colour?"
  choices := shownRows.map (·.choice)
  selectionMode := some "single"
  visibleTabs := []
  allowCustomAnswer := some true
  declineLabel := none
  answeredSummary := []

def snapshot : ObservationSnapshot where
  revision := ⟨0, 1, 0⟩
  surface := .unknown
  composer := .unknown
  transcriptTail := .unknown
  health := {}
  question := .present question

def teal : AnswerQuestionOperation where
  envelope := {
    operationId := "o"
    status := .running
    phase := .readyToAnswer
    updatedAt := 0
    deadline := none }
  request := {
    questionIdHint := some "q"
    questionFingerprint := none
    mode := .custom
    selections := []
    customAnswer := some "teal"
    note := none
    bound := hinted_bound
    admitted := ⟨rfl, rfl, by decide⟩
    noted := none_noted }

/-- An available answer of one's own is typed in the row of the cursor. -/
theorem typed_in_red
    : ¬∀ (op : AnswerQuestionOperation) (snapshot : ObservationSnapshot)
        (question : QuestionState) (rows : List MenuRow) (start : Nat),
        snapshot.question.value = some question → question.choices = rows.map (·.choice) →
        rows[start]?.bind (·.choice.highlighted) = some true →
        (@answerIsAvailable pyRepr caseMapping op.request snapshot).value = .true →
        @HitsAnswer caseMapping op question rows start := by
  intro all
  have hits := all teal snapshot question shownRows 0 rfl rfl rfl (by decide +kernel)
  obtain ⟨text, row, custom, shown, typed, -⟩ := hits
  have first : row = 0 := by
    have place := congrArg (List.map Prod.fst) typed
    have zero : (answeredMenu teal shownRows 0).typed.map Prod.fst = [0] := by decide +kernel
    rw [zero] at place
    exact Int.ofNat_inj.mp (List.cons.inj place).1.symm
  obtain ⟨label, at_, occurs⟩ := shown
  rw [first] at at_
  cases at_
  exact absurd occurs (by decide +kernel)

end TypedAnswer

end Murder.Harness
