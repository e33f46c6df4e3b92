import Murder.Tickets.RoundTrip

/-! Which stored rows survive the way to markdown and back. -/

namespace Murder.Tickets

open Contracts Library.Trimming

variable {written : TicketRow} {before : Option TicketRow}

section Rows

variable [YamlLibrary] {ticketId : String} {row : TicketRow}

/-- The YAML library reads back what it writes of a payload, and writes no fence. -/
structure Inverts (payload : List (String × Yaml)) : Prop where
  loads : YamlLibrary.safeLoad (strip (YamlLibrary.safeDump payload)) = .ok (.mapping payload)
  fenceFree : ¬ ("\n" ++ frontmatterDelim).toList
    <:+: (strip (YamlLibrary.safeDump payload)).toList

def TicketRow.parsed (row : TicketRow) : ParsedTicket where
  title := some row.title
  deps := row.deps
  harness := row.harness
  model := row.model
  worktree := row.worktree
  parent := row.parentTicketId
  body := row.renderBody
  checklist := row.checklist
  extras := []
  parseError := none

theorem splitFrontmatter_render (inverts : Inverts row.payload)
    : splitFrontmatter row.render
      = ⟨some (strip (YamlLibrary.safeDump row.payload)), row.renderBody, false⟩ := by
  have chars : row.render.toList = (frontmatterDelim ++ "\n").toList
      ++ ((strip (YamlLibrary.safeDump row.payload)).toList
        ++ '\n' :: "---".toList ++ ('\n' :: row.renderBody.toList)) := by
    unfold TicketRow.render renderTicketFrontmatter frontmatterDelim
    simp
  have fence : ("\n" ++ frontmatterDelim).toList = '\n' :: "---".toList := rfl
  have opened : (frontmatterDelim ++ "\n").toList <+: row.render.toList := by
    rw [chars]
    exact List.prefix_append _ _
  have four : (frontmatterDelim ++ "\n").toList.length = 4 := rfl
  have free := inverts.fenceFree
  rw [fence] at free
  unfold splitFrontmatter
  simp only [if_pos opened]
  rw [chars, ← four, List.drop_left, fence, splitAtFirst_append (by decide) free]
  simp

theorem parseTicket_render (inverts : Inverts row.payload) (defaultTitle : Option String)
    : parseTicket row.render defaultTitle
      = parseFields ⟨some (strip (YamlLibrary.safeDump row.payload)), row.renderBody, false⟩
        row.payload [] defaultTitle := by
  have loaded : loadFrontmatter (strip (YamlLibrary.safeDump row.payload))
      = .ok (row.payload, []) := by
    unfold loadFrontmatter
    rw [inverts.loads]
    rfl
  unfold parseTicket
  simp only [splitFrontmatter_render inverts, Bool.false_eq_true, if_false, loaded]

omit [YamlLibrary] in
theorem normalizeAliases_payload : normalizeAliases row.payload = row.payload := by
  simp [normalizeAliases, TicketRow.payload, canonicalKey]

omit [YamlLibrary] in
theorem joinErrors_none {errors : List String} (quiet : joinErrors errors = none)
    : ∀ error ∈ errors, error = "" := by
  have empty : String.intercalate ". " errors = "" := by
    unfold joinErrors at quiet
    dsimp only at quiet
    split at quiet
    · next same => exact same
    · cases quiet
  intro error member
  cases errors with
  | nil => cases member
  | cons first rest =>
    cases rest with
    | nil =>
      rw [List.mem_singleton.mp member, ← empty, String.intercalate_singleton]
    | cons second rest =>
      have chars := congrArg String.toList empty
      simp [String.intercalate_cons_of_ne_nil] at chars

section Fields

omit [YamlLibrary]

variable {split : SplitTicket} {raw : List (String × Yaml)} {frontErrors : List String}
  {defaultTitle : Option String}

@[simp] theorem parseFields_harness
    : (parseFields split raw frontErrors defaultTitle).harness
      = (stringField "harness" (normalizeAliases raw)).1 :=
  rfl

@[simp] theorem parseFields_model
    : (parseFields split raw frontErrors defaultTitle).model
      = (stringField "model" (normalizeAliases raw)).1 :=
  rfl

theorem parseFields_title
    : (parseFields split raw frontErrors defaultTitle).title
      = titleField (split.front.isSome || split.unclosed) (normalizeAliases raw) split.body
        defaultTitle :=
  rfl

/-- The fields other than the title are read off the frontmatter. -/
theorem parseFields_trimmed
    : (∀ text ∈ (parseFields split raw frontErrors defaultTitle).harness, Trimmed text)
      ∧ (∀ text ∈ (parseFields split raw frontErrors defaultTitle).model, Trimmed text)
      ∧ (∀ text ∈ (parseFields split raw frontErrors defaultTitle).worktree, Trimmed text)
      ∧ ∀ text ∈ (parseFields split raw frontErrors defaultTitle).parent, Trimmed text :=
  ⟨fun _ => optionalStringField_trimmed, fun _ => optionalStringField_trimmed,
    fun _ => optionalStringField_trimmed, fun _ => optionalStringField_trimmed⟩

@[simp] theorem parseFields_deps
    : (parseFields split raw frontErrors defaultTitle).deps
      = (depsField (normalizeAliases raw)).1 :=
  rfl

@[simp] theorem parseFields_checklist
    : (parseFields split raw frontErrors defaultTitle).checklist = parseChecklist split.body :=
  rfl

end Fields

omit [YamlLibrary] in
theorem requireErrors_quiet (name : String) {value : Option String}
    (quiet : ∀ error ∈ requireErrors true name value, error = "")
    : value.isSome = true := by
  cases value with
  | some text => rfl
  | none =>
    have blank := quiet ("ticket frontmatter requires a non-empty " ++ name) List.mem_cons_self
    have chars := congrArg String.toList blank
    simp at chars

omit [YamlLibrary] in
/-- Frontmatter without errors has a harness and a model. -/
theorem parseFields_required {front body : String} {raw : List (String × Yaml)}
    {frontErrors : List String} {defaultTitle : Option String}
    (quiet : (parseFields ⟨some front, body, false⟩ raw frontErrors defaultTitle).parseError = none)
    : (stringField "harness" (normalizeAliases raw)).1.isSome = true
      ∧ (stringField "model" (normalizeAliases raw)).1.isSome = true := by
  have silent := joinErrors_none quiet
  refine ⟨requireErrors_quiet "harness" (fun error member => silent error ?_),
    requireErrors_quiet "model" (fun error member => silent error ?_)⟩
  · refine List.mem_append_right _ ?_
    exact List.mem_append_left _ (List.mem_append_right _ member)
  · refine List.mem_append_right _ ?_
    exact List.mem_append_right _ member

/-- What every written row keeps. -/
structure Stored (ticketId : String) (row : TicketRow) : Prop where
  title : Trimmed row.title
  harness : ∀ text ∈ row.harness, strip text = text
  model : ∀ text ∈ row.model, Trimmed text
  worktree : ∀ text ∈ row.worktree, Trimmed text
  parent : ∀ text ∈ row.parentTicketId, Trimmed text
  sorted : row.deps.Pairwise (· ≤ ·)
  distinct : row.deps.Nodup
  foreign : ticketId ∉ row.deps

/-- A row that markdown can carry: harness and model are set, and every dependency and every
item of the checklist is a trimmed text, the items on one line.
-/
structure Storable (row : TicketRow) : Prop where
  harness : ∃ text, row.harness = some text ∧ text ≠ ""
  model : row.model.isSome = true
  deps : ∀ dep ∈ row.deps, Trimmed dep
  checklist : ∀ item ∈ row.checklist, PlainText item.text

/-- The row is parsed as it is, and reconciling its markdown leaves it. -/
structure RoundTrips (ticketId : String) (row : TicketRow) : Prop where
  parsed : ∀ defaultTitle, parseTicket row.render defaultTitle = row.parsed
  fixpoint : reconcile ticketId row.render (some row) = some row

theorem parseTicket_storable (stored : Stored ticketId row) (storable : Storable row)
    (inverts : Inverts row.payload) (defaultTitle : Option String)
    : parseTicket row.render defaultTitle = row.parsed := by
  obtain ⟨harness, named, some_⟩ := storable.harness
  obtain ⟨model, modeled⟩ := Option.isSome_iff_exists.mp storable.model
  have harnessTrimmed : ∀ text ∈ row.harness, Trimmed text := by
    intro text member
    have same : text = harness := Option.some.inj (member.symm.trans named)
    exact ⟨stored.harness text member, same ▸ some_⟩
  have title := stored.title.nonEmptyStrip
  have deps : depsField row.payload = (row.deps, []) := by
    show coerceStrList "deps" (.list (row.deps.map .str)) = (row.deps, [])
    simp only [coerceStrList, strItems_str storable.deps]
  have harnessField : stringField "harness" row.payload = (row.harness, []) :=
    optionalStringField_ofOption harnessTrimmed
  have modelField : stringField "model" row.payload = (row.model, []) :=
    optionalStringField_ofOption stored.model
  have worktreeField : stringField "worktree" row.payload = (row.worktree, []) :=
    optionalStringField_ofOption stored.worktree
  have parentField : stringField "parent" row.payload = (row.parentTicketId, []) :=
    optionalStringField_ofOption stored.parent
  have titled : ∀ required body, titleField required row.payload body defaultTitle
      = some row.title := by
    intro required body
    show (if (nonEmptyStrip row.title).isNone && ! required then headingTitle body
      else nonEmptyStrip row.title).or _ = some row.title
    rw [title]
    rfl
  have extras : row.payload.filter (fun entry => entry.1 ∉ canonicalFrontmatterKeys) = [] := by
    simp [TicketRow.payload, canonicalFrontmatterKeys]
  rw [parseTicket_render inverts]
  simp only [parseFields, normalizeAliases_payload, titled, deps, harnessField, modelField,
    worktreeField, parentField, extras, parseChecklist_renderBody storable.checklist, fieldErrors,
    named, modeled]
  simp [TicketRow.parsed, requireErrors, joinErrors, named, modeled]

/-- What a row is read back as tells that markdown can carry it. -/
theorem storable_of_parsed (inverts : Inverts row.payload)
    (parsed : parseTicket row.render none = row.parsed)
    : Storable row := by
  rw [parseTicket_render inverts] at parsed
  have quiet := congrArg ParsedTicket.parseError parsed
  have harness := congrArg ParsedTicket.harness parsed
  have model := congrArg ParsedTicket.model parsed
  have deps := congrArg ParsedTicket.deps parsed
  have checklist := congrArg ParsedTicket.checklist parsed
  rw [parseFields_harness] at harness
  rw [parseFields_model] at model
  rw [parseFields_deps] at deps
  rw [parseFields_checklist] at checklist
  obtain ⟨named, modeled⟩ := parseFields_required quiet
  refine ⟨?_, ?_, fun dep member => ?_, fun item member => ?_⟩
  · obtain ⟨text, read⟩ := Option.isSome_iff_exists.mp named
    exact ⟨text, harness.symm.trans read, (optionalStringField_trimmed read).some_⟩
  · have same : row.parsed.model = row.model := rfl
    rw [← same, ← model]
    exact modeled
  · have same : row.parsed.deps = row.deps := rfl
    rw [← same, ← deps] at member
    exact coerceStrList_trimmed dep member
  · have same : row.parsed.checklist = row.checklist := rfl
    rw [← same, ← checklist] at member
    exact parseChecklist_plain item member

omit [YamlLibrary] in
theorem replaceDeps_stored (stored : Stored ticketId row)
    : replaceDeps ticketId row.deps = row.deps := by
  have foreign : ∀ dep ∈ row.deps, decide (dep ≠ ticketId) = true := fun dep member =>
    decide_eq_true (fun same => stored.foreign (same ▸ member))
  unfold replaceDeps storedDeps
  rw [stored.distinct.dedup, List.filter_eq_self.mpr foreign]
  exact stored.sorted.insertionSort_eq

omit [YamlLibrary] in
theorem titleOr_some {title : String} (some_ : title ≠ "")
    : titleOr ticketId (some title) = title := by
  unfold titleOr
  split
  · next none_ => cases none_
  · next same => exact absurd (Option.some.inj same) some_
  · next same =>
      exact (Option.some.inj same).symm

/-- Reconciling what the row is read back as writes the same row. -/
theorem reconcile_render (stored : Stored ticketId row)
    (parsed : ∀ defaultTitle, parseTicket row.render defaultTitle = row.parsed)
    : reconcile ticketId row.render (some row) = some row := by
  have title := @titleOr_some ticketId row.title stored.title.some_
  unfold reconcile
  split
  · rfl
  · simp only [parsed, TicketRow.parsed, Option.isSome_none, Bool.false_eq_true, if_false, title,
      replaceDeps_stored stored]

omit [YamlLibrary] in
theorem isTicketId_trimmed (h : isTicketId ticketId = true) : Trimmed ticketId := by
  unfold isTicketId at h
  split at h
  · cases h
  · next first rest chars =>
      simp only [Bool.and_eq_true, List.all_eq_true] at h
      refine ⟨strip_of_none (fun c inside => ?_), fun empty => ?_⟩
      · rw [chars] at inside
        rcases List.mem_cons.mp inside with same | among
        · exact isSpace_of_isAlphanum (same ▸ h.1.1)
        · have allowed := h.1.2 c among
          simp only [Bool.or_eq_true, beq_iff_eq] at allowed
          rcases allowed with (letter | same) | same
          · exact isSpace_of_isAlphanum letter
          · rw [same]
            rfl
          · rw [same]
            rfl
      · rw [empty] at chars
        cases chars

section Parsed

omit [YamlLibrary]

theorem headingOf_trimmed {lines : List String} {title : String}
    (h : headingOf lines = some title)
    : Trimmed title := by
  induction lines with
  | nil => cases h
  | cons line rest ih =>
    unfold headingOf at h
    split at h
    · exact ih h
    · split at h
      · exact nonEmptyStrip_trimmed h
      · exact ih h

theorem titleField_trimmed {required : Bool} {normalized : List (String × Yaml)} {body : String}
    {default : String} (trimmed : Trimmed default)
    : ∃ title, titleField required normalized body (some default) = some title
      ∧ Trimmed title := by
  have last : (some default).bind nonEmptyStrip = some default := trimmed.nonEmptyStrip
  unfold titleField
  dsimp only
  rw [last]
  split
  · cases headed : headingTitle body with
    | none => exact ⟨default, rfl, trimmed⟩
    | some title => exact ⟨title, rfl, headingOf_trimmed headed⟩
  · cases own : optionalNonEmptyStr (fieldOf "title" normalized) with
    | none => exact ⟨default, rfl, trimmed⟩
    | some title => exact ⟨title, rfl, optionalNonEmptyStr_trimmed own⟩

end Parsed

theorem parseTicket_quiet {raw : String} {defaultTitle : Option String}
    (quiet : (parseTicket raw defaultTitle).parseError.isSome = false)
    : ∃ split entries frontErrors,
      parseTicket raw defaultTitle = parseFields split entries frontErrors defaultTitle := by
  unfold parseTicket at quiet ⊢
  dsimp only at quiet ⊢
  split
  · next entries frontErrors loaded => exact ⟨_, entries, frontErrors, rfl⟩
  · next exc loaded =>
      rw [loaded] at quiet
      cases quiet

omit [YamlLibrary] in
theorem replaceDeps_spec (deps : List String)
    : (replaceDeps ticketId deps).Pairwise (· ≤ ·) ∧ (replaceDeps ticketId deps).Nodup
      ∧ ticketId ∉ replaceDeps ticketId deps := by
  unfold replaceDeps storedDeps
  refine ⟨List.pairwise_insertionSort _ _, ?_, fun member => ?_⟩
  · rw [(List.perm_insertionSort _ _).nodup_iff]
    exact (List.nodup_dedup deps).filter _
  · rw [List.mem_insertionSort] at member
    exact of_decide_eq_true (List.mem_filter.mp member).2 rfl

omit [YamlLibrary] in
theorem applyTicketCarvePayload_stored {title : String} {harness model : Option String}
    {deps checklist : List String} (worktree : ∀ text ∈ row.worktree, Trimmed text)
    (parent : ∀ text ∈ row.parentTicketId, Trimmed text) (titled : Trimmed title)
    (named : ∀ text ∈ harness, strip text = text) (modeled : ∀ text ∈ model, Trimmed text)
    (applied : applyTicketCarvePayload ticketId title harness model deps checklist row
      = .ok written)
    : Stored ticketId written := by
  unfold applyTicketCarvePayload at applied
  split at applied
  · next kept =>
      cases applied
      refine ⟨titled, named, modeled, worktree, parent, ?_, ?_, ?_⟩
      · exact List.pairwise_insertionSort _ _
      · exact (List.perm_insertionSort _ _).nodup_iff.mpr kept.1
      · exact fun member => kept.2 ((List.mem_insertionSort _).mp member)
  · cases applied

theorem reconcile_stored {raw : String} (stored : ∀ row ∈ before, Stored ticketId row)
    : ∀ row ∈ reconcile ticketId raw before, Stored ticketId row := by
  intro row written
  unfold reconcile at written
  dsimp only at written
  split at written
  · exact stored row written
  · next named =>
      split at written
      · exact stored row written
      · next quiet =>
          have trimmed : Trimmed ticketId := isTicketId_trimmed (by simpa using named)
          obtain ⟨split, entries, frontErrors, same⟩ :=
            parseTicket_quiet (Bool.eq_false_iff.mpr quiet)
          obtain ⟨title, titled, plain⟩ :=
            @titleField_trimmed (split.front.isSome || split.unclosed)
              (normalizeAliases entries) split.body ticketId trimmed
          have fields := @parseFields_trimmed split entries frontErrors (some ticketId)
          rw [← same] at fields
          obtain ⟨harness, model, worktree, parent⟩ := fields
          obtain ⟨sorted, distinct, foreign⟩ :=
            @replaceDeps_spec ticketId (parseTicket raw (some ticketId)).deps
          cases written
          refine ⟨?_, fun text read => (harness text read).stripped, model, worktree, parent,
            sorted, distinct, foreign⟩
          show Trimmed (titleOr ticketId (parseTicket raw (some ticketId)).title)
          rw [same, parseFields_title, titled, titleOr_some plain.some_]
          exact plain

omit [YamlLibrary] in
theorem applyCarveReadySpec_stored {spec : CarveSpec} (stored : ∀ row ∈ before, Stored ticketId row)
    (applied : applyCarveReadySpec ticketId spec before = .ok written)
    : Stored ticketId written := by
  unfold applyCarveReadySpec at applied
  split at applied
  · cases applied
  · split at applied
    · cases applied
    · next title titled =>
        split at applied
        · cases applied
        · next harness named =>
            obtain ⟨_, -, plain⟩ := Option.bind_eq_some_iff.mp titled
            obtain ⟨_, -, trimmed⟩ := Option.bind_eq_some_iff.mp named
            have modeled : ∀ text ∈ spec.model.bind nonEmptyStrip, Trimmed text := by
              intro text read
              obtain ⟨_, -, read⟩ := Option.bind_eq_some_iff.mp read
              exact nonEmptyStrip_trimmed read
            have named : ∀ text ∈ some harness, strip text = text := by
              intro text same
              cases same
              exact (nonEmptyStrip_trimmed trimmed).stripped
            refine applyTicketCarvePayload_stored ?_ ?_ (nonEmptyStrip_trimmed plain) named modeled
              applied
            · cases before with
              | none => exact fun _ none_ => by cases none_
              | some row => exact (stored row rfl).worktree
            · cases before with
              | none => exact fun _ none_ => by cases none_
              | some row => exact (stored row rfl).parent

omit [YamlLibrary] in
theorem updateTicketMetadata_stored {form : MetadataForm} (stored : Stored ticketId row)
    (applied : updateTicketMetadata ticketId form row = .ok written)
    : Stored ticketId written := by
  unfold updateTicketMetadata at applied
  split at applied
  · cases applied
  · next title titled =>
      refine applyTicketCarvePayload_stored stored.worktree stored.parent
        (nonEmptyStrip_trimmed titled) (fun text same => ?_) (fun text read => ?_) applied
      · cases same
        exact strip_strip _
      · obtain ⟨_, -, read⟩ := Option.bind_eq_some_iff.mp read
        exact nonEmptyStrip_trimmed read

/-- Every written row is stored, by induction over the files and forms. -/
theorem Reached.stored (reached : Reached ticketId before)
    : ∀ row ∈ before, Stored ticketId row := by
  induction reached with
  | absent => exact fun _ none_ => by cases none_
  | reconcile _ raw ih => exact reconcile_stored ih
  | carve _ spec applied ih =>
    intro row same
    cases same
    exact applyCarveReadySpec_stored ih applied
  | save _ form applied ih =>
    intro row same
    cases same
    exact updateTicketMetadata_stored (ih _ rfl) applied

theorem Stored.roundTrips_iff (stored : Stored ticketId row) (inverts : Inverts row.payload)
    : RoundTrips ticketId row ↔ Storable row := by
  constructor
  · intro roundTrips
    exact storable_of_parsed inverts (roundTrips.parsed none)
  · intro storable
    have parsed := parseTicket_storable stored storable inverts
    exact ⟨parsed, reconcile_render stored parsed⟩

/-- A written row makes the way to markdown and back exactly if it has a harness and a model, its
dependencies are trimmed, and its items stand on lines of their own.
-/
theorem render_roundTrips_iff (reached : Reached ticketId (some row))
    (inverts : Inverts row.payload)
    : RoundTrips ticketId row ↔ Storable row :=
  (reached.stored row rfl).roundTrips_iff inverts

end Rows

namespace PlannerTicket

/-- The block style of plain values. -/
def emit : Yaml → String
  | .str text => text
  | .list [] => "[]"
  | _ => "null"

def scan (value : List Char) : Yaml :=
  if value = "[]".toList then .list []
  else if value = "null".toList then .null
  else .str (String.ofList value)

abbrev plainYaml : YamlLibrary where
  safeLoad text := .ok (.mapping ((textLines text).map (fun line =>
    let (key, value) := partition ':' line.toList
    (String.ofList key, scan value.tail))))
  safeDump payload :=
    String.join (payload.map (fun (key, value) => key ++ ": " ++ emit value ++ "\n"))

/-- The file has no frontmatter, so that harness and model are left to the form. -/
def row : TicketRow := ⟨"Fix login", none, none, none, none, [], [⟨"check the cookie", false⟩]⟩

def frontmatter : String :=
  "title: Fix login\ndeps: []\nharness: null\nmodel: null\nworktree: null\nparent: null"

/-- What the file is read to, how its row is rendered, and what the rendering is read to. -/
theorem computed
    : @reconcile plainYaml "t001" "# Fix login\n\n# Checklist\n[ ] check the cookie\n" none
        = some row
      ∧ strip (@YamlLibrary.safeDump plainYaml row.payload) = frontmatter
      ∧ textLines frontmatter = ["title: Fix login", "deps: []", "harness: null",
        "model: null", "worktree: null", "parent: null"]
      ∧ (@parseTicket plainYaml (@TicketRow.render plainYaml row) none).parseError
        = some ("ticket frontmatter requires a non-empty harness. "
          ++ "ticket frontmatter requires a non-empty model") := by
  decide +kernel

theorem reached : @Reached plainYaml "t001" (some row) := by
  have read := @Reached.reconcile plainYaml "t001" none (@Reached.absent plainYaml "t001")
    "# Fix login\n\n# Checklist\n[ ] check the cookie\n"
  rw [computed.1] at read
  exact read

theorem dumped : strip (@YamlLibrary.safeDump plainYaml row.payload) = frontmatter :=
  computed.2.1

theorem inverts : @Inverts plainYaml row.payload := by
  refine @Inverts.mk plainYaml _ ?_ ?_
  · rw [dumped]
    show Except.ok (Yaml.mapping ((textLines frontmatter).map _)) = _
    rw [computed.2.2.1]
    rfl
  · rw [dumped]
    decide +kernel

theorem read_back_iff : @RoundTrips plainYaml "t001" row ↔ Storable row :=
  @render_roundTrips_iff plainYaml "t001" row reached inverts

/-- The rendered row is not parsed: its frontmatter lacks a harness and a model. -/
theorem not_read_back
    : @Reached plainYaml "t001" (some row) ∧ @Inverts plainYaml row.payload
      ∧ (@parseTicket plainYaml (@TicketRow.render plainYaml row) none).parseError
        = some ("ticket frontmatter requires a non-empty harness. "
          ++ "ticket frontmatter requires a non-empty model")
      ∧ ¬ @RoundTrips plainYaml "t001" row := by
  have error := computed.2.2.2
  refine ⟨reached, inverts, error, fun roundTrips => ?_⟩
  rw [@RoundTrips.parsed plainYaml _ _ roundTrips none] at error
  cases error

end PlannerTicket

end Murder.Tickets
