import Mathlib.Data.List.Dedup
import Mathlib.Data.List.Sort
import Mathlib.Data.String.Basic
import Murder.Contracts.Text

/-! Ticket files as they are parsed and rendered, and the rows they are stored in. -/

namespace Murder.Tickets

open Contracts Library.Trimming Contracts

/-- What `yaml.safe_load` returns; keys are read by `str`, and a scalar without use here keeps
whether it is truthy.
-/
inductive Yaml
  | null
  | str (text : String)
  | list (items : List Yaml)
  | mapping (entries : List (String × Yaml))
  | scalar (truthy : Bool)

/-- A raised exception, and whether it is a `YAMLError`. -/
structure YamlException where
  isYamlError : Bool
  text : String

class YamlLibrary where
  safeLoad : String → Except YamlException Yaml
  safeDump : List (String × Yaml) → String

structure TicketChecklistItem where
  text : String
  done : Bool := false
deriving DecidableEq

structure ParsedTicket where
  title : Option String
  deps : List String
  harness : Option String
  model : Option String
  worktree : Option String
  parent : Option String
  body : String
  checklist : List TicketChecklistItem
  extras : List (String × Yaml)
  parseError : Option String

def frontmatterDelim : String := "---"

def missingCloseError : String := "ticket markdown is missing closing frontmatter delimiter"

def canonicalFrontmatterKeys : List String :=
  ["title", "deps", "harness", "model", "worktree", "parent"]

/-- `_ALIASES.get(key, key)` -/
def canonicalKey (key : String) : String :=
  if key = "dependency" ∨ key = "dependencies" ∨ key = "depends_on" then "deps"
  else if key = "harness_override" then "harness"
  else key

/-- The frontmatter if there is one, the body, and whether the closing fence is missing. -/
structure SplitTicket where
  front : Option String
  body : String
  unclosed : Bool

/-- `_split_frontmatter` -/
def splitFrontmatter (mdText : String) : SplitTicket :=
  let chars := mdText.toList
  if (frontmatterDelim ++ "\n").toList <+: chars then
    match splitAtFirst ("\n" ++ frontmatterDelim).toList (chars.drop 4) with
    | none => ⟨none, mdText, true⟩
    | some (front, body) =>
      let body := if body.head? = some '\n' then body.tail else body
      ⟨some (String.ofList front), String.ofList body, false⟩
  else
    ⟨none, mdText, false⟩

def Yaml.orEmpty : Yaml → Yaml
  | .null | .str "" | .list [] | .scalar false => .mapping []
  | loaded => loaded

def loadFrontmatter [YamlLibrary] (front : String)
    : Except YamlException (List (String × Yaml) × List String) :=
  match YamlLibrary.safeLoad front with
  | .error exc =>
    if exc.isYamlError then .ok ([], ["invalid ticket frontmatter YAML: " ++ exc.text])
    else .error exc
  | .ok loaded =>
    match loaded.orEmpty with
    | .mapping raw => .ok (raw, [])
    | _ => .ok ([], ["ticket frontmatter must be a mapping"])

/-- `_normalize_aliases`: the first entry of a canonical key is kept. -/
def normalizeAliases (raw : List (String × Yaml)) : List (String × Yaml) :=
  raw.foldl (fun normalized (key, value) =>
    if canonicalKey key ∈ normalized.map Prod.fst then normalized
    else normalized ++ [(canonicalKey key, value)]) []

/-- `normalized.get(key)`; an absent key is null. -/
def fieldOf (key : String) (normalized : List (String × Yaml)) : Yaml :=
  (normalized.lookup key).getD .null

def nonEmptyStrip (text : String) : Option String :=
  if strip text = "" then none else some (strip text)

/-- `_optional_non_empty_str` -/
def optionalNonEmptyStr : Yaml → Option String
  | .str text => nonEmptyStrip text
  | _ => none

/-- `_optional_string_field` -/
def optionalStringField (fieldName : String) : Yaml → Option String × List String
  | .null => (none, [])
  | .str text => (nonEmptyStrip text, [])
  | _ => (none, [fieldName ++ " must be a string when present"])

/-- The texts of a list, or `none` where an item is none. -/
def strItems : List Yaml → Option (List String)
  | [] => some []
  | .str text :: rest => (strItems rest).map ((nonEmptyStrip text).toList ++ ·)
  | _ :: _ => none

/-- `_coerce_str_list` -/
def coerceStrList (fieldName : String) : Yaml → List String × List String
  | .null => ([], [])
  | .str text => ((nonEmptyStrip text).toList, [])
  | .list items =>
    match strItems items with
    | some result => (result, [])
    | none => ([], [fieldName ++ " must be a list of strings"])
  | _ => ([], [fieldName ++ " must be a list of strings"])

def checklistHeader : String := "# Checklist"

/-- `_CHECKLIST_HEADER_RE.match(line)` -/
def isChecklistHeader (line : String) : Bool :=
  decide (checklistHeader.toList <+: line.toList)
    && (line.toList.drop checklistHeader.toList.length).all isSpace

/-- `_LEVEL_ONE_HEADER_RE.match(line)` on a line without breaks. -/
def isLevelOneHeader (line : String) : Bool :=
  match line.toList with
  | '#' :: ' ' :: c :: _ => c != '#'
  | _ => false

/-- The stripped text behind the `#` of the first heading that is not the checklist's. -/
def headingOf : List String → Option String
  | [] => none
  | line :: rest =>
    if isChecklistHeader line then headingOf rest
    else if isLevelOneHeader line then nonEmptyStrip (String.ofList line.toList.tail)
    else headingOf rest

/-- `_heading_title` -/
def headingTitle (body : String) : Option String := headingOf (textLines body)

/-- `_CHECKLIST_ITEM_RE.match(stripped)` on a stripped line, which ends in no space. -/
def checklistItem? (stripped : String) : Option TicketChecklistItem :=
  match stripped.toList with
  | '[' :: mark :: ']' :: space :: rest =>
    if (mark = ' ' ∨ mark = 'x' ∨ mark = 'X') ∧ isSpace space then
      (nonEmptyStrip (String.ofList rest)).map (⟨·, mark ≠ ' '⟩)
    else
      none
  | _ => none

def checklistItems : List String → List TicketChecklistItem
  | [] => []
  | line :: rest =>
    if isLevelOneHeader (strip line) then []
    else (checklistItem? (strip line)).toList ++ checklistItems rest

/-- `_parse_checklist` -/
def parseChecklist (body : String) : List TicketChecklistItem :=
  checklistItems
    ((textLines body).dropWhile (fun line => ! isChecklistHeader (strip line))).tail

/-- `". ".join(errors) or None` -/
def joinErrors (errors : List String) : Option String :=
  let text := String.intercalate ". " errors
  if text = "" then none else some text

def stringField (name : String) (normalized : List (String × Yaml))
    : Option String × List String :=
  optionalStringField name (fieldOf name normalized)

variable (normalized : List (String × Yaml)) (row : TicketRow) (ticketId : String)

def depsField : List String × List String :=
  coerceStrList "deps" (fieldOf "deps" normalized)

/-- A field that frontmatter has to have. -/
def requireErrors (required : Bool) (name : String) (value : Option String) : List String :=
  if value.isNone && required then ["ticket frontmatter requires a non-empty " ++ name] else []

def fieldErrors (required : Bool) (normalized : List (String × Yaml)) (title : Option String)
    : List String :=
  requireErrors required "title" title ++ (depsField normalized).2
    ++ (stringField "harness" normalized).2 ++ (stringField "model" normalized).2
    ++ (stringField "worktree" normalized).2 ++ (stringField "parent" normalized).2
    ++ requireErrors required "harness" (stringField "harness" normalized).1
    ++ requireErrors required "model" (stringField "model" normalized).1

def titleField (required : Bool) (normalized : List (String × Yaml)) (body : String)
    (defaultTitle : Option String)
    : Option String :=
  let own := optionalNonEmptyStr (fieldOf "title" normalized)
  let headed := if own.isNone && ! required then headingTitle body else own
  headed.or (defaultTitle.bind nonEmptyStrip)

/-- The ticket of a split text whose frontmatter is `raw`. -/
def parseFields (split : SplitTicket) (raw : List (String × Yaml)) (frontErrors : List String)
    (defaultTitle : Option String)
    : ParsedTicket :=
  let required := split.front.isSome || split.unclosed
  let normalized := normalizeAliases raw
  let title := titleField required normalized split.body defaultTitle
  { title := title
    deps := (depsField normalized).1
    harness := (stringField "harness" normalized).1
    model := (stringField "model" normalized).1
    worktree := (stringField "worktree" normalized).1
    parent := (stringField "parent" normalized).1
    body := split.body
    checklist := parseChecklist split.body
    extras := normalized.filter (fun entry => entry.1 ∉ canonicalFrontmatterKeys)
    parseError := joinErrors (frontErrors ++ fieldErrors required normalized title) }

/-- `parse_ticket`; an unexpected exception leaves an empty ticket with its text. -/
def parseTicket [YamlLibrary] (mdText : String) (defaultTitle : Option String) : ParsedTicket :=
  let split := splitFrontmatter mdText
  let loaded :=
    if split.unclosed then .ok ([], [missingCloseError])
    else match split.front with
      | some front => loadFrontmatter front
      | none => .ok ([], [])
  match loaded with
  | .ok (raw, frontErrors) => parseFields split raw frontErrors defaultTitle
  | .error exc =>
    { title := none, deps := [], harness := none, model := none, worktree := none,
      parent := none, body := "", checklist := [], extras := [],
      parseError := some ("unexpected ticket parse error: " ++ exc.text) }

/-- A row of a ticket with its dependencies in their order and its checklist. -/
structure TicketRow where
  title : String
  harness : Option String
  model : Option String
  worktree : Option String
  parentTicketId : Option String
  deps : List String
  checklist : List TicketChecklistItem
deriving DecidableEq

def Yaml.ofOption : Option String → Yaml
  | some text => .str text
  | none => .null

/-- `_payload` -/
def TicketRow.payload : List (String × Yaml) :=
  [("title", .str row.title), ("deps", .list (row.deps.map .str)),
    ("harness", .ofOption row.harness), ("model", .ofOption row.model),
    ("worktree", .ofOption row.worktree), ("parent", .ofOption row.parentTicketId)]

/-- `render_ticket_frontmatter` -/
def renderTicketFrontmatter [YamlLibrary] (payload : List (String × Yaml)) : String :=
  let yamlText := strip (YamlLibrary.safeDump payload)
  frontmatterDelim ++ "\n" ++ yamlText ++ "\n" ++ frontmatterDelim ++ "\n"

def renderItem (item : TicketChecklistItem) : String :=
  "[" ++ (if item.done then "x" else " ") ++ "] " ++ item.text

/-- `text.rstrip()` -/
def rstrip (text : String) : String := String.ofList (text.toList.rdropWhile isSpace)

def TicketRow.renderBody : String :=
  rstrip (joinLines (checklistHeader :: row.checklist.map renderItem)) ++ "\n"

/-- `_render_row` -/
def TicketRow.render [YamlLibrary] (row : TicketRow) : String :=
  renderTicketFrontmatter row.payload ++ row.renderBody

/-- Rows of dependencies in the order they are read in. -/
def storedDeps (deps : List String) : List String := deps.insertionSort (· ≤ ·)

/-- `_replace_deps`: a repeated dependency and one on the ticket itself are ignored. -/
def replaceDeps (deps : List String) : List String :=
  storedDeps (deps.dedup.filter (· ≠ ticketId))

/-- `parsed.title or ticket_id` -/
def titleOr : Option String → String
  | none | some "" => ticketId
  | some title => title

/-- `_TICKET_ID_RE.fullmatch(ticket_id)` -/
def isTicketId : Bool :=
  match ticketId.toList with
  | [] => false
  | first :: rest =>
    first.isAlphanum && rest.all (fun c => c.isAlphanum || c == '_' || c == '-')
      && (first :: rest).any Char.isDigit

/-- `reconcile_path` on a file that is read: another name or a parse error leaves the row. -/
def reconcile [YamlLibrary] (ticketId raw : String) (row : Option TicketRow) : Option TicketRow :=
  let parsed := parseTicket raw (some ticketId)
  if ! isTicketId ticketId then
    row
  else if parsed.parseError.isSome then
    row
  else
    some {
      title := titleOr ticketId parsed.title
      harness := parsed.harness
      model := parsed.model
      worktree := parsed.worktree
      parentTicketId := parsed.parent
      deps := replaceDeps ticketId parsed.deps
      checklist := parsed.checklist }

/-- A form's values by `str`; a falsy title or harness is the empty text. -/
structure CarveSpec where
  id : String
  title : Option String
  harnessOverride : Option String
  harness : Option String
  model : Option String
  deps : List String
  checklist : List String

/-- What refuses a form; `integrity` is a repeated dependency or one on the ticket itself. -/
inductive CarveError
  | otherTicket (payloadId ticketId : String)
  | titleRequired
  | harnessRequired
  | integrity
deriving DecidableEq

/-- `apply_ticket_carve_payload` -/
def applyTicketCarvePayload (title : String) (harness model : Option String)
    (deps checklist : List String) (row : TicketRow)
    : Except CarveError TicketRow :=
  if deps.Nodup ∧ ticketId ∉ deps then
    .ok { row with
      title := title
      harness := harness
      model := model
      deps := storedDeps deps
      checklist := checklist.map (⟨·, false⟩) }
  else
    .error .integrity

/-- `apply_carve_ready_spec`; an absent row is inserted first. -/
def applyCarveReadySpec (spec : CarveSpec) (row : Option TicketRow) : Except CarveError TicketRow :=
  if spec.id ≠ ticketId then
    .error (.otherTicket spec.id ticketId)
  else
    match spec.title.bind nonEmptyStrip with
    | none => .error .titleRequired
    | some title =>
      match (spec.harnessOverride.or spec.harness).bind nonEmptyStrip with
      | none => .error .harnessRequired
      | some harness =>
        let model := spec.model.bind nonEmptyStrip
        let seeded := row.getD ⟨title, some harness, model, none, none, [], []⟩
        applyTicketCarvePayload ticketId title (some harness) model spec.deps spec.checklist
          seeded

/-- The metadata form of a ticket that exists. -/
structure MetadataForm where
  title : Option String
  harness : Option String
  model : Option String
  deps : List String
  checklist : List String

/-- `payload.get(key) or …` -/
def orElse (value : Option String) (other : Option String) : Option String :=
  (value.filter (· ≠ "")).or (other.filter (· ≠ ""))

/-- `update_ticket_metadata`; the harness may end up blank. -/
def updateTicketMetadata (form : MetadataForm) (row : TicketRow) : Except CarveError TicketRow :=
  match nonEmptyStrip ((orElse form.title (some row.title)).getD "") with
  | none => .error .titleRequired
  | some title =>
    let harness := strip ((orElse form.harness row.harness).getD "cursor")
    let model := (form.model.filter (· ≠ "")).bind nonEmptyStrip
    applyTicketCarvePayload ticketId title (some harness) model form.deps form.checklist row

/-- The rows of a ticket after any reconciled files and forms. -/
inductive Reached [YamlLibrary] (ticketId : String) : Option TicketRow → Prop
  | absent : Reached ticketId none
  | reconcile {row : Option TicketRow} (before : Reached ticketId row) (raw : String)
      : Reached ticketId (Tickets.reconcile ticketId raw row)
  | carve {row : Option TicketRow} {written : TicketRow} (before : Reached ticketId row)
      (spec : CarveSpec) (applied : applyCarveReadySpec ticketId spec row = .ok written)
      : Reached ticketId (some written)
  | save {row written : TicketRow} (before : Reached ticketId (some row)) (form : MetadataForm)
      (applied : updateTicketMetadata ticketId form row = .ok written)
      : Reached ticketId (some written)

end Murder.Tickets
