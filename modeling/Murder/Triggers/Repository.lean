import Murder.Library.FlatJson
import Murder.Triggers.Dispatcher
import Murder.Triggers.Grammar
import Murder.Triggers.Instants

/-! The repository observer: the state its cursor keeps, in two encodings, and the occurrence a
fingerprint that stayed gives.
-/

namespace Murder.Triggers

open Murder.Contracts Library

/-- What a repository cursor says: the fingerprint last seen, when it was first seen, and whether
it has fired.
-/
structure RepositoryState where
  fingerprint : String
  changedAt : String
  fired : Bool
deriving DecidableEq

variable (fingerprint : String)

/-- `_encode_repository_cursor` -/
def encodeRepositoryCursor (changedAt : Timestamp) (fired : Bool) : String :=
  String.ofList (FlatJson.write [
    ("changed_at".toList, .text (isoText changedAt)),
    ("fingerprint".toList, .text fingerprint.toList),
    ("fired".toList, .flag fired)
  ])

/-- `bool(payload.get("fired"))` -/
def firedFlag : Option FlatJson.Value → Bool
  | none => false
  | some (.flag value) => value
  | some (.text chars) => chars ≠ []

def parseJsonCursor (cursor : List Char) : Option RepositoryState := do
  let payload ← FlatJson.read cursor
  match FlatJson.lookup payload "fingerprint".toList,
      FlatJson.lookup payload "changed_at".toList with
  | some (.text fingerprint), some (.text changedAt) =>
    some {
      fingerprint := String.ofList fingerprint
      changedAt := String.ofList changedAt
      fired := firedFlag (FlatJson.lookup payload "fired".toList)
    }
  | _, _ => none

def repositoryPrefix : String := "repo:"

/-- `_parse_repository_cursor` -/
def parseRepositoryCursor : Option String → Option RepositoryState
  | none => none
  | some cursor =>
    let text := cursor.toList
    if repositoryPrefix.toList.isPrefixOf text && decide ('@' ∈ text) then
      -- The occurrence key of a fire: its fingerprint is already consumed.
      let (fingerprint, changedAt) := splitOnce '@' (text.drop repositoryPrefix.toList.length)
      if fingerprint = [] ∨ changedAt = [] then none
      else
        some {
          fingerprint := String.ofList fingerprint
          changedAt := String.ofList changedAt
          fired := true
        }
    else parseJsonCursor text

/-- `f"repo:{fingerprint}@{changed_at}"` -/
def repositoryKey (changedAt : String) : String :=
  repositoryPrefix ++ fingerprint ++ "@" ++ changedAt

/-- The cursor move to a fingerprint that was not the last one. -/
def changedKey (now : Timestamp) : String :=
  cursorPrefix ++ encodeRepositoryCursor fingerprint now false

def fingerprintKeys (debounceSeconds : Nat) (fingerprint : String) (cursor : Option String)
    (now : Timestamp) : Except Failure (List String) :=
  match parseRepositoryCursor cursor with
  | none => .ok [changedKey fingerprint now]
  | some state =>
    if fingerprint ≠ state.fingerprint then .ok [changedKey fingerprint now]
    else if state.fired then .ok []
    else
      match parseAware state.changedAt.toList with
      | none => .error (.valueError ("Invalid isoformat string: '" ++ state.changedAt ++ "'"))
      | some changedAt =>
        if now - changedAt < seconds debounceSeconds then .ok []
        else .ok [repositoryKey fingerprint state.changedAt]

/-- The fingerprint an observer reads: `fingerprint` is that of the repository's root, or `none`
without a root.
-/
def fingerprintRead (fingerprint : Option String) (here watched : Uuid) : Option String :=
  match fingerprint with
  | none => none
  | some read => if watched ≠ here then none else if read = "" then none else some read

/-- `DurableTriggerOccurrences.repository` -/
def repositoryOccurrences (fingerprint : Option String) (here watched : Uuid)
    (debounceSeconds : Nat) (cursor : Option String) (now : Timestamp)
    : Except Failure (List String) :=
  match fingerprintRead fingerprint here watched with
  | none => .ok []
  | some read => fingerprintKeys debounceSeconds read cursor now

/-- The JSON cursor is read back. -/
theorem parse_encodeRepositoryCursor (changedAt : Timestamp) (fired : Bool)
    : parseRepositoryCursor (some (encodeRepositoryCursor fingerprint changedAt fired))
      = some ⟨fingerprint, String.ofList (isoText changedAt), fired⟩ := by
  unfold parseRepositoryCursor encodeRepositoryCursor
  dsimp only
  rw [String.toList_ofList, if_neg (by simp [FlatJson.write, repositoryPrefix, List.isPrefixOf])]
  unfold parseJsonCursor
  rw [FlatJson.read_write]
  have back : String.ofList fingerprint.toList = fingerprint := String.ofList_toList
  have plain
      : some (RepositoryState.mk (String.ofList fingerprint.toList)
          (String.ofList (isoText changedAt)) fired)
        = some ⟨fingerprint, String.ofList (isoText changedAt), fired⟩ := by
    rw [back]
  exact plain

/-- The occurrence key is read back as a consumed fingerprint, if no `@` stands in it. -/
theorem parse_repositoryKey {fingerprint changedAt : String} (plain : '@' ∉ fingerprint.toList)
    (named : fingerprint ≠ "") (dated : changedAt ≠ "")
    : parseRepositoryCursor (some (repositoryKey fingerprint changedAt))
      = some ⟨fingerprint, changedAt, true⟩ := by
  have text : (repositoryKey fingerprint changedAt).toList
      = repositoryPrefix.toList ++ (fingerprint.toList ++ '@' :: changedAt.toList) := by
    simp [repositoryKey]
  unfold parseRepositoryCursor
  dsimp only
  rw [text, if_pos (by simp), List.drop_left, splitOnce_append plain]
  dsimp only
  rw [if_neg (by simp [named, dated]), String.ofList_toList, String.ofList_toList]

theorem isCursorKey_repositoryKey (changedAt : String)
    : isCursorKey (repositoryKey fingerprint changedAt) = false := by
  simp [isCursorKey, repositoryKey, cursorPrefix, repositoryPrefix, List.isPrefixOf]

end Murder.Triggers
