import Murder.Evidence.Diffs
import Murder.Contracts.Text

/-! The ranges of changed lines read from a unified diff without context.
Headers and content share one stream of lines, told apart by how the lines start.
-/

namespace Murder.Candidates

open Contracts Evidence Library.Patches

/-- Decimal digits and letters of `unicodedata`, with those of ASCII. -/
class UnicodeLetters extends DecimalDigits where
  isAlpha : Char → Bool
  digits : ∀ c : Char, c.toNat < 128 → value c = if c.isDigit then some (c.toNat - 48) else none
  letters : ∀ c : Char, c.toNat < 128 → isAlpha c = c.isAlpha

variable (path : String) (text : List Char) (hunk : GitHunk) (files : List GitFile)

section Parser

variable [UnicodeLetters]

/-- A drive letter in front of `:/` and something behind it. -/
def isDriveAbsolute : List Char → Bool
  | drive :: ':' :: '/' :: _ :: _ => UnicodeLetters.isAlpha drive
  | _ => false

local instance lawfulSegments : LawfulBEq (List Char) := inferInstance

/-- `normalize_relative_path`; a raised `ValueError` is `none`. -/
def normalizeRelativePath : Option String :=
  let normalized := (strip path).toList.map (fun c => if c = '\\' then '/' else c)
  if normalized = [] ∨ normalized.head? = some '/' ∨ isDriveAbsolute normalized then
    none
  else
    let segments := (normalized.splitOn '/').filter (fun segment => segment ≠ [] ∧ segment ≠ ['.'])
    if ['.', '.'] ∈ segments ∨ segments = [] then none
    else some (String.ofList (['/'].intercalate segments))

def behindText (front text : List Char) : Option (List Char) :=
  if front.isPrefixOf text then some (text.drop front.length) else none

/-- `\s+` -/
def behindSpaces : Option (List Char) :=
  if text.head?.any isSpace then some (text.dropWhile isSpace) else none

def isDecimal (c : Char) : Bool := (DecimalDigits.value c).isSome

/-- `\d+` -/
def digitsOf : Option (List Char × List Char) :=
  if text.head?.any isDecimal then some (text.takeWhile isDecimal, text.dropWhile isDecimal)
  else none

/-- `\d+(?:,\d+)?` -/
def rangeOf : Option (List Char × Option (List Char) × List Char) := do
  let (start, rest) ← digitsOf text
  match rest with
  | ',' :: more =>
    match digitsOf more with
    | some (count, behind) => return (start, some count, behind)
    | none => return (start, none, rest)
  | _ => return (start, none, rest)

/-- The new start and count of a line that `_HUNK_RE` matches. -/
def matchHunk (line : List Char) : Option (List Char × Option (List Char)) := do
  let rest ← behindText "@@".toList line
  let rest ← behindSpaces rest
  let rest ← behindText ['-'] rest
  let (_, _, rest) ← rangeOf rest
  let rest ← behindSpaces rest
  let rest ← behindText ['+'] rest
  let (start, count, rest) ← rangeOf rest
  let rest ← behindSpaces rest
  let _ ← behindText "@@".toList rest
  return (start, count)

/-- `int` raises a `ValueError` on more than 4300 digits. -/
inductive DiffError
  | valueError
deriving DecidableEq

def intOf (digits : List Char) : Except DiffError Nat :=
  if 4300 < digits.length then .error .valueError
  else .ok (digits.foldl (fun total c => 10 * total + (DecimalDigits.value c).getD 0) 0)

/-- The file whose hunks are read, and the ranges of each file. -/
structure DiffState where
  current : Option String := none
  ranges : String → List (Nat × Nat) := fun _ => []

/-- The path of a line that starts with `+++ `. -/
def newPath (line : List Char) : Option String :=
  let raw := strip (String.ofList (line.drop 4))
  if raw = "/dev/null" then
    none
  else
    let raw := if "b/".toList.isPrefixOf raw.toList then raw.toList.drop 2 else raw.toList
    normalizeRelativePath (String.ofList (raw.map (fun c => if c = '\\' then '/' else c)))

def hunkRange (start count : Nat) : Nat × Nat :=
  if count = 0 then (max 1 start, if 0 < start then start else 1)
  else (start, start + count - 1)

def readLine (state : DiffState) (line : List Char) : Except DiffError DiffState :=
  if "+++ ".toList.isPrefixOf line then
    .ok { state with current := newPath line }
  else
    match state.current, matchHunk line with
    | some path, some (start, count) => do
        let start ← intOf start
        let count ← intOf (count.getD ['1'])
        return { state with
          ranges := Function.update state.ranges path
            (state.ranges path ++ [hunkRange start count]) }
    | _, _ => .ok state

/-- `ActiveDiffProvider._parse_unified_diff` -/
def parseUnifiedDiff (diffText : String) : Except DiffError (String → List (Nat × Nat)) := do
  let state ← (textLines diffText).foldlM (fun state line => readLine state line.toList) {}
  return state.ranges

end Parser

/-- Removed and added lines behind a number of lines of each side; the heading is what git writes
behind the header, and a cut side ends without a newline.
-/
structure GitHunk where
  oldStart : Nat
  newStart : Nat
  heading : String := ""
  removed : List String
  added : List String
  oldCut : Bool := false
  newCut : Bool := false
  single : ∀ line ∈ heading :: (removed ++ added), '\n' ∉ line.toList
  counted : newStart + added.length < 2 ^ 63

namespace GitHunk

def edits : List Edit := hunk.removed.map .removed ++ hunk.added.map .added

def header : String :=
  Hunk.header ⟨hunk.oldStart, hunk.newStart, hunk.edits⟩

def noNewline (cut : Bool) : List String := if cut then ["\\ No newline at end of file"] else []

/-- The lines behind the header. -/
def body : List String :=
  hunk.removed.map (fun line => "-" ++ line) ++ noNewline hunk.oldCut
    ++ hunk.added.map (fun line => "+" ++ line) ++ noNewline hunk.newCut

def headed : String :=
  hunk.header ++ (if hunk.heading = "" then "" else " " ++ hunk.heading)

def newRange? : Option (Nat × Nat) :=
  if hunk.added = [] then none
  else some (hunk.newStart + 1, hunk.newStart + hunk.added.length)

/-- The new-side lines, or the line near a pure deletion. -/
def attributed : Nat × Nat :=
  hunk.newRange?.getD (max 1 hunk.newStart, max 1 hunk.newStart)

end GitHunk

def quoteByte (byte : UInt8) : List Char :=
  let code := byte.toNat
  if code = 7 then ['\\', 'a']
  else if code = 8 then ['\\', 'b']
  else if code = 9 then ['\\', 't']
  else if code = 10 then ['\\', 'n']
  else if code = 11 then ['\\', 'v']
  else if code = 12 then ['\\', 'f']
  else if code = 13 then ['\\', 'r']
  else if code = 34 then ['\\', '"']
  else if code = 92 then ['\\', '\\']
  else if code < 32 ∨ 127 ≤ code then
    ['\\', Nat.digitChar (code / 64), Nat.digitChar (code / 8 % 8), Nat.digitChar (code % 8)]
  else [Char.ofNat code]

/-- A character that git writes as it is. -/
def isUnquoted (c : Char) : Bool :=
  32 ≤ c.toNat && c.toNat < 127 && c != '"' && c != '\\'

def quotedName : String :=
  if path.toList.all isUnquoted then "b/" ++ path
  else "\"b/" ++ String.ofList (path.toUTF8.toList.flatMap quoteByte) ++ "\""

/-- A changed file: its path, the lines in front of its `+++` line, and its hunks.
Paths are relative and normal; names in the front are quoted, so no line of it is broken.
-/
structure GitFile where
  path : String
  deleted : Bool := false
  front : List String
  hunks : List GitHunk
  normal : ∀ segment ∈ path.toList.splitOn '/',
    segment ≠ [] ∧ segment ≠ ['.'] ∧ segment ≠ ['.', '.']
  whole : ∀ line ∈ front, (∀ c ∈ line.toList, isLineBreak c = false)
    ∧ line.toList.head?.any (fun c => c.isAlpha || c == '-')

namespace GitFile

/-- A name with a blank has a tab behind it. -/
def label (file : GitFile) : String :=
  if file.deleted then "/dev/null"
  else quotedName file.path ++ (if ' ' ∈ file.path.toList then "\t" else "")

def lines (file : GitFile) : List String :=
  file.front ++ if file.hunks = [] then []
    else ("+++ " ++ file.label) :: file.hunks.flatMap (fun hunk => hunk.headed :: hunk.body)

end GitFile

def gitDiff : String := unlines (files.flatMap GitFile.lines)

def newRanges (path : String) : List (Nat × Nat) :=
  (files.filter (fun file => !file.deleted && file.path == path)).flatMap (fun file =>
    file.hunks.filterMap GitHunk.newRange?)

def attributedRanges (path : String) : List (Nat × Nat) :=
  (files.filter (fun file => !file.deleted && file.path == path)).flatMap (fun file =>
    file.hunks.map GitHunk.attributed)

end Murder.Candidates
