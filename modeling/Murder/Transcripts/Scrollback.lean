import Murder.Contracts.Text

/-! The logical scrollback that successive captures of a pane are spliced into. -/

namespace Murder.Transcripts

open Contracts

/-- What is left of a control sequence behind `ESC [`: parameters, intermediates and one final
character. The result counts its characters.
-/
def ansiTail : Bool → List Char → Option Nat
  | _, [] => none
  | intermediates, c :: rest =>
    if !intermediates && '0' ≤ c && c ≤ '?' then (ansiTail false rest).map (· + 1)
    else if ' ' ≤ c && c ≤ '/' then (ansiTail true rest).map (· + 1)
    else if '@' ≤ c && c ≤ '~' then some 1
    else none

/-- `_ANSI_RE.sub("", text)`, behind `skip` characters of a sequence already matched. -/
def dropAnsi : Nat → List Char → List Char
  | _, [] => []
  | skip + 1, _ :: rest => dropAnsi skip rest
  | 0, '\x1b' :: '[' :: rest =>
    match ansiTail false rest with
    | some length => dropAnsi (length + 1) ('[' :: rest)
    | none => '\x1b' :: dropAnsi 0 ('[' :: rest)
  | 0, c :: rest => c :: dropAnsi 0 rest

def stripAnsi (text : String) : String := String.ofList (dropAnsi 0 text.toList)

/-- `if line.strip()` -/
def nonBlank (line : String) : Bool := strip line ≠ ""

/-- `_has_content` -/
def hasContent (lines : List String) : Bool := lines.any nonBlank

/-- `_shares_nonblank_line` -/
def sharesNonblankLine (a b : List String) : Bool :=
  b.any (fun line => nonBlank line && a.contains line)

structure PaneScrollback where
  lines : List String := []
  previous : List String := []
  start : Nat := 0
  epoch : Nat := 0
  liveWindow : Int
  lastReset : Bool := false

/-- The non-blank lines a capture shares with the previous one from line `i` on; none where they
differ above the frozen cut.
-/
def matchedLines (frozenCut : Int) : Nat → List String → List String → Option Nat
  | i, before :: previous, line :: new =>
    if line = before then
      (matchedLines frozenCut (i + 1) previous new).map (· + (if nonBlank line then 1 else 0))
    else if (i : Int) < frozenCut then none
    else matchedLines frozenCut (i + 1) previous new
  | _, _, _ => some 0

/-- The best shift so far with its matched lines: a later one replaces it only by more. -/
def betterShift (frozenCut : Int) (previous new : List String)
    (best : Option (Nat × Nat)) (shift : Nat)
    : Option (Nat × Nat) :=
  match matchedLines frozenCut shift (previous.drop shift) new, best with
  | some matched, some (d, bestMatched) =>
    if bestMatched < matched then some (shift, matched) else some (d, bestMatched)
  | some matched, none => some (shift, matched)
  | none, _ => best

/-- `_align` -/
def PaneScrollback.align (scrollback : PaneScrollback) (new : List String) : Option Nat :=
  let previous := scrollback.previous
  let frozenCut : Int := previous.length - scrollback.liveWindow
  let best := (List.range (previous.length + 1)).foldl (betterShift frozenCut previous new) none
  let unmatched := (best.map Prod.snd).getD 0 = 0
  if unmatched ∧ frozenCut > 0 then none
  else if unmatched ∧ hasContent previous ∧ hasContent new ∧ !sharesNonblankLine previous new then
    none
  else best.map Prod.fst

/-- `lines[start : start + len(new)] = new`, behind blank lines where `lines` ends earlier. -/
def spliceLines (lines : List String) (start : Nat) (new : List String) : List String :=
  lines.take start ++ List.replicate (start - lines.length) "" ++ new
    ++ lines.drop (start + new.length)

def PaneScrollback.feed (scrollback : PaneScrollback) (paneText : String) : PaneScrollback :=
  let new := textLines (stripAnsi paneText)
  if scrollback.previous = [] then
    { scrollback with lines := new, previous := new, start := 0, lastReset := false }
  else
    match scrollback.align new with
    | none =>
      { scrollback with
        start := scrollback.lines.length
        lines := scrollback.lines ++ new
        previous := new
        epoch := scrollback.epoch + 1
        lastReset := true }
    | some shift =>
      let start := scrollback.start + shift
      { scrollback with
        start := start
        lines := spliceLines scrollback.lines start new
        previous := new
        lastReset := false }

def PaneScrollback.liveTop (scrollback : PaneScrollback) : Int :=
  max 0 (scrollback.lines.length - scrollback.liveWindow)

end Murder.Transcripts
