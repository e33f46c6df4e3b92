import Murder.Library.Runs
import Murder.Library.Scans
import Murder.Transcripts.Scrollback

/-! Captures of a growing buffer spliced into the scrollback: the accumulated lines are the buffer's
as long as the true shift of each capture wins its alignment.
-/

namespace Murder.Transcripts

open Contracts Library.Runs Library.Scans

/-- The lines of a pane of the given height from a line of the buffer on. A buffer only grows,
so a window of it stays what it was.
-/
def window (buffer : List String) (height start : Nat) : List String :=
  (buffer.drop start).take height

/-- A capture of the pane, and where it starts in the buffer. -/
structure WindowCapture where
  start : Nat
  text : String

/-- A scrollback with the captures fed to it, each with the scrollback behind it. -/
structure Feeding where
  scrollback : PaneScrollback
  fed : List (Nat × PaneScrollback) := []

/-- A scrollback that was not fed. -/
def FreshFeeding (feeding : Feeding) : Prop :=
  feeding.fed = [] ∧ ∃ liveWindow, feeding.scrollback = { liveWindow }

/-- The capture shows a non-empty window of the buffer. -/
structure Shows (buffer : List String) (height : Nat) (capture : WindowCapture) : Prop where
  positive : 0 < height
  within : capture.start + height ≤ buffer.length
  shown : textLines (stripAnsi capture.text) = window buffer height capture.start

/-- At this shift the new lines continue the previous ones, which show a non-blank line there. -/
def MatchesAt (previous new : List String) (shift : Nat) : Prop :=
  previous.drop shift <+: new ∧ hasContent (previous.drop shift) = true

/-- A capture starts at or below the one before, overlaps it in a non-blank line, and matches it
at no other shift.
-/
structure Follows (buffer : List String) (height last start : Nat) : Prop where
  below : last ≤ start
  overlaps : hasContent ((window buffer height last).drop (start - last)) = true
  only
    : ∀ shift, MatchesAt (window buffer height last) (window buffer height start) shift
      → shift = start - last

/-- The next capture is fed. -/
inductive FeedsWindow (buffer : List String) (height : Nat)
    : Feeding → WindowCapture → Feeding → Prop
  | feed {feeding capture} (shows : Shows buffer height capture)
    (follows
      : ∀ last ∈ feeding.fed.getLast?, Follows buffer height last.1 capture.start)
    : FeedsWindow buffer height feeding capture {
        scrollback := feeding.scrollback.feed capture.text
        fed := feeding.fed ++ [(capture.start, feeding.scrollback.feed capture.text)] }

/-- The buffer's lines from one up to another one. -/
def between (buffer : List String) (first stop : Nat) : List String :=
  (buffer.drop first).take (stop - first)

/-- Behind every capture the lines are the buffer's from the first captured one to the last, in
the first epoch; the lines above a window stay as they are.
-/
structure Splices (buffer : List String) (height : Nat) (feeding : Feeding) : Prop where
  lines
    : ∀ first ∈ feeding.fed.head?, ∀ entry ∈ feeding.fed,
        entry.2.lines = between buffer first.1 (entry.1 + height) ∧ entry.2.epoch = 0
  settled
    : ∀ first ∈ feeding.fed.head?, feeding.fed.Pairwise (fun earlier later =>
        later.2.lines.take (earlier.1 - first.1) = earlier.2.lines.take (earlier.1 - first.1))

/-- The non-blank lines in which two lists agree. -/
def agreements (previous new : List String) : Nat :=
  (previous.zip new).countP (fun (before, line) => line == before && nonBlank line)

/-- From line `i` of the previous capture on, the lists differ only below the frozen cut. -/
def Tolerated (frozenCut : Int) (i : Nat) (previous new : List String) : Prop :=
  ∀ j before line, (previous.zip new)[j]? = some (before, line) → line ≠ before
  → frozenCut ≤ (i + j : Nat)

/-- A shift agrees in more non-blank lines than every smaller one that is tolerated, and in no
less than every larger one.
-/
structure Outmatches (liveWindow : Int) (previous new : List String) (shift : Nat) : Prop where
  earlier
    : ∀ rival < shift,
        Tolerated (previous.length - liveWindow) rival (previous.drop rival) new
        → agreements (previous.drop rival) new < agreements (previous.drop shift) new
  later
    : ∀ rival ≤ previous.length, shift < rival
      → Tolerated (previous.length - liveWindow) rival (previous.drop rival) new
      → agreements (previous.drop rival) new ≤ agreements (previous.drop shift) new

variable {frozenCut : Int} {previous new : List String}

theorem tolerated_cons {i : Nat} {before line : String}
    : Tolerated frozenCut i (before :: previous) (line :: new)
      ↔ (line ≠ before → frozenCut ≤ i) ∧ Tolerated frozenCut (i + 1) previous new := by
  constructor
  · intro tolerated
    refine ⟨tolerated 0 before line rfl, ?_⟩
    intro j before' line' at_ differs
    have below := tolerated (j + 1) before' line' at_ differs
    have same : i + (j + 1) = i + 1 + j := by omega
    rw [same] at below
    exact below
  · intro ⟨head, tail⟩ j before' line' at_ differs
    cases j with
    | zero =>
      cases at_
      exact head differs
    | succ j =>
      have below := tail j before' line' at_ differs
      have same : i + (j + 1) = i + 1 + j := by omega
      rw [same]
      exact below

theorem agreements_cons {before line : String}
    : agreements (before :: previous) (line :: new)
      = agreements previous new + (if line = before ∧ nonBlank line = true then 1 else 0) := by
  simp [agreements, List.countP_cons]

/-- The loop counts the agreements where every difference is tolerated. -/
theorem matchedLines_iff {i : Nat} {count : Nat}
    : matchedLines frozenCut i previous new = some count
      ↔ Tolerated frozenCut i previous new ∧ count = agreements previous new := by
  induction previous generalizing i new count with
  | nil => simp [matchedLines, Tolerated, agreements, eq_comm]
  | cons before previous ih =>
    cases new with
    | nil => simp [matchedLines, Tolerated, agreements, eq_comm]
    | cons line new =>
      rw [matchedLines, tolerated_cons, agreements_cons]
      split
      · next same =>
          rw [Option.map_eq_some_iff]
          simp only [ih, same, true_and, ne_eq, not_true_eq_false, false_implies]
          constructor
          · intro ⟨_, ⟨tolerated, rfl⟩, total⟩
            exact ⟨tolerated, total.symm⟩
          · intro ⟨tolerated, total⟩
            exact ⟨_, ⟨tolerated, rfl⟩, total.symm⟩
      · next differs =>
          split
          · next frozen =>
              refine iff_of_false nofun (fun tolerated => ?_)
              have below := tolerated.1.1 differs
              omega
          · next live =>
              rw [ih]
              have below : frozenCut ≤ i := by omega
              simp [differs, below]

theorem betterShift_eq
    : betterShift frozenCut previous new
      = better (fun shift => matchedLines frozenCut shift (previous.drop shift) new) := by
  funext best shift
  cases scored : matchedLines frozenCut shift (previous.drop shift) new <;> cases best
    <;> simp [betterShift, better, scored]

/-- A prefix agrees in its non-blank lines and differs nowhere. -/
theorem tolerated_of_continues {i : Nat} (continues : previous <+: new)
    : Tolerated frozenCut i previous new := by
  obtain ⟨rest, rfl⟩ := continues
  intro j before line at_ differs
  rw [List.getElem?_zip_eq_some] at at_
  obtain ⟨first, second⟩ := at_
  have inside : j < previous.length := (List.getElem?_eq_some_iff.mp first).1
  rw [List.getElem?_append_left inside, first] at second
  cases second
  exact absurd rfl differs

theorem agreements_of_continues (continues : previous <+: new)
    : agreements previous new = previous.countP nonBlank := by
  obtain ⟨rest, rfl⟩ := continues
  induction previous with
  | nil => rfl
  | cons line previous ih =>
    rw [List.cons_append, agreements_cons, ih, List.countP_cons]
    simp

theorem agreements_pos (continues : previous <+: new) (content : hasContent previous = true)
    : 0 < agreements previous new := by
  rw [agreements_of_continues continues, List.countP_pos_iff]
  simpa [hasContent] using content

/-- The matched lines of a shift, where it is tolerated. -/
def scoreOf (liveWindow : Int) (previous new : List String) (shift : Nat) : Option Nat :=
  matchedLines (previous.length - liveWindow) shift (previous.drop shift) new

/-- A matching shift outmatches the others exactly when it is the first best one. -/
theorem outmatches_iff {liveWindow : Int} {shift : Nat}
    (inside : shift ≤ previous.length) (continues : previous.drop shift <+: new)
    : Outmatches liveWindow previous new shift
      ↔ FirstBest (scoreOf liveWindow previous new) (previous.length + 1) shift
          (agreements (previous.drop shift) new) := by
  constructor
  · intro outmatches
    refine ⟨by omega, matchedLines_iff.mpr ⟨tolerated_of_continues continues, rfl⟩, ?_, ?_⟩
    · intro rival before other scored
      obtain ⟨tolerated, rfl⟩ := matchedLines_iff.mp scored
      exact outmatches.earlier rival before tolerated
    · intro rival below other scored
      obtain ⟨tolerated, rfl⟩ := matchedLines_iff.mp scored
      rcases Nat.lt_trichotomy rival shift with before | rfl | after
      · exact Nat.le_of_lt (outmatches.earlier rival before tolerated)
      · exact Nat.le_refl _
      · exact outmatches.later rival (by omega) after tolerated
  · intro first
    constructor
    · intro rival before tolerated
      exact first.earlier rival before _ (matchedLines_iff.mpr ⟨tolerated, rfl⟩)
    · intro rival below _ tolerated
      exact first.later rival (by omega) _ (matchedLines_iff.mpr ⟨tolerated, rfl⟩)

variable {scrollback : PaneScrollback}

/-- Where the new capture continues the previous one, the alignment finds a shift, and finds
the true one exactly when it outmatches the others.
-/
theorem align_iff {shift : Nat} (inside : shift ≤ scrollback.previous.length)
    (matches_ : MatchesAt scrollback.previous new shift)
    : ∃ found ≤ scrollback.previous.length, scrollback.align new = some found
      ∧ (found = shift
        ↔ Outmatches scrollback.liveWindow scrollback.previous new shift) := by
  obtain ⟨continues, content⟩ := matches_
  have scored : scoreOf scrollback.liveWindow scrollback.previous new shift
      = some (agreements (scrollback.previous.drop shift) new) :=
    matchedLines_iff.mpr ⟨tolerated_of_continues continues, rfl⟩
  have scan := scan_better (scoreOf scrollback.liveWindow scrollback.previous new)
    (scrollback.previous.length + 1)
  rw [outmatches_iff inside continues]
  unfold PaneScrollback.align
  dsimp only
  rw [betterShift_eq]
  change FindsBest _ _ ((List.range _).foldl (better (fun rival => matchedLines _ rival _ _)) _)
    at scan
  generalize (List.range (scrollback.previous.length + 1)).foldl
    (better (fun rival => matchedLines _ rival _ _)) none = best at scan ⊢
  cases best with
  | none =>
    rw [scan shift (by omega)] at scored
    cases scored
  | some best =>
    obtain ⟨found, value⟩ := best
    have most := scan.later shift (by omega) _ scored
    have positive := agreements_pos continues content
    have matched : ¬ value = 0 := by omega
    refine ⟨found, Nat.le_of_lt_succ scan.below, by simp [matched], ?_⟩
    constructor
    · rintro rfl
      have same := scan.scored.symm.trans scored
      cases same
      exact scan
    · exact fun first => scan.unique first

section Windows

variable {buffer : List String} {height first last start : Nat}

/-- The overlap of two windows is the head of the later one. -/
theorem window_drop (below : last ≤ start)
    : (window buffer height last).drop (start - last)
      = (window buffer height start).take (height - (start - last)) := by
  unfold window
  rw [List.drop_take, List.drop_drop, List.take_take]
  congr 1
  · omega
  · congr 1
    omega

theorem length_window (within : start + height ≤ buffer.length)
    : (window buffer height start).length = height := by
  unfold window
  rw [List.length_take, List.length_drop]
  omega

theorem length_between (first : Nat) {stop : Nat} (within : stop ≤ buffer.length)
    : (between buffer first stop).length = stop - first := by
  unfold between
  rw [List.length_take, List.length_drop]
  omega

theorem take_between {stop stop' : Nat} (below : stop' ≤ stop)
    : (between buffer first stop).take (stop' - first) = between buffer first stop' := by
  unfold between
  rw [List.take_take]
  congr 1
  omega

/-- The window of the buffer behind its lines up to there. -/
theorem between_window (below : first ≤ start)
    : between buffer first start ++ window buffer height start
      = between buffer first (start + height) := by
  unfold between window
  have behind : buffer.drop start = (buffer.drop first).drop (start - first) := by
    rw [List.drop_drop]
    congr 1
    omega
  have total : start + height - first = (start - first) + height := by omega
  rw [behind, total, List.take_add]

/-- The true shift splices the next window behind the lines above it. -/
theorem spliceLines_window (below : first ≤ last) (follows : last ≤ start)
    (overlap : start ≤ last + height) (within : last + height ≤ buffer.length)
    (within' : start + height ≤ buffer.length)
    : spliceLines (between buffer first (last + height)) (start - first)
        (window buffer height start)
      = between buffer first (start + height) := by
  have long := length_between first within
  have short := length_window within'
  have above : start - first - (between buffer first (last + height)).length = 0 := by omega
  have ends : (between buffer first (last + height)).drop (start - first + height) = [] := by
    apply List.drop_eq_nil_of_le
    omega
  unfold spliceLines
  rw [take_between overlap, above, short, ends, List.replicate_zero, List.append_nil,
    List.append_nil]
  exact between_window (Nat.le_trans below follows)

end Windows

/-- The lines end with the spliced capture where it reaches below them. -/
theorem length_spliceLines {lines : List String} {start : Nat}
    (inside : start ≤ lines.length) (below : lines.length ≤ start + new.length)
    : (spliceLines lines start new).length = start + new.length := by
  unfold spliceLines
  simp only [List.length_append, List.length_take, List.length_replicate, List.length_drop]
  omega

section Feed

variable {buffer : List String} {height : Nat} {feeding next : Feeding} {capture : WindowCapture}

def CarefulCapture (buffer : List String) (height : Nat) (feeding : Feeding)
    (capture : WindowCapture) : Prop :=
  ∀ last ∈ feeding.fed.getLast?,
    Outmatches feeding.scrollback.liveWindow (window buffer height last.1)
      (window buffer height capture.start) (capture.start - last.1)

/-- What holds of a scrollback between two captures: it ends with the last window. -/
structure FeedSound (buffer : List String) (height : Nat) (feeding : Feeding) : Prop where
  unfed : feeding.fed = [] → feeding.scrollback.previous = [] ∧ feeding.scrollback.epoch = 0
  positive : feeding.fed ≠ [] → 0 < height
  increasing : feeding.fed.Pairwise (fun earlier later => earlier.1 ≤ later.1)
  last
    : ∀ last ∈ feeding.fed.getLast?, last.2 = feeding.scrollback
      ∧ feeding.scrollback.previous = window buffer height last.1
      ∧ last.1 + height ≤ buffer.length
      ∧ feeding.scrollback.start + height = feeding.scrollback.lines.length

theorem feedSound_of_fresh (fresh : FreshFeeding feeding)
    : Splices buffer height feeding ∧ FeedSound buffer height feeding := by
  obtain ⟨none_, liveWindow, initial⟩ := fresh
  refine ⟨⟨?_, ?_⟩, ⟨?_, ?_, ?_, ?_⟩⟩ <;> simp [none_, initial]

theorem feed_first {text : String} (none_ : scrollback.previous = [])
    : scrollback.feed text
      = { scrollback with
          lines := textLines (stripAnsi text), previous := textLines (stripAnsi text),
          start := 0, lastReset := false } := by
  unfold PaneScrollback.feed
  rw [if_pos none_]

theorem feed_aligned {text : String} {shift : Nat} (some_ : scrollback.previous ≠ [])
    (aligned : scrollback.align (textLines (stripAnsi text)) = some shift)
    : scrollback.feed text
      = { scrollback with
          start := scrollback.start + shift
          lines := spliceLines scrollback.lines (scrollback.start + shift)
            (textLines (stripAnsi text))
          previous := textLines (stripAnsi text)
          lastReset := false } := by
  unfold PaneScrollback.feed
  rw [if_neg some_]
  simp only [aligned]

theorem feed_behind (sound : FeedSound buffer height feeding) {last : Nat × PaneScrollback}
    (at_ : last ∈ feeding.fed.getLast?) (shows : Shows buffer height capture)
    (follows : Follows buffer height last.1 capture.start)
    : ∃ found ≤ height,
        feeding.scrollback.feed capture.text
          = { feeding.scrollback with
              start := feeding.scrollback.start + found
              lines := spliceLines feeding.scrollback.lines (feeding.scrollback.start + found)
                (window buffer height capture.start)
              previous := window buffer height capture.start
              lastReset := false }
        ∧ (found = capture.start - last.1
          ↔ Outmatches feeding.scrollback.liveWindow (window buffer height last.1)
            (window buffer height capture.start) (capture.start - last.1)) := by
  obtain ⟨-, shown, within, -⟩ := sound.last last at_
  have length : feeding.scrollback.previous.length = height := by
    rw [shown, length_window within]
  have some_ : feeding.scrollback.previous ≠ [] := by
    rw [← List.length_pos_iff, length]
    exact shows.positive
  have overlap : capture.start - last.1 ≤ height := by
    by_contra far
    have nothing : (window buffer height last.1).drop (capture.start - last.1) = [] :=
      List.drop_eq_nil_of_le (by rw [length_window within]; omega)
    have content := follows.overlaps
    rw [nothing] at content
    cases content
  have matches_ : MatchesAt feeding.scrollback.previous (textLines (stripAnsi capture.text))
      (capture.start - last.1) := by
    rw [shown, shows.shown]
    refine ⟨?_, follows.overlaps⟩
    rw [window_drop follows.below]
    exact List.take_prefix _ _
  obtain ⟨found, inside, aligned, exact_⟩ := align_iff (length ▸ overlap) matches_
  refine ⟨found, length ▸ inside, ?_, ?_⟩
  · rw [feed_aligned some_ aligned, shows.shown]
  · rw [exact_, shown, shows.shown]

/-- The captures behind one more. -/
theorem FeedsWindow.fed (step : FeedsWindow buffer height feeding capture next)
    : next.scrollback = feeding.scrollback.feed capture.text
      ∧ next.fed = feeding.fed ++ [(capture.start, feeding.scrollback.feed capture.text)] := by
  cases step with
  | feed => exact ⟨rfl, rfl⟩

theorem FeedSound.step (sound : FeedSound buffer height feeding)
    (step : FeedsWindow buffer height feeding capture next)
    : FeedSound buffer height next := by
  cases step with
  | feed shows follows =>
    refine ⟨by simp, fun _ => shows.positive, ?_, ?_⟩
    · dsimp only
      refine List.pairwise_append.mpr ⟨sound.increasing, List.pairwise_singleton _ _, ?_⟩
      intro earlier member later own
      rw [List.mem_singleton.mp own]
      obtain ⟨last, at_⟩ : ∃ last, feeding.fed.getLast? = some last :=
        Option.isSome_iff_exists.mp (by simp [List.ne_nil_of_mem member])
      have below := (follows last at_).below
      obtain ⟨before, parts⟩ := List.getLast?_eq_some_iff.mp at_
      have increasing := sound.increasing
      rw [parts] at increasing member
      rcases List.mem_append.mp member with inside | own
      · have order := (List.pairwise_append.mp increasing).2.2 earlier inside last
          (List.mem_singleton_self _)
        exact Nat.le_trans order below
      · rw [List.mem_singleton.mp own]
        exact below
    · intro last at_
      simp only [List.getLast?_concat, Option.mem_def, Option.some.injEq] at at_
      subst at_
      refine ⟨rfl, ?_⟩
      dsimp only
      cases last_ : feeding.fed.getLast? with
      | none =>
        have none_ := sound.unfed (List.getLast?_eq_none_iff.mp last_)
        rw [feed_first none_.1, shows.shown]
        refine ⟨rfl, shows.within, ?_⟩
        rw [length_window shows.within, Nat.zero_add]
      | some last =>
        obtain ⟨found, inside, fed, -⟩ := feed_behind sound last_ shows (follows last last_)
        obtain ⟨-, -, -, ends⟩ := sound.last last last_
        have length := length_window shows.within
        rw [fed]
        refine ⟨rfl, shows.within, ?_⟩
        dsimp only
        rw [length_spliceLines (by omega) (by omega), length]

/-- Lines that are the buffer's are settled above their windows. -/
theorem settled_of_lines {fed : List (Nat × PaneScrollback)} {first : Nat}
    (increasing : fed.Pairwise (fun earlier later => earlier.1 ≤ later.1))
    (lines : ∀ entry ∈ fed, entry.2.lines = between buffer first (entry.1 + height))
    : fed.Pairwise (fun earlier later =>
        later.2.lines.take (earlier.1 - first) = earlier.2.lines.take (earlier.1 - first)) := by
  refine increasing.imp_of_mem ?_
  intro earlier later member member' below
  rw [lines earlier member, lines later member', take_between (by omega),
    take_between (by omega)]

theorem first_le_last (sound : FeedSound buffer height feeding)
    {first last : Nat × PaneScrollback} (head : first ∈ feeding.fed.head?)
    (at_ : last ∈ feeding.fed.getLast?)
    : first.1 ≤ last.1 := by
  have increasing := sound.increasing
  cases fed : feeding.fed with
  | nil =>
    rw [fed] at head
    cases head
  | cons entry rest =>
    rw [fed] at head at_ increasing
    cases head
    have member := List.mem_of_getLast? at_
    rcases List.mem_cons.mp member with rfl | later
    · exact Nat.le_refl _
    · exact (List.pairwise_cons.mp increasing).1 last later

/-- A capture keeps the lines the buffer's exactly where its true shift outmatches the others. -/
theorem lines_step_iff (sound : FeedSound buffer height feeding)
    (splices : Splices buffer height feeding) {first last : Nat × PaneScrollback}
    (head : first ∈ feeding.fed.head?) (at_ : last ∈ feeding.fed.getLast?)
    (shows : Shows buffer height capture)
    (follows : Follows buffer height last.1 capture.start)
    : (feeding.scrollback.feed capture.text).lines
        = between buffer first.1 (capture.start + height)
        ∧ (feeding.scrollback.feed capture.text).epoch = 0
      ↔ Outmatches feeding.scrollback.liveWindow (window buffer height last.1)
        (window buffer height capture.start) (capture.start - last.1) := by
  obtain ⟨same, shown, within, ends⟩ := sound.last last at_
  obtain ⟨lines, epoch⟩ := splices.lines first head last (List.mem_of_getLast? at_)
  rw [same] at lines epoch
  obtain ⟨found, inside, fed, exact_⟩ := feed_behind sound at_ shows follows
  have order := first_le_last sound head at_
  have below := follows.below
  have length := length_window shows.within
  have start : feeding.scrollback.start = last.1 - first.1 := by
    have total := length_between first.1 within
    rw [← lines] at total
    omega
  rw [← exact_, fed]
  dsimp only
  constructor
  · intro ⟨kept, _⟩
    have total := congrArg List.length kept
    rw [length_spliceLines (by omega) (by omega), length, length_between _ shows.within] at total
    omega
  · intro true_
    refine ⟨?_, epoch⟩
    have here : feeding.scrollback.start + found = capture.start - first.1 := by omega
    rw [here, lines]
    exact spliceLines_window order below (by omega) within shows.within

/-- A step keeps the lines the buffer's exactly where it is careful. -/
theorem Splices.step_iff (sound : FeedSound buffer height feeding)
    (splices : Splices buffer height feeding)
    (step : FeedsWindow buffer height feeding capture next)
    : Splices buffer height next ↔ CarefulCapture buffer height feeding capture := by
  have kept := sound.step step
  cases step with
  | feed shows follows =>
    cases last_ : feeding.fed.getLast? with
    | none =>
      have unfed := List.getLast?_eq_none_iff.mp last_
      have none_ := sound.unfed unfed
      refine iff_of_true ?_ (by simp [CarefulCapture, last_])
      rw [unfed, feed_first none_.1, shows.shown]
      constructor
      · intro first head entry member
        cases head
        rw [List.mem_singleton.mp member]
        refine ⟨?_, none_.2⟩
        simp [between, window]
      · exact fun _ _ => List.pairwise_singleton _ _
    | some last =>
      obtain ⟨first, head⟩ : ∃ first, feeding.fed.head? = some first := by
        cases fed : feeding.fed with
        | nil => rw [fed] at last_; cases last_
        | cons first rest => exact ⟨first, rfl⟩
      have head_ : (feeding.fed ++ [(capture.start,
          feeding.scrollback.feed capture.text)]).head? = some first := by
        rw [List.head?_append, head]
        rfl
      have careful : CarefulCapture buffer height feeding capture
          ↔ Outmatches feeding.scrollback.liveWindow (window buffer height last.1)
            (window buffer height capture.start) (capture.start - last.1) := by
        simp [CarefulCapture, last_]
      rw [careful, ← lines_step_iff sound splices head last_ shows (follows last last_)]
      constructor
      · intro after
        exact after.lines first head_ _ (List.mem_append_right _ (List.mem_singleton_self _))
      · intro lines
        have all : ∀ entry ∈ feeding.fed ++ [(capture.start,
            feeding.scrollback.feed capture.text)],
            entry.2.lines = between buffer first.1 (entry.1 + height)
            ∧ entry.2.epoch = 0 := by
          intro entry member
          rcases List.mem_append.mp member with earlier | own
          · exact splices.lines first head entry earlier
          · rw [List.mem_singleton.mp own]
            exact lines
        constructor
        · intro other head'
          rw [head_] at head'
          cases head'
          exact all
        · intro other head'
          rw [head_] at head'
          cases head'
          exact settled_of_lines kept.increasing (fun entry member => (all entry member).1)

/-- The accumulated lines are the buffer's behind every capture exactly when the true shift of
every capture outmatches all others.
-/
theorem splices_iff {captures : List WindowCapture}
    (run : Run FreshFeeding (FeedsWindow buffer height) captures feeding)
    : Splices buffer height feeding
      ↔ Run FreshFeeding (fun feeding capture next =>
          FeedsWindow buffer height feeding capture next
          ∧ CarefulCapture buffer height feeding capture) captures feeding := by
  apply run.careful_iff (fun _ fresh => feedSound_of_fresh fresh)
  · intro feeding capture next step after
    obtain ⟨-, grown⟩ := step.fed
    have head : ∀ first ∈ feeding.fed.head?, first ∈ next.fed.head? := by
      intro first at_
      rw [grown, List.head?_append, at_]
      rfl
    constructor
    · intro first at_ entry member
      apply after.lines first (head first at_)
      rw [grown]
      exact List.mem_append_left _ member
    · intro first at_
      have settled := after.settled first (head first at_)
      rw [grown] at settled
      exact (List.pairwise_append.mp settled).1
  · exact fun _ _ _ sound step => sound.step step
  · exact fun _ _ _ sound splices step => splices.step_iff sound step

end Feed

namespace RepeatedRows

/-- A buffer whose rows `q` and `r` repeat. -/
def buffer : List String := ["p", "q", "r", "s", "q", "r", "t"]

def start : Feeding := { scrollback := { liveWindow := 40 } }

theorem fresh : FreshFeeding start := ⟨rfl, 40, rfl⟩

def top : WindowCapture := ⟨0, "p\nq\nr\ns"⟩

def shifted : WindowCapture := ⟨1, "q\nr\ns\nq"⟩

def jumped : WindowCapture := ⟨3, "s\nq\nr\nt"⟩

def feeds (feeding : Feeding) (capture : WindowCapture) : Feeding where
  scrollback := feeding.scrollback.feed capture.text
  fed := feeding.fed ++ [(capture.start, feeding.scrollback.feed capture.text)]

theorem feeds_top : FeedsWindow buffer 4 start top (feeds start top) :=
  .feed ⟨by decide, by decide, by decide +kernel⟩ nofun

/-- What is not among the first four shifts of a pane of four rows shows no content. -/
theorem follows_of_shifts {from_ : Nat} (below : 0 ≤ from_)
    (overlaps : hasContent ((window buffer 4 0).drop from_) = true)
    (only : ∀ shift < 4, MatchesAt (window buffer 4 0) (window buffer 4 from_) shift
      → shift = from_)
    : Follows buffer 4 0 from_ := by
  refine ⟨below, overlaps, fun shift matches_ => ?_⟩
  rcases Nat.lt_or_ge shift 4 with small | large
  · exact only shift small matches_
  · have nothing : (window buffer 4 0).drop shift = [] :=
      List.drop_eq_nil_of_le (Nat.le_trans (by decide) large)
    have content := matches_.2
    rw [nothing] at content
    cases content

instance (previous new : List String) (shift : Nat)
    : Decidable (MatchesAt previous new shift) :=
  inferInstanceAs (Decidable (_ ∧ _))

/-- A capture one row further down. -/
theorem splices_shifted : Splices buffer 4 (feeds (feeds start top) shifted) := by
  have second : FeedsWindow buffer 4 (feeds start top) shifted
      (feeds (feeds start top) shifted) := by
    refine .feed ⟨by decide, by decide, by decide +kernel⟩ ?_
    intro last at_
    cases at_
    exact follows_of_shifts (by decide) (by decide +kernel) (by decide +kernel)
  have run : Run FreshFeeding (FeedsWindow buffer 4) [top, shifted] _ :=
    ⟨start, fresh, .cons feeds_top (.cons second (.nil _))⟩
  refine (splices_iff run).mpr
    ⟨start, fresh, .cons ⟨feeds_top, nofun⟩ (.cons ⟨second, ?_⟩ (.nil _))⟩
  intro last at_
  cases at_
  have earlier : ∀ rival < 1,
      agreements ((window buffer 4 0).drop rival) (window buffer 4 1)
        < agreements ((window buffer 4 0).drop 1) (window buffer 4 1) := by
    decide +kernel
  have later : ∀ rival < 5, 1 < rival →
      agreements ((window buffer 4 0).drop rival) (window buffer 4 1)
        ≤ agreements ((window buffer 4 0).drop 1) (window buffer 4 1) := by
    decide +kernel
  exact ⟨fun rival before _ => earlier rival before,
    fun rival below after _ => later rival (Nat.lt_succ_of_le below) after⟩

/-- The capture jumps by three rows, and not moving matches two rows where the jump matches one:
the last rows replace the first ones.
-/
theorem not_splices
    : ∃ captures feeding, Run FreshFeeding (FeedsWindow buffer 4) captures feeding
        ∧ ¬ Splices buffer 4 feeding := by
  have second : FeedsWindow buffer 4 (feeds start top) jumped (feeds (feeds start top) jumped) := by
    refine .feed ⟨by decide, by decide, by decide +kernel⟩ ?_
    intro last at_
    cases at_
    exact follows_of_shifts (by decide) (by decide +kernel) (by decide +kernel)
  refine ⟨[top, jumped], _, ⟨start, fresh, .cons feeds_top (.cons second (.nil _))⟩, ?_⟩
  intro splices
  have lines := (splices.lines (0, _) rfl (3, _)
    (List.mem_append_right _ (List.mem_singleton_self _))).1
  revert lines
  decide +kernel

end RepeatedRows

end Murder.Transcripts
