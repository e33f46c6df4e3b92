import Murder.Library.Curves

/-! The usage threshold below which resources are rationed, over exact rationals.
The curve is flat up to a cap, then two Bezier pieces fall to zero; it stays between zero and one,
up to the tolerance of its handles and the gap before the end of the window.
-/

namespace Murder.Scheduling

open Library.Curves

structure Point where
  x : ℚ
  y : ℚ

inductive ThresholdError
  | zeroDivision
  | nonMonotone (p0 p1 p2 p3 : ℚ)
deriving DecidableEq

def bezierCubicY (p0y p1y p2y p3y t : ℚ) : ℚ := bezier p0y p1y p2y p3y t

/-- The parameter in [0,1] where the x-coord equals the target, by bisection. -/
def solveBezierT (p0x p1x p2x p3x xTarget : ℚ) : ℚ :=
  bisect (fun mid => decide (bezier p0x p1x p2x p3x mid < xTarget)) 60 0 1

/-- `1e-12` -/
def handleTolerance : ℚ := 1 / 10 ^ 12

/-- `0.85` -/
def handleShrink : ℚ := 85 / 100

def shrinkHandles (p0 : Point) (slope0 : ℚ) (p3 : Point) (slope3 : ℚ) : Nat → ℚ → ℚ → ℚ × ℚ
  | 0, d1, d2 => (d1, d2)
  | rounds + 1, d1, d2 =>
    let p1y := p0.y + slope0 * d1
    let p2y := p3.y - slope3 * d2
    let okLeft := p1y ≤ p0.y + handleTolerance
    let okMid := p2y ≤ p1y + handleTolerance
    let okRight := p3.y ≤ p2y + handleTolerance
    if okLeft ∧ okMid ∧ okRight then
      (d1, d2)
    else if ¬ okMid then
      shrinkHandles p0 slope0 p3 slope3 rounds (d1 * handleShrink) (d2 * handleShrink)
    else if ¬ okLeft then
      shrinkHandles p0 slope0 p3 slope3 rounds (d1 * handleShrink) d2
    else
      shrinkHandles p0 slope0 p3 slope3 rounds d1 (d2 * handleShrink)

def fullHandle (length maxFrac : ℚ) : Except ThresholdError ℚ :=
  let d := maxFrac * length
  if length < d + d then
    if d + d = 0 then .error .zeroDivision else .ok (d * (length / (d + d)))
  else
    .ok d

/-- `_clamp_handles_monotone`, with the assertion about the x-coords. -/
def clampHandlesMonotone (p0 : Point) (slope0 : ℚ) (p3 : Point) (slope3 maxFrac : ℚ)
    : Except ThresholdError (Point × Point) := do
  let d ← fullHandle (p3.x - p0.x) maxFrac
  let (d1, d2) := shrinkHandles p0 slope0 p3 slope3 20 d d
  let p1 : Point := ⟨p0.x + d1, p0.y + slope0 * d1⟩
  let p2 : Point := ⟨p3.x - d2, p3.y - slope3 * d2⟩
  if p0.x ≤ p1.x ∧ p1.x ≤ p2.x ∧ p2.x ≤ p3.x then
    return (p1, p2)
  else
    .error (.nonMonotone p0.x p1.x p2.x p3.x)

/-- The height of the piece between two points above `x`. -/
def pieceAt (p0 : Point) (slope0 : ℚ) (p3 : Point) (slope3 maxFrac x : ℚ)
    : Except ThresholdError ℚ := do
  let (p1, p2) ← clampHandlesMonotone p0 slope0 p3 slope3 maxFrac
  let t := solveBezierT p0.x p1.x p2.x p3.x x
  return bezierCubicY p0.y p1.y p2.y p3.y t

/-- Times in minutes. -/
structure CurveParameters where
  tPeriod : ℚ
  cChangeoff : ℚ
  tAlwaysyes : ℚ
  alwayscutoff : ℚ
  intensity : ℚ

namespace CurveParameters

variable (p : CurveParameters)

/-- The ranges that `f` documents; the trailing window is a length. -/
structure Documented : Prop where
  period : 300 < p.tPeriod ∧ p.tPeriod < 44640
  changeoff : 0 ≤ p.cChangeoff ∧ p.cChangeoff ≤ 1
  alwaysyes : 0 ≤ p.tAlwaysyes
  cutoff : 0 ≤ p.alwayscutoff ∧ p.alwayscutoff ≤ 1
  intensity : 0 ≤ p.intensity ∧ p.intensity ≤ 1

/-- Active window length. -/
def bEff : ℚ := p.tPeriod - p.tAlwaysyes

def xCap : ℚ := p.tPeriod * (1 - p.alwayscutoff)

/-- The changeoff, between the cap and just before the end of the window. -/
def xCo : ℚ := min (max (p.cChangeoff * p.bEff) p.xCap) (p.bEff - 1 / 10 ^ 9)

def fNaiveCo : ℚ := 1 - p.xCo / p.tPeriod

def slopeNaive : ℚ := -1 / p.tPeriod

def slopeCo : ℚ := p.slopeNaive * (1 + 3 * p.intensity)

def slopeOuter : ℚ := (1 - p.intensity) * p.slopeNaive

def maxFrac : ℚ := 35 / 100 + 45 / 100 * p.intensity

def atCap : Point := ⟨p.xCap, p.alwayscutoff⟩

def atChangeoff : Point := ⟨p.xCo, p.fNaiveCo⟩

def atEnd : Point := ⟨p.bEff, 0⟩

end CurveParameters

/-- `_f_threshold` -/
def fThreshold (p : CurveParameters) (tUntilReset : ℚ) : Except ThresholdError ℚ :=
  let x := tUntilReset
  if x ≤ 0 ∨ p.tPeriod - p.tAlwaysyes ≤ x then
    .ok 0
  else if p.tPeriod = 0 then
    .error .zeroDivision
  else if x ≤ p.xCap then
    .ok p.alwayscutoff
  else if x ≤ p.xCo then
    pieceAt p.atCap p.slopeOuter p.atChangeoff p.slopeCo p.maxFrac x
  else
    pieceAt p.atChangeoff p.slopeCo p.atEnd p.slopeOuter p.maxFrac x

section Handles

variable {p0 p1 p2 p3 : Point} {slope0 slope3 maxFrac slack x : ℚ}

/-- Control points whose x-coords rise and whose y-coords fall, the middle ones up to a slack. -/
structure Falls (slack : ℚ) (p0 p1 p2 p3 : Point) : Prop where
  order : p0.x ≤ p1.x ∧ p1.x ≤ p2.x ∧ p2.x ≤ p3.x
  left : p1.y ≤ p0.y
  middle : p2.y ≤ p1.y + slack
  right : p3.y ≤ p2.y

/-- Handles that are short enough for the rounds left. -/
structure Short (p0 : Point) (slope0 : ℚ) (p3 : Point) (slope3 : ℚ) (rounds : Nat) (d1 d2 : ℚ)
    : Prop where
  first : 0 ≤ d1
  second : 0 ≤ d2
  total : d1 + d2 ≤ p3.x - p0.x
  met : ∃ round < rounds,
    (-slope0 * d1 - slope3 * d2) * handleShrink ^ round ≤ p0.y - p3.y

theorem handleTolerance_pos : 0 < handleTolerance := by
  unfold handleTolerance
  norm_num

/-- The rounds end with handles whose middle falls, up to the tolerance. -/
theorem shrinkHandles_falls (falls0 : slope0 ≤ 0) (falls3 : slope3 ≤ 0) {rounds : Nat} {d1 d2 : ℚ}
    (short : Short p0 slope0 p3 slope3 rounds d1 d2)
    : ∃ d1' d2', shrinkHandles p0 slope0 p3 slope3 rounds d1 d2 = (d1', d2')
      ∧ Falls handleTolerance p0 ⟨p0.x + d1', p0.y + slope0 * d1'⟩
        ⟨p3.x - d2', p3.y - slope3 * d2'⟩ p3 := by
  induction rounds generalizing d1 d2 with
  | zero =>
    obtain ⟨round, none_, -⟩ := short.met
    exact absurd none_ (Nat.not_lt_zero _)
  | succ rounds ih =>
    have first := short.first
    have second := short.second
    have tolerance := handleTolerance_pos
    have left : slope0 * d1 ≤ 0 := mul_nonpos_of_nonpos_of_nonneg falls0 first
    have right : slope3 * d2 ≤ 0 := mul_nonpos_of_nonpos_of_nonneg falls3 second
    have okLeft : p0.y + slope0 * d1 ≤ p0.y + handleTolerance := by linarith
    have okRight : p3.y ≤ p3.y - slope3 * d2 + handleTolerance := by linarith
    unfold shrinkHandles
    by_cases okMid : p3.y - slope3 * d2 ≤ p0.y + slope0 * d1 + handleTolerance
    · refine ⟨d1, d2, ?_, ⟨?_, ?_, okMid, ?_⟩⟩
      · simp only [if_pos (And.intro okLeft (And.intro okMid okRight))]
      · have total := short.total
        refine ⟨?_, ?_, ?_⟩
        · simpa using first
        · show p0.x + d1 ≤ p3.x - d2
          linarith
        · simpa using second
      · simpa using left
      · simpa using right
    · have shrunk : handleShrink = 85 / 100 := rfl
      have next : Short p0 slope0 p3 slope3 rounds (d1 * handleShrink) (d2 * handleShrink) := by
        refine ⟨by rw [shrunk]; linarith, by rw [shrunk]; linarith, ?_, ?_⟩
        · have total := short.total
          rw [shrunk]
          linarith
        · obtain ⟨round, within, enough⟩ := short.met
          cases round with
          | zero =>
            rw [pow_zero, mul_one] at enough
            exact absurd (by linarith) okMid
          | succ round =>
            refine ⟨round, Nat.lt_of_succ_lt_succ within, ?_⟩
            rw [pow_succ] at enough
            linarith
      simp only [okMid, false_and, and_false, if_false, not_false_eq_true, if_true]
      exact ih next

theorem fullHandle_fits {length : ℚ} (fraction : 0 ≤ maxFrac) (positive : 0 < length)
    : ∃ d, fullHandle length maxFrac = .ok d ∧ 0 ≤ d ∧ d + d ≤ length := by
  have start : 0 ≤ maxFrac * length := mul_nonneg fraction positive.le
  unfold fullHandle
  by_cases cross : length < maxFrac * length + maxFrac * length
  · have sum : 0 < maxFrac * length + maxFrac * length := positive.trans cross
    refine ⟨maxFrac * length * (length / (maxFrac * length + maxFrac * length)), ?_, ?_, ?_⟩
    · simp only [if_pos cross, if_neg sum.ne']
    · exact mul_nonneg start (div_nonneg positive.le sum.le)
    · rw [← add_mul, mul_div_cancel₀ _ sum.ne']
  · refine ⟨maxFrac * length, ?_, start, not_lt.mp cross⟩
    simp only [if_neg cross]

/-- Handles clamped between a point and a lower one pass the assertion. -/
theorem clampHandlesMonotone_falls (falls0 : slope0 ≤ 0) (falls3 : slope3 ≤ 0)
    (fraction : 0 ≤ maxFrac) (ahead : p0.x < p3.x)
    (steep : (-slope0 - slope3) * (p3.x - p0.x) ≤ 4 * (p0.y - p3.y))
    : ∃ p1 p2, clampHandlesMonotone p0 slope0 p3 slope3 maxFrac = .ok (p1, p2)
      ∧ Falls handleTolerance p0 p1 p2 p3 := by
  have length : 0 < p3.x - p0.x := sub_pos.mpr ahead
  obtain ⟨d, made, start, half⟩ := fullHandle_fits fraction length
  have short : Short p0 slope0 p3 slope3 20 d d := by
    refine ⟨start, start, half, 5, by norm_num, ?_⟩
    have shrunk : handleShrink ^ 5 ≤ 1 / 2 := by
      unfold handleShrink
      norm_num
    have slopes : 0 ≤ -slope0 - slope3 := by linarith
    have both : (-slope0 - slope3) * (d + d) ≤ (-slope0 - slope3) * (p3.x - p0.x) :=
      mul_le_mul_of_nonneg_left half slopes
    have drop : 0 ≤ -slope0 * d - slope3 * d := by
      have product := mul_nonneg slopes start
      linarith
    calc (-slope0 * d - slope3 * d) * handleShrink ^ 5
        ≤ (-slope0 * d - slope3 * d) * (1 / 2) := mul_le_mul_of_nonneg_left shrunk drop
      _ ≤ p0.y - p3.y := by linarith
  obtain ⟨d1, d2, ended, falls⟩ := shrinkHandles_falls falls0 falls3 short
  refine ⟨_, _, ?_, falls⟩
  unfold clampHandlesMonotone
  simp only [made, bind, Except.bind, ended]
  exact if_pos falls.order

/-- The parameter found for a later target is no earlier. -/
theorem solveBezierT_mono {p0x p1x p2x p3x x' : ℚ} (later : x ≤ x')
    : solveBezierT p0x p1x p2x p3x x ≤ solveBezierT p0x p1x p2x p3x x' := by
  refine bisect_mono zero_le_one (fun mid below => ?_)
  have below := of_decide_eq_true below
  exact decide_eq_true (below.trans_le later)

theorem solveBezierT_mem {p0x p1x p2x p3x : ℚ}
    : 0 ≤ solveBezierT p0x p1x p2x p3x x ∧ solveBezierT p0x p1x p2x p3x x ≤ 1 :=
  bisect_mem zero_le_one

/-- The heights of a piece: between its ends and falling, up to the slack. -/
structure Descends (slack high low : ℚ) (height : ℚ → ℚ) : Prop where
  below : ∀ x, height x ≤ high + slack
  above : ∀ x, low ≤ height x + slack
  falls : ∀ x x', x ≤ x' → height x' ≤ height x + slack

theorem pieceAt_descends (allowed : 0 ≤ slack) (falls : Falls slack p0 p1 p2 p3)
    (made : clampHandlesMonotone p0 slope0 p3 slope3 maxFrac = .ok (p1, p2))
    : ∃ height : ℚ → ℚ, (∀ x, pieceAt p0 slope0 p3 slope3 maxFrac x = .ok (height x))
      ∧ Descends slack p0.y p3.y height := by
  have between : ∀ s t, 0 ≤ s → s ≤ t → t ≤ 1
      → bezier p0.y p1.y p2.y p3.y t ≤ bezier p0.y p1.y p2.y p3.y s + slack :=
    fun s t start ordered stop =>
      bezier_falls falls.left falls.middle falls.right allowed start ordered stop
  have inside : ∀ x, 0 ≤ solveBezierT p0.x p1.x p2.x p3.x x
      ∧ solveBezierT p0.x p1.x p2.x p3.x x ≤ 1 := fun x => solveBezierT_mem
  refine ⟨fun x => bezierCubicY p0.y p1.y p2.y p3.y (solveBezierT p0.x p1.x p2.x p3.x x),
    fun x => ?_, fun x => ?_, fun x => ?_, fun x x' later => ?_⟩
  · unfold pieceAt
    rw [made]
    rfl
  · have first := between 0 _ (le_refl 0) (inside x).1 (inside x).2
    rw [bezier_zero] at first
    exact first
  · have last := between _ 1 (inside x).1 (inside x).2 (le_refl 1)
    rw [bezier_one] at last
    exact last
  · exact between _ _ (inside x).1 (solveBezierT_mono later) (inside x').2

def ExactHandles (p0 : Point) (slope0 : ℚ) (p3 : Point) (slope3 maxFrac : ℚ) : Prop :=
  ∃ p1 p2, clampHandlesMonotone p0 slope0 p3 slope3 maxFrac = .ok (p1, p2) ∧ p2.y ≤ p1.y

/-- A piece between a point and a lower one, up to the tolerance or exactly. -/
theorem piece_descends (falls0 : slope0 ≤ 0) (falls3 : slope3 ≤ 0) (fraction : 0 ≤ maxFrac)
    (ahead : p0.x < p3.x) (steep : (-slope0 - slope3) * (p3.x - p0.x) ≤ 4 * (p0.y - p3.y))
    : ∃ height : ℚ → ℚ, (∀ x, pieceAt p0 slope0 p3 slope3 maxFrac x = .ok (height x))
      ∧ Descends handleTolerance p0.y p3.y height
      ∧ (ExactHandles p0 slope0 p3 slope3 maxFrac → Descends 0 p0.y p3.y height) := by
  obtain ⟨p1, p2, made, falls⟩ :=
    clampHandlesMonotone_falls falls0 falls3 fraction ahead steep
  obtain ⟨height, heights, descends⟩ := pieceAt_descends handleTolerance_pos.le falls made
  refine ⟨height, heights, descends, fun exact_ => ?_⟩
  obtain ⟨p1', p2', made', middle⟩ := exact_
  cases Except.ok.inj (made.symm.trans made')
  obtain ⟨height', heights', descends'⟩ := pieceAt_descends (le_refl 0)
    ⟨falls.order, falls.left, by linarith, falls.right⟩ made
  have same : height' = height :=
    funext (fun x => Except.ok.inj ((heights' x).symm.trans (heights x)))
  exact same ▸ descends'

end Handles

namespace CurveParameters

variable {p : CurveParameters}

theorem Documented.bEff_le (documented : p.Documented) : p.bEff ≤ p.tPeriod := by
  have trailing := documented.alwaysyes
  unfold bEff
  linarith

theorem xCo_lt_bEff : p.xCo < p.bEff := by
  have gap : (0 : ℚ) < 1 / 10 ^ 9 := by norm_num
  have bounded : p.xCo ≤ p.bEff - 1 / 10 ^ 9 := min_le_right _ _
  linarith

/-- The cap lies on the line from one to zero over the period. -/
theorem Documented.alwayscutoff_eq (documented : p.Documented)
    : p.alwayscutoff = 1 - p.xCap / p.tPeriod := by
  have positive : p.tPeriod ≠ 0 := by
    have period := documented.period.1
    linarith
  unfold xCap
  rw [mul_div_cancel_left₀ _ positive]
  ring

theorem Documented.steep (documented : p.Documented) {length : ℚ} (positive : 0 ≤ length)
    : (-p.slopeOuter - p.slopeCo) * length ≤ 4 * (length / p.tPeriod) := by
  have period : 0 < p.tPeriod := by linarith [documented.period.1]
  have bounded := documented.intensity.2
  have share : 0 ≤ length / p.tPeriod := div_nonneg positive period.le
  have slopes : (-p.slopeOuter - p.slopeCo) * length
      = (2 + 2 * p.intensity) * (length / p.tPeriod) := by
    unfold slopeOuter slopeCo slopeNaive
    ring
  rw [slopes]
  exact mul_le_mul_of_nonneg_right (by linarith) share

theorem Documented.slopes (documented : p.Documented) : p.slopeOuter ≤ 0 ∧ p.slopeCo ≤ 0 := by
  have period : 0 < p.tPeriod := by linarith [documented.period.1]
  obtain ⟨low, high⟩ := documented.intensity
  have naive : p.slopeNaive ≤ 0 := div_nonpos_of_nonpos_of_nonneg (by norm_num) period.le
  exact ⟨mul_nonpos_of_nonneg_of_nonpos (by linarith) naive,
    mul_nonpos_of_nonpos_of_nonneg naive (by linarith)⟩

theorem Documented.maxFrac_nonneg (documented : p.Documented) : 0 ≤ p.maxFrac := by
  have low := documented.intensity.1
  unfold maxFrac
  linarith

/-- The piece from the cap to the changeoff. -/
theorem Documented.middle_descends (documented : p.Documented) (ahead : p.xCap < p.xCo)
    : ∃ height : ℚ → ℚ,
      (∀ x, pieceAt p.atCap p.slopeOuter p.atChangeoff p.slopeCo p.maxFrac x = .ok (height x))
      ∧ Descends handleTolerance p.alwayscutoff p.fNaiveCo height
      ∧ (ExactHandles p.atCap p.slopeOuter p.atChangeoff p.slopeCo p.maxFrac
        → Descends 0 p.alwayscutoff p.fNaiveCo height) := by
  refine piece_descends documented.slopes.1 documented.slopes.2 documented.maxFrac_nonneg ahead ?_
  have steep := documented.steep (sub_pos.mpr ahead).le
  have drop : (p.xCo - p.xCap) / p.tPeriod = p.alwayscutoff - p.fNaiveCo := by
    rw [documented.alwayscutoff_eq, fNaiveCo]
    ring
  rw [drop] at steep
  exact steep

/-- The piece from the changeoff to the end of the window. -/
theorem Documented.last_descends (documented : p.Documented)
    : ∃ height : ℚ → ℚ,
      (∀ x, pieceAt p.atChangeoff p.slopeCo p.atEnd p.slopeOuter p.maxFrac x = .ok (height x))
      ∧ Descends handleTolerance p.fNaiveCo 0 height
      ∧ (ExactHandles p.atChangeoff p.slopeCo p.atEnd p.slopeOuter p.maxFrac
        → Descends 0 p.fNaiveCo 0 height) := by
  have ahead : p.xCo < p.bEff := xCo_lt_bEff
  have period : 0 < p.tPeriod := by linarith [documented.period.1]
  refine piece_descends documented.slopes.2 documented.slopes.1 documented.maxFrac_nonneg ahead ?_
  have steep := documented.steep (sub_pos.mpr ahead).le
  have whole : (p.bEff - p.xCo) / p.tPeriod ≤ p.fNaiveCo := by
    have share := div_le_div_of_nonneg_right
      (sub_le_sub_right documented.bEff_le p.xCo) period.le
    rw [sub_div p.tPeriod, div_self period.ne'] at share
    exact share
  calc (-p.slopeCo - p.slopeOuter) * (p.bEff - p.xCo)
      = (-p.slopeOuter - p.slopeCo) * (p.bEff - p.xCo) := by ring
    _ ≤ 4 * ((p.bEff - p.xCo) / p.tPeriod) := steep
    _ ≤ 4 * (p.fNaiveCo - 0) := by linarith

def heightBy (p : CurveParameters) (middle last : ℚ → ℚ) (x : ℚ) : ℚ :=
  if x ≤ 0 ∨ p.bEff ≤ x then 0
  else if x ≤ p.xCap then p.alwayscutoff
  else if x ≤ p.xCo then middle x
  else last x

/-- Pieces that fall up to a slack, with a gap where the changeoff lies before the cap. -/
structure Pieces (p : CurveParameters) (middle last : ℚ → ℚ) (slack gap : ℚ) : Prop where
  middle : p.xCap < p.xCo → Descends slack p.alwayscutoff p.fNaiveCo middle
  last : p.xCap < p.bEff → Descends slack p.fNaiveCo 0 last
  gap : p.xCap < p.bEff → p.fNaiveCo ≤ p.alwayscutoff + gap

section Heights

variable {middle last : ℚ → ℚ} {slack gap x x' : ℚ}

theorem Documented.fNaiveCo_nonneg (documented : p.Documented) : 0 ≤ p.fNaiveCo := by
  have period : 0 < p.tPeriod := by linarith [documented.period.1]
  have before : p.xCo ≤ p.tPeriod := (xCo_lt_bEff.trans_le documented.bEff_le).le
  have share : p.xCo / p.tPeriod ≤ 1 := (div_le_one period).mpr before
  unfold fNaiveCo
  linarith

theorem heightBy_bounded (documented : p.Documented) (pieces : Pieces p middle last slack gap)
    (slack_nonneg : 0 ≤ slack) (gap_nonneg : 0 ≤ gap)
    : -slack ≤ heightBy p middle last x ∧ heightBy p middle last x ≤ 1 + (slack + gap) := by
  obtain ⟨low, high⟩ := documented.cutoff
  have naive := documented.fNaiveCo_nonneg
  unfold heightBy
  by_cases outside : x ≤ 0 ∨ p.bEff ≤ x
  · rw [if_pos outside]
    constructor
    · linarith
    · linarith
  · obtain ⟨-, inside⟩ := not_or.mp outside
    rw [if_neg outside]
    by_cases cap : x ≤ p.xCap
    · rw [if_pos cap]
      constructor
      · linarith
      · linarith
    · rw [if_neg cap]
      by_cases before : x ≤ p.xCo
      · have descends := pieces.middle ((not_le.mp cap).trans_le before)
        have below := descends.below x
        have above := descends.above x
        rw [if_pos before]
        constructor
        · linarith
        · linarith
      · have within : p.xCap < p.bEff := (not_le.mp cap).trans (not_le.mp inside)
        have below := (pieces.last within).below x
        have above := (pieces.last within).above x
        have gaps := pieces.gap within
        rw [if_neg before]
        constructor
        · linarith
        · linarith

/-- The threshold falls across all boundaries of its pieces. -/
theorem heightBy_falls (documented : p.Documented) (pieces : Pieces p middle last slack gap)
    (slack_nonneg : 0 ≤ slack) (gap_nonneg : 0 ≤ gap) (positive : 0 < x) (later : x ≤ x')
    : heightBy p middle last x' ≤ heightBy p middle last x + (2 * slack + gap) := by
  by_cases ended : p.bEff ≤ x'
  · have zero : heightBy p middle last x' = 0 := if_pos (.inr ended)
    have low := (@heightBy_bounded p middle last slack gap x documented pieces slack_nonneg
      gap_nonneg).1
    linarith
  · have inside : ¬ (x ≤ 0 ∨ p.bEff ≤ x) := by
      intro outside
      rcases outside with early | late
      · linarith
      · exact ended (late.trans later)
    have inside' : ¬ (x' ≤ 0 ∨ p.bEff ≤ x') := by
      intro outside
      rcases outside with early | late
      · linarith
      · exact ended late
    unfold heightBy
    rw [if_neg inside, if_neg inside']
    by_cases cap : x ≤ p.xCap
    · rw [if_pos cap]
      by_cases cap' : x' ≤ p.xCap
      · rw [if_pos cap']
        linarith
      · rw [if_neg cap']
        by_cases before' : x' ≤ p.xCo
        · have below := (pieces.middle ((not_le.mp cap').trans_le before')).below x'
          rw [if_pos before']
          linarith
        · have within : p.xCap < p.bEff := (not_le.mp cap').trans (not_le.mp ended)
          have below := (pieces.last within).below x'
          have gaps := pieces.gap within
          rw [if_neg before']
          linarith
    · have cap' : ¬ x' ≤ p.xCap := fun under => cap (later.trans under)
      have within : p.xCap < p.bEff := (not_le.mp cap').trans (not_le.mp ended)
      rw [if_neg cap, if_neg cap']
      by_cases before : x ≤ p.xCo
      · have descends := pieces.middle ((not_le.mp cap).trans_le before)
        rw [if_pos before]
        by_cases before' : x' ≤ p.xCo
        · have falls := descends.falls x x' later
          rw [if_pos before']
          linarith
        · have above := descends.above x
          have below := (pieces.last within).below x'
          rw [if_neg before']
          linarith
      · have before' : ¬ x' ≤ p.xCo := fun early => before (later.trans early)
        have falls := (pieces.last within).falls x x' later
        rw [if_neg before, if_neg before']
        linarith

end Heights

/-- Where neither the tolerance of the handles nor the gap before the end is used. -/
def Exact (p : CurveParameters) : Prop :=
  p.xCap < p.bEff
    → p.xCap ≤ p.xCo
      ∧ (p.xCap < p.xCo → ExactHandles p.atCap p.slopeOuter p.atChangeoff p.slopeCo p.maxFrac)
      ∧ ExactHandles p.atChangeoff p.slopeCo p.atEnd p.slopeOuter p.maxFrac

/-- The values of the threshold: in the unit interval, and falling for positive times, up to a
slack.
-/
structure ThresholdFalls (p : CurveParameters) (slack : ℚ) (threshold : ℚ → ℚ) : Prop where
  returns : ∀ x, fThreshold p x = .ok (threshold x)
  low : ∀ x, -slack ≤ threshold x
  high : ∀ x, threshold x ≤ 1 + slack
  falls : ∀ x x', 0 < x → x ≤ x' → threshold x' ≤ threshold x + slack

/-- The changeoff lies less than a billionth before the cap. -/
theorem xCap_sub_xCo (within : p.xCap < p.bEff) : p.xCap - p.xCo ≤ 1 / 10 ^ 9 := by
  have cap : p.xCap ≤ max (p.cChangeoff * p.bEff) p.xCap := le_max_right _ _
  have changeoff : min p.xCap (p.bEff - 1 / 10 ^ 9) ≤ p.xCo := min_le_min_right _ cap
  rcases min_le_iff.mp changeoff with early | late
  · linarith [show (0 : ℚ) ≤ 1 / 10 ^ 9 by norm_num]
  · linarith

theorem Documented.gap (documented : p.Documented) (within : p.xCap < p.bEff)
    : p.fNaiveCo ≤ p.alwayscutoff + 1 / (300 * 10 ^ 9) := by
  have period := documented.period.1
  have positive : 0 < p.tPeriod := by linarith
  have share : (p.xCap - p.xCo) / p.tPeriod ≤ 1 / 10 ^ 9 / 300 := by
    rw [div_le_iff₀ positive]
    have distance := xCap_sub_xCo within
    linarith
  rw [sub_div] at share
  rw [documented.alwayscutoff_eq, fNaiveCo]
  linarith

/-- Without the gap the changeoff is at most the cutoff. -/
theorem Documented.fNaiveCo_le (documented : p.Documented) (ordered : p.xCap ≤ p.xCo)
    : p.fNaiveCo ≤ p.alwayscutoff := by
  have period : 0 < p.tPeriod := by linarith [documented.period.1]
  have share := div_le_div_of_nonneg_right ordered period.le
  rw [documented.alwayscutoff_eq, fNaiveCo]
  linarith

/-- The threshold is put together of its two pieces. -/
theorem Documented.fThreshold_eq (documented : p.Documented) {middle last : ℚ → ℚ}
    (middles : p.xCap < p.xCo → ∀ x,
      pieceAt p.atCap p.slopeOuter p.atChangeoff p.slopeCo p.maxFrac x = .ok (middle x))
    (lasts : ∀ x,
      pieceAt p.atChangeoff p.slopeCo p.atEnd p.slopeOuter p.maxFrac x = .ok (last x)) (x : ℚ)
    : fThreshold p x = .ok (heightBy p middle last x) := by
  have period : p.tPeriod ≠ 0 := by linarith [documented.period.1]
  simp only [fThreshold, heightBy, if_neg period]
  by_cases outside : x ≤ 0 ∨ p.tPeriod - p.tAlwaysyes ≤ x
  · have outside' : x ≤ 0 ∨ p.bEff ≤ x := outside
    rw [if_pos outside, if_pos outside']
  · have outside' : ¬ (x ≤ 0 ∨ p.bEff ≤ x) := outside
    rw [if_neg outside, if_neg outside']
    by_cases cap : x ≤ p.xCap
    · rw [if_pos cap, if_pos cap]
    · rw [if_neg cap, if_neg cap]
      by_cases before : x ≤ p.xCo
      · rw [if_pos before, if_pos before]
        exact middles ((not_le.mp cap).trans_le before) x
      · rw [if_neg before, if_neg before]
        exact lasts x

/-- Pieces with their slack and gap give the values of the threshold. -/
theorem thresholdFalls_of_pieces (documented : p.Documented) {middle last : ℚ → ℚ}
    {slack gap bound : ℚ} (pieces : Pieces p middle last slack gap) (slack_nonneg : 0 ≤ slack)
    (gap_nonneg : 0 ≤ gap) (enough : 2 * slack + gap ≤ bound)
    (returns : ∀ x, fThreshold p x = .ok (heightBy p middle last x))
    : ThresholdFalls p bound (heightBy p middle last) := by
  have bounded := fun x =>
    @heightBy_bounded p middle last slack gap x documented pieces slack_nonneg gap_nonneg
  refine ⟨returns, fun x => ?_, fun x => ?_, fun x x' positive later => ?_⟩
  · linarith [(bounded x).1]
  · linarith [(bounded x).2]
  · have falls := heightBy_falls documented pieces slack_nonneg gap_nonneg positive later
    linarith

/-- Within the documented ranges the assertion holds, and the threshold stays in the unit interval
and falls, up to a tolerance that is not needed for exact handles.
-/
theorem fThreshold_falls (documented : p.Documented)
    : ∃ threshold, ThresholdFalls p (1 / 10 ^ 11) threshold
      ∧ (p.Exact → ThresholdFalls p 0 threshold) := by
  have middle : ∃ middle : ℚ → ℚ, p.xCap < p.xCo →
      (∀ x, pieceAt p.atCap p.slopeOuter p.atChangeoff p.slopeCo p.maxFrac x = .ok (middle x))
      ∧ Descends handleTolerance p.alwayscutoff p.fNaiveCo middle
      ∧ (ExactHandles p.atCap p.slopeOuter p.atChangeoff p.slopeCo p.maxFrac
        → Descends 0 p.alwayscutoff p.fNaiveCo middle) := by
    by_cases ahead : p.xCap < p.xCo
    · obtain ⟨middle, descends⟩ := documented.middle_descends ahead
      exact ⟨middle, fun _ => descends⟩
    · exact ⟨fun _ => 0, fun other => absurd other ahead⟩
  obtain ⟨middle, middles⟩ := middle
  obtain ⟨last, lasts, descends, exactly⟩ := documented.last_descends
  have returns := documented.fThreshold_eq (fun ahead => (middles ahead).1) lasts
  refine ⟨heightBy p middle last, ?_, fun exact_ => ?_⟩
  · have pieces : Pieces p middle last handleTolerance (1 / (300 * 10 ^ 9)) :=
      ⟨fun ahead => (middles ahead).2.1, fun _ => descends, documented.gap⟩
    refine thresholdFalls_of_pieces documented pieces handleTolerance_pos.le ?_ ?_ returns
    · norm_num
    · unfold handleTolerance
      norm_num
  · have pieces : Pieces p middle last 0 0 := by
      refine ⟨fun ahead => ?_, fun within => exactly (exact_ within).2.2, fun within => ?_⟩
      · have within : p.xCap < p.bEff := ahead.trans xCo_lt_bEff
        exact (middles ahead).2.2 ((exact_ within).2.1 ahead)
      · rw [add_zero]
        exact documented.fNaiveCo_le (exact_ within).1
    exact thresholdFalls_of_pieces documented pieces (le_refl 0) (le_refl 0) (by norm_num) returns

/-- The defaults of `f` over a period of 1000 minutes. -/
def defaults : CurveParameters := ⟨1000, 7 / 10, 15, 6 / 10, 1⟩

theorem fThreshold_defaults
    : defaults.Documented
      ∧ ∃ threshold, ThresholdFalls defaults (1 / 10 ^ 11) threshold
        ∧ (defaults.Exact → ThresholdFalls defaults 0 threshold) := by
  have documented : defaults.Documented := by
    constructor
    · norm_num [defaults]
    · norm_num [defaults]
    · norm_num [defaults]
    · norm_num [defaults]
    · norm_num [defaults]
  exact ⟨documented, fThreshold_falls documented⟩

/-- A changeoff right behind the cap, whose handles pass by their tolerance. -/
def shortMiddle : CurveParameters := ⟨1000, 1 / 10 ^ 13, 15, 1, 1⟩

/-- The threshold rises in the short piece, and above one. -/
theorem shortMiddle_rises
    : shortMiddle.Documented
      ∧ (fThreshold shortMiddle (1 / 10 ^ 13)).toOption.getD 1
        < (fThreshold shortMiddle (492 / 10 ^ 13)).toOption.getD 0
      ∧ 1 < (fThreshold shortMiddle (492 / 10 ^ 13)).toOption.getD 0 := by
  refine ⟨?_, ?_, ?_⟩
  · constructor
    · norm_num [shortMiddle]
    · norm_num [shortMiddle]
    · norm_num [shortMiddle]
    · norm_num [shortMiddle]
    · norm_num [shortMiddle]
  · decide +kernel
  · decide +kernel

end CurveParameters

end Murder.Scheduling
