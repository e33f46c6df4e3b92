import Murder.Ranking.Windows

/-! Shaping keeps its budgets, over every list of candidates. -/

namespace Murder.Ranking

open Library.Transactions

section Shaping

variable [ShapingSource] {Score : Type} {weights : ProfileWeights Score}
  {tokenCeiling : Int}

def proposalsOf (path : String) (proposals : List (ShapedRange Score)) : Nat :=
  proposals.countP (·.path = path)

/-- Proposals within the budgets; a negative budget allows what zero does. -/
structure WithinBudgets (weights : ProfileWeights Score) (tokenCeiling : Int)
    (proposals : List (ShapedRange Score)) (totalTokens : Int) : Prop where
  total : totalTokens = (proposals.map (·.estimatedTokens)).sum
  tokens : totalTokens ≤ max tokenCeiling 0
  count : (proposals.length : Int) ≤ max weights.maxRangeProposals 0
  files : ∀ path, (proposalsOf path proposals : Int) ≤ max weights.maxCandidatesPerFile 0
  inFile : ∀ proposal ∈ proposals, InFile proposal.path proposal.lineRange

/-- The invariant of shaping: the budgets, the counters of the files, and pending windows within
their files.
-/
structure Budgeted (weights : ProfileWeights Score) (tokenCeiling : Int)
    (state : ShapeState Score) : Prop where
  within : WithinBudgets weights tokenCeiling state.accepted state.totalTokens
  perFile : ∀ path, state.perFile path = proposalsOf path state.accepted
  pending : ∀ window ∈ state.pendingLexical, InFile window.path window.lineRange

theorem Budgeted.initial : Budgeted weights tokenCeiling ({} : ShapeState Score) where
  within :=
    { total := rfl
      tokens := le_max_right _ _
      count := le_max_right _ _
      files := fun _ => le_max_right _ _
      inFile := fun _ member => absurd member List.not_mem_nil }
  perFile := fun _ => rfl
  pending := fun _ member => absurd member List.not_mem_nil

theorem Fits.inFile {path : String} {shaped : ShapedRange Score} (fits : Fits path shaped)
    : InFile shaped.path shaped.lineRange := by
  rw [fits.1]
  exact fits.2

variable {state : ShapeState Score} {shaped : ShapedRange Score}

theorem Budgeted.truncate (budgeted : Budgeted weights tokenCeiling state)
    : Budgeted weights tokenCeiling state.truncate :=
  ⟨budgeted.within, budgeted.perFile, budgeted.pending⟩

theorem Budgeted.pend (budgeted : Budgeted weights tokenCeiling state)
    (inFile : InFile shaped.path shaped.lineRange)
    : Budgeted weights tokenCeiling
        { state with pendingLexical := state.pendingLexical ++ [shaped] } := by
  refine ⟨budgeted.within, budgeted.perFile, fun window member => ?_⟩
  rcases List.mem_append.mp member with before | last
  · exact budgeted.pending window before
  · rw [List.mem_singleton.mp last]
    exact inFile

/-- A proposal that passes the three checks is accepted within the budgets. -/
theorem Budgeted.accept (budgeted : Budgeted weights tokenCeiling state)
    (inFile : InFile shaped.path shaped.lineRange)
    (tokens : ¬ tokenCeiling < state.totalTokens + shaped.estimatedTokens)
    (file : ¬ weights.maxCandidatesPerFile ≤ state.perFile shaped.path)
    (count : ¬ weights.maxRangeProposals ≤ state.accepted.length)
    : Budgeted weights tokenCeiling (state.accept shaped) := by
  have counted : ∀ path, proposalsOf path (state.accepted ++ [shaped])
      = proposalsOf path state.accepted + if shaped.path = path then 1 else 0 := by
    intro path
    unfold proposalsOf
    rw [List.countP_append, List.countP_singleton]
    simp only [decide_eq_true_eq]
  refine ⟨⟨?_, ?_, ?_, fun path => ?_, fun proposal member => ?_⟩, fun path => ?_,
    budgeted.pending⟩
  · simp only [ShapeState.accept, List.map_append, List.sum_append, budgeted.within.total,
      List.map_cons, List.map_nil, List.sum_cons, List.sum_nil, add_zero]
  · exact (not_lt.mp tokens).trans (le_max_left _ _)
  · refine le_trans ?_ (le_max_left _ _)
    simp only [ShapeState.accept, List.length_append, List.length_singleton]
    omega
  · simp only [ShapeState.accept, counted]
    have kept := budgeted.within.files path
    by_cases same : shaped.path = path
    · rw [if_pos same]
      rw [same, budgeted.perFile] at file
      omega
    · rw [if_neg same]
      exact kept
  · rcases List.mem_append.mp member with before | last
    · exact budgeted.within.inFile proposal before
    · rw [List.mem_singleton.mp last]
      exact inFile
  · simp only [ShapeState.accept, counted]
    by_cases same : shaped.path = path
    · rw [if_pos same, ← same, Function.update_self, budgeted.perFile]
      rfl
    · rw [if_neg same, Function.update_of_ne (Ne.symm same), budgeted.perFile]
      rfl

theorem acceptShaped_budgeted {all : List (ShapedRange Score)}
    (inFile : ∀ shaped ∈ all, InFile shaped.path shaped.lineRange)
    (budgeted : Budgeted weights tokenCeiling state)
    : Budgeted weights tokenCeiling (acceptShaped weights tokenCeiling all state) := by
  induction all generalizing state with
  | nil => exact budgeted
  | cons shaped rest ih =>
    have own := inFile shaped List.mem_cons_self
    have later := fun other among => inFile other (List.mem_cons_of_mem shaped among)
    unfold acceptShaped
    split
    · exact ih later (budgeted.pend own)
    · split
      · exact ih later budgeted.truncate
      · next tokens =>
          split
          · exact ih later budgeted.truncate
          · next file =>
              split
              · exact budgeted.truncate
              · next count => exact ih later (budgeted.accept own tokens file count)

theorem acceptWindows_budgeted {all : List (ShapedRange Score)}
    (inFile : ∀ shaped ∈ all, InFile shaped.path shaped.lineRange)
    (budgeted : Budgeted weights tokenCeiling state)
    : Budgeted weights tokenCeiling (acceptWindows weights tokenCeiling all state) := by
  induction all generalizing state with
  | nil => exact budgeted
  | cons shaped rest ih =>
    have own := inFile shaped List.mem_cons_self
    have later := fun other among => inFile other (List.mem_cons_of_mem shaped among)
    unfold acceptWindows
    split
    · exact budgeted.truncate
    · next count =>
        split
        · exact ih later budgeted.truncate
        · next file =>
            split
            · exact ih later budgeted.truncate
            · next tokens => exact ih later (budgeted.accept own tokens file count)

variable [LinearOrder Score]

theorem shapeCandidates_budgeted {scored : List (ScoredCandidate Score)}
    {final : ShapeState Score} (budgeted : Budgeted weights tokenCeiling state)
    (returned : shapeCandidates weights tokenCeiling scored state = .ok final)
    : Budgeted weights tokenCeiling final := by
  induction scored generalizing state with
  | nil =>
    cases returned
    exact budgeted
  | cons item rest ih =>
    unfold shapeCandidates at returned
    split at returned
    · cases returned
      exact budgeted.truncate
    · split at returned
      · exact ih budgeted.truncate returned
      · obtain ⟨all, made, returned⟩ := except_bind_ok.mp returned
        have inFile := fun shaped member => (shapeOne_fits made shaped member).inFile
        exact ih (acceptShaped_budgeted inFile budgeted) returned

def HasLines (item : ScoredCandidate Score) : Prop :=
  item.candidate.kind = .exactRange
    → item.candidate.startLine.isSome = true ∧ item.candidate.endLine.isSome = true

theorem shapeCandidates_returns {scored : List (ScoredCandidate Score)}
    (lines : ∀ item ∈ scored, HasLines item)
    : ∃ final, shapeCandidates weights tokenCeiling scored state = .ok final := by
  induction scored generalizing state with
  | nil => exact ⟨state, rfl⟩
  | cons item rest ih =>
    have later := fun other among => lines other (List.mem_cons_of_mem item among)
    unfold shapeCandidates
    split
    · exact ⟨_, rfl⟩
    · split
      · exact ih later
      · obtain ⟨all, made⟩ := shapeOne_returns (lines item List.mem_cons_self)
        obtain ⟨final, returned⟩ := ih later
        exact ⟨final, except_bind_ok.mpr ⟨all, made, returned⟩⟩

/-- The pending windows are merged and accepted file by file, each list within its file. -/
theorem emitLexical_budgeted (budgeted : Budgeted weights tokenCeiling state)
    : ∃ final, emitLexical weights tokenCeiling state = .ok final
      ∧ Budgeted weights tokenCeiling final := by
  have files : ∀ paths : List String, ∀ state',
      Budgeted weights tokenCeiling state' →
      ∃ final, paths.foldlM (fun state' path => do
          let merged ← mergeLexicalWindows (state.pendingLexical.filter (·.path = path))
          return acceptWindows weights tokenCeiling merged state') state'
            = (.ok final : Except ShapingError (ShapeState Score))
        ∧ Budgeted weights tokenCeiling final := by
    intro paths
    induction paths with
    | nil => exact fun state' kept => ⟨state', rfl, kept⟩
    | cons path rest ih =>
      intro state' kept
      have fit : ∀ window ∈ state.pendingLexical.filter (·.path = path), Fits path window := by
        intro window member
        obtain ⟨listed, sited⟩ := List.mem_filter.mp member
        have sited := of_decide_eq_true sited
        exact ⟨sited, sited ▸ budgeted.pending window listed⟩
      obtain ⟨merged, returned, fits⟩ := mergeLexicalWindows_returns fit
      have inFile := fun range member => (fits range member).inFile
      obtain ⟨final, ran, holds⟩ := ih _ (acceptWindows_budgeted inFile kept)
      refine ⟨final, ?_, holds⟩
      rw [List.foldlM_cons]
      exact except_bind_ok.mpr ⟨_, except_bind_ok.mpr ⟨merged, returned, rfl⟩, ran⟩
  exact files _ state budgeted

variable (weights tokenCeiling)

/-- Shaping returns when exact ranges have their lines, and what it returns is within its budgets;
the windows of a file are merged into ranges that cover them and keep apart.
-/
theorem shape_withinBudgets (scored : List (ScoredCandidate Score))
    : ((∀ item ∈ scored, HasLines item)
        → ∃ result, shape weights tokenCeiling scored = .ok result)
      ∧ (∀ proposals totalTokens truncated,
        shape weights tokenCeiling scored = .ok (proposals, totalTokens, truncated)
        → WithinBudgets weights tokenCeiling proposals totalTokens)
      ∧ ∀ windows merged : List (ShapedRange Score),
        mergeLexicalWindows windows = .ok merged → MergesWindows windows merged := by
  refine ⟨fun lines => ?_, fun proposals totalTokens truncated returned => ?_,
    fun windows merged => mergeLexicalWindows_merges⟩
  · obtain ⟨shaped, ran⟩ : ∃ shaped, shapeCandidates weights tokenCeiling scored {} = .ok shaped :=
      shapeCandidates_returns lines
    obtain ⟨final, emitted, -⟩ := emitLexical_budgeted (shapeCandidates_budgeted .initial ran)
    exact ⟨_, except_bind_ok.mpr ⟨shaped, ran, except_bind_ok.mpr ⟨final, emitted, rfl⟩⟩⟩
  · obtain ⟨shaped, ran, returned⟩ := except_bind_ok.mp returned
    obtain ⟨state, emitted, same⟩ := except_bind_ok.mp returned
    obtain ⟨final, emitted', budgeted⟩ :=
      emitLexical_budgeted (shapeCandidates_budgeted .initial ran)
    cases Except.ok.inj (emitted.symm.trans emitted')
    cases same
    exact budgeted.within

end Shaping

namespace BareHint

abbrev source : ShapingSource where
  files := fun _ => none
  units := fun _ => []
  isTestPath := fun _ => false
  countTokens := fun _ => 0

def weights : ProfileWeights Int where
  maxRangeProposals := 1
  maxCandidatesPerFile := 1
  unitTokenCap := 100
  strongScore := 1

/-- An exact range without its lines. -/
def hint : ScoredCandidate Int where
  candidate :=
    { path := "a.py"
      unitVersionId := none
      startLine := none
      endLine := none
      kind := .exactRange
      reasons := []
      provider := "exact_hints"
      metadata := {} }
  score := 1
  reasons := []
  category := .contract

/-- The assertion of the exact range is not caught, and no candidates at all are more than a
negative ceiling allows.
-/
theorem not_within
    : (¬ ∃ result, @shape source Int _ weights 100 [hint] = .ok result)
      ∧ ¬ ∃ proposals totalTokens truncated,
        @shape source Int _ weights (-1) [] = .ok (proposals, totalTokens, truncated)
          ∧ totalTokens ≤ -1 := by
  have raised : @shape source Int _ weights 100 [hint] = .error (.missingLines "a.py") := rfl
  have empty : @shape source Int _ weights (-1) [] = .ok ([], 0, false) := rfl
  refine ⟨fun returned => ?_, fun returned => ?_⟩
  · obtain ⟨result, ran⟩ := returned
    rw [raised] at ran
    cases ran
  · obtain ⟨proposals, totalTokens, truncated, ran, below⟩ := returned
    rw [empty] at ran
    cases ran
    omega

end BareHint

end Murder.Ranking
