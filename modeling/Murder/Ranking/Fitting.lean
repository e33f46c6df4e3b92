import Murder.Ranking.Shaping

/-! Every shaped range lies within the lines of its candidate's file. -/

namespace Murder.Ranking

open Evidence Library.Transactions

variable {range : LineRange} {start stop : Int} {shapeTag : String} {extraReasons : List String}

section Ranges

variable [ShapingSource] {Score : Type}

def InFile (path : String) (range : LineRange) : Prop :=
  ∃ text, ShapingSource.files path = some text ∧ range.stop ≤ countSourceLines text

def Fits (path : String) (shaped : ShapedRange Score) : Prop :=
  shaped.path = path ∧ InFile path shaped.lineRange

variable {item : ScoredCandidate Score} {weights : ProfileWeights Score}
  {shaped : ShapedRange Score} {all : List (ShapedRange Score)} {path : String}

theorem clampTo_inFile {clamped : LineRange} (clamps : clampTo path range = some clamped)
    : InFile path clamped := by
  obtain ⟨count, counted, clamped_⟩ := Option.bind_eq_some_iff.mp clamps
  obtain ⟨text, read, same⟩ := Option.map_eq_some_iff.mp counted
  refine ⟨text, read, ?_⟩
  cases result : clampRange range count with
  | error raised =>
    rw [result] at clamped_
    cases clamped_
  | ok cut =>
    rw [result] at clamped_
    cases clamped_
    unfold clampRange at result
    by_cases empty : count = 0
    · rw [if_pos empty] at result
      cases result
    · rw [if_neg empty] at result
      by_cases behind : count < range.start
      · rw [dif_pos behind] at result
        cases result
      · rw [dif_neg behind] at result
        cases result
        rw [same]
        exact Nat.min_le_right _ _

omit [ShapingSource] in
theorem makeRange_stop (made : makeRange start stop = some range)
    : range.start = start ∧ range.stop = stop := by
  unfold makeRange at made
  by_cases valid : 0 < start ∧ start ≤ stop
  · rw [dif_pos valid] at made
    cases made
    exact ⟨Int.toNat_of_nonneg (by omega), Int.toNat_of_nonneg (by omega)⟩
  · rw [dif_neg valid] at made
    cases made

theorem head_inFile {count : Nat}
    (counted : lineCount path = some count) (made : makeRange 1 stop = some range)
    (within : stop ≤ count)
    : InFile path range := by
  obtain ⟨text, read, same⟩ := Option.map_eq_some_iff.mp counted
  obtain ⟨-, stops⟩ := makeRange_stop made
  refine ⟨text, read, ?_⟩
  rw [same]
  omega

theorem shapedAt_fits {unitVersionId : Option Int} {tags : List String}
    (inFile : InFile item.candidate.path range)
    (made : shapedAt item range unitVersionId tags = some shaped)
    : Fits item.candidate.path shaped := by
  obtain ⟨tokens, -, same⟩ := Option.bind_eq_some_iff.mp made
  cases same
  exact ⟨rfl, inFile⟩

theorem windowAround_fits {line before after : Int} {unitVersionId : Option Int}
    (made : windowAround item line before after shapeTag unitVersionId extraReasons = some shaped)
    : Fits item.candidate.path shaped := by
  obtain ⟨wide, -, made⟩ := Option.bind_eq_some_iff.mp made
  obtain ⟨range, clamps, made⟩ := Option.bind_eq_some_iff.mp made
  exact shapedAt_fits (clampTo_inFile clamps) made

/-- A single shape. -/
theorem fits_singleton {result : Option (ShapedRange Score)}
    (each : ∀ shaped, result = some shaped → Fits path shaped)
    (made : (do let shaped ← result; return [shaped]) = some all)
    : ∀ shaped ∈ all, Fits path shaped := by
  obtain ⟨only, found, same⟩ := Option.bind_eq_some_iff.mp made
  cases same
  intro shaped member
  rw [List.mem_singleton.mp member]
  exact each only found

theorem emitUnitOrFocus_fits
    (made : emitUnitOrFocus weights item start stop shapeTag extraReasons = some all)
    : ∀ shaped ∈ all, Fits item.candidate.path shaped := by
  obtain ⟨whole, -, made⟩ := Option.bind_eq_some_iff.mp made
  obtain ⟨range, clamps, made⟩ := Option.bind_eq_some_iff.mp made
  obtain ⟨tokens, -, made⟩ := Option.bind_eq_some_iff.mp made
  have inFile := clampTo_inFile clamps
  dsimp only at made
  split at made
  · split at made
    · exact fits_singleton (fun _ => windowAround_fits) made
    · exact fits_singleton (fun _ => shapedAt_fits inFile) made
  · exact fits_singleton (fun _ => shapedAt_fits inFile) made

/-- The candidate moved to a unit keeps its file. -/
theorem emitUnit_fits {unit : SemanticUnit} {kind : CandidateKind} {category : EvidenceCategory}
    (made : emitUnitOrFocus weights (item.atUnit unit kind category) start stop shapeTag
      extraReasons = some all)
    : ∀ shaped ∈ all, Fits item.candidate.path shaped := by
  have fits := emitUnitOrFocus_fits made
  exact fits

theorem shapeExactHint_fits (made : shapeExactHint item start stop = some all)
    : ∀ shaped ∈ all, Fits item.candidate.path shaped := by
  obtain ⟨whole, -, made⟩ := Option.bind_eq_some_iff.mp made
  obtain ⟨range, clamps, made⟩ := Option.bind_eq_some_iff.mp made
  exact fits_singleton (fun _ => shapedAt_fits (clampTo_inFile clamps)) made

theorem shapeTest_fits (made : shapeTest weights item = some all)
    : ∀ shaped ∈ all, Fits item.candidate.path shaped := by
  unfold shapeTest at made
  split at made
  · exact emitUnitOrFocus_fits made
  · cases made
    exact fun _ none_ => absurd none_ List.not_mem_nil

theorem shapeUnits_fits {items : List (ScoredCandidate Score × SemanticUnit)}
    (sited : ∀ pair ∈ items, pair.1.candidate.path = path)
    (made : shapeUnits weights shapeTag items = some all)
    : ∀ shaped ∈ all, Fits path shaped := by
  obtain ⟨lists, each, same⟩ := Option.bind_eq_some_iff.mp made
  cases same
  intro shaped member
  obtain ⟨list, listed, inside⟩ := List.mem_flatten.mp member
  obtain ⟨pair, among, found⟩ := option_mapM_value each listed
  rw [← sited pair among]
  exact emitUnitOrFocus_fits found shaped inside

omit [ShapingSource] in
/-- Units that are taken for a candidate stay in its file. -/
theorem atUnit_path {units : List SemanticUnit} {kind : CandidateKind}
    {category : SemanticUnit → EvidenceCategory}
    : ∀ pair ∈ units.map (fun unit => (item.atUnit unit kind (category unit), unit)),
      pair.1.candidate.path = item.candidate.path := by
  intro pair member
  obtain ⟨unit, -, same⟩ := List.mem_map.mp member
  rw [← same]
  rfl

theorem shapeFile_fits [LE Score] [DecidableLE Score] (made : shapeFile weights item = some all)
    : ∀ shaped ∈ all, Fits item.candidate.path shaped := by
  obtain ⟨count, counted, made⟩ := Option.bind_eq_some_iff.mp made
  obtain ⟨units, some_, made⟩ := Option.bind_eq_some_iff.mp made
  dsimp only at made
  split at made
  · cases made
    exact shapeUnits_fits atUnit_path some_
  · split at made
    · obtain ⟨range, ranged, made⟩ := Option.bind_eq_some_iff.mp made
      refine fits_singleton (fun _ => shapedAt_fits ?_) made
      exact head_inFile counted ranged (Int.le_refl _)
    · split at made
      · cases made
        exact fun _ none_ => absurd none_ List.not_mem_nil
      · obtain ⟨range, ranged, made⟩ := Option.bind_eq_some_iff.mp made
        refine fits_singleton (fun _ => shapedAt_fits ?_) made
        exact head_inFile counted ranged (Int.min_le_left _ _)

theorem shapeSemantic_fits (made : shapeSemantic weights item = some all)
    : ∀ shaped ∈ all, Fits item.candidate.path shaped := by
  unfold shapeSemantic at made
  dsimp only at made
  split at made
  · obtain ⟨whole, -, made⟩ := Option.bind_eq_some_iff.mp made
    obtain ⟨tokens, -, made⟩ := Option.bind_eq_some_iff.mp made
    split at made
    · exact emitUnitOrFocus_fits made
    · exact fits_singleton (fun _ => windowAround_fits) made
  · exact emitUnitOrFocus_fits made
  · split at made
    · exact emitUnit_fits made
    · cases made
      exact fun _ none_ => absurd none_ List.not_mem_nil
  · cases made
    exact fun _ none_ => absurd none_ List.not_mem_nil

theorem shapeLexicalOrRange_fits {line : Int}
    (made : shapeLexicalOrRange weights item line = some all)
    : ∀ shaped ∈ all, Fits item.candidate.path shaped := by
  unfold shapeLexicalOrRange at made
  split at made
  · obtain ⟨whole, -, made⟩ := Option.bind_eq_some_iff.mp made
    obtain ⟨tokens, -, made⟩ := Option.bind_eq_some_iff.mp made
    split at made
    · exact emitUnit_fits made
    · exact fits_singleton (fun _ => windowAround_fits) made
  · exact fits_singleton (fun _ => windowAround_fits) made

theorem shapeCallSiteWindow_fits (made : shapeCallSiteWindow item = some all)
    : ∀ shaped ∈ all, Fits item.candidate.path shaped := by
  unfold shapeCallSiteWindow at made
  dsimp only at made
  split at made
  · obtain ⟨wide, -, made⟩ := Option.bind_eq_some_iff.mp made
    obtain ⟨range, clamps, made⟩ := Option.bind_eq_some_iff.mp made
    exact fits_singleton (fun _ => shapedAt_fits (clampTo_inFile clamps)) made
  · exact fits_singleton (fun _ => windowAround_fits) made
  · exact fits_singleton (fun _ => windowAround_fits) made
  · cases made
    exact fun _ none_ => absurd none_ List.not_mem_nil

theorem shapeCallSite_fits (made : shapeCallSite weights item = some all)
    : ∀ shaped ∈ all, Fits item.candidate.path shaped := by
  unfold shapeCallSite at made
  split at made
  · obtain ⟨whole, -, made⟩ := Option.bind_eq_some_iff.mp made
    obtain ⟨tokens, -, made⟩ := Option.bind_eq_some_iff.mp made
    split at made
    · exact emitUnitOrFocus_fits made
    · exact shapeCallSiteWindow_fits made
  · exact shapeCallSiteWindow_fits made

theorem shapeResource_fits (made : shapeResource weights item extraReasons = some all)
    : ∀ shaped ∈ all, Fits item.candidate.path shaped := by
  unfold shapeResource at made
  dsimp only at made
  split at made
  · exact emitUnitOrFocus_fits made
  · obtain ⟨count, counted, made⟩ := Option.bind_eq_some_iff.mp made
    split at made
    · obtain ⟨range, ranged, made⟩ := Option.bind_eq_some_iff.mp made
      refine fits_singleton (fun _ => shapedAt_fits ?_) made
      exact head_inFile counted ranged (Int.le_refl _)
    · next large =>
        split at made
        · exact emitUnit_fits made
        · obtain ⟨range, ranged, made⟩ := Option.bind_eq_some_iff.mp made
          refine fits_singleton (fun _ => shapedAt_fits ?_) made
          refine head_inFile counted ranged ?_
          unfold smallFileLineThreshold at large
          omega

theorem shapeRelationship_fits [LE Score] [DecidableLE Score]
    (made : shapeRelationship weights item = some all)
    : ∀ shaped ∈ all, Fits item.candidate.path shaped := by
  unfold shapeRelationship at made
  dsimp only at made
  split at made
  · exact shapeResource_fits made
  · split at made
    · exact shapeCallSite_fits made
    · split at made
      · exact emitUnitOrFocus_fits made
      · exact shapeFile_fits made

theorem shapeTestFile_fits (made : shapeTestFile weights item = some (some all))
    : ∀ shaped ∈ all, Fits item.candidate.path shaped := by
  have functions : ∀ result, (do
      let shaped ← shapeUnits weights "shape:focused_test"
        ((firstUnits (topLevelUnitsForPath item.candidate.path) weights.maxCandidatesPerFile).map
          (fun unit => (item.atUnit unit .test .test, unit)))
      return if shaped = [] then none else some shaped) = some (some result)
      → ∀ shaped ∈ result, Fits item.candidate.path shaped := by
    intro result made
    obtain ⟨units, some_, made⟩ := Option.bind_eq_some_iff.mp made
    split at made
    · cases made
    · cases made
      exact shapeUnits_fits atUnit_path some_
  unfold shapeTestFile at made
  dsimp only at made
  split at made
  · obtain ⟨tests, found, same⟩ := Option.map_eq_some_iff.mp made
    cases same
    exact shapeTest_fits found
  · split at made
    · obtain ⟨tests, found, same⟩ := Option.map_eq_some_iff.mp made
      cases same
      have fits := shapeTest_fits found
      exact fits
    · exact functions all made
  · exact functions all made

section Kinds

variable [LE Score] [DecidableLE Score]

theorem shapeKind_fits (made : shapeKind weights item = .ok (some all))
    : ∀ shaped ∈ all, Fits item.candidate.path shaped := by
  unfold shapeKind at made
  dsimp only at made
  split at made
  · split at made
    · exact shapeExactHint_fits (Except.ok.inj made)
    · cases made
  · have made := Except.ok.inj made
    split at made
    · exact shapeTest_fits made
    · exact shapeFile_fits made
    · exact shapeFile_fits made
    · exact shapeRelationship_fits made
    · exact shapeSemantic_fits made
    · exact shapeSemantic_fits made
    · exact shapeLexicalOrRange_fits made
    · exact shapeFile_fits made

theorem shapeOne_fits (made : shapeOne weights item = .ok all)
    : ∀ shaped ∈ all, Fits item.candidate.path shaped := by
  unfold shapeOne at made
  dsimp only at made
  split at made
  · cases made
    exact fun _ none_ => absurd none_ List.not_mem_nil
  · next shaped found =>
      cases made
      split at found
      · exact shapeTestFile_fits found
      · cases found
  · cases kind : shapeKind weights item with
    | error raised =>
      rw [kind] at made
      cases made
    | ok result =>
      rw [kind] at made
      cases made
      cases result with
      | none => exact fun _ none_ => absurd none_ List.not_mem_nil
      | some shaped => exact shapeKind_fits kind

theorem shapeOne_returns
    (lines : item.candidate.kind = .exactRange
      → item.candidate.startLine.isSome = true ∧ item.candidate.endLine.isSome = true)
    : ∃ all, shapeOne weights item = .ok all := by
  have returns : ∃ result, shapeKind weights item = .ok result := by
    unfold shapeKind
    dsimp only
    split
    · next hinted =>
        have both : item.candidate.startLine.isSome = true
            ∧ item.candidate.endLine.isSome = true := by
          rcases hinted with exact_ | hint
          · exact lines exact_
          · exact ⟨hint.2.1, hint.2.2.1⟩
        obtain ⟨start, starts⟩ := Option.isSome_iff_exists.mp both.1
        obtain ⟨stop, stops⟩ := Option.isSome_iff_exists.mp both.2
        rw [starts, stops]
        exact ⟨_, rfl⟩
    · exact ⟨_, rfl⟩
  obtain ⟨result, kind⟩ := returns
  unfold shapeOne
  dsimp only
  rw [kind]
  split
  · exact ⟨_, rfl⟩
  · exact ⟨_, rfl⟩
  · exact ⟨_, rfl⟩

end Kinds

end Ranges

end Murder.Ranking
