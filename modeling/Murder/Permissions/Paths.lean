import Murder.Contracts.Text

/-! The canonical form of a repository path, and which canonical paths are their own. -/

namespace Murder.Permissions

open Contracts Library.Trimming

/-- `PurePosixPath(candidate).parts` of a relative path. -/
def pathParts (candidate : List Char) : List (List Char) :=
  (candidate.splitOn '/').filter (fun part => part ∉ [[], ['.']])

/-- `PurePosixPath.as_posix` of a relative path. -/
def asPosix (parts : List (List Char)) : List Char :=
  if parts = [] then ['.'] else ['/'].intercalate parts

def forwardSlash (c : Char) : Char := if c = '\\' then '/' else c

def RefusedPath (candidate : List Char) : Prop :=
  candidate = [] ∨ '\x00' ∈ candidate ∨ candidate.head? = some '/'
    ∨ ∃ part ∈ pathParts candidate, part ∈ [[], ['.'], ['.', '.']]

instance : DecidablePred RefusedPath :=
  fun candidate => inferInstanceAs (Decidable (candidate = [] ∨ _))

/-- `_canonical_repo_path` -/
def canonicalRepoPath (value : String) : Option String :=
  let candidate := (strip value).toList.map forwardSlash
  if RefusedPath candidate then none else some (String.ofList (asPosix (pathParts candidate)))

variable {candidate : List Char}

theorem mem_pathParts {part : List Char} (member : part ∈ pathParts candidate)
    : part ∉ [[], ['.']] ∧ '/' ∉ part ∧ ∀ c ∈ part, c ∈ candidate := by
  obtain ⟨split, kept⟩ := List.mem_filter.mp member
  exact ⟨of_decide_eq_true kept, not_mem_of_mem_splitOn split,
    fun c inside => mem_of_mem_splitOn split inside⟩

/-- Parts joined are split again. -/
theorem pathParts_asPosix
    : pathParts (asPosix (pathParts candidate)) = pathParts candidate := by
  by_cases empty : pathParts candidate = []
  · rw [empty]
    decide
  · have closed : ∀ part ∈ pathParts candidate, '/' ∉ part :=
      fun part member => (mem_pathParts member).2.1
    rw [asPosix, if_neg empty, pathParts, List.splitOn_intercalate '/' closed empty]
    exact List.filter_eq_self.mpr (fun part member => (List.mem_filter.mp member).2)

/-- The characters of joined parts are those of the path, or separators. -/
theorem mem_asPosix {c : Char} (member : c ∈ asPosix (pathParts candidate))
    : c = '.' ∨ c = '/' ∨ c ∈ candidate := by
  unfold asPosix at member
  split at member
  · exact .inl (List.mem_singleton.mp member)
  · rcases mem_intercalate member with same | found
    · exact .inr (.inl same)
    · obtain ⟨part, member, inside⟩ := found
      exact .inr (.inr ((mem_pathParts member).2.2 c inside))

/-- A joined path is relative. -/
theorem head?_asPosix
    : asPosix (pathParts candidate) ≠ [] ∧ (asPosix (pathParts candidate)).head? ≠ some '/' := by
  unfold asPosix
  split
  · decide
  · next some_ =>
    cases shape : pathParts candidate with
    | nil => exact absurd shape some_
    | cons first later =>
      obtain ⟨nonempty, slashless, _⟩ := mem_pathParts (shape ▸ List.mem_cons_self)
      cases first with
      | nil => exact absurd List.mem_cons_self nonempty
      | cons c first =>
        have other : c ≠ '/' := fun same => slashless (same ▸ List.mem_cons_self)
        cases later <;> simp [other]

/-- Joining the parts of a path adds no whitespace. -/
theorem countP_asPosix (candidate : List Char)
    : (asPosix (pathParts candidate)).countP isSpace ≤ candidate.countP isSpace := by
  have solid : ¬ isSpace '/' := by decide
  have parts : ((pathParts candidate).map (List.countP isSpace)).sum
      ≤ ((candidate.splitOn '/').map (List.countP isSpace)).sum :=
    (List.filter_sublist.map _).sum_le_sum (fun _ _ => Nat.zero_le _)
  have whole := countP_intercalate solid (candidate.splitOn '/')
  rw [List.intercalate_splitOn] at whole
  rw [← whole] at parts
  unfold asPosix
  split
  · exact Nat.zero_le _
  · rwa [countP_intercalate solid]

theorem forwardSlash_id {text : List Char} (plain : '\\' ∉ text)
    : text.map forwardSlash = text := by
  have same : text.map forwardSlash = text.map id :=
    List.map_congr_left (fun c member => if_neg (fun same : c = '\\' => plain (same ▸ member)))
  rwa [List.map_id] at same

theorem countP_forwardSlash (text : List Char)
    : (text.map forwardSlash).countP isSpace = text.countP isSpace := by
  have same : isSpace ∘ forwardSlash = isSpace := by
    funext c
    by_cases back : c = '\\'
    · subst back
      decide
    · exact congrArg isSpace (if_neg back)
  rw [List.countP_map, same]

theorem not_mem_forwardSlash (text : List Char) : '\\' ∉ text.map forwardSlash := by
  intro member
  obtain ⟨c, _, same⟩ := List.mem_map.mp member
  unfold forwardSlash at same
  split at same
  · cases same
  · next other => exact other same

theorem canonicalRepoPath_eq_some {value path : String}
    (canonical : canonicalRepoPath value = some path)
    : ∃ candidate, candidate = (strip value).toList.map forwardSlash
      ∧ path.toList = asPosix (pathParts candidate) ∧ '\x00' ∉ candidate
      ∧ ['.', '.'] ∉ pathParts candidate := by
  refine ⟨_, rfl, ?_⟩
  unfold canonicalRepoPath at canonical
  by_cases refused : RefusedPath ((strip value).toList.map forwardSlash)
  · rw [if_pos refused] at canonical
    cases canonical
  · rw [if_neg refused] at canonical
    rw [← Option.some.inj canonical, String.toList_ofList]
    exact ⟨rfl, fun nul => refused (.inr (.inl nul)),
      fun climbs => refused (.inr (.inr (.inr ⟨_, climbs, by simp⟩)))⟩

theorem canonicalRepoPath_of_strip {value path : String}
    (canonical : canonicalRepoPath value = some path) (stripped : strip path = path)
    : canonicalRepoPath path = some path := by
  obtain ⟨candidate, from_, joined, printable, within⟩ := canonicalRepoPath_eq_some canonical
  have plain : '\\' ∉ path.toList := by
    rw [joined]
    intro member
    rcases mem_asPosix member with same | same | inside
    · cases same
    · cases same
    · exact not_mem_forwardSlash _ (from_ ▸ inside)
  have nul : '\x00' ∉ path.toList := by
    rw [joined]
    intro member
    rcases mem_asPosix member with same | same | inside
    · cases same
    · cases same
    · exact printable inside
  have parts : pathParts path.toList = pathParts candidate := by rw [joined, pathParts_asPosix]
  obtain ⟨nonempty, relative⟩ := @head?_asPosix candidate
  have accepted : ¬ RefusedPath path.toList := by
    intro refused
    rcases refused with empty | refused
    · exact nonempty (joined ▸ empty)
    · rcases refused with control | refused
      · exact nul control
      · rcases refused with absolute | refused
        · exact relative (joined ▸ absolute)
        · obtain ⟨part, member, listed⟩ := refused
          rw [parts] at member
          have kept := (mem_pathParts member).1
          have climbs : part = ['.', '.'] := by
            simp only [List.mem_cons, List.not_mem_nil, or_false, not_or] at listed kept
            exact (listed.resolve_left kept.1).resolve_left kept.2
          exact within (climbs ▸ member)
  unfold canonicalRepoPath
  rw [stripped, forwardSlash_id plain, if_neg accepted, parts, ← joined, String.ofList_toList]

/-- A canonical path is its own canonical form exactly if whitespace does not surround it: the
parts that are left out may have kept it from the ends.
-/
theorem canonicalRepoPath_again {value path : String}
    (canonical : canonicalRepoPath value = some path)
    : canonicalRepoPath path = some path ↔ strip path = path := by
  refine ⟨fun again => ?_, canonicalRepoPath_of_strip canonical⟩
  obtain ⟨candidate, from_, joined, _, _⟩ := canonicalRepoPath_eq_some again
  have fewer := countP_asPosix candidate
  rw [← joined, from_, countP_forwardSlash, toList_strip] at fewer
  have same := trim_eq_self fewer
  rw [← toList_strip] at same
  exact String.toList_inj.mp same

end Murder.Permissions
