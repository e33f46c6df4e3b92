import Mathlib.Data.List.Basic

/-! Texts split into lines at a set of line breaks, where CR LF is one break. -/

namespace Library.Lines

section

variable {breaks more : Char → Bool}

def linesAt (breaks : Char → Bool) : List Char → List Char → List (List Char)
  | line, [] => if line = [] then [] else [line.reverse]
  | line, '\r' :: '\n' :: rest => line.reverse :: linesAt breaks [] rest
  | line, c :: rest =>
    if breaks c then line.reverse :: linesAt breaks [] rest else linesAt breaks (c :: line) rest

attribute [local simp] linesAt

theorem linesAt_break {c : Char} {before rest : List Char} (ends : breaks c = true)
    (lone : c = '\r' → rest.head? ≠ some '\n')
    : linesAt breaks before (c :: rest) = before.reverse :: linesAt breaks [] rest := by
  rw [linesAt, if_pos ends]
  intro behind carriage feed
  exact lone carriage (by rw [feed]; rfl)

theorem linesAt_within {c : Char} {before rest : List Char} (within : breaks c = false)
    (carriage : breaks '\r' = true)
    : linesAt breaks before (c :: rest) = linesAt breaks (c :: before) rest := by
  rw [linesAt, if_neg (by simp [within])]
  intro behind same _
  rw [same, carriage] at within
  cases within

/-- No line holds a break, by induction over the text behind the open line. -/
theorem linesAt_closed {before rest line : List Char} (opened : ∀ c ∈ before, breaks c = false)
    (member : line ∈ linesAt breaks before rest)
    : ∀ c ∈ line, breaks c = false := by
  fun_induction linesAt breaks before rest with
  | case1 => cases member
  | case2 before _ =>
    intro c inside
    rw [List.mem_singleton.mp member, List.mem_reverse] at inside
    exact opened c inside
  | case3 before rest ih =>
    rcases List.mem_cons.mp member with same | later
    · intro c inside
      rw [same, List.mem_reverse] at inside
      exact opened c inside
    · exact ih (fun _ none_ => absurd none_ List.not_mem_nil) later
  | case4 before c rest _ ends ih =>
    rcases List.mem_cons.mp member with same | later
    · intro c inside
      rw [same, List.mem_reverse] at inside
      exact opened c inside
    · exact ih (fun _ none_ => absurd none_ List.not_mem_nil) later
  | case5 before c rest _ within ih =>
    refine ih (fun item inside => ?_) member
    rcases List.mem_cons.mp inside with same | earlier
    · rw [same]
      exact Bool.eq_false_iff.mpr within
    · exact opened item earlier

theorem linesAt_closed_append {before line rest : List Char}
    (closed : ∀ c ∈ line, breaks c = false) (carriage : breaks '\r' = true)
    : linesAt breaks before (line ++ rest) = linesAt breaks (line.reverse ++ before) rest := by
  induction line generalizing before with
  | nil => rfl
  | cons c line ih =>
    rw [List.cons_append, linesAt_within (closed c List.mem_cons_self) carriage,
      ih (fun c inside => closed c (List.mem_cons_of_mem _ inside)), List.reverse_cons,
      List.append_assoc, List.singleton_append]

theorem linesAt_append_feed {before front behind : List Char} (carriage : breaks '\r' = true)
    (feed : breaks '\n' = true)
    : linesAt breaks before (front ++ '\n' :: behind)
      = linesAt breaks before (front ++ ['\n']) ++ linesAt breaks [] behind := by
  have feeds : ∀ before rest : List Char,
      linesAt breaks before ('\n' :: rest) = before.reverse :: linesAt breaks [] rest :=
    fun before rest => linesAt_break feed (fun same => absurd same (by decide))
  fun_induction linesAt breaks before front with
  | case1 =>
    rw [List.nil_append, List.nil_append, feeds, feeds]
    rfl
  | case2 before some_ =>
    rw [List.nil_append, List.nil_append, feeds, feeds]
    rfl
  | case3 before rest ih =>
    rw [List.cons_append, List.cons_append, List.cons_append, List.cons_append, linesAt, ih,
      linesAt, List.cons_append]
  | case4 before c rest lone ends ih =>
    rw [List.cons_append, List.cons_append]
    by_cases joined : c = '\r' ∧ rest = []
    · obtain ⟨rfl, rfl⟩ := joined
      rw [List.nil_append, List.nil_append, linesAt, linesAt]
      rfl
    · have apart : ∀ tail, c = '\r' → (rest ++ '\n' :: tail).head? ≠ some '\n' := by
        intro tail same leads
        cases rest with
        | nil => exact joined ⟨same, rfl⟩
        | cons next rest =>
          cases leads
          exact lone rest same rfl
      rw [linesAt_break ends (apart behind), linesAt_break ends (apart []), ih,
        List.cons_append]
  | case5 before c rest lone within ih =>
    rw [List.cons_append, List.cons_append,
      linesAt_within (Bool.eq_false_iff.mpr within) carriage,
      linesAt_within (Bool.eq_false_iff.mpr within) carriage, ih]

theorem linesAt_opened {rest : List Char} (some_ : rest ≠ [])
    : ∃ first later, ∀ before,
        linesAt breaks before rest = (before.reverse ++ first) :: later := by
  induction rest with
  | nil => exact absurd rfl some_
  | cons c rest ih =>
    by_cases joined : c = '\r' ∧ rest.head? = some '\n'
    · obtain ⟨rfl, leads⟩ := joined
      obtain ⟨behind, rfl⟩ := List.head?_eq_some_iff.mp leads
      exact ⟨[], linesAt breaks [] behind, fun before => by rw [linesAt, List.append_nil]⟩
    · have lone : c = '\r' → rest.head? ≠ some '\n' := fun same leads => joined ⟨same, leads⟩
      by_cases ends : breaks c
      · exact ⟨[], linesAt breaks [] rest, fun before => by
          rw [linesAt_break ends lone, List.append_nil]⟩
      · have opens : ∀ before,
            linesAt breaks before (c :: rest) = linesAt breaks (c :: before) rest := by
          intro before
          rw [linesAt, if_neg ends]
          intro behind same equal
          rw [same, equal] at joined
          exact joined ⟨rfl, rfl⟩
        cases rest with
        | nil =>
          refine ⟨[c], [], fun before => ?_⟩
          rw [opens, linesAt, if_neg (List.cons_ne_nil c before), List.reverse_cons]
        | cons next rest =>
          obtain ⟨first, later, parts⟩ := ih (List.cons_ne_nil next rest)
          refine ⟨c :: first, later, fun before => ?_⟩
          rw [opens, parts, List.reverse_cons, List.append_assoc]
          rfl

/-- Lines joined by line feeds are read back, but for an empty last one. -/
theorem linesAt_intercalate {lines : List (List Char)} (carriage : breaks '\r' = true)
    (feed : breaks '\n' = true) (closed : ∀ line ∈ lines, ∀ c ∈ line, breaks c = false)
    : linesAt breaks [] (['\n'].intercalate lines)
      = if lines.getLast? = some [] then lines.dropLast else lines := by
  induction lines with
  | nil => rfl
  | cons line lines ih =>
    have first := closed line List.mem_cons_self
    cases lines with
    | nil =>
      have alone := @linesAt_closed_append breaks [] line [] first carriage
      rw [List.append_nil, List.append_nil] at alone
      rw [List.intercalate_singleton, alone, linesAt]
      cases line with
      | nil => rfl
      | cons c line => simp
    | cons next lines =>
      have ih := ih (fun line listed => closed line (List.mem_cons_of_mem _ listed))
      rw [List.intercalate_cons_cons, List.append_assoc, List.singleton_append,
        linesAt_closed_append first carriage,
        linesAt_break feed (fun same => by cases same), ih, List.append_nil,
        List.reverse_reverse, List.getLast?_cons_cons, List.dropLast_cons_cons]
      split
      · rfl
      · rfl

end

end Library.Lines
