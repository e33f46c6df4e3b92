import Murder.Library.Graphs
import Murder.Workflows.Propagation

/-! The depth-first search for a dependency cycle ends, and finds one exactly when there is
one.
-/

namespace Murder.Workflows

open Library.Graphs Relation

abbrev Adjacency := List (String × List String)

/-- An edge the search follows: a dependency that is a stage. -/
def Follows (adj : Adjacency) (node next : String) : Prop :=
  next ∈ dependencies adj node ∧ (adj.lookup next).isSome

variable {edges : List String}

section Search

variable {adj : Adjacency} {search : Search}

/-- The search without a bound on its rounds: how it ends, when it does. -/
inductive Search.Ends (adj : Adjacency) : Search → Except String Search → Prop
  | drained {search : Search} (empty : search.stack = []) : Ends adj search (.ok search)
  | looped {search : Search} {node : String} (active : search.stack ≠ [])
    (stopped : search.round adj = .error node)
    : Ends adj search (.error node)
  | again {search next : Search} {stop : Except String Search} (active : search.stack ≠ [])
    (first : search.round adj = .ok next) (rest : Ends adj next stop)
    : Ends adj search stop

def Search.black (search : Search) (node : String) : Prop :=
  search.color.lookup node = some .black

/-- Along the active path, from its top down: the edges before a position lead to finished
nodes, or to the next node of the path.
-/
def Explored (adj : Adjacency) (done : String → Prop)
    : Option String → List (String × Nat) → Prop
  | _, [] => True
  | child, (node, index) :: below =>
    (∀ next ∈ (dependencies adj node).take index, (adj.lookup next).isSome
      → done next ∨ child = some next)
    ∧ (∀ next, child = some next → Follows adj node next)
    ∧ Explored adj done (some node) below

/-- The three colors of a search: unseen, on the active path, settled. -/
structure Search.Sound (adj : Adjacency) (search : Search) : Prop where
  known : ∀ frame ∈ search.stack, (adj.lookup frame.1).isSome
  grey : ∀ node, search.color.lookup node = some .grey ↔ node ∈ search.stack.map Prod.fst
  nodup : (search.stack.map Prod.fst).Nodup
  settled : Exhausted (Follows adj) search.black
  explored : Explored adj search.black none search.stack

/-- Every node of a path reaches the node on top of it, by induction down the path. -/
theorem Explored.reaches {done : String → Prop} {child : String}
    {stack : List (String × Nat)} (explored : Explored adj done (some child) stack)
    : ∀ node ∈ stack.map Prod.fst, TransGen (Follows adj) node child := by
  induction stack generalizing child with
  | nil => simp
  | cons frame below ih =>
    obtain ⟨-, follows, rest⟩ := explored
    have here := follows child rfl
    intro node member
    rcases List.mem_cons.mp member with rfl | member
    · exact .single here
    · exact (ih rest node member).tail here

theorem Explored.mono {done more : String → Prop} {child : Option String}
    {stack : List (String × Nat)} (weaken : ∀ node, done node → more node)
    (explored : Explored adj done child stack)
    : Explored adj more child stack := by
  induction stack generalizing child with
  | nil => trivial
  | cons frame below ih =>
    obtain ⟨edges, follows, rest⟩ := explored
    refine ⟨fun next member known => ?_, follows, ih rest⟩
    exact (edges next member known).imp_left (weaken next)

/-- A finished child no longer needs its place on the path. -/
theorem Explored.finish {done : String → Prop} {child : String} {stack : List (String × Nat)}
    (finished : done child) (explored : Explored adj done (some child) stack)
    : Explored adj done none stack := by
  cases stack with
  | nil => trivial
  | cons frame below =>
    obtain ⟨edges, -, rest⟩ := explored
    refine ⟨fun next member known => ?_, by simp, rest⟩
    rcases edges next member known with settled | same
    · exact .inl settled
    · cases same
      exact .inl finished

/-- One more edge of the top is explored. -/
theorem Explored.advance {done : String → Prop} {child : Option String} {node next : String}
    {index : Nat} {below : List (String × Nat)}
    (explored : Explored adj done none ((node, index) :: below))
    (edge : (dependencies adj node)[index]? = some next)
    (leads : (adj.lookup next).isSome → done next ∨ child = some next)
    (follows : ∀ other, child = some other → Follows adj node other)
    : Explored adj done child ((node, index + 1) :: below) := by
  obtain ⟨edges, -, rest⟩ := explored
  refine ⟨fun other member known => ?_, follows, rest⟩
  rw [List.take_add_one, edge] at member
  rcases List.mem_append.mp member with earlier | here
  · rcases edges other earlier known with settled | none_
    · exact .inl settled
    · cases none_
  · cases List.mem_singleton.mp here
    exact leads known

/-! ### Rounds -/

/-- The edges and nodes of the entries not colored yet. -/
def unseenCost (adj : Adjacency) (color : List (String × Color)) : Nat :=
  (adj.map (fun entry =>
    if (color.lookup entry.1).isSome then 0 else entry.2.length + 1)).sum

def pathCost (adj : Adjacency) (stack : List (String × Nat)) : Nat :=
  (stack.map (fun frame => (dependencies adj frame.1).length - frame.2 + 1)).sum

def Search.cost (adj : Adjacency) (search : Search) : Nat :=
  unseenCost adj search.color + pathCost adj search.stack

theorem dependencies_of_lookup {node : String} (found : adj.lookup node = some edges)
    : dependencies adj node = edges := by
  simp [dependencies, found]

theorem lookup_entry_other {β : Type} {entries : List (String × β)} {entry : String × β}
    {other : String} (apart : other ≠ entry.1)
    : List.lookup other (entry :: entries) = List.lookup other entries := by
  have distinct : (other == entry.1) = false := by simpa using apart
  obtain ⟨node, value⟩ := entry
  rw [List.lookup_cons, distinct]

theorem lookup_cons_other {color : List (String × Color)} {node other : String} {tint : Color}
    (apart : other ≠ node)
    : List.lookup other ((node, tint) :: color) = List.lookup other color :=
  lookup_entry_other apart

theorem unseenCost_le (adj : Adjacency) (color : List (String × Color))
    : unseenCost adj color ≤ searchRounds adj := by
  unfold unseenCost searchRounds
  induction adj with
  | nil => simp
  | cons entry rest ih =>
    simp only [List.map_cons, List.sum_cons]
    split <;> omega

theorem unseenCost_cons_le (adj : Adjacency) (color : List (String × Color)) (node : String)
    (tint : Color)
    : unseenCost adj ((node, tint) :: color) ≤ unseenCost adj color := by
  unfold unseenCost
  induction adj with
  | nil => simp
  | cons entry rest ih =>
    simp only [List.map_cons, List.sum_cons]
    refine Nat.add_le_add ?_ ih
    by_cases same : entry.1 = node
    · rw [same, List.lookup_cons_self]
      exact Nat.zero_le _
    · rw [lookup_cons_other same]

/-- Coloring a node takes its edges out of the unseen ones, by induction on the entries. -/
theorem unseenCost_color {color : List (String × Color)} {node : String} {tint : Color}
    (found : adj.lookup node = some edges) (unseen : color.lookup node = none)
    : unseenCost adj ((node, tint) :: color) + (edges.length + 1) ≤ unseenCost adj color := by
  induction adj with
  | nil => cases found
  | cons entry rest ih =>
    simp only [unseenCost, List.map_cons, List.sum_cons]
    by_cases same : node = entry.1
    · subst same
      have here : entry.2 = edges :=
        Option.some.inj (List.lookup_cons_self.symm.trans found)
      have later := unseenCost_cons_le rest color entry.1 tint
      unfold unseenCost at later
      rw [List.lookup_cons_self, unseen, here]
      simp only [Option.isSome_some, Option.isSome_none, if_true, Bool.false_eq_true, if_false]
      omega
    · have later := ih ((lookup_entry_other same).symm.trans found)
      unfold unseenCost at later
      rw [lookup_cons_other (Ne.symm same)]
      omega

/-- What one round of a sound search gives: a cycle, or a cheaper sound search that forgets
no color.
-/
inductive RoundOutcome (adj : Adjacency) (search : Search) : Except String Search → Prop
  | cycle {node} (loop : TransGen (Follows adj) node node) : RoundOutcome adj search (.error node)
  | next {next : Search} (sound : next.Sound adj) (cheaper : next.cost adj < search.cost adj)
    (colored : ∀ node, (search.color.lookup node).isSome → (next.color.lookup node).isSome)
    : RoundOutcome adj search (.ok next)

/-- The top of the path is finished: all its edges lead to settled nodes. -/
theorem Search.Sound.finished {node : String} {index : Nat} {below : List (String × Nat)}
    (sound : search.Sound adj) (top : search.stack = (node, index) :: below)
    (last : (dependencies adj node)[index]? = none)
    : RoundOutcome adj search
        (.ok { color := (node, .black) :: search.color, stack := below }) := by
  have explored := sound.explored
  have nodup := sound.nodup
  have greyTop : search.color.lookup node = some .grey := (sound.grey node).mpr (by simp [top])
  rw [top] at explored nodup
  rw [List.map_cons, List.nodup_cons] at nodup
  obtain ⟨edges, -, rest⟩ := explored
  have all : (dependencies adj node).take index = dependencies adj node :=
    List.take_of_length_le (List.getElem?_eq_none_iff.mp last)
  have leads : ∀ next, Follows adj node next → search.black next := by
    intro next follows
    have listed : next ∈ (dependencies adj node).take index := by
      rw [all]
      exact follows.1
    rcases edges next listed follows.2 with settled | none_
    · exact settled
    · cases none_
  have fresh : ¬search.black node := by
    intro black
    rw [Search.black, greyTop] at black
    cases black
  have black : ∀ other,
      Search.black { color := (node, .black) :: search.color, stack := below } other
        ↔ other = node ∨ search.black other := by
    intro other
    by_cases same : other = node
    · simp [Search.black, same]
    · simp [Search.black, lookup_cons_other same, same]
  have settled := sound.settled.insert fresh leads
  have done : Search.black { color := (node, .black) :: search.color, stack := below }
      = fun other => other = node ∨ search.black other :=
    funext (fun other => propext (black other))
  refine .next ⟨?_, ?_, nodup.2, ?_, ?_⟩ ?_ ?_
  · intro frame member
    exact sound.known frame (top ▸ List.mem_cons_of_mem _ member)
  · intro other
    by_cases same : other = node
    · subst same
      refine ⟨fun grey => ?_, fun member => absurd member nodup.1⟩
      rw [List.lookup_cons_self] at grey
      cases grey
    · rw [lookup_cons_other same, sound.grey other, top]
      simp [same]
  · rw [done]
    exact settled
  · rw [done]
    exact Explored.finish (.inl rfl) (rest.mono (fun _ black => .inr black))
  · have fewer := unseenCost_cons_le adj search.color node .black
    simp only [Search.cost, top, pathCost, List.map_cons, List.sum_cons]
    omega
  · intro other colored
    by_cases same : other = node
    · simp [same]
    · rwa [lookup_cons_other same]

theorem Search.Sound.passed {node next : String} {index : Nat} {below : List (String × Nat)}
    (sound : search.Sound adj) (top : search.stack = (node, index) :: below)
    (edge : (dependencies adj node)[index]? = some next)
    (leads : (adj.lookup next).isSome → search.black next)
    : RoundOutcome adj search (.ok { search with stack := (node, index + 1) :: below }) := by
  have explored := sound.explored
  rw [top] at explored
  have bound := (List.getElem?_eq_some_iff.mp edge).1
  refine .next ⟨?_, ?_, ?_, sound.settled, ?_⟩ ?_ (fun _ colored => colored)
  · intro frame member
    rcases List.mem_cons.mp member with rfl | member
    · exact sound.known (node, index) (top ▸ List.mem_cons_self)
    · exact sound.known frame (top ▸ List.mem_cons_of_mem _ member)
  · intro other
    have grey := sound.grey other
    rw [top] at grey
    simpa using grey
  · have nodup := sound.nodup
    rw [top] at nodup
    simpa using nodup
  · exact explored.advance edge (fun known => .inl (leads known)) (by simp)
  · simp only [Search.cost, top, pathCost, List.map_cons, List.sum_cons]
    omega

/-- An edge to an unseen node puts that node on top of the path. -/
theorem Search.Sound.pushed {node next : String} {index : Nat} {below : List (String × Nat)}
    (sound : search.Sound adj) (top : search.stack = (node, index) :: below)
    (edge : (dependencies adj node)[index]? = some next) (known : (adj.lookup next).isSome)
    (unseen : search.color.lookup next = none)
    : RoundOutcome adj search (.ok {
        color := (next, .grey) :: search.color
        stack := (next, 0) :: (node, index + 1) :: below
      }) := by
  have explored := sound.explored
  rw [top] at explored
  have bound := (List.getElem?_eq_some_iff.mp edge).1
  have absent : next ∉ search.stack.map Prod.fst := by
    rw [← sound.grey next, unseen]
    simp
  have black : Search.black { color := (next, .grey) :: search.color
                              stack := (next, 0) :: (node, index + 1) :: below }
      = search.black := by
    funext other
    by_cases same : other = next
    · subst same
      simp [Search.black, unseen]
    · simp [Search.black, lookup_cons_other same]
  refine .next ⟨?_, ?_, ?_, black ▸ sound.settled, ?_⟩ ?_ ?_
  · intro frame member
    rcases List.mem_cons.mp member with rfl | member
    · exact known
    · rcases List.mem_cons.mp member with rfl | member
      · exact sound.known (node, index) (top ▸ List.mem_cons_self)
      · exact sound.known frame (top ▸ List.mem_cons_of_mem _ member)
  · intro other
    by_cases same : other = next
    · simp [same]
    · have grey := sound.grey other
      rw [top] at grey
      rw [lookup_cons_other same, grey]
      simp [same]
  · have nodup := sound.nodup
    rw [top] at nodup absent
    simp only [List.map_cons, List.nodup_cons] at nodup absent ⊢
    exact ⟨absent, nodup⟩
  · rw [black]
    refine ⟨by simp, by simp, explored.advance edge (fun _ => .inr rfl) ?_⟩
    intro other same
    cases same
    exact ⟨List.mem_of_getElem? edge, known⟩
  · obtain ⟨edges, found⟩ := Option.isSome_iff_exists.mp known
    have fewer : unseenCost adj ((next, .grey) :: search.color) + (edges.length + 1)
        ≤ unseenCost adj search.color := unseenCost_color found unseen
    have own := dependencies_of_lookup found
    simp only [Search.cost, top, pathCost, List.map_cons, List.sum_cons, own]
    omega
  · intro other colored
    by_cases same : other = next
    · simp [same]
    · rwa [lookup_cons_other same]

theorem Search.Sound.round (sound : search.Sound adj) (active : search.stack ≠ [])
    : RoundOutcome adj search (search.round adj) := by
  obtain ⟨⟨node, index⟩, below, top⟩ := List.exists_cons_of_ne_nil active
  unfold Search.round
  rw [top]
  dsimp only
  cases edge : (dependencies adj node)[index]? with
  | none => exact sound.finished top edge
  | some next =>
    by_cases dangling : (adj.lookup next).isNone
    · simp only [dangling, if_true]
      refine sound.passed top edge (fun known => ?_)
      rw [← Option.not_isSome] at dangling
      simp [known] at dangling
    · simp only [dangling]
      have known : (adj.lookup next).isSome := by simpa using dangling
      cases color : search.color.lookup next with
      | none => exact sound.pushed top edge known color
      | some tint =>
        cases tint with
        | black => exact sound.passed top edge (fun _ => color)
        | grey =>
          have explored := sound.explored
          rw [top] at explored
          have here : Follows adj node next := ⟨List.mem_of_getElem? edge, known⟩
          have active := (sound.grey next).mp color
          rw [top, List.map_cons] at active
          rcases List.mem_cons.mp active with same | member
          · exact .cycle (.single (same ▸ here))
          · exact .cycle ((explored.2.2.reaches next member).tail here)

/-! ### The whole search -/

/-- What a bounded search from a sound one gives: a cycle, or a sound search with an empty
path that forgets no color.
-/
inductive DrainOutcome (adj : Adjacency) (search : Search) : Except String Search → Prop
  | cycle {node} (loop : TransGen (Follows adj) node node) : DrainOutcome adj search (.error node)
  | drained {stop : Search} (sound : stop.Sound adj) (empty : stop.stack = [])
    (colored : ∀ node, (search.color.lookup node).isSome → (stop.color.lookup node).isSome)
    : DrainOutcome adj search (.ok stop)

/-- Enough rounds end the search, by induction on the rounds. -/
theorem Search.Sound.drain (sound : search.Sound adj) {rounds : Nat}
    (enough : search.cost adj ≤ rounds)
    : DrainOutcome adj search (Search.drain adj rounds search)
      ∧ Search.Ends adj search (Search.drain adj rounds search) := by
  induction rounds generalizing search with
  | zero =>
    have empty : search.stack = [] := by
      cases top : search.stack with
      | nil => rfl
      | cons frame below =>
        simp only [Search.cost, top, pathCost, List.map_cons, List.sum_cons] at enough
        omega
    exact ⟨.drained sound empty (fun _ colored => colored), .drained empty⟩
  | succ rounds ih =>
    cases top : search.stack with
    | nil =>
      simp only [Search.drain, top]
      exact ⟨.drained sound top (fun _ colored => colored), .drained top⟩
    | cons frame below =>
      have active : search.stack ≠ [] := by simp [top]
      have outcome := sound.round active
      simp only [Search.drain, top]
      cases ran : search.round adj with
      | error node =>
        rw [ran] at outcome
        cases outcome with
        | cycle loop => exact ⟨.cycle loop, .looped active ran⟩
      | ok next =>
        rw [ran] at outcome
        cases outcome with
        | next sound' cheaper colored =>
          obtain ⟨result, ends⟩ := ih sound' (by omega)
          refine ⟨?_, .again active ran ends⟩
          change DrainOutcome adj search (Search.drain adj rounds next)
          cases stopped : Search.drain adj rounds next with
          | error node =>
            rw [stopped] at result
            cases result with
            | cycle loop => exact .cycle loop
          | ok stop =>
            rw [stopped] at result
            cases result with
            | drained sound'' empty kept =>
              exact .drained sound'' empty
                (fun node seen => kept node (colored node seen))

def Search.opened (search : Search) (root : String) : Search :=
  { color := (root, .grey) :: search.color, stack := [(root, 0)] }

/-- The searches from the roots without a bound on their rounds: how they end, when they do. -/
inductive RootsEnd (adj : Adjacency) : Search → List String → Except String Search → Prop
  | done (search : Search) : RootsEnd adj search [] (.ok search)
  | colored {search : Search} {root : String} {rest : List String} {stop : Except String Search}
    (seen : (search.color.lookup root).isSome) (later : RootsEnd adj search rest stop)
    : RootsEnd adj search (root :: rest) stop
  | looped {search : Search} {root node : String} {rest : List String}
    (unseen : search.color.lookup root = none)
    (ends : Search.Ends adj (search.opened root) (.error node))
    : RootsEnd adj search (root :: rest) (.error node)
  | drained {search middle : Search} {root : String} {rest : List String}
    {stop : Except String Search} (unseen : search.color.lookup root = none)
    (ends : Search.Ends adj (search.opened root) (.ok middle))
    (later : RootsEnd adj middle rest stop)
    : RootsEnd adj search (root :: rest) stop

theorem Search.Sound.opened {root : String} (sound : search.Sound adj)
    (empty : search.stack = []) (known : (adj.lookup root).isSome)
    (unseen : search.color.lookup root = none)
    : (search.opened root).Sound adj := by
  have black : (search.opened root).black = search.black := by
    funext other
    by_cases same : other = root
    · subst same
      simp [Search.black, Search.opened, unseen]
    · simp [Search.black, Search.opened, lookup_cons_other same]
  refine ⟨?_, ?_, by simp [Search.opened], black ▸ sound.settled, ?_⟩
  · intro frame member
    cases List.mem_singleton.mp member
    exact known
  · intro other
    by_cases same : other = root
    · simp [Search.opened, same]
    · have grey := sound.grey other
      rw [empty] at grey
      simp only [Search.opened, lookup_cons_other same, grey]
      simp [same]
  · exact ⟨by simp, by simp, trivial⟩

/-- The bounded rounds of the source's model are enough for every opened search. -/
theorem Search.opened_cost {root : String}
    (found : adj.lookup root = some edges) (unseen : search.color.lookup root = none)
    : (search.opened root).cost adj ≤ searchRounds adj := by
  have fewer : unseenCost adj ((root, .grey) :: search.color) + (edges.length + 1)
      ≤ unseenCost adj search.color := unseenCost_color found unseen
  have bound := unseenCost_le adj search.color
  have own := dependencies_of_lookup found
  simp only [Search.cost, Search.opened, pathCost, List.map_cons, List.map_nil, List.sum_cons,
    List.sum_nil, own]
  omega

/-- What the searches from the roots give: a cycle, or a sound search that colored them all
and forgot no color.
-/
inductive RootsOutcome (adj : Adjacency) (search : Search) (roots : List String)
    : Except String Search → Prop
  | cycle {node} (loop : TransGen (Follows adj) node node)
    : RootsOutcome adj search roots (.error node)
  | colored {stop : Search} (sound : stop.Sound adj) (empty : stop.stack = [])
    (kept : ∀ node, (search.color.lookup node).isSome → (stop.color.lookup node).isSome)
    (all : ∀ root ∈ roots, (stop.color.lookup root).isSome)
    : RootsOutcome adj search roots (.ok stop)

theorem RootsOutcome.cons {middle : Search} {root : String} {rest : List String}
    {stop : Except String Search} (outcome : RootsOutcome adj middle rest stop)
    (kept : ∀ node, (search.color.lookup node).isSome → (middle.color.lookup node).isSome)
    (seen : (middle.color.lookup root).isSome)
    : RootsOutcome adj search (root :: rest) stop := by
  cases outcome with
  | cycle loop => exact .cycle loop
  | colored sound empty kept' all =>
    refine .colored sound empty (fun node colored => kept' node (kept node colored)) ?_
    intro other member
    rcases List.mem_cons.mp member with rfl | member
    · exact kept' _ seen
    · exact all other member

/-- The searches from the roots end, by induction on the roots. -/
theorem Search.Sound.searchFrom (sound : search.Sound adj) (empty : search.stack = [])
    {roots : List String} (known : ∀ root ∈ roots, (adj.lookup root).isSome)
    : RootsOutcome adj search roots (Workflows.searchFrom adj search roots)
      ∧ RootsEnd adj search roots (Workflows.searchFrom adj search roots) := by
  induction roots generalizing search with
  | nil => exact ⟨.colored sound empty (fun _ colored => colored) (by simp), .done search⟩
  | cons root rest ih =>
    have later : ∀ other ∈ rest, (adj.lookup other).isSome :=
      fun other member => known other (List.mem_cons_of_mem _ member)
    unfold Workflows.searchFrom
    by_cases colored : (search.color.lookup root).isSome
    · rw [if_pos colored]
      obtain ⟨outcome, ends⟩ := ih sound empty later
      exact ⟨outcome.cons (fun _ seen => seen) colored, .colored colored ends⟩
    · rw [if_neg colored]
      have unseen : search.color.lookup root = none := Option.not_isSome_iff_eq_none.mp colored
      have isKnown := known root List.mem_cons_self
      obtain ⟨edges, found⟩ := Option.isSome_iff_exists.mp isKnown
      obtain ⟨outcome, ends⟩ :=
        (sound.opened empty isKnown unseen).drain (opened_cost found unseen)
      simp only [Search.opened] at outcome ends
      cases drained : Search.drain adj (searchRounds adj)
          { color := (root, .grey) :: search.color, stack := [(root, 0)] } with
      | error node =>
        rw [drained] at outcome ends
        cases outcome with
        | cycle loop => exact ⟨.cycle loop, .looped unseen ends⟩
      | ok middle =>
        rw [drained] at outcome ends
        cases outcome with
        | drained sound' empty' kept =>
          obtain ⟨result, roots⟩ := ih sound' empty' later
          refine ⟨result.cons (fun node seen => kept node ?_) (kept root ?_),
            .drained unseen ends roots⟩
          · by_cases same : node = root
            · simp [same]
            · rwa [lookup_cons_other same]
          · simp

theorem Search.Sound.start : Search.Sound adj {} := by
  refine ⟨by simp, by simp, by simp, ?_, trivial⟩
  have none_ : Search.black {} = fun _ => False := by
    funext node
    simp [Search.black]
  rw [none_]
  exact Exhausted.empty

end Search

/-- A node with an edge is an entry. -/
theorem known_of_follows {adj : Adjacency} {node next : String} (follows : Follows adj node next)
    : (adj.lookup node).isSome := by
  cases found : adj.lookup node with
  | none =>
    have edge := follows.1
    simp [dependencies, found] at edge
  | some edges => rfl

theorem lookup_isSome_of_mem {adj : Adjacency} {node : String} (member : node ∈ adj.map Prod.fst)
    : (adj.lookup node).isSome := by
  induction adj with
  | nil => cases member
  | cons entry rest ih =>
    by_cases same : node = entry.1
    · obtain ⟨key, edges⟩ := entry
      simp [same]
    · rw [lookup_entry_other same]
      exact ih ((List.mem_cons.mp member).resolve_left same)

theorem mem_of_lookup_isSome {adj : Adjacency} {node : String} (known : (adj.lookup node).isSome)
    : node ∈ adj.map Prod.fst := by
  induction adj with
  | nil => cases known
  | cons entry rest ih =>
    by_cases same : node = entry.1
    · exact List.mem_cons.mpr (.inl same)
    · rw [lookup_entry_other same] at known
      exact List.mem_cons_of_mem _ (ih known)

/-- The search of a definition without a bound on its rounds. -/
def FindCycleEnds (definition : WorkflowDef) (found : Option String) : Prop :=
  ∃ stop, RootsEnd (adjacency definition.stages) {}
      ((adjacency definition.stages).map Prod.fst) stop
    ∧ found = (match stop with
        | .ok _ => none
        | .error node => some node)

theorem findCycle_ends (definition : WorkflowDef)
    : FindCycleEnds definition (findCycle definition) :=
  ⟨_, (Search.Sound.start.searchFrom rfl (fun _ => lookup_isSome_of_mem)).2, rfl⟩

/-- The search finds a node exactly when the edges it follows close a cycle. -/
theorem findCycle_isSome_iff (definition : WorkflowDef)
    : (findCycle definition).isSome ↔ Cyclic (Follows (adjacency definition.stages)) := by
  have every : ∀ root ∈ (adjacency definition.stages).map Prod.fst,
      ((adjacency definition.stages).lookup root).isSome := fun _ => lookup_isSome_of_mem
  obtain ⟨outcome, -⟩ := Search.Sound.start.searchFrom rfl every
  unfold findCycle
  simp only
  cases stopped : searchFrom (adjacency definition.stages) {}
      ((adjacency definition.stages).map Prod.fst) with
  | error node =>
    rw [stopped] at outcome
    cases outcome with
    | cycle loop => exact ⟨fun _ => ⟨node, loop⟩, fun _ => rfl⟩
  | ok stop =>
    rw [stopped] at outcome
    cases outcome with
    | colored sound empty _ all =>
      refine ⟨fun found => (Bool.false_ne_true found).elim, fun cyclic => ?_⟩
      obtain ⟨node, loop⟩ := cyclic
      obtain ⟨next, first, -⟩ := TransGen.head'_iff.mp loop
      have colored := all node (mem_of_lookup_isSome (known_of_follows first))
      obtain ⟨tint, color⟩ := Option.isSome_iff_exists.mp colored
      cases tint with
      | grey =>
        have active := (sound.grey node).mp color
        rw [empty] at active
        cases active
      | black => exact absurd loop (sound.settled.acyclic node color)

end Murder.Workflows
