import Mathlib.Order.Defs.Unbundled

/-! Programs over one shared store that read, write and may raise, and two runs that agree.
A raise keeps the writes made before it; only an enclosing transaction undoes them.
-/

namespace Library.Transactions

variable {σ ε α β : Type}

/-- A program over a store, with the state it stops in whether it returns or raises. -/
abbrev Program (σ ε α : Type) := EStateM ε σ α

/-- The store after a program stopped, however it stopped. -/
def final : EStateM.Result ε σ α → σ
  | .ok _ stop => stop
  | .error _ stop => stop

/-- What a program returned or raised, without the store it stopped in. -/
def outcome : EStateM.Result ε σ α → Except ε α
  | .ok value _ => .ok value
  | .error raised _ => .error raised

/-- Commit the writes of `body` when it returns; undo all of them when it raises. -/
def transaction (body : Program σ ε α) : Program σ ε α := fun start =>
  match body start with
  | .ok value stop => .ok value stop
  | .error raised _ => .error raised start

/-- Raise `raised` when the guard `condition` holds, and do nothing otherwise. -/
def raiseIf (condition : Prop) [Decidable condition] (raised : ε) : Program σ ε Unit :=
  if condition then throw raised else pure ()

/-- The value of an optional lookup, or the raise of a failed one. -/
def orRaise (found : Option α) (raised : ε) : Program σ ε α :=
  match found with
  | some value => pure value
  | none => throw raised

/-- The value of a pure computation that may fail. -/
def fromExcept : Except ε α → Program σ ε α
  | .ok value => pure value
  | .error raised => throw raised

/-- A computation after one that may fail succeeds where both succeed. -/
theorem except_bind_ok {first : Except ε α} {rest : α → Except ε β} {result : β}
    : (first >>= rest) = .ok result ↔ ∃ value, first = .ok value ∧ rest value = .ok result := by
  cases first with
  | error raised =>
    constructor
    · intro h
      cases h
    · intro h
      obtain ⟨value, same, -⟩ := h
      cases same
  | ok value =>
    constructor
    · intro h
      exact ⟨value, rfl, h⟩
    · intro h
      obtain ⟨value', same, h⟩ := h
      cases same
      exact h

/-- A computation after one that succeeds, whose result is described. -/
theorem except_bind_returns {first : Except ε α} {rest : α → Except ε β} {post : β → Prop}
    (returns : ∃ value, first = .ok value)
    (next : ∀ value, first = .ok value → ∃ result, rest value = .ok result ∧ post result)
    : ∃ result, (first >>= rest) = .ok result ∧ post result := by
  obtain ⟨value, returned⟩ := returns
  obtain ⟨result, ran, holds⟩ := next value returned
  exact ⟨result, except_bind_ok.mpr ⟨value, returned, ran⟩, holds⟩

/-- A computation that succeeds on every item succeeds on the list. -/
theorem except_mapM_ok {f : α → Except ε β} {items : List α}
    (returns : ∀ item ∈ items, ∃ value, f item = .ok value)
    : ∃ values, items.mapM f = .ok values := by
  induction items with
  | nil => exact ⟨[], rfl⟩
  | cons item rest ih =>
    obtain ⟨value, first⟩ := returns item List.mem_cons_self
    obtain ⟨values, later⟩ := ih (fun other member => returns other (.tail _ member))
    refine ⟨value :: values, ?_⟩
    rw [List.mapM_cons]
    exact except_bind_ok.mpr ⟨value, first, except_bind_ok.mpr ⟨values, later, rfl⟩⟩

/-- A computation that succeeds on a list succeeds on each item, by induction on the list. -/
theorem except_mapM_item {f : α → Except ε β} {items : List α} {values : List β}
    (h : items.mapM f = .ok values) {item : α} (member : item ∈ items)
    : ∃ value ∈ values, f item = .ok value := by
  induction items generalizing values with
  | nil => cases member
  | cons head rest ih =>
    rw [List.mapM_cons] at h
    obtain ⟨value, first, h⟩ := except_bind_ok.mp h
    obtain ⟨values', later, h⟩ := except_bind_ok.mp h
    cases h
    rcases List.mem_cons.mp member with same | listed
    · exact ⟨value, List.mem_cons_self, same ▸ first⟩
    · obtain ⟨found, among, returned⟩ := ih later listed
      exact ⟨found, List.mem_cons_of_mem _ among, returned⟩

/-- Every value of a list is that of an item, by induction on the list. -/
theorem except_mapM_value {f : α → Except ε β} {items : List α} {values : List β}
    (h : items.mapM f = .ok values) {value : β} (member : value ∈ values)
    : ∃ item ∈ items, f item = .ok value := by
  induction items generalizing values with
  | nil =>
    cases h
    cases member
  | cons head rest ih =>
    rw [List.mapM_cons] at h
    obtain ⟨first, returned, h⟩ := except_bind_ok.mp h
    obtain ⟨values', later, h⟩ := except_bind_ok.mp h
    cases h
    rcases List.mem_cons.mp member with same | listed
    · exact ⟨head, List.mem_cons_self, same ▸ returned⟩
    · obtain ⟨item, among, returned⟩ := ih later listed
      exact ⟨item, List.mem_cons_of_mem _ among, returned⟩

/-- What each value keeps of its item, the values keep of the list. -/
theorem except_mapM_map {γ : Type} {project : α → γ} {project' : β → γ} {f : α → Except ε β}
    {items : List α} {values : List β}
    (keeps : ∀ item value, f item = .ok value → project' value = project item)
    (h : items.mapM f = .ok values)
    : values.map project' = items.map project := by
  induction items generalizing values with
  | nil =>
    cases h
    rfl
  | cons head rest ih =>
    rw [List.mapM_cons] at h
    obtain ⟨first, returned, h⟩ := except_bind_ok.mp h
    obtain ⟨values', later, h⟩ := except_bind_ok.mp h
    cases h
    rw [List.map_cons, List.map_cons, keeps head first returned, ih later]

/-- Every value of a list is that of an item, by induction on the list. -/
theorem option_mapM_value {f : α → Option β} {items : List α} {values : List β}
    (h : items.mapM f = some values) {value : β} (member : value ∈ values)
    : ∃ item ∈ items, f item = some value := by
  induction items generalizing values with
  | nil =>
    cases h
    cases member
  | cons head rest ih =>
    rw [List.mapM_cons] at h
    obtain ⟨first, found, h⟩ := Option.bind_eq_some_iff.mp h
    obtain ⟨values', later, h⟩ := Option.bind_eq_some_iff.mp h
    cases h
    rcases List.mem_cons.mp member with same | listed
    · exact ⟨head, List.mem_cons_self, same ▸ found⟩
    · obtain ⟨item, among, found⟩ := ih later listed
      exact ⟨item, List.mem_cons_of_mem _ among, found⟩

/-- Run `body` and forget how it ended; the store it stopped in stays. -/
def bestEffort (body : Program σ ε α) : Program σ ε Unit := fun start =>
  .ok () (final (body start))

/-- `program` started in `start` returns `value` and stops in `stop`. -/
def Returns (program : Program σ ε α) (start : σ) (value : α) (stop : σ) : Prop :=
  program start = .ok value stop

/-- `program` started in `start` raises `raised` and stops in `stop`. -/
def Raises (program : Program σ ε α) (start : σ) (raised : ε) (stop : σ) : Prop :=
  program start = .error raised stop

/-- Every run of `program` relates its start to its stop by `relation`. -/
def Relates (relation : σ → σ → Prop) (program : Program σ ε α) : Prop :=
  ∀ start, relation start (final (program start))

/-- The frame of a projection: what it reads is the same at both ends. -/
def Keeps {τ : Type} (project : σ → τ) (start stop : σ) : Prop := project stop = project start

instance {τ : Type} (project : σ → τ) : IsPreorder σ (Keeps project) where
  refl _ := rfl
  trans _ _ _ hl hr := hr.trans hl

def Preserves (property : σ → Prop) (start stop : σ) : Prop := property start → property stop

instance (property : σ → Prop) : IsPreorder σ (Preserves property) where
  refl _ := id
  trans _ _ _ hl hr := hr ∘ hl

@[simp] theorem returns_pure {value result : α} {start stop : σ}
    : Returns (pure value : Program σ ε α) start result stop
      ↔ value = result ∧ start = stop := by
  constructor
  · intro h
    cases h
    exact ⟨rfl, rfl⟩
  · rintro ⟨rfl, rfl⟩
    rfl

@[simp] theorem returns_bind {first : Program σ ε α} {rest : α → Program σ ε β}
    {start stop : σ} {result : β}
    : Returns (first >>= rest) start result stop
      ↔ ∃ value middle,
          Returns first start value middle ∧ Returns (rest value) middle result stop := by
  change EStateM.bind first rest start = _ ↔ _
  unfold EStateM.bind
  cases h : first start with
  | ok value middle =>
    constructor
    · intro hr
      exact ⟨value, middle, h, hr⟩
    · rintro ⟨value', middle', hf, hr⟩
      rw [Returns, h] at hf
      cases hf
      exact hr
  | error raised middle =>
    constructor
    · intro hr
      cases hr
    · rintro ⟨value', middle', hf, -⟩
      rw [Returns, h] at hf
      cases hf

@[simp] theorem returns_throw {raised : ε} {start stop : σ} {result : α}
    : ¬ Returns (throw raised : Program σ ε α) start result stop := by
  intro h
  cases h

@[simp] theorem returns_get {start stop result : σ}
    : Returns (get : Program σ ε σ) start result stop ↔ start = result ∧ start = stop := by
  constructor
  · intro h
    cases h
    exact ⟨rfl, rfl⟩
  · rintro ⟨rfl, rfl⟩
    rfl

@[simp] theorem returns_set {value start stop : σ} {result : PUnit}
    : Returns (set value : Program σ ε PUnit) start result stop ↔ value = stop := by
  constructor
  · intro h
    cases h
    rfl
  · rintro rfl
    rfl

@[simp] theorem returns_modify {update : σ → σ} {start stop : σ} {result : PUnit}
    : Returns (modify update : Program σ ε PUnit) start result stop
      ↔ update start = stop := by
  constructor
  · intro h
    cases h
    rfl
  · rintro rfl
    rfl

@[simp] theorem returns_raiseIf {condition : Prop} [Decidable condition] {raised : ε}
    {start stop : σ} {result : Unit}
    : Returns (raiseIf condition raised : Program σ ε Unit) start result stop
      ↔ ¬ condition ∧ start = stop := by
  by_cases h : condition <;> simp [raiseIf, h]

@[simp] theorem returns_orRaise {found : Option α} {raised : ε} {start stop : σ}
    {result : α}
    : Returns (orRaise found raised : Program σ ε α) start result stop
      ↔ found = some result ∧ start = stop := by
  cases found <;> simp [orRaise]

@[simp] theorem returns_fromExcept {computed : Except ε α} {start stop : σ} {result : α}
    : Returns (fromExcept computed : Program σ ε α) start result stop
      ↔ computed = .ok result ∧ start = stop := by
  cases computed <;> simp [fromExcept]

@[simp] theorem returns_map {label : α → β} {program : Program σ ε α} {start stop : σ}
    {result : β}
    : Returns (label <$> program) start result stop
      ↔ ∃ value, Returns program start value stop ∧ label value = result := by
  change EStateM.map label program start = _ ↔ _
  unfold EStateM.map Returns
  cases program start with
  | ok value middle =>
    constructor
    · intro h
      cases h
      exact ⟨value, rfl, rfl⟩
    · rintro ⟨value', h, rfl⟩
      cases h
      rfl
  | error raised middle =>
    constructor
    · intro h
      cases h
    · rintro ⟨value', h, -⟩
      cases h

@[simp] theorem returns_transaction {body : Program σ ε α} {start stop : σ} {result : α}
    : Returns (transaction body) start result stop ↔ Returns body start result stop := by
  unfold Returns transaction
  cases body start <;> simp

@[simp] theorem raises_pure {value : α} {raised : ε} {start stop : σ}
    : ¬ Raises (pure value : Program σ ε α) start raised stop := by
  intro h
  cases h

@[simp] theorem raises_bind {first : Program σ ε α} {rest : α → Program σ ε β}
    {start stop : σ} {raised : ε}
    : Raises (first >>= rest) start raised stop
      ↔ Raises first start raised stop
        ∨ ∃ value middle,
            Returns first start value middle ∧ Raises (rest value) middle raised stop := by
  change EStateM.bind first rest start = _ ↔ _
  unfold EStateM.bind Raises Returns
  cases h : first start with
  | ok value middle =>
    constructor
    · intro hr
      exact .inr ⟨value, middle, rfl, hr⟩
    · rintro (hr | ⟨value', middle', hf, hr⟩)
      · cases hr
      · cases hf
        exact hr
  | error failure middle => simp

theorem raises_transaction {body : Program σ ε α} {start stop : σ} {raised : ε}
    (h : Raises (transaction body) start raised stop)
    : stop = start := by
  unfold Raises transaction at h
  cases hb : body start with
  | ok value middle => rw [hb] at h; cases h
  | error failure middle => rw [hb] at h; cases h; rfl

theorem raises_of_transaction {body : Program σ ε α} {start stop : σ} {raised : ε}
    (h : Raises (transaction body) start raised stop)
    : ∃ last, Raises body start raised last := by
  unfold Raises transaction at h
  cases hb : body start with
  | ok value middle =>
    rw [hb] at h
    cases h
  | error failure middle =>
    rw [hb] at h
    cases h
    exact ⟨middle, hb⟩

theorem raises_fromExcept {computed : Except ε α} {raised : ε} {start stop : σ}
    : Raises (fromExcept computed) start raised stop
      ↔ computed = .error raised ∧ start = stop := by
  cases computed with
  | ok value => simp [fromExcept]
  | error failure =>
    constructor
    · intro h
      cases h
      exact ⟨rfl, rfl⟩
    · intro h
      obtain ⟨same, rfl⟩ := h
      cases same
      rfl

/-- A guard raises without writing. -/
theorem raises_raiseIf {condition : Prop} [Decidable condition] {failure raised : ε}
    {start stop : σ}
    (h : Raises (raiseIf condition failure : Program σ ε Unit) start raised stop)
    : condition ∧ stop = start := by
  by_cases hc : condition
  · rw [raiseIf, if_pos hc] at h
    cases h
    exact ⟨hc, rfl⟩
  · rw [raiseIf, if_neg hc] at h
    cases h

/-- A loop of checks returns where it started, with every check passed; by induction over
the list.
-/
theorem returns_forM {ι : Type} {items : List ι} {round : ι → Program σ ε PUnit}
    {passed : ι → Prop} {start stop : σ} {result : PUnit}
    (h : ∀ item s t, Returns (round item) s ⟨⟩ t → passed item ∧ s = t)
    (returned : Returns (items.forM round) start result stop)
    : (∀ item ∈ items, passed item) ∧ start = stop := by
  induction items with
  | nil =>
    obtain ⟨-, rfl⟩ := returns_pure.mp returned
    exact ⟨by simp, rfl⟩
  | cons item rest ih =>
    obtain ⟨_, middle, first, rest'⟩ := returns_bind.mp returned
    obtain ⟨pass, rfl⟩ := h item _ _ first
    obtain ⟨all, same⟩ := ih rest'
    exact ⟨List.forall_mem_cons.mpr ⟨pass, all⟩, same⟩

/-- A run returns or raises, in the store `final` reads back. -/
theorem returns_or_raises (program : Program σ ε α) (start : σ)
    : (∃ value, Returns program start value (final (program start)))
      ∨ ∃ raised, Raises program start raised (final (program start)) := by
  unfold Returns Raises final
  cases program start with
  | ok value stop => exact .inl ⟨value, rfl⟩
  | error raised stop => exact .inr ⟨raised, rfl⟩

theorem final_of_returns {program : Program σ ε α} {start stop : σ} {value : α}
    (h : Returns program start value stop)
    : final (program start) = stop := by
  rw [h]
  rfl

theorem final_of_raises {program : Program σ ε α} {start stop : σ} {raised : ε}
    (h : Raises program start raised stop)
    : final (program start) = stop := by
  rw [h]
  rfl

/-- Relabelling what a program returns moves no stop. -/
theorem final_map (label : α → β) (program : Program σ ε α) (start : σ)
    : final ((label <$> program) start) = final (program start) := by
  change final (EStateM.map label program start) = _
  unfold EStateM.map
  cases program start <;> rfl

theorem final_bind (first : Program σ ε α) (rest : α → Program σ ε β) (start : σ)
    : final ((first >>= rest) start)
      = match first start with
        | .ok value middle => final (rest value middle)
        | .error _ stop => stop := by
  change final (EStateM.bind first rest start) = _
  unfold EStateM.bind
  cases first start <;> rfl

theorem final_bind_of_returns {first : Program σ ε α} {rest : α → Program σ ε β}
    {start middle : σ} {value : α} (h : Returns first start value middle)
    : final ((first >>= rest) start) = final (rest value middle) := by
  rw [final_bind, h]

theorem final_bind_of_raises {first : Program σ ε α} {rest : α → Program σ ε β}
    {start stop : σ} {raised : ε} (h : Raises first start raised stop)
    : final ((first >>= rest) start) = stop := by
  rw [final_bind, h]

/-- Reading the store first passes it on. -/
theorem get_bind (rest : σ → Program σ ε β) (start : σ)
    : ((get : Program σ ε σ) >>= rest) start = rest start start :=
  rfl

theorem outcome_of_returns {program : Program σ ε α} {start stop : σ} {value : α}
    (h : Returns program start value stop)
    : outcome (program start) = .ok value := by
  rw [h]
  rfl

theorem outcome_of_raises {program : Program σ ε α} {start stop : σ} {raised : ε}
    (h : Raises program start raised stop)
    : outcome (program start) = .error raised := by
  rw [h]
  rfl

theorem outcome_map (label : α → β) (program : Program σ ε α) (start : σ)
    : outcome ((label <$> program) start) = (outcome (program start)).map label := by
  change outcome (EStateM.map label program start) = _
  unfold EStateM.map
  cases program start <;> rfl

theorem outcome_eq_ok {program : Program σ ε α} {start : σ} {value : α}
    : outcome (program start) = .ok value
      ↔ Returns program start value (final (program start)) := by
  unfold Returns final outcome
  cases program start <;> simp

variable {relation : σ → σ → Prop}

/-- To relate both ends of every run it is enough to treat its returns and its raises. -/
theorem Relates.intro {program : Program σ ε α}
    (returned : ∀ start value stop, Returns program start value stop → relation start stop)
    (raised : ∀ start failure stop, Raises program start failure stop → relation start stop)
    : Relates relation program := by
  intro start
  rcases returns_or_raises program start with ⟨value, h⟩ | ⟨failure, h⟩
  · exact returned start value _ h
  · exact raised start failure _ h

theorem Relates.returns {program : Program σ ε α} (h : Relates relation program)
    {start stop : σ} {value : α} (returned : Returns program start value stop)
    : relation start stop := by
  have related := h start
  rwa [final_of_returns returned] at related

theorem Relates.raises {program : Program σ ε α} (h : Relates relation program)
    {start stop : σ} {failure : ε} (raised : Raises program start failure stop)
    : relation start stop := by
  have related := h start
  rwa [final_of_raises raised] at related

theorem Relates.modify {update : σ → σ} (h : ∀ s, relation s (update s))
    : Relates relation (modify update : Program σ ε PUnit) :=
  h

theorem Relates.after (refl : ∀ s, relation s s) {read : Program σ ε α}
    {rest : α → Program σ ε β} (reads : Relates Eq read)
    (hr : ∀ value, Relates relation (rest value))
    : Relates relation (read >>= rest) := by
  apply Relates.intro
  · intro start result stop h
    obtain ⟨value, middle, first, h⟩ := returns_bind.mp h
    rw [← reads.returns first] at h
    exact (hr value).returns h
  · intro start raised stop h
    rcases raises_bind.mp h with h | ⟨value, middle, first, h⟩
    · rw [← reads.raises h]
      exact refl start
    · rw [← reads.returns first] at h
      exact (hr value).raises h

theorem final_before {first : Program σ ε α} {read : α → Program σ ε β}
    (reads : ∀ value, Relates Eq (read value)) (start : σ)
    : final ((first >>= read) start) = final (first start) := by
  rw [final_bind]
  cases first start with
  | ok value middle => exact (reads value middle).symm
  | error raised stop => rfl

theorem Relates.imp {weaker : σ → σ → Prop} {program : Program σ ε α}
    (h : Relates relation program) (weaken : ∀ {s t}, relation s t → weaker s t)
    : Relates weaker program :=
  fun start => weaken (h start)

/-- Relabelling what a program returns changes no store. -/
theorem Relates.map {program : Program σ ε α} (label : α → β) (h : Relates relation program)
    : Relates relation (label <$> program) := by
  intro start
  rw [final_map]
  exact h start

section Preorder

variable [IsPreorder σ relation]

/-- A transaction needs its relation only for the returns of its body: a raise stops
where it started.
-/
theorem Relates.transaction {body : Program σ ε α}
    (returned : ∀ start value stop, Returns body start value stop → relation start stop)
    : Relates relation (transaction body) := by
  apply Relates.intro
  · intro start value stop h
    exact returned start value stop (returns_transaction.mp h)
  · intro start failure stop h
    rw [raises_transaction h]
    exact refl_of relation start

/-- Sequencing composes two related parts, by transitivity. -/
theorem Relates.bind {first : Program σ ε α} {rest : α → Program σ ε β}
    (hf : Relates relation first) (hr : ∀ value, Relates relation (rest value))
    : Relates relation (first >>= rest) := by
  apply Relates.intro
  · intro start result stop h
    obtain ⟨value, middle, h₁, h₂⟩ := returns_bind.mp h
    exact trans_of relation (hf.returns h₁) ((hr value).returns h₂)
  · intro start failure stop h
    rcases raises_bind.mp h with h | ⟨value, middle, h₁, h₂⟩
    · exact hf.raises h
    · exact trans_of relation (hf.returns h₁) ((hr value).raises h₂)

/-- Sequencing from one start: its first part related there, its rest everywhere. -/
theorem related_bind {first : Program σ ε α} {rest : α → Program σ ε β} {start : σ}
    (hf : relation start (final (first start))) (hr : ∀ value, Relates relation (rest value))
    : relation start (final ((first >>= rest) start)) := by
  rw [final_bind]
  cases h : first start with
  | ok value middle =>
    rw [h] at hf
    exact trans_of relation hf (hr value middle)
  | error raised stop =>
    rw [h] at hf
    exact hf

theorem Relates.pure (value : α) : Relates relation (Pure.pure value : Program σ ε α) :=
  fun start => refl_of relation start

theorem Relates.get : Relates relation (get : Program σ ε σ) :=
  fun start => refl_of relation start

theorem Relates.throw (raised : ε) : Relates relation (throw raised : Program σ ε α) :=
  fun start => refl_of relation start

theorem Relates.raiseIf (condition : Prop) [Decidable condition] (raised : ε)
    : Relates relation (raiseIf condition raised : Program σ ε Unit) := by
  unfold Transactions.raiseIf
  split
  · exact .throw raised
  · exact .pure ()

theorem Relates.orRaise (found : Option α) (raised : ε)
    : Relates relation (orRaise found raised : Program σ ε α) := by
  unfold Transactions.orRaise
  split
  · exact .pure _
  · exact .throw raised

theorem Relates.fromExcept (computed : Except ε α)
    : Relates relation (fromExcept computed : Program σ ε α) := by
  cases computed with
  | ok value => exact .pure value
  | error raised => exact .throw raised

/-- A loop relates its two ends when each of its rounds does, by induction over the list. -/
theorem Relates.forM {ι : Type} {items : List ι} {round : ι → Program σ ε PUnit}
    (h : ∀ item, Relates relation (round item))
    : Relates relation (items.forM round) := by
  induction items with
  | nil => exact .pure _
  | cons item rest ih => exact .bind (h item) (fun _ => ih)

end Preorder

theorem Relates.bestEffort {body : Program σ ε α} (h : Relates relation body)
    : Relates relation (bestEffort body) :=
  h

/-- Every run of `program` that raises raises one of the failures. -/
def RaisesOnly (failures : ε → Prop) (program : Program σ ε α) : Prop :=
  ∀ start raised stop, Raises program start raised stop → failures raised

variable {failures : ε → Prop}

theorem RaisesOnly.pure (value : α) : RaisesOnly failures (Pure.pure value : Program σ ε α) :=
  fun _ _ _ h => absurd h raises_pure

theorem RaisesOnly.get : RaisesOnly failures (get : Program σ ε σ) := by
  intro start raised stop h
  cases h

theorem RaisesOnly.modify (update : σ → σ)
    : RaisesOnly failures (modify update : Program σ ε PUnit) := by
  intro start raised stop h
  cases h

theorem RaisesOnly.raiseIf (condition : Prop) [Decidable condition] {raised : ε}
    (one : failures raised)
    : RaisesOnly failures (raiseIf condition raised : Program σ ε Unit) := by
  intro start failure stop h
  by_cases hc : condition
  · rw [Transactions.raiseIf, if_pos hc] at h
    cases h
    exact one
  · rw [Transactions.raiseIf, if_neg hc] at h
    cases h

theorem RaisesOnly.orRaise (found : Option α) {raised : ε} (one : failures raised)
    : RaisesOnly failures (orRaise found raised : Program σ ε α) := by
  intro start failure stop h
  cases found with
  | some value => cases h
  | none =>
    cases h
    exact one

theorem RaisesOnly.bind {first : Program σ ε α} {rest : α → Program σ ε β}
    (hf : RaisesOnly failures first) (hr : ∀ value, RaisesOnly failures (rest value))
    : RaisesOnly failures (first >>= rest) := by
  intro start raised stop h
  rcases raises_bind.mp h with h | ⟨value, middle, -, h⟩
  · exact hf start raised stop h
  · exact hr value middle raised stop h

theorem RaisesOnly.transaction {body : Program σ ε α} (h : RaisesOnly failures body)
    : RaisesOnly failures (transaction body) := by
  intro start raised stop hr
  obtain ⟨last, body⟩ := raises_of_transaction hr
  exact h start raised last body

theorem RaisesOnly.forM {ι : Type} {items : List ι} {round : ι → Program σ ε PUnit}
    (h : ∀ item, RaisesOnly failures (round item))
    : RaisesOnly failures (items.forM round) := by
  induction items with
  | nil => exact .pure _
  | cons item rest ih => exact .bind (h item) (fun _ => ih)

end Library.Transactions

namespace Library.Agreement

variable {α β ε ι : Type} {relation : α → α → Prop}

inductive Agree (relation : α → α → Prop) : Except ε α → Except ε α → Prop
  | ok {first second : α} (related : relation first second)
    : Agree relation (.ok first) (.ok second)
  | error (raised : ε) : Agree relation (.error raised) (.error raised)

theorem Agree.bind {other : β → β → Prop} {first second : Except ε α}
    {rest rest' : α → Except ε β} (h : Agree relation first second)
    (next : ∀ a b, relation a b → Agree other (rest a) (rest' b))
    : Agree other (first >>= rest) (second >>= rest') := by
  cases h with
  | ok related => exact next _ _ related
  | error raised => exact .error raised

theorem Agree.foldlM {step : α → ι → Except ε α}
    (agrees : ∀ item a b, relation a b → Agree relation (step a item) (step b item))
    (items : List ι) {first second : α} (related : relation first second)
    : Agree relation (items.foldlM step first) (items.foldlM step second) := by
  induction items generalizing first second with
  | nil => exact .ok related
  | cons item rest ih =>
    rw [List.foldlM_cons, List.foldlM_cons]
    exact (agrees item first second related).bind (fun a b next => ih next)

/-- A view that related results share. -/
theorem Agree.map_eq {view : α → β} {first second : Except ε α}
    (h : Agree relation first second) (shared : ∀ a b, relation a b → view a = view b)
    : first.map view = second.map view := by
  cases h with
  | ok related => exact congrArg Except.ok (shared _ _ related)
  | error => rfl

end Library.Agreement
