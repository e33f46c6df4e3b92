import Murder.Decisions.Router
import Murder.Library.Runs

/-! Each display is published at most once and answered only while it lasts, over every run of
observations, responses, crashes and restarts that answers no request behind its display.
-/

namespace Murder.Decisions

open Contracts Harness Library.Runs

variable {Response Answer : Type} {router : Router Response Answer}

/-! ### Displays -/

theorem Router.Display.number_le (display : Display) (absent : Bool) (identity : Option String)
    : display.number ≤ (Router.Display.behind display absent identity).number := by
  unfold Router.Display.behind
  split_ifs
  · exact Nat.le_refl _
  · cases identity with
    | none => exact Nat.le_refl _
    | some identity =>
      simp only
      split_ifs
      · exact Nat.le_refl _
      · exact Nat.le_succ _

/-- A display that keeps its number is the same one, or has ended. -/
theorem Router.Display.same_or_over {display : Display} {absent : Bool}
    {identity : Option String}
    (same : (Router.Display.behind display absent identity).number = display.number)
    : Router.Display.behind display absent identity = display
      ∨ (Router.Display.behind display absent identity).identity = none := by
  unfold Router.Display.behind at same ⊢
  split_ifs at same ⊢
  · exact .inr rfl
  · cases identity with
    | none => exact .inl rfl
    | some identity =>
      simp only at same ⊢
      split_ifs at same ⊢ with displayed
      · exact .inl rfl
      · simp at same

/-- A snapshot that the displays of its agent already stand for. -/
def Reflects [Sha256] (router : Router Response Answer) (agent : String)
    (snapshot : ObservationSnapshot)
    : Prop :=
  ∀ kind,
    (∀ identity, currentIdentity snapshot kind = some identity
      → (router.displays (agent, kind)).identity = some identity)
    ∧ (explicitlyAbsent snapshot kind = true → (router.displays (agent, kind)).identity = none)

theorem reflects_ingest [Sha256] (agent : String) (snapshot : ObservationSnapshot)
    : Reflects (router.ingest agent snapshot) agent snapshot := by
  intro kind
  constructor
  · intro identity current
    have present : explicitlyAbsent snapshot kind = false := by
      by_contra absent
      have none' := currentIdentity_of_absent snapshot (Bool.not_eq_false _ ▸ absent)
      rw [none'] at current
      cases current
    simp only [Router.ingest, if_pos, Router.Display.behind, present, current]
    by_cases displayed : (router.displays (agent, kind)).identity = some identity
    · simp [displayed]
    · simp [displayed]
  · intro absent
    simp [Router.ingest, Router.Display.behind, absent]

/-! ### Requests and their displays -/

/-- What holds of the published requests: one for each display at most, and while the display
of a request lasts the router knows that it was published.
-/
structure Published (router : Router Response Answer) : Prop where
  distinct : (router.decisions.map Decision.id).Nodup
  bounded : ∀ d ∈ router.decisions, d.display ≤ (router.displays d.key).number
  identified
    : ∀ d ∈ router.decisions, ∀ identity,
        d.display = (router.displays d.key).number
        → (router.displays d.key).identity = some identity
        → d.identity = identity
  known
    : ∀ d ∈ router.decisions, ∀ identity,
        d.display = (router.displays d.key).number
        → (router.displays d.key).identity = some identity
        → router.visible d.key = some identity
          ∨ (router.visible d.key = none ∧ router.cleared d.key = false)
  unique
    : ∀ d ∈ router.decisions, ∀ d' ∈ router.decisions,
        d.key = d'.key → d.display = d'.display → d.id = d'.id

variable {agent : String}

section Publishing

variable [Sha256]

/-- Ingesting a frame ends displays and starts new ones that no request was published for. -/
theorem Published.ingest (published : Published router) (agent : String)
    (snapshot : ObservationSnapshot)
    : Published (router.ingest agent snapshot) := by
  have kept : ∀ d ∈ router.decisions, ∀ identity,
      d.display = ((router.ingest agent snapshot).displays d.key).number
      → ((router.ingest agent snapshot).displays d.key).identity = some identity
      → (router.ingest agent snapshot).displays d.key = router.displays d.key := by
    intro d member identity number displayed
    have bound := published.bounded d member
    simp only [Router.ingest] at number displayed ⊢
    split_ifs at number displayed ⊢ with same
    · have below := Router.Display.number_le (router.displays d.key)
        (explicitlyAbsent snapshot d.key.2) (currentIdentity snapshot d.key.2)
      rcases Router.Display.same_or_over (Nat.le_antisymm (number ▸ bound) below) with h | gone
      · exact h
      · rw [gone] at displayed
        cases displayed
    · rfl
  constructor
  · exact published.distinct
  · intro d member
    have bound := published.bounded d member
    simp only [Router.ingest]
    split_ifs
    · exact Nat.le_trans bound (Router.Display.number_le _ _ _)
    · exact bound
  · intro d member identity number displayed
    have same := kept d member identity number displayed
    rw [same] at number displayed
    exact published.identified d member identity number displayed
  · intro d member identity number displayed
    have same := kept d member identity number displayed
    rw [same] at number displayed
    exact published.known d member identity number displayed
  · exact published.unique

/-- An absence rewrites only what the router remembers of a display that is over. -/
theorem Published.observeAbsence (published : Published router)
    {snapshot : ObservationSnapshot} (reflects : Reflects router agent snapshot)
    (kind : DecisionKind)
    : Published (router.observeAbsence (agent, kind) snapshot) := by
  unfold Router.observeAbsence
  split_ifs with absent
  · have gone : (router.displays (agent, kind)).identity = none := (reflects kind).2 absent
    refine { published with known := ?_ }
    intro d member identity number displayed
    have apart : d.key ≠ (agent, kind) := by
      intro same
      simp only at displayed
      rw [same, gone] at displayed
      cases displayed
    simpa [apart] using published.known d member identity number displayed
  · have gone : (router.displays (agent, kind)).identity = none := (reflects kind).2 absent
    refine { published with known := ?_ }
    intro d member identity number displayed
    have apart : d.key ≠ (agent, kind) := by
      intro same
      simp only at displayed
      rw [same, gone] at displayed
      cases displayed
    simpa [apart] using published.known d member identity number displayed
  · exact published
  · exact published

end Publishing

/-- A dialog displayed becomes the visible one. -/
theorem Published.see (published : Published router) {key : Key} {identity : String}
    (displayed : (router.displays key).identity = some identity)
    : Published { router with
        visible := set router.visible key (some identity)
        cleared := set router.cleared key false } := by
  refine { published with known := ?_ }
  intro d member other number shows
  by_cases same : d.key = key
  · left
    rw [same] at shows ⊢
    simp only [set_same]
    rw [← shows, ← displayed]
  · simpa [same] using published.known d member other number shows

variable {decision : Decision Response}

theorem Published.recordRequest (published : Published router)
    (first : ∀ d ∈ router.decisions, d.key = decision.key
      → d.display ≠ (router.displays decision.key).number)
    (number : decision.display = (router.displays decision.key).number)
    (displayed : (router.displays decision.key).identity = some decision.identity)
    (seen : router.visible decision.key = some decision.identity)
    : Published (router.recordRequest decision) := by
  unfold Router.recordRequest
  split_ifs with taken
  · exact published
  · have free : ∀ d ∈ router.decisions, d.id ≠ decision.id := by
      intro d member same
      refine taken (Option.isSome_iff_exists.mpr ?_)
      cases found : router.load decision.id with
      | some d => exact ⟨d, rfl⟩
      | none =>
        have none' := List.find?_eq_none.mp found d member
        simp [same] at none'
    constructor
    · simp only [List.map_append, List.map_cons, List.map_nil]
      refine List.nodup_append.mpr ⟨published.distinct, by simp, ?_⟩
      intro id listed other single
      obtain ⟨d, member, rfl⟩ := List.mem_map.mp listed
      rw [List.mem_singleton.mp single]
      exact free d member
    · intro d member
      rcases List.mem_append.mp member with earlier | here
      · exact published.bounded d earlier
      · rw [List.mem_singleton.mp here]
        exact Nat.le_of_eq number
    · intro d member identity same shows
      rcases List.mem_append.mp member with earlier | here
      · exact published.identified d earlier identity same shows
      · rw [List.mem_singleton.mp here] at shows ⊢
        exact Option.some.inj (displayed.symm.trans shows)
    · intro d member identity same shows
      rcases List.mem_append.mp member with earlier | here
      · exact published.known d earlier identity same shows
      · rw [List.mem_singleton.mp here] at shows ⊢
        exact .inl (seen.trans (displayed.symm.trans shows))
    · intro d member d' member' key display
      rcases List.mem_append.mp member with earlier | here <;>
        rcases List.mem_append.mp member' with earlier' | here'
      · exact published.unique d earlier d' earlier' key display
      · rw [List.mem_singleton.mp here'] at key display
        exact absurd (display.trans number) (first d earlier key)
      · rw [List.mem_singleton.mp here] at key display
        exact absurd (display.symm.trans number) (first d' earlier' key.symm)
      · rw [List.mem_singleton.mp here, List.mem_singleton.mp here']

section Publishing

variable [Sha256]

/-- Publishing what is displayed: a display with a request is visible already, or is taken for
a lingering one behind a restart.
-/
theorem Published.publish (published : Published router)
    {snapshot : ObservationSnapshot} (reflects : Reflects router agent snapshot)
    (kind : DecisionKind)
    : Published (router.publish (agent, kind) snapshot) := by
  unfold Router.publish
  split
  · exact published
  · rename_i identity dialog shows
    have displayed : (router.displays (agent, kind)).identity = some identity :=
      (reflects kind).1 identity (by simp [currentIdentity, shows])
    split_ifs with visible lingering
    · exact published
    · exact published.see displayed
    · refine (published.see displayed).recordRequest ?_ rfl displayed (by simp [Decision.key])
      intro d member key number
      have key' : d.key = (agent, kind) := key
      have number' : d.display = (router.displays d.key).number := by
        rw [key']
        exact number
      have displayed' : (router.displays d.key).identity = some identity := by
        rw [key']
        exact displayed
      rcases published.known d member identity number' displayed' with seen | ⟨unseen, uncleared⟩
      · rw [key'] at seen
        exact visible seen
      · refine lingering ?_
        rw [key'] at unseen uncleared
        have occurred : router.hasAnyOccurrence (agent, kind) identity = true := by
          refine List.any_eq_true.mpr ⟨d, member, ?_⟩
          simp [key', published.identified d member identity number' displayed']
        simp [unseen, uncleared, occurred]

end Publishing

/-- A router that published: its decisions grew by requests without a response, and what it
remembers of the visible dialogs changed.
-/
structure Publishes (before after : Router Response Answer) : Prop where
  displays : after.displays = before.displays
  operations : after.operations = before.operations
  latest : after.latest = before.latest
  observing : after.observing = before.observing
  answering : after.answering = before.answering
  recorded : after.recorded = before.recorded
  answers : after.answers = before.answers
  decisions
    : ∃ new, after.decisions = before.decisions ++ new ∧ ∀ d ∈ new, d.response = none

variable {after : Router Response Answer}

theorem Publishes.trans {before middle : Router Response Answer}
    (hl : Publishes before middle) (hr : Publishes middle after)
    : Publishes before after where
  displays := hr.displays.trans hl.displays
  operations := hr.operations.trans hl.operations
  latest := hr.latest.trans hl.latest
  observing := hr.observing.trans hl.observing
  answering := hr.answering.trans hl.answering
  recorded := hr.recorded.trans hl.recorded
  answers := hr.answers.trans hl.answers
  decisions := by
    obtain ⟨left, grown, fresh⟩ := hl.decisions
    obtain ⟨right, grown', fresh'⟩ := hr.decisions
    refine ⟨left ++ right, by rw [grown', grown, List.append_assoc], ?_⟩
    intro d member
    rcases List.mem_append.mp member with h | h
    · exact fresh d h
    · exact fresh' d h

/-- What the router remembers of visible dialogs, rewritten. -/
theorem publishes_memory (router : Router Response Answer) (visible : Key → Option String)
    (cleared : Key → Bool)
    : Publishes router { router with visible, cleared } :=
  ⟨rfl, rfl, rfl, rfl, rfl, rfl, rfl, [], (List.append_nil _).symm, by simp⟩

theorem publishes_observeAbsence (router : Router Response Answer) (key : Key)
    (snapshot : ObservationSnapshot)
    : Publishes router (router.observeAbsence key snapshot) := by
  unfold Router.observeAbsence
  split_ifs
  all_goals exact publishes_memory router _ _

theorem publishes_recordRequest (router : Router Response Answer) (open' : decision.response = none)
    : Publishes router (router.recordRequest decision) := by
  unfold Router.recordRequest
  split_ifs
  · exact publishes_memory router _ _
  · exact ⟨rfl, rfl, rfl, rfl, rfl, rfl, rfl, [decision], rfl, by simpa using open'⟩

section Publishing

variable [Sha256]

theorem publishes_publish (router : Router Response Answer) (key : Key)
    (snapshot : ObservationSnapshot)
    : Publishes router (router.publish key snapshot) := by
  unfold Router.publish
  split
  · exact publishes_memory router _ _
  · split_ifs
    · exact publishes_memory router _ _
    · exact publishes_memory router _ _
    · exact (publishes_memory router _ _).trans (publishes_recordRequest _ rfl)

theorem publishes_process (router : Router Response Answer) (agent : String)
    (snapshot : ObservationSnapshot)
    : Publishes router (router.process agent snapshot) :=
  (((publishes_observeAbsence router (agent, .question) snapshot).trans
    (publishes_observeAbsence _ (agent, .permission) snapshot)).trans
    (publishes_publish _ (agent, .question) snapshot)).trans
    (publishes_publish _ (agent, .permission) snapshot)

theorem Reflects.publishes
    {snapshot : ObservationSnapshot} (reflects : Reflects router agent snapshot)
    (grown : Publishes router after)
    : Reflects after agent snapshot := by
  intro kind
  rw [grown.displays]
  exact reflects kind

theorem Published.process (published : Published router)
    {snapshot : ObservationSnapshot} (reflects : Reflects router agent snapshot)
    : Published (router.process agent snapshot) := by
  have first := publishes_observeAbsence router (agent, .question) snapshot
  have second := first.trans (publishes_observeAbsence _ (agent, .permission) snapshot)
  have third := second.trans (publishes_publish _ (agent, .question) snapshot)
  have absences := (published.observeAbsence reflects .question).observeAbsence
    (reflects.publishes first) .permission
  exact (absences.publish (reflects.publishes second) .question).publish
    (reflects.publishes third) .permission

end Publishing

/-! ### Answers -/

/-- Requests to resume on a snapshot: where the snapshot shows the dialog of one that no
operation was started for, its display still lasts.
-/
def Due [Sha256] (router : Router Response Answer) (agent : String)
    (snapshot : ObservationSnapshot) (ids : List String)
    : Prop :=
  ∀ id ∈ ids, ∃ d, router.load id = some d
    ∧ (router.operationExists id = false → d.agent = agent
      → currentIdentity snapshot d.kind = some d.identity
      → d.display = (router.displays d.key).number)

/-- What careful steps keep. -/
structure Sound [Sha256] (router : Router Response Answer) : Prop where
  published : Published router
  latest : ∀ agent snapshot, router.latest agent = some snapshot → Reflects router agent snapshot
  waits
    : ∀ o ∈ router.observing,
        Reflects router o.agent o.snapshot ∧ Due router o.agent o.snapshot o.pending
  single : (router.observing.map Observing.agent).Nodup
  recorded : router.recorded.Nodup
  responded
    : ∀ id ∈ router.recorded, ∃ d, router.load id = some d ∧ d.response.isSome = true
  answers : ∀ a ∈ router.answers, a.observed = ⟨a.display, some a.identity⟩

/-- A request found stays found while requests are appended. -/
theorem Publishes.load (grown : Publishes router after)
    {id : String} {d : Decision Response} (found : router.load id = some d)
    : after.load id = some d := by
  obtain ⟨new, grows, _⟩ := grown.decisions
  simp only [Router.load] at found ⊢
  simp [grows, List.find?_append, found]

/-- Requests are found by their identifiers. -/
theorem load_of_mem {router : Router Response Answer} (published : Published router)
    {d : Decision Response} (member : d ∈ router.decisions)
    : router.load d.id = some d := by
  cases found : router.load d.id with
  | none =>
    have none' := List.find?_eq_none.mp found d member
    simp at none'
  | some d' =>
    have named : d'.id = d.id := by simpa using List.find?_some found
    have listed := List.mem_of_find?_eq_some found
    rw [List.inj_on_of_nodup_map published.distinct listed member named]

section Answered

variable {id decidedBy : String} {response : Response} (d : Decision Response)

@[simp] theorem Decision.answered_id : (d.answered id response decidedBy).id = d.id := by
  unfold Decision.answered
  split <;> rfl

@[simp] theorem Decision.answered_agent
    : (d.answered id response decidedBy).agent = d.agent := by
  unfold Decision.answered
  split <;> rfl

@[simp] theorem Decision.answered_kind : (d.answered id response decidedBy).kind = d.kind := by
  unfold Decision.answered
  split <;> rfl

@[simp] theorem Decision.answered_key : (d.answered id response decidedBy).key = d.key := by
  simp [Decision.key]

@[simp] theorem Decision.answered_identity
    : (d.answered id response decidedBy).identity = d.identity := by
  unfold Decision.answered
  split <;> rfl

@[simp] theorem Decision.answered_display
    : (d.answered id response decidedBy).display = d.display := by
  unfold Decision.answered
  split <;> rfl

@[simp] theorem Decision.answered_isSome
    : (d.answered id response decidedBy).response.isSome
      = (d.response.isSome || d.id = id) := by
  unfold Decision.answered
  split_ifs with first
  · simp [first.1]
  · cases h : d.response <;> simp_all

theorem load_recordResponse {other : String}
    : (router.recordResponse id response decidedBy).load other
      = (router.load other).map (Decision.answered id response decidedBy) := by
  simp [Router.load, Router.recordResponse, List.find?_map, Function.comp_def]

theorem Published.recordResponse (published : Published router)
    : Published (router.recordResponse id response decidedBy) := by
  have origin : ∀ d ∈ (router.recordResponse id response decidedBy).decisions,
      ∃ d' ∈ router.decisions, d.id = d'.id ∧ d.key = d'.key ∧ d.identity = d'.identity
        ∧ d.display = d'.display := by
    intro d member
    obtain ⟨d', listed, rfl⟩ := List.mem_map.mp member
    exact ⟨d', listed, by simp, by simp, by simp, by simp⟩
  constructor
  · simpa [Router.recordResponse, Function.comp_def] using published.distinct
  · intro d member
    obtain ⟨d', listed, _, key, _, display⟩ := origin d member
    rw [key, display]
    exact published.bounded d' listed
  · intro d member shown number displayed
    obtain ⟨d', listed, _, key, same, display⟩ := origin d member
    rw [key] at number displayed
    rw [display] at number
    rw [same]
    exact published.identified d' listed shown number displayed
  · intro d member shown number displayed
    obtain ⟨d', listed, _, key, _, display⟩ := origin d member
    rw [key] at number displayed ⊢
    rw [display] at number
    exact published.known d' listed shown number displayed
  · intro d member e member' keys displays
    obtain ⟨d', listed, id, key, _, display⟩ := origin d member
    obtain ⟨e', listed', id', key', _, display'⟩ := origin e member'
    rw [key, key'] at keys
    rw [display, display'] at displays
    rw [id, id']
    exact published.unique d' listed e' listed' keys displays

end Answered

section Steps

variable [Sha256]

theorem Sound.of_fresh (fresh : Fresh router) : Sound router := by
  rw [fresh]
  constructor
  · constructor <;> simp
  all_goals simp

theorem Due.publishes
    {snapshot : ObservationSnapshot} {ids : List String} (due : Due router agent snapshot ids)
    (grown : Publishes router after)
    : Due after agent snapshot ids := by
  intro id member
  obtain ⟨d, found, lasts⟩ := due id member
  refine ⟨d, grown.load found, fun unstarted => ?_⟩
  rw [grown.displays]
  rw [Router.operationExists, grown.operations] at unstarted
  exact lasts unstarted

theorem Sound.process (sound : Sound router) {snapshot : ObservationSnapshot}
    (reflects : Reflects router agent snapshot)
    : Sound (router.process agent snapshot) := by
  have grown := publishes_process router agent snapshot
  constructor
  · exact sound.published.process reflects
  · intro other snapshot' latest
    rw [grown.latest] at latest
    exact (sound.latest other snapshot' latest).publishes grown
  · intro o member
    rw [grown.observing] at member
    have waits := sound.waits o member
    exact ⟨waits.1.publishes grown, waits.2.publishes grown⟩
  · rw [grown.observing]
    exact sound.single
  · rw [grown.recorded]
    exact sound.recorded
  · intro id member
    rw [grown.recorded] at member
    obtain ⟨d, found, responded⟩ := sound.responded id member
    exact ⟨d, grown.load found, responded⟩
  · rw [grown.answers]
    exact sound.answers

/-- An answer given while the display of its request lasts. -/
theorem Sound.give (sound : Sound router) (answer : Answer)
    (lasts : decision.display = (router.displays decision.key).number)
    (displayed : (router.displays decision.key).identity = some decision.identity)
    : Sound (router.give decision answer) := by
  refine { sound with published := { sound.published with }, answers := ?_ }
  intro a member
  rcases List.mem_append.mp member with earlier | here
  · exact sound.answers a earlier
  · rw [List.mem_singleton.mp here]
    simp only [lasts, ← displayed]

variable {decode : DecisionKind → String → Dialog → Response → Option Answer}

/-- What a response to resume is resumed on. -/
theorem resumable_spec {id : String} {snapshot : ObservationSnapshot} {answer : Answer}
    (h : router.resumable decode agent snapshot id = some (decision, answer))
    : router.load id = some decision ∧ router.operationExists id = false
      ∧ decision.agent = agent
      ∧ currentIdentity snapshot decision.kind = some decision.identity := by
  simp only [Router.resumable, Option.ite_none_left_eq_some, Option.bind_eq_some_iff] at h
  obtain ⟨named, d, found, h⟩ := h
  simp only [Bool.or_eq_true, not_or, Bool.not_eq_true] at named
  split_ifs at h with bound
  simp only [Option.bind_eq_some_iff, Option.map_eq_some_iff, Prod.mk.injEq] at h
  obtain ⟨response, _, answer', _, rfl, rfl⟩ := h
  exact ⟨found, named.2, bound.1, bound.2⟩

theorem Sound.resumeFrom (sound : Sound router) {snapshot : ObservationSnapshot} {ids : List String}
    (reflects : Reflects router agent snapshot) (due : Due router agent snapshot ids)
    (alone : ∀ o ∈ router.observing, o.agent ≠ agent)
    : Sound (router.resumeFrom decode agent snapshot ids) := by
  induction ids with
  | nil => exact sound.process reflects
  | cons id ids ih =>
    have later : Due router agent snapshot ids :=
      fun id member => due id (List.mem_cons_of_mem _ member)
    simp only [Router.resumeFrom]
    split
    · rename_i decision answer found
      obtain ⟨loaded, unstarted, owner, current⟩ := resumable_spec found
      obtain ⟨d, loaded', lasts⟩ := due id List.mem_cons_self
      rw [loaded] at loaded'
      cases loaded'
      have key : decision.key = (agent, decision.kind) := by rw [Decision.key, owner]
      have displayed : (router.displays decision.key).identity = some decision.identity := by
        rw [key]
        exact (reflects decision.kind).1 _ current
      have given := sound.give answer (lasts unstarted owner current) displayed
      refine { given with published := { given.published with }, waits := ?_, single := ?_ }
      · intro o member
        rcases List.mem_append.mp member with earlier | here
        · exact given.waits o earlier
        · rw [List.mem_singleton.mp here]
          exact ⟨reflects, later⟩
      · simp only [List.map_append, List.map_cons, List.map_nil]
        refine List.nodup_append.mpr ⟨given.single, by simp, ?_⟩
        intro name listed other single
        obtain ⟨o, member, rfl⟩ := List.mem_map.mp listed
        rw [List.mem_singleton.mp single]
        exact alone o member
    · exact ih later

/-- Ingesting a frame while nobody waits for an older one of the agent. -/
theorem Sound.ingest (sound : Sound router) (snapshot : ObservationSnapshot)
    (alone : ∀ o ∈ router.observing, o.agent ≠ agent)
    : Sound (router.ingest agent snapshot) := by
  have other : ∀ {name : String} {kind : DecisionKind}, name ≠ agent
      → (router.ingest agent snapshot).displays (name, kind) = router.displays (name, kind) := by
    intro name kind apart
    simp [Router.ingest, apart]
  have elsewhere : ∀ {name : String} {snapshot' : ObservationSnapshot}, name ≠ agent
      → Reflects router name snapshot'
      → Reflects (router.ingest agent snapshot) name snapshot' := by
    intro name snapshot' apart reflects kind
    rw [other apart]
    exact reflects kind
  refine { sound with
    published := sound.published.ingest agent snapshot, latest := ?_, waits := ?_ }
  · intro name snapshot' latest
    by_cases same : name = agent
    · subst same
      simp only [Router.ingest, set_same, Option.some.injEq] at latest
      subst latest
      exact reflects_ingest name snapshot
    · simp only [Router.ingest, set_other _ _ same] at latest
      exact elsewhere same (sound.latest name snapshot' latest)
  · intro o member
    have apart := alone o member
    refine ⟨elsewhere apart (sound.waits o member).1, ?_⟩
    intro id listed
    obtain ⟨d, found, lasts⟩ := (sound.waits o member).2 id listed
    refine ⟨d, found, fun unstarted owner current => ?_⟩
    rw [Decision.key, owner, other apart, ← owner]
    exact lasts unstarted owner current

/-- What an accepted response does. -/
theorem respond_spec {body : Router.Body Response} (h : router.respond decode body = .ok after)
    : ∃ d answer, router.load (strip body.requestId) = some d ∧ d.response = none
        ∧ (router.latest d.agent).bind (fun snapshot => currentIdentity snapshot d.kind)
          = some d.identity
        ∧ after = (router.recordResponse (strip body.requestId) body.response
            (strip body.decidedBy)).give d answer := by
  simp only [Router.respond, bind, Except.bind, pure, Except.pure, throw, throwThe,
    MonadExceptOf.throw] at h
  split at h
  · rename_i kind _
    split_ifs at h with _ current
    · split at h
      · split_ifs at h
      · cases h
    · split at h
      · rename_i d found
        split_ifs at h with owner same bound responded
        split at h
        · rename_i answer decoded
          cases h
          refine ⟨d, answer, found, by simpa using responded, ?_, rfl⟩
          simp only [ne_eq, Decidable.not_not] at owner same bound current
          rw [owner, same, bound]
          exact current
        · cases h
      · cases h
  · cases h

theorem Sound.recordResponse (sound : Sound router) {id decidedBy : String}
    {response : Response} {d : Decision Response} (found : router.load id = some d)
    (open' : d.response = none)
    : Sound (router.recordResponse id response decidedBy) := by
  have load : ∀ other, (router.recordResponse id response decidedBy).load other
      = (router.load other).map (Decision.answered id response decidedBy) :=
    fun other => load_recordResponse
  constructor
  · exact sound.published.recordResponse
  · exact sound.latest
  · intro o member
    refine ⟨(sound.waits o member).1, ?_⟩
    intro other listed
    obtain ⟨d', found', lasts⟩ := (sound.waits o member).2 other listed
    refine ⟨d'.answered id response decidedBy, by rw [load, found']; rfl, ?_⟩
    simp only [Decision.answered_agent, Decision.answered_kind, Decision.answered_identity,
      Decision.answered_display, Decision.answered_key]
    exact lasts
  · exact sound.single
  · refine List.nodup_append.mpr ⟨sound.recorded, by simp, ?_⟩
    intro other listed last single same
    rw [List.mem_singleton.mp single] at same
    obtain ⟨d', found', responded⟩ := sound.responded other listed
    rw [same, found] at found'
    cases found'
    simp [open'] at responded
  · intro other listed
    rcases List.mem_append.mp listed with earlier | here
    · obtain ⟨d', found', responded⟩ := sound.responded other earlier
      exact ⟨_, by rw [load, found']; rfl, by simp [responded]⟩
    · rw [List.mem_singleton.mp here]
      have named : d.id = id := by simpa using List.find?_some found
      exact ⟨_, by rw [load, found]; rfl, by simp [named]⟩
  · exact sound.answers

/-! ### Runs -/

/-- An event that answers no request behind its display: a frame is ingested while no older one
of its agent is being observed, and while no recorded response without an operation belongs to
an earlier display of what it shows; and a response is for the display that lasts, where its
content is displayed.
-/
def careful (router : Router Response Answer) : Event Response → Bool
  | .observe agent snapshot =>
    router.observing.all (fun o => o.agent ≠ agent)
      && router.decisions.all (fun d =>
        d.agent ≠ agent || d.response.isNone || router.operationExists d.id
          || currentIdentity snapshot d.kind ≠ some d.identity
          || d.display = ((router.ingest agent snapshot).displays d.key).number)
  | .respond body =>
    (router.load (strip body.requestId)).all (fun d =>
      d.response.isSome || (router.displays d.key).identity ≠ some d.identity
        || d.display = (router.displays d.key).number)
  | _ => true

theorem Sound.observe (sound : Sound router) {agent : String} {snapshot : ObservationSnapshot}
    (spared : careful router (.observe agent snapshot) = true)
    : Sound (router.observe decode agent snapshot) := by
  simp only [careful, Bool.and_eq_true, List.all_eq_true, decide_eq_true_eq, Bool.or_eq_true]
    at spared
  obtain ⟨alone, lasting⟩ := spared
  have ingested := sound.ingest snapshot alone
  refine ingested.resumeFrom (reflects_ingest agent snapshot) ?_ alone
  intro id listed
  obtain ⟨d, member, rfl⟩ := List.mem_map.mp listed
  obtain ⟨member, recorded⟩ := List.mem_filter.mp member
  refine ⟨d, ?_, fun unstarted owner current => ?_⟩
  · exact load_of_mem ingested.published member
  · simp only [Bool.and_eq_true, decide_eq_true_eq] at recorded
    have unstarted' : router.operationExists d.id = false := unstarted
    rcases lasting d member with (((other | unanswered) | started) | elsewhere) | lasts
    · exact absurd owner other
    · simp [Option.isNone_iff_eq_none.mp unanswered] at recorded
    · rw [started] at unstarted'
      cases unstarted'
    · exact absurd current elsewhere
    · exact lasts

theorem Sound.respond (sound : Sound router) {body : Router.Body Response}
    {after : Router Response Answer} (spared : careful router (.respond body) = true)
    (accepted : router.respond decode body = .ok after)
    : Sound after := by
  obtain ⟨d, answer, found, unanswered, current, rfl⟩ := respond_spec accepted
  obtain ⟨snapshot, latest, current⟩ := Option.bind_eq_some_iff.mp current
  have displayed : (router.displays d.key).identity = some d.identity :=
    (sound.latest d.agent snapshot latest d.kind).1 d.identity current
  have lasts : d.display = (router.displays d.key).number := by
    simpa [careful, found, unanswered, displayed] using spared
  exact (sound.recordResponse found unanswered).give answer lasts displayed

/-- A waiting observation that goes on, or gives up. -/
theorem Sound.dismiss (sound : Sound router) {before later : List Observing} {waiting : Observing}
    (waits : router.observing = before ++ waiting :: later)
    : Sound { router with observing := before ++ later }
      ∧ ∀ o ∈ before ++ later, o.agent ≠ waiting.agent := by
  have single := sound.single
  rw [waits, List.map_append, List.map_cons] at single
  constructor
  · refine { sound with published := { sound.published with }, waits := ?_, single := ?_ }
    · intro o listed
      refine sound.waits o ?_
      rw [waits]
      rcases List.mem_append.mp listed with h | h
      · exact List.mem_append_left _ h
      · exact List.mem_append_right _ (List.mem_cons_of_mem _ h)
    · rw [List.map_append]
      exact single.sublist (List.Sublist.append_left (List.sublist_cons_self _ _) _)
  · intro o listed same
    have apart := List.nodup_middle.mp single
    rw [← List.map_append] at apart
    exact (List.nodup_cons.mp apart).1 (same ▸ List.mem_map_of_mem listed)

theorem Sound.step (sound : Sound router) {event : Event Response}
    {after : Router Response Answer} (step : RouterStep decode router event after)
    (spared : careful router event = true)
    : Sound after := by
  cases step with
  | observe agent snapshot => exact sound.observe spared
  | @resume before waiting later waits =>
    have member : waiting ∈ router.observing := by simp [waits]
    obtain ⟨left, alone⟩ := sound.dismiss waits
    have held := sound.waits waiting member
    exact left.resumeFrom held.1 held.2 alone
  | abandon waits => exact (sound.dismiss waits).1
  | respond accepted => exact sound.respond spared accepted
  | refuse _ => exact sound
  | @persist id _ =>
    refine { sound with published := { sound.published with }, waits := ?_ }
    intro o listed
    refine ⟨(sound.waits o listed).1, ?_⟩
    intro other pending
    obtain ⟨d, found, lasts⟩ := (sound.waits o listed).2 other pending
    refine ⟨d, found, fun unstarted => lasts ?_⟩
    simp only [Router.operationExists, List.contains_eq_mem, List.mem_append, List.mem_singleton,
      decide_eq_false_iff_not, not_or] at unstarted ⊢
    exact unstarted.1
  | restart =>
    exact {
      published := {
        distinct := sound.published.distinct
        bounded := sound.published.bounded
        identified := sound.published.identified
        known := fun _ _ _ _ _ => .inr ⟨rfl, rfl⟩
        unique := sound.published.unique
      }
      latest := fun _ _ latest => by cases latest
      waits := fun _ listed => by cases listed
      single := List.nodup_nil
      recorded := sound.recorded
      responded := sound.responded
      answers := sound.answers
    }

/-- Each display published at most once, each request answered at most once, and every answer
given while the display of its request lasts.
-/
structure OnlyItsDialog (router : Router Response Answer) : Prop where
  published
    : ∀ d ∈ router.decisions, ∀ d' ∈ router.decisions,
        d.key = d'.key → d.display = d'.display → d.id = d'.id
  recorded : router.recorded.Nodup
  answers : ∀ a ∈ router.answers, a.observed = ⟨a.display, some a.identity⟩

theorem onlyItsDialog {events : List (Event Response)} {router : Router Response Answer}
    (run : Run Fresh
      (fun router event after =>
        RouterStep decode router event after ∧ careful router event = true)
      events router)
    : OnlyItsDialog router := by
  have sound : Sound router :=
    run.invariant (fun _ fresh => .of_fresh fresh)
      (fun _ _ _ sound step => sound.step step.1 step.2)
  exact ⟨sound.published.unique, sound.recorded, sound.answers⟩

end Steps

/-! ### A permission dialog shown twice -/

namespace Deploy

abbrev sha256 : Sha256 := ⟨fun text => "#" ++ text ++ "#"⟩

def permission : PermissionRequestState :=
  ⟨none, some "shell", some "deploy", none, [], ∅, none⟩

def snapshot (capture : Nat) (request : Observed PermissionRequestState) : ObservationSnapshot where
  revision := ⟨1, capture, 1⟩
  surface := .unknown
  composer := .unknown
  transcriptTail := .unknown
  health := {}
  permissionRequest := request

def dialogAt (capture : Nat) : ObservationSnapshot := snapshot capture (.present permission)

def absentAt (capture : Nat) : ObservationSnapshot := snapshot capture ⟨.absent, none, by simp⟩

def decodeText (_ : DecisionKind) (_ : String) (_ : Dialog) (response : String) : Option String :=
  some response

def identity : String := @permissionFingerprint sha256 permission

def requestAt (capture : Nat) : String :=
  Router.requestId ("crow", .permission) identity (dialogAt capture).revision

def allow (capture : Nat) : Router.Body String :=
  ⟨"crow", requestAt capture, "permission", identity, "user", "allow once"⟩

def next (router : Router String String) : Event String → Option (Router String String)
  | .observe agent snapshot =>
    some (@Router.observe _ _ router sha256 decodeText agent snapshot)
  | .respond body => (@Router.respond _ _ router sha256 decodeText body).toOption
  | _ => none

theorem step_of_next {router after : Router String String} {event : Event String}
    (h : next router event = some after)
    : @RouterStep sha256 _ _ decodeText router event after := by
  cases event with
  | observe agent snapshot =>
    cases h
    exact @RouterStep.observe sha256 _ _ decodeText router agent snapshot
  | respond body =>
    simp only [next] at h
    cases replied : @Router.respond _ _ router sha256 decodeText body with
    | error error =>
      rw [replied] at h
      cases h
    | ok accepted =>
      rw [replied] at h
      cases h
      exact @RouterStep.respond sha256 _ _ _ _ _ _ replied
  | resume => cases h
  | abandon => cases h
  | persist id => cases h
  | restart => cases h

def guarded (router : Router String String) (event : Event String)
    : Option (Router String String) :=
  if @careful _ _ sha256 router event then next router event else none

theorem step_of_guarded (router : Router String String) (event : Event String)
    (after : Router String String) (h : guarded router event = some after)
    : @RouterStep sha256 _ _ decodeText router event after
      ∧ @careful _ _ sha256 router event = true := by
  simp only [guarded, Option.ite_none_right_eq_some] at h
  exact ⟨step_of_next h.2, h.1⟩

/-- The dialog is shown and answered. -/
def prompt : List (Event String) := [.observe "crow" (dialogAt 1), .respond (allow 1)]

/-- The dialog goes and comes back before its first request is answered. -/
def late : List (Event String) :=
  [.observe "crow" (dialogAt 1), .observe "crow" (absentAt 2), .observe "crow" (dialogAt 3),
    .respond (allow 1)]

/-- A request answered while its dialog is shown. -/
theorem onlyItsDialog_prompt
    : ∃ router, play guarded {} prompt = some router ∧ router.answers.length = 1
        ∧ OnlyItsDialog router := by
  have played : ((play guarded {} prompt).map (fun router => router.answers.length)) = some 1 := by
    decide +kernel
  obtain ⟨router, played, one⟩ := Option.map_eq_some_iff.mp played
  have steps := steps_of_play step_of_guarded played
  exact ⟨router, played, one, @onlyItsDialog _ _ sha256 decodeText prompt router ⟨{}, rfl, steps⟩⟩

/-- The answer to the first request is given to the second display. -/
theorem lateAnswer
    : ¬∀ (events : List (Event String)) (router : Router String String),
        Run Fresh (@RouterStep sha256 _ _ decodeText) events router
        → OnlyItsDialog router := by
  intro claim
  have played : ((play next {} late).map (fun router =>
      router.answers.map (fun a => (a.display, a.observed.number)))) = some [(1, 2)] := by
    decide +kernel
  obtain ⟨router, played, shown⟩ := Option.map_eq_some_iff.mp played
  have steps := steps_of_play (fun _ _ _ => step_of_next) played
  have answers := (claim late router ⟨{}, rfl, steps⟩).answers
  cases given : router.answers with
  | nil => simp [given] at shown
  | cons a rest =>
    rw [given] at shown answers
    simp only [List.map_cons, List.cons.injEq, Prod.mk.injEq] at shown
    have number : a.observed.number = a.display := by rw [answers a List.mem_cons_self]
    exact absurd (shown.1.1.symm.trans (number.symm.trans shown.1.2)) (by decide)

end Deploy

end Murder.Decisions
