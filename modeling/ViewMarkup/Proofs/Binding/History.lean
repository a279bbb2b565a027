import ViewMarkup.Proofs.Binding.Ledger
import ViewMarkup.Proofs.Object.Access

/-!
# The history of a registry of bindings

Registrations, releases and copies take turns with whatever else goes on: the host changes objects
and makes new ones, objects are collected, and finalizers run some time later. A step of all this is
one event, and copying along several bindings is as many steps, so that anything may happen between
two of them. Objects that are alive have different identity numbers; a new object may have that of
one that was collected, whether its finalizer has run or not.

What an owner has is read off the history of events alone: the bindings registered since its last
release, without those whose view had been collected when the owner's values were copied.

## Main results

* `Memory.Step.ledger_of`, `Memory.Step.table_of`: what one event makes of the bindings of an owner.
* `Memory.Sound.step`, `Memory.Run.sound`: the ledger agrees with the history, at every step and
  along every run.
* `Memory.run_history`: the ledger, the table by object and the history are one and the same to
  every owner that is alive, and nothing that belongs to a collected owner is copied.
-/

namespace ViewMarkup

/-! ## Calls and events -/

/-- Which way values are copied. -/
inductive Direction where
  | toView
  | toOwner
deriving DecidableEq, Repr

/-- Copies a value along a binding. -/
def Binding.copy (b : Binding) : Direction → Scene → Except Failure Store
  | .toView => b.push
  | .toOwner => b.pull

/-- A call that copies values along bindings: those of an owner, or those of a view to their
owners. -/
inductive Task where
  | ofOwner (direction : Direction) (owner : ObjectId)
  | ofView (view : ObjectId) (path : Option String)
deriving DecidableEq, Repr

namespace Task

/-- The object that is handed over with the call, and held until the call ends. -/
def subject : Task → ObjectId
  | .ofOwner _ owner => owner
  | .ofView view _ => view

/-- Which way the values are copied. -/
def direction : Task → Direction
  | .ofOwner direction _ => direction
  | .ofView _ _ => .toOwner

/-- The end of a binding that may be gone when its turn comes. -/
def far : Task → Binding → ObjectId
  | .ofOwner _ _, b => b.view
  | .ofView _ _, b => b.owner

end Task

/-- A call under way, with the bindings whose turn is still to come. -/
structure Propagation where
  task : Task
  queue : List Binding
  count : Nat := 0
deriving DecidableEq, Repr

/-- What happens in one step. -/
inductive Event where
  | acted
  | collected (id : ObjectId)
  | finalized (key : Identity) (owner : ObjectId)
  | registered (b : Binding)
  | refused (b : Binding)
  | released (owner : ObjectId) (count : Nat)
  | counted (owner : ObjectId) (count : Nat)
  | listed (owner : ObjectId) (bs : List Binding)
  | began (task : Task)
  | copied (b : Binding)
  | passed (b : Binding)
  | failed (b : Binding)
  | ended (count : Nat)
deriving DecidableEq, Repr

/-- The owner whose bindings a call is about. -/
def Event.owner? : Event → Option ObjectId
  | .registered b | .refused b => some b.owner
  | .released owner _ | .counted owner _ | .listed owner _ => some owner
  | .began (.ofOwner _ owner) => some owner
  | _ => none

/-! ## What the history says

A history has its last event first. -/

namespace History

/-- The bindings registered for an owner since its last release, in order. -/
def registered (owner : ObjectId) : List Event → List Binding
  | [] => []
  | .registered b :: past =>
    if b.owner = owner then registered owner past ++ [b] else registered owner past
  | .released other _ :: past => if other = owner then [] else registered owner past
  | _ :: past => registered owner past

/-- Whether a view had been collected already when values of an owner were copied, either way. -/
def missed (owner view : ObjectId) : List Event → Bool
  | [] => false
  | .began (.ofOwner _ other) :: past =>
    (other == owner && past.contains (.collected view)) || missed owner view past
  | _ :: past => missed owner view past

/-- The bindings that an owner has after a history. -/
def standing (owner : ObjectId) (past : List Event) : List Binding :=
  (registered owner past).filter fun b => !missed owner b.view past

end History

/-- What an event makes of the bindings of an owner, where some objects are still there. -/
def Event.revise (owner : ObjectId) (living : ObjectId → Bool) :
    Event → List Binding → List Binding
  | .registered b, bs => if b.owner = owner then bs ++ [b] else bs
  | .released other _, bs => if other = owner then [] else bs
  | .began (.ofOwner _ other), bs =>
    if other = owner then bs.filter fun b => living b.view else bs
  | _, bs => bs

/-- An event about someone else changes nothing. -/
theorem Event.revise_of_ne {owner : ObjectId} {living : ObjectId → Bool} {e : Event}
    {bs : List Binding} (h : e.owner? ≠ some owner) : e.revise owner living bs = bs := by
  cases e with
  | registered b => simp_all [owner?, revise]
  | released other count => simp_all [owner?, revise]
  | began task => cases task <;> simp_all [owner?, revise]
  | _ => rfl

namespace History

private theorem collected_of_missed {owner view : ObjectId} {past : List Event}
    (h : missed owner view past = true) : .collected view ∈ past := by
  fun_induction missed owner view past with
  | case1 => cases h
  | case2 direction other past ih =>
    rcases Bool.or_eq_true_iff.1 h with hNow | hBefore
    · have hMem : past.contains (.collected view) = true := (Bool.and_eq_true_iff.1 hNow).2
      exact List.mem_cons_of_mem _ (List.contains_iff_mem.1 hMem)
    · exact List.mem_cons_of_mem _ (ih hBefore)
  | case3 e past _ ih => exact List.mem_cons_of_mem _ (ih h)

/-- The bindings of an owner follow from those before the last event. -/
theorem standing_cons {owner : ObjectId} {e : Event} {past : List Event}
    (hView : ∀ b, e = .registered b → .collected b.view ∉ past) :
    standing owner (e :: past) =
      e.revise owner (fun view => !past.contains (.collected view)) (standing owner past) := by
  cases e with
  | registered b =>
    have hSeen : missed owner b.view past = false :=
      Bool.not_eq_true _ ▸ fun h => hView b rfl (collected_of_missed h)
    by_cases hOwner : b.owner = owner
    · simp [standing, registered, missed, Event.revise, hOwner, hSeen]
    · simp [standing, registered, missed, Event.revise, hOwner]
  | released other count =>
    by_cases hOwner : other = owner
    · simp [standing, registered, Event.revise, hOwner]
    · simp [standing, registered, missed, Event.revise, hOwner]
  | began task =>
    cases task with
    | ofOwner direction other =>
      by_cases hOwner : other = owner
      · simp [standing, registered, missed, Event.revise, hOwner, List.filter_filter]
      · have hOther : (other == owner) = false := by simpa using hOwner
        simp [standing, registered, missed, Event.revise, hOwner, hOther]
    | ofView view path => rfl
  | _ => rfl

/-- Only its own bindings are registered for an owner. -/
theorem owner_of_mem_registered {owner : ObjectId} {past : List Event} {b : Binding}
    (h : b ∈ registered owner past) : b.owner = owner := by
  fun_induction registered owner past <;> grind

/-- What is registered after an event was registered by it, or before. -/
theorem eq_or_mem_of_mem_registered {owner : ObjectId} {e : Event} {past : List Event} {b : Binding}
    (h : b ∈ registered owner (e :: past)) : e = .registered b ∨ b ∈ registered owner past := by
  cases e with
  | registered b' =>
    simp only [registered] at h
    split at h
    · rcases List.mem_append.1 h with h | h
      · exact .inr h
      · exact .inl (List.mem_singleton.1 h ▸ rfl)
    · exact .inr h
  | released other count =>
    simp only [registered] at h
    split at h
    · cases h
    · exact .inr h
  | _ => exact .inr h

theorem owner_of_mem_standing {owner : ObjectId} {past : List Event} {b : Binding}
    (h : b ∈ standing owner past) : b.owner = owner :=
  owner_of_mem_registered (List.mem_filter.1 h).1

end History

/-! ## Steps -/

/-- The objects, those of them that were collected, the bindings in both forms, and the calls under
way, the innermost first. -/
structure Memory where
  scene : Scene
  gone : List ObjectId := []
  ledger : Ledger := {}
  table : Bindings := []
  running : List Propagation := []

namespace Memory

/-- Whether a weak reference to an object still leads to it. -/
def living (m : Memory) (id : ObjectId) : Bool := !m.gone.contains id

/-- Objects that exist and were not collected. -/
def Alive (m : Memory) (id : ObjectId) : Prop := id < m.scene.store.size ∧ id ∉ m.gone

/-- Objects that are alive have different identity numbers. -/
def Apart (number : ObjectId → Identity) (m : Memory) : Prop :=
  ∀ a b, m.Alive a → m.Alive b → number a = number b → a = b

/-- A call that copies values begins. If it is one for an owner, bindings to views that are gone are
dropped first. -/
def start (number : ObjectId → Identity) (m : Memory) : Task → Memory
  | .ofOwner direction owner =>
    let ledger := m.ledger.weed number m.living owner
    { m with
      ledger
      table := m.table.weed m.living owner
      running := { task := .ofOwner direction owner, queue := ledger.of number owner } ::
        m.running }
  | .ofView view path =>
    { m with
      running := { task := .ofView view path, queue := m.ledger.ofView view path } :: m.running }

/-- What can happen next. Calls are made with objects that are alive; what a call under way was made
with is not collected. -/
inductive Step (number : ObjectId → Identity) : Memory → Event → Memory → Prop where
  /-- The host does something with objects, or makes new ones. -/
  | act {m : Memory} (scene : Scene) (hSize : m.scene.store.size ≤ scene.store.size)
      (hApart : Apart number { m with scene }) : Step number m .acted { m with scene }
  | collect {m : Memory} {id : ObjectId} (hAlive : m.Alive id)
      (hFree : ∀ p ∈ m.running, p.task.subject ≠ id) :
      Step number m (.collected id) { m with gone := id :: m.gone }
  | finalize {m : Memory} {key : Identity} {owner : ObjectId}
      (hDue : (key, owner) ∈ m.ledger.finalizers) (hGone : owner ∈ m.gone) :
      Step number m (.finalized key owner) { m with ledger := m.ledger.forget key owner }
  | register {m : Memory} {b : Binding} {ledger : Ledger} {table : Bindings}
      (hOwner : m.Alive b.owner) (hView : m.Alive b.view)
      (hLedger : m.ledger.register number m.scene b = .ok ledger)
      (hTable : m.table.register m.scene b = .ok table) :
      Step number m (.registered b) { m with ledger, table }
  | refuse {m : Memory} {b : Binding} {failure : Failure} (hOwner : m.Alive b.owner)
      (hView : m.Alive b.view) (hLedger : m.ledger.register number m.scene b = .error failure) :
      Step number m (.refused b) m
  | release {m : Memory} {owner : ObjectId} (hAlive : m.Alive owner) :
      Step number m (.released owner (m.ledger.release number owner).1)
        { m with
          ledger := (m.ledger.release number owner).2
          table := m.table.release owner }
  | count {m : Memory} {owner : ObjectId} (hAlive : m.Alive owner) :
      Step number m (.counted owner (m.ledger.of number owner).length) m
  | list {m : Memory} {owner : ObjectId} (hAlive : m.Alive owner) :
      Step number m (.listed owner (m.ledger.of number owner)) m
  | begin {m : Memory} {task : Task} (hAlive : m.Alive task.subject) :
      Step number m (.began task) (m.start number task)
  | copy {m : Memory} {p : Propagation} {outer : List Propagation} {b : Binding}
      {queue : List Binding} {store : Store} (hRunning : m.running = p :: outer)
      (hQueue : p.queue = b :: queue) (hFar : m.living (p.task.far b) = true)
      (hCopy : b.copy p.task.direction m.scene = .ok store) :
      Step number m (.copied b)
        { m with
          scene := { m.scene with store }
          running := { p with queue, count := p.count + 1 } :: outer }
  | pass {m : Memory} {p : Propagation} {outer : List Propagation} {b : Binding}
      {queue : List Binding} (hRunning : m.running = p :: outer) (hQueue : p.queue = b :: queue)
      (hFar : m.living (p.task.far b) = false) :
      Step number m (.passed b) { m with running := { p with queue } :: outer }
  | fail {m : Memory} {p : Propagation} {outer : List Propagation} {b : Binding}
      {queue : List Binding} {failure : Failure} (hRunning : m.running = p :: outer)
      (hQueue : p.queue = b :: queue) (hFar : m.living (p.task.far b) = true)
      (hCopy : b.copy p.task.direction m.scene = .error failure) :
      Step number m (.failed b) { m with running := outer }
  | finish {m : Memory} {p : Propagation} {outer : List Propagation}
      (hRunning : m.running = p :: outer) (hQueue : p.queue = []) :
      Step number m (.ended p.count) { m with running := outer }

/-- Histories from a registry without bindings, with what they lead to. -/
inductive Run (number : ObjectId → Identity) : List Event → Memory → Prop where
  | start (scene : Scene) (hApart : Apart number { scene }) : Run number [] { scene }
  | step {past : List Event} {m m' : Memory} {e : Event} (hRun : Run number past m)
      (hStep : Step number m e m') : Run number (e :: past) m'

end Memory

/-! ## One step -/

/-- Copying makes no object. -/
theorem Binding.size_copy {b : Binding} {direction : Direction} {sc : Scene} {s : Store}
    (h : b.copy direction sc = .ok s) : s.size = sc.store.size := by
  have hWrites {v new : Value} {path : String} (h : sc.writePath v path new = .ok s) :
      s.size = sc.store.size :=
    (Scene.writePath_writes sc.closed_univ (fun _ _ => trivial) (fun _ _ => trivial) h).size_eq
  cases direction with
  | toView =>
    obtain ⟨v, -, h⟩ := exists_of_bind_eq_ok h
    exact hWrites h
  | toOwner =>
    obtain ⟨v, -, h⟩ := exists_of_bind_eq_ok h
    exact hWrites h

namespace Memory

variable {number : ObjectId → Identity} {past : List Event} {m m' : Memory} {e : Event}

theorem living_iff {id : ObjectId} : m.living id = true ↔ id ∉ m.gone := by
  simp [living]

private theorem Apart.anti (h : Apart number m) (hAlive : ∀ id, m'.Alive id → m.Alive id) :
    Apart number m' :=
  fun a b ha hb => h a b (hAlive a ha) (hAlive b hb)

namespace Step

theorem size_le (h : Step number m e m') : m.scene.store.size ≤ m'.scene.store.size := by
  cases h with
  | act scene hSize hApart => exact hSize
  | copy hRunning hQueue hFar hCopy => exact Nat.le_of_eq (Binding.size_copy hCopy).symm
  | @begin task hAlive => cases task <;> exact Nat.le_refl _
  | _ => exact Nat.le_refl _

/-- What is collected stays so, and only an event of that kind collects. -/
theorem mem_gone_iff (h : Step number m e m') {id : ObjectId} :
    id ∈ m'.gone ↔ e = .collected id ∨ id ∈ m.gone := by
  cases h with
  | collect hAlive hFree => simp [eq_comm]
  | @begin task hAlive => cases task <;> simp [start]
  | _ => simp

private theorem apart (h : Step number m e m') (hApart : Apart number m) : Apart number m' := by
  cases h with
  | act scene hSize hScene => exact hScene
  | collect hAlive hFree =>
    exact hApart.anti fun id hId => ⟨hId.1, fun h => hId.2 (List.mem_cons_of_mem _ h)⟩
  | copy hRunning hQueue hFar hCopy =>
    exact hApart.anti fun id hId => ⟨Binding.size_copy hCopy ▸ hId.1, hId.2⟩
  | @begin task hAlive => cases task <;> exact hApart
  | _ => exact hApart

/-- What one event makes of the bindings of an owner in the ledger. The account of someone who is
gone may be lost besides. -/
theorem ledger_of (h : Step number m e m') {owner : ObjectId} (hGone : owner ∉ m.gone)
    (hShared : ∀ b, e = .registered b → owner ≠ b.owner → number owner = number b.owner →
      m.ledger.of number owner = []) :
    m'.ledger.of number owner = e.revise owner m.living (m.ledger.of number owner) := by
  cases h with
  | @finalize key other hDue hOther =>
    exact Ledger.of_forget_ne fun hEq => hGone (hEq ▸ hOther)
  | @register b ledger table hOwner hView hLedger hTable =>
    obtain ⟨rfl, -⟩ := (Ledger.register_eq_ok_iff m.table).1 hLedger
    by_cases hEq : b.owner = owner
    · subst hEq
      simp only [Event.revise, if_true]
      exact Ledger.of_record_self m.ledger b
    · simp only [Event.revise, if_neg hEq]
      by_cases hNumber : number owner = number b.owner
      · rw [Ledger.of_record_of_eq (Ne.symm hEq) hNumber,
          hShared b rfl (Ne.symm hEq) hNumber]
      · exact Ledger.of_record_of_ne hNumber
  | @release other hAlive =>
    by_cases hEq : other = owner
    · subst hEq
      simp only [Event.revise, if_true]
      exact Ledger.of_release_self m.ledger other
    · simp only [Event.revise, if_neg hEq]
      exact Ledger.of_release_ne (Ne.symm hEq)
  | @begin task hAlive =>
    cases task with
    | ofOwner direction other =>
      by_cases hEq : other = owner
      · subst hEq
        simp only [Event.revise, if_true]
        exact Ledger.of_weed_self m.ledger m.living other
      · simp only [Event.revise, if_neg hEq]
        exact Ledger.of_weed_ne (Ne.symm hEq)
    | ofView view path => rfl
  | _ => rfl

/-- What one event makes of the bindings of an owner in the table by object. -/
theorem table_of (h : Step number m e m') (owner : ObjectId) :
    m'.table.of owner = e.revise owner m.living (m.table.of owner) := by
  cases h with
  | @register b ledger table hOwner hView hLedger hTable =>
    obtain ⟨-, hRecord⟩ := (Ledger.register_eq_ok_iff m.table).1 hLedger
    obtain rfl : m.table.record b = table := Except.ok.inj (hRecord.symm.trans hTable)
    by_cases hEq : b.owner = owner
    · subst hEq
      simp only [Event.revise, if_true]
      exact Bindings.of_record_self m.table b
    · simp only [Event.revise, if_neg hEq]
      exact Bindings.of_record_ne (Ne.symm hEq)
  | @release other hAlive =>
    by_cases hEq : other = owner
    · subst hEq
      simp only [Event.revise, if_true]
      exact Bindings.of_release_self m.table other
    · simp only [Event.revise, if_neg hEq]
      exact Bindings.of_release_ne (Ne.symm hEq)
  | @begin task hAlive =>
    cases task with
    | ofOwner direction other =>
      by_cases hEq : other = owner
      · subst hEq
        simp only [Event.revise, if_true]
        exact Bindings.of_weed_self m.table m.living other
      · simp only [Event.revise, if_neg hEq]
        exact Bindings.of_weed_ne (Ne.symm hEq)
    | ofView view path => rfl
  | _ => rfl

/-- What a call under way was made with stays alive. -/
theorem alive_subject (h : Step number m e m') {p : Propagation} (hp : p ∈ m.running)
    (hAlive : m.Alive p.task.subject) : m'.Alive p.task.subject := by
  refine ⟨Nat.lt_of_lt_of_le hAlive.1 h.size_le, fun hGone => ?_⟩
  rcases h.mem_gone_iff.1 hGone with rfl | hBefore
  · cases h with
    | collect hOther hFree => exact hFree p hp rfl
  · exact hAlive.2 hBefore

/-- A call under way has just begun, or was under way before with at least the same bindings. -/
theorem of_mem_running (h : Step number m e m') {p : Propagation} (hp : p ∈ m'.running) :
    (m'.Alive p.task.subject ∧ ∀ direction owner, p.task = .ofOwner direction owner →
        ∀ b ∈ p.queue, b ∈ m.ledger.of number owner) ∨
      ∃ q ∈ m.running, p.task = q.task ∧ ∀ b ∈ p.queue, b ∈ q.queue := by
  have hSame (hp : p ∈ m.running) :
      ∃ q ∈ m.running, p.task = q.task ∧ ∀ b ∈ p.queue, b ∈ q.queue :=
    ⟨p, hp, rfl, fun _ hb => hb⟩
  have hOuter {q : Propagation} {outer : List Propagation} (hRunning : m.running = q :: outer)
      (hp : p ∈ outer) : p ∈ m.running := hRunning ▸ List.mem_cons_of_mem q hp
  have hTail {q : Propagation} {outer : List Propagation} {b : Binding} {queue : List Binding}
      {count : Nat} (hRunning : m.running = q :: outer) (hQueue : q.queue = b :: queue)
      (hp : p ∈ { q with queue, count } :: outer) :
      ∃ q ∈ m.running, p.task = q.task ∧ ∀ b ∈ p.queue, b ∈ q.queue := by
    rcases List.mem_cons.1 hp with rfl | hp
    · refine ⟨q, hRunning ▸ List.mem_cons_self, rfl, fun b' hb' => ?_⟩
      rw [hQueue]
      exact List.mem_cons_of_mem b hb'
    · exact hSame (hOuter hRunning hp)
  cases h with
  | @begin task hAlive =>
    cases task with
    | ofOwner direction owner =>
      rcases List.mem_cons.1 hp with rfl | hp
      · refine .inl ⟨hAlive, ?_⟩
        rintro _ _ ⟨⟩ b hb
        have hWeeded : b ∈ (m.ledger.weed number m.living owner).of number owner := hb
        rw [Ledger.of_weed_self] at hWeeded
        exact (List.mem_filter.1 hWeeded).1
      · exact .inr (hSame hp)
    | ofView view path =>
      rcases List.mem_cons.1 hp with rfl | hp
      · refine .inl ⟨hAlive, ?_⟩
        rintro _ _ ⟨⟩
      · exact .inr (hSame hp)
  | copy hRunning hQueue hFar hCopy => exact .inr (hTail hRunning hQueue hp)
  | pass hRunning hQueue hFar => exact .inr (hTail hRunning hQueue hp)
  | fail hRunning hQueue hFar hCopy => exact .inr (hSame (hOuter hRunning hp))
  | finish hRunning hQueue => exact .inr (hSame (hOuter hRunning hp))
  | _ => exact .inr (hSame hp)

/-- Bindings are registered between objects that are alive. -/
theorem alive_of_registered {b : Binding} (h : Step number m (.registered b) m') :
    m.Alive b.owner ∧ m.Alive b.view := by
  cases h with
  | register hOwner hView hLedger hTable => exact ⟨hOwner, hView⟩

end Step

/-! ## Runs -/

/-- The object that a call was made with is alive, and if that is an owner, then the call goes
through bindings of this owner only. -/
def Owns (m : Memory) (p : Propagation) : Prop :=
  m.Alive p.task.subject ∧
    ∀ direction owner, p.task = .ofOwner direction owner → ∀ b ∈ p.queue, b.owner = owner

/-- What a history says about the memory that it leads to. -/
structure Sound (number : ObjectId → Identity) (past : List Event) (m : Memory) : Prop where
  apart : Apart number m
  gone : ∀ id, id ∈ m.gone ↔ .collected id ∈ past
  unborn : ∀ owner, m.scene.store.size ≤ owner → History.standing owner past = []
  ledger : ∀ owner, owner ∉ m.gone → m.ledger.of number owner = History.standing owner past
  table : ∀ owner, m.table.of owner = History.standing owner past
  running : ∀ p ∈ m.running, m.Owns p

namespace Sound

variable (h : Sound number past m)
include h

private theorem living_eq : m.living = fun view => !past.contains (.collected view) := by
  funext view
  rw [Bool.eq_iff_iff, living_iff, h.gone view]
  simp

/-- The history after a step says what the step makes of it. -/
theorem standing_step (hStep : Step number m e m') (owner : ObjectId) :
    History.standing owner (e :: past) =
      e.revise owner m.living (History.standing owner past) := by
  rw [h.living_eq]
  refine History.standing_cons fun b hb hMem => ?_
  subst hb
  exact hStep.alive_of_registered.2.2 ((h.gone b.view).2 hMem)

/-- Someone who shares the number of an owner that is alive has nothing. -/
theorem nothing_shared {owner other : ObjectId} (hOwner : m.Alive owner) (hGone : other ∉ m.gone)
    (hNe : other ≠ owner) (hNumber : number other = number owner) :
    m.ledger.of number other = [] := by
  rw [h.ledger other hGone]
  refine h.unborn other (Nat.le_of_not_lt fun hLt => hNe ?_)
  exact h.apart other owner ⟨hLt, hGone⟩ hOwner hNumber

private theorem step_gone (hStep : Step number m e m') (id : ObjectId) :
    id ∈ m'.gone ↔ .collected id ∈ e :: past := by
  rw [hStep.mem_gone_iff, h.gone id, List.mem_cons]
  exact or_congr_left eq_comm

private theorem step_unborn (hStep : Step number m e m') {owner : ObjectId}
    (hSize : m'.scene.store.size ≤ owner) : History.standing owner (e :: past) = [] := by
  have hLe : m.scene.store.size ≤ owner := Nat.le_trans hStep.size_le hSize
  rw [h.standing_step hStep, h.unborn owner hLe]
  cases e with
  | registered b =>
    have hLt : b.owner < m.scene.store.size := hStep.alive_of_registered.1.1
    have hNe : b.owner ≠ owner := Nat.ne_of_lt (Nat.lt_of_lt_of_le hLt hLe)
    simp [Event.revise, hNe]
  | began task => cases task <;> simp [Event.revise]
  | _ => simp [Event.revise]

private theorem step_ledger (hStep : Step number m e m') {owner : ObjectId}
    (hGone : owner ∉ m'.gone) : m'.ledger.of number owner = History.standing owner (e :: past) := by
  have hBefore : owner ∉ m.gone := fun hMem => hGone (hStep.mem_gone_iff.2 (.inr hMem))
  rw [h.standing_step hStep, ← h.ledger owner hBefore]
  refine hStep.ledger_of hBefore fun b hb hNe hNumber => ?_
  subst hb
  exact h.nothing_shared hStep.alive_of_registered.1 hBefore hNe hNumber

private theorem step_running (hStep : Step number m e m') :
    ∀ p ∈ m'.running, m'.Owns p := by
  intro p hp
  rcases hStep.of_mem_running hp with ⟨hAlive, hQueue⟩ | ⟨q, hq, hTask, hQueue⟩
  · refine ⟨hAlive, fun direction owner hTask b hb => ?_⟩
    have hSubject : owner = p.task.subject := by rw [hTask]; rfl
    have hGone : owner ∉ m.gone := fun hMem =>
      hAlive.2 (hSubject ▸ hStep.mem_gone_iff.2 (.inr hMem))
    have hMem := hQueue direction owner hTask b hb
    rw [h.ledger owner hGone] at hMem
    exact History.owner_of_mem_standing hMem
  · obtain ⟨hAlive, hOwned⟩ := h.running q hq
    refine ⟨hTask ▸ hStep.alive_subject hq hAlive, fun direction owner hOwner b hb => ?_⟩
    exact hOwned direction owner (hTask ▸ hOwner) b (hQueue b hb)

theorem step (hStep : Step number m e m') : Sound number (e :: past) m' where
  apart := hStep.apart h.apart
  gone := h.step_gone hStep
  unborn _ hSize := h.step_unborn hStep hSize
  ledger _ hGone := h.step_ledger hStep hGone
  table owner := by rw [hStep.table_of, h.table, h.standing_step hStep]
  running := h.step_running hStep

end Sound

namespace Run

theorem sound (h : Run number past m) : Sound number past m := by
  induction h with
  | start scene hApart =>
    exact ⟨hApart, fun _ => by simp, fun _ _ => rfl, fun _ _ => rfl, fun _ => rfl,
      fun _ hp => nomatch hp⟩
  | step hRun hStep ih => exact ih.step hStep

/-- The views of bindings exist. -/
theorem view_lt (h : Run number past m) {owner : ObjectId} {b : Binding}
    (hb : b ∈ History.registered owner past) : b.view < m.scene.store.size := by
  induction h with
  | start scene hApart => cases hb
  | step hRun hStep ih =>
    rcases History.eq_or_mem_of_mem_registered hb with rfl | hb
    · exact Nat.lt_of_lt_of_le hStep.alive_of_registered.2.1 hStep.size_le
    · exact Nat.lt_of_lt_of_le (ih hb) hStep.size_le

end Run

/-- What is copied belongs to an owner that is alive. -/
theorem Sound.alive_of_copied (h : Sound number past m) {b : Binding}
    (hStep : Step number m (.copied b) m') : b.owner ∉ m.gone := by
  cases hStep with
  | @copy p outer b queue store hRunning hQueue hFar hCopy =>
    obtain ⟨hAlive, hOwned⟩ := h.running p (hRunning ▸ List.mem_cons_self)
    cases hTask : p.task with
    | ofOwner direction owner =>
      have hOwner : b.owner = owner :=
        hOwned direction owner hTask b (hQueue ▸ List.mem_cons_self)
      rw [hTask] at hAlive
      exact hOwner ▸ hAlive.2
    | ofView view path =>
      rw [hTask] at hFar
      exact living_iff.1 hFar

/-- To an owner that is alive, the ledger by identity number and the table by object hold what the
history says: the bindings registered since its last release, in order, but for those whose view had
been collected when its values were copied. Whatever happens next leaves this as it is unless it is
a call about that owner. A release counts the bindings and leaves none, the other calls answer with
them, and no binding is ever copied whose owner was collected. -/
theorem run_history (h : Run number past m) :
    (∀ owner, m.Alive owner →
      m.ledger.of number owner = History.standing owner past ∧
        m.table.of owner = History.standing owner past) ∧
    ∀ e m', Step number m e m' →
      (∀ owner, m'.Alive owner → e.owner? ≠ some owner →
        m'.ledger.of number owner = m.ledger.of number owner) ∧
      (∀ owner n, e = .released owner n →
        n = (History.standing owner past).length ∧ m'.ledger.of number owner = []) ∧
      (∀ owner n, e = .counted owner n → n = (History.standing owner past).length) ∧
      (∀ owner bs, e = .listed owner bs → bs = History.standing owner past) ∧
      ∀ b, e = .copied b → .collected b.owner ∉ past := by
  have hSound := h.sound
  refine ⟨fun owner hAlive => ⟨hSound.ledger owner hAlive.2, hSound.table owner⟩, ?_⟩
  intro e m' hStep
  have hStepped := hSound.step hStep
  refine ⟨fun owner hAlive hOther => ?_, ?_, ?_, ?_, ?_⟩
  · have hBefore : owner ∉ m.gone := fun hMem => hAlive.2 (hStep.mem_gone_iff.2 (.inr hMem))
    rw [hStepped.ledger owner hAlive.2, hSound.standing_step hStep, hSound.ledger owner hBefore]
    exact Event.revise_of_ne hOther
  · rintro owner n rfl
    cases hStep with
    | release hAlive =>
      rw [Ledger.release_fst, hSound.ledger owner hAlive.2]
      exact ⟨rfl, Ledger.of_release_self m.ledger owner⟩
  · rintro owner n rfl
    cases hStep with
    | count hAlive => rw [hSound.ledger owner hAlive.2]
  · rintro owner bs rfl
    cases hStep with
    | list hAlive => rw [hSound.ledger owner hAlive.2]
  · rintro b rfl hCollected
    exact hSound.alive_of_copied hStep ((hSound.gone b.owner).2 hCollected)

end Memory

/-! ## Two owners with one identity number -/

namespace Sample

/-- An owner with a name. -/
def host (name : String) : Object :=
  { type := .host "Owner" [] true, fields := [("name", .text name)] }

/-- A view with a note. -/
def pad : Object := { type := .host "View" [] true, fields := [("note", .text "")] }

/-- An owner and a view, and the same with another owner. -/
def gallery : Scene := { classes := {}, store := { objects := #[host "a", pad] } }

@[inherit_doc gallery]
def gallery' : Scene := { classes := {}, store := { objects := #[host "a", pad, host "b"] } }

/-- Both owners have the same identity number. -/
def seat (id : ObjectId) : Identity := if id = 1 then 1 else 0

/-- A binding of the first owner, and one of the other. -/
def former : Binding := ⟨0, "name", 1, "note"⟩

@[inherit_doc former]
def latter : Binding := ⟨2, "name", 1, "note"⟩

/-- The first owner is collected, and the other takes its identity number before the finalizer has
run. -/
def reuse : List Event :=
  [.began (.ofOwner .toView 2), .finalized 0 0, .registered latter, .acted, .collected 0,
    .registered former]

/-- What is there when the values of the other owner are about to be copied. -/
def reused : Memory where
  scene := gallery'
  gone := [0]
  ledger := { accounts := [(0, ⟨2, [latter]⟩)], finalizers := [(0, 2)] }
  table := [(0, [former]), (2, [latter])]
  running := [{ task := .ofOwner .toView 2, queue := [latter] }]

end Sample

namespace Memory

open Sample

/-- Where one of the two owners with the same number is gone, all that are alive are apart. -/
theorem apart_seat {m : Memory} (hSize : m.scene.store.size ≤ 3) (h : ¬ m.Alive 0 ∨ ¬ m.Alive 2) :
    Apart seat m := by
  intro a b ha hb hEq
  have hLt {c : ObjectId} (hc : m.Alive c) : c = 0 ∨ c = 1 ∨ c = 2 := by
    have : c < 3 := Nat.lt_of_lt_of_le hc.1 hSize
    grind
  rcases hLt ha with rfl | rfl | rfl <;> rcases hLt hb with rfl | rfl | rfl <;>
    simp_all [seat]

/-- The second owner is about to be copied, and the finalizer of the first has taken nothing. -/
theorem run_reuse : Run seat reuse reused := by
  have hStart : Run seat [] { scene := gallery } :=
    .start _ (apart_seat (by decide) (.inr fun h => absurd h.1 (by decide)))
  have hFormer : Run seat [.registered former]
      { scene := gallery
        ledger := { accounts := [(0, ⟨0, [former]⟩)], finalizers := [(0, 0)] }
        table := [(0, [former])] } :=
    hStart.step (.register ⟨by decide, by decide⟩ ⟨by decide, by decide⟩ rfl rfl)
  have hMade : Run seat [.acted, .collected 0, .registered former]
      { scene := gallery'
        gone := [0]
        ledger := { accounts := [(0, ⟨0, [former]⟩)], finalizers := [(0, 0)] }
        table := [(0, [former])] } :=
    (hFormer.step (.collect ⟨by decide, by decide⟩ fun _ hp => nomatch hp)).step
      (.act gallery' (by decide) (apart_seat (by decide) (.inl fun h => absurd h.2 (by decide))))
  have hLatter : Run seat [.registered latter, .acted, .collected 0, .registered former]
      { scene := gallery'
        gone := [0]
        ledger := { accounts := [(0, ⟨2, [latter]⟩)], finalizers := [(0, 0), (0, 2)] }
        table := [(0, [former]), (2, [latter])] } :=
    hMade.step (.register ⟨by decide, by decide⟩ ⟨by decide, by decide⟩ rfl rfl)
  have hFinalized : Run seat [.finalized 0 0, .registered latter, .acted, .collected 0,
      .registered former]
      { scene := gallery'
        gone := [0]
        ledger := { accounts := [(0, ⟨2, [latter]⟩)], finalizers := [(0, 2)] }
        table := [(0, [former]), (2, [latter])] } :=
    hLatter.step (.finalize (by decide) (by decide))
  exact hFinalized.step (.begin ⟨by decide, by decide⟩)

theorem run_history_reused : Run seat reuse reused ∧
    (reused.ledger.of seat 2 = [latter] ∧ reused.table.of 2 = [latter]) ∧
    ∃ m, Step seat reused (.copied latter) m ∧ m.ledger.of seat 2 = [latter] ∧
      .collected latter.owner ∉ reuse := by
  have hHistory := run_history run_reuse
  have hCopy : Step seat reused (.copied latter) _ := .copy rfl rfl rfl rfl
  have hCopied := hHistory.2 _ _ hCopy
  refine ⟨run_reuse, hHistory.1 2 ⟨by decide, by decide⟩, _, hCopy, ?_, hCopied.2.2.2.2 latter rfl⟩
  exact (hCopied.1 2 ⟨by decide, by decide⟩ (by decide)).trans rfl

end Memory
end ViewMarkup
