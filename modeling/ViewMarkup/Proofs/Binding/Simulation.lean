import ViewMarkup.Proofs.Binding.History
import ViewMarkup.Proofs.Binding.Propagation

/-!
# Pushing and pulling as steps

In a workspace, an object is gone as soon as nothing leads to it any more; a history lets objects be
collected at any moment. This module shows that pushing and pulling in a workspace is one of the
things that can happen: whatever the workspace finds to be out of reach is collected just then.

It rests on one fact about copies. All that can be read starting from what is reachable is
reachable, so a copy brings nothing back.

## Main results

* `Binding.reach_copy`: nothing comes into reach by a copy.
* `Memory.steps_propagate`: the copies of a call are steps, up to its end or its failure.
* `Working.copyOwner_run`: every push and every pull of a workspace continues a history.
-/

namespace ViewMarkup

/-! ## Nothing comes into reach -/

namespace Store

variable {s : Store} {cell : Cell} {v : Value} {roots : List ObjectId} {id next : ObjectId}

private theorem mem_references_assign (h : next ∈ (s.assign cell v).references id) :
    next ∈ v.objects ∨ next ∈ s.references id := by
  cases cell with
  | borne b attr => exact .inr h
  | field id' attr =>
    obtain ⟨e, he, hNext⟩ := List.mem_flatMap.1 h
    by_cases hId : id = id'
    · subst hId
      have hGet : (s.assign (.field id attr) v).get? id =
          (s.get? id).map fun o => { o with fields := o.fields.put attr v } :=
        get?_setField_self s id attr v
      cases hBefore : s.get? id with
      | none => simp [fields, hGet, hBefore] at he
      | some o =>
        have he : e ∈ o.fields.put attr v := by simpa [fields, hGet, hBefore] using he
        rcases Table.eq_or_mem_of_mem_put he with rfl | he
        · exact .inl hNext
        · exact .inr (List.mem_flatMap.2 ⟨e, by simpa [fields, hBefore] using he, hNext⟩)
    · have hGet : (s.assign (.field id' attr) v).get? id = s.get? id :=
        get?_setField_ne s attr v hId
      rw [fields, hGet] at he
      exact .inr (List.mem_flatMap.2 ⟨e, he, hNext⟩)

private theorem mem_borneObjects_assign (h : next ∈ (s.assign cell v).borneObjects) :
    next ∈ v.objects ∨ next ∈ s.borneObjects := by
  cases cell with
  | field id attr => exact .inr h
  | borne b attr =>
    obtain ⟨e, he, hFields⟩ := List.mem_flatMap.1 h
    rcases Table.eq_or_mem_of_mem_put he with rfl | he
    · obtain ⟨f, hf, hNext⟩ := List.mem_flatMap.1 hFields
      rcases Table.eq_or_mem_of_mem_put hf with rfl | hf
      · exact .inl hNext
      · cases hGet : s.borne.get? b with
        | none => simp [hGet] at hf
        | some fields =>
          rw [hGet, Option.getD_some] at hf
          exact .inr (List.mem_flatMap.2 ⟨(b, fields), Table.mem_of_get? hGet,
            List.mem_flatMap.2 ⟨f, hf, hNext⟩⟩)
    · exact .inr (List.mem_flatMap.2 ⟨e, he, hFields⟩)

/-- Assigning what refers to reachable objects only brings nothing into reach. -/
theorem Reach.of_assign (hv : ∀ x ∈ v.objects, s.Reach roots x)
    (h : (s.assign cell v).Reach roots id) : s.Reach roots id := by
  induction h with
  | root hRoot => exact .root hRoot
  | borne hBorne => exact (mem_borneObjects_assign hBorne).elim (hv _) .borne
  | step _ hNext ih => exact (mem_references_assign hNext).elim (hv _) ih.step

end Store

/-- What is reachable is a region that no attribute leads out of, as long as no class starts its
instances with objects. -/
theorem Scene.closed_reach {sc : Scene} (hClasses : sc.classes.Covered fun _ => False)
    (roots : List ObjectId) : sc.Closed (sc.store.Reach roots) where
  store :=
    { field := fun hId hField _ hNext => hId.step (Store.mem_references_of_field? hField hNext)
      borne := fun hBorne _ hNext => .borne (Store.mem_borneObjects_of_borne? hBorne hNext) }
  classes c hc id hId := (hClasses c hc id hId).elim

/-- Nothing comes into reach by a copy between objects in reach. -/
theorem Binding.reach_copy {b : Binding} {direction : Direction} {sc : Scene} {s : Store}
    {roots : List ObjectId} {id : ObjectId} (hClasses : sc.classes.Covered fun _ => False)
    (hOwner : sc.store.Reach roots b.owner) (hView : sc.store.Reach roots b.view)
    (hCopy : b.copy direction sc = .ok s) (h : s.Reach roots id) : sc.store.Reach roots id := by
  have hWrite {v : Value} {path path' : String} {x y : ObjectId} (hx : sc.store.Reach roots x)
      (hRead : sc.readPath (.object x) path = .ok v)
      (hWrite : sc.writePath (.object y) path' v = .ok s) : sc.store.Reach roots id := by
    have hv : Region.Covers (sc.store.Reach roots) v :=
      Scene.readPath_covers (sc.closed_reach hClasses roots) (Region.covers_object.2 hx) hRead
    rcases Scene.writePath_assigns hWrite with rfl | ⟨cell, rfl⟩
    · exact h
    · exact h.of_assign hv
  cases direction with
  | toView =>
    obtain ⟨v, hRead, hCopy⟩ := exists_of_bind_eq_ok hCopy
    exact hWrite hOwner hRead hCopy
  | toOwner =>
    obtain ⟨v, hRead, hCopy⟩ := exists_of_bind_eq_ok hCopy
    exact hWrite hView hRead hCopy

/-! ## Sequences of steps -/

/-- The end of a binding at the object that a call was made with. -/
def Task.near : Task → Binding → ObjectId
  | .ofOwner _ _, b => b.owner
  | .ofView _ _, b => b.view

namespace Memory

variable {number : ObjectId → Identity} {past es es' : List Event} {m m' m'' : Memory}

/-- Several steps, the last event first. -/
inductive Steps (number : ObjectId → Identity) (m : Memory) : List Event → Memory → Prop where
  | refl : Steps number m [] m
  | snoc {es : List Event} {m' m'' : Memory} {e : Event} (h : Steps number m es m')
      (hStep : Step number m' e m'') : Steps number m (e :: es) m''

theorem Steps.trans (h : Steps number m es m') (h' : Steps number m' es' m'') :
    Steps number m (es' ++ es) m'' := by
  induction h' with
  | refl => exact h
  | snoc _ hStep ih => exact ih.snoc hStep

theorem Steps.single {e : Event} (hStep : Step number m e m') : Steps number m [e] m' :=
  .snoc .refl hStep

private theorem Run.steps (hRun : Run number past m) (h : Steps number m es m') :
    Run number (es ++ past) m' := by
  induction h with
  | refl => exact hRun
  | snoc _ hStep ih => exact ih.step hStep

/-- Nothing that is in reach was collected. -/
def Keeps (m : Memory) (roots : List ObjectId) : Prop :=
  ∀ id, m.scene.store.Reach roots id → id ∉ m.gone

theorem Keeps.of_roots {roots roots' : List ObjectId} (h : m.Keeps roots)
    (hRoots : ∀ r ∈ roots', m.scene.store.Reach roots r) : m.Keeps roots' :=
  fun id hId => h id (hId.of_roots hRoots)

theorem Keeps.of_append {held roots : List ObjectId} (h : m.Keeps (held ++ roots)) :
    m.Keeps roots :=
  h.of_roots fun _ hr => .root (List.mem_append_right held hr)

/-! ## Copies -/

/-- How a call ends: with the number of its copies, or at a binding that fails. -/
def Ends : Except Failure Nat → List Event → Prop
  | .ok n, es => es.head? = some (.ended n)
  | .error _, es => ∃ b, es.head? = some (.failed b)

theorem Ends.append {answer : Except Failure Nat} (h : Ends answer es) :
    Ends answer (es ++ es') := by
  have hHead {e : Event} (h : es.head? = some e) : (es ++ es').head? = some e := by
    rw [List.head?_append, h, Option.some_or]
  cases answer with
  | ok n => exact hHead h
  | error failure =>
    obtain ⟨b, h⟩ := h
    exact ⟨b, hHead h⟩

section Propagate

variable {task : Task} {outer : List Propagation} {roots held : List ObjectId} {b : Binding}
  {bs : List Binding} {n : Nat}

/-- A copy as a step, after which nothing more is in reach. -/
theorem step_copy {store : Store} (hRunning : m.running = ⟨task, b :: bs, n⟩ :: outer)
    (hNear : task.near b ∈ roots) (hFar : m.scene.store.Reach (held ++ roots) (task.far b))
    (hClasses : m.scene.classes.Covered fun _ => False) (hKeeps : m.Keeps (held ++ roots))
    (hCopy : b.copy task.direction m.scene = .ok store) :
    ∃ m', Step number m (.copied b) m' ∧ m'.running = ⟨task, bs, n + 1⟩ :: outer ∧
      m'.scene = { m.scene with store } ∧ m'.ledger = m.ledger ∧ m'.table = m.table ∧
      m'.Keeps ([task.far b] ++ roots) := by
  refine ⟨_, .copy hRunning rfl (living_iff.2 (hKeeps _ hFar)) hCopy, rfl, rfl, rfl, rfl, ?_⟩
  intro id hId
  have hRoots : ∀ r ∈ [task.far b] ++ roots, m.scene.store.Reach (held ++ roots) r := by
    intro r hr
    rcases List.mem_append.1 hr with hr | hr
    · exact List.mem_singleton.1 hr ▸ hFar
    · exact .root (List.mem_append_right held hr)
  have hNearReach : m.scene.store.Reach ([task.far b] ++ roots) (task.near b) :=
    .root (List.mem_append_right _ hNear)
  have hFarReach : m.scene.store.Reach ([task.far b] ++ roots) (task.far b) :=
    .root List.mem_cons_self
  have hBefore : m.scene.store.Reach ([task.far b] ++ roots) id := by
    cases task with
    | ofOwner direction owner => exact Binding.reach_copy hClasses hNearReach hFarReach hCopy hId
    | ofView view path => exact Binding.reach_copy hClasses hFarReach hNearReach hCopy hId
  exact hKeeps id (hBefore.of_roots hRoots)

/-- A binding whose far end is out of reach is passed over once that end is collected. -/
theorem steps_pass (hRunning : m.running = ⟨task, b :: bs, n⟩ :: outer)
    (hSubjects : ∀ q ∈ m.running, q.task.subject ∈ roots) (hSize : task.far b < m.scene.store.size)
    (hFar : ¬ m.scene.store.Reach (held ++ roots) (task.far b)) (hKeeps : m.Keeps (held ++ roots)) :
    ∃ es m', Steps number m es m' ∧ m'.running = ⟨task, bs, n⟩ :: outer ∧ m'.scene = m.scene ∧
      m'.ledger = m.ledger ∧ m'.table = m.table ∧ m'.Keeps roots := by
  have hRoots : ∀ r ∈ roots, m.scene.store.Reach (held ++ roots) r :=
    fun r hr => .root (List.mem_append_right held hr)
  by_cases hGone : task.far b ∈ m.gone
  · exact ⟨_, _, .single (.pass hRunning rfl (by simp [living, hGone])), rfl, rfl, rfl, rfl,
      hKeeps.of_append⟩
  · have hFree : ∀ q ∈ m.running, q.task.subject ≠ task.far b :=
      fun q hq hEq => hFar (hEq ▸ hRoots _ (hSubjects q hq))
    have hCollect : Step number m (.collected (task.far b))
        { m with gone := task.far b :: m.gone } := .collect ⟨hSize, hGone⟩ hFree
    refine ⟨_, _, (Steps.single hCollect).snoc (.pass hRunning rfl (by simp [living])), rfl, rfl,
      rfl, rfl, fun id hId hMem => ?_⟩
    rcases List.mem_cons.1 hMem with rfl | hMem
    · exact hFar (hId.of_roots hRoots)
    · exact hKeeps.of_append id hId hMem

/-- The copies of a call are steps, up to its end or its failure. -/
theorem steps_propagate (hSubjects : ∀ q ∈ m.running, q.task.subject ∈ roots)
    (hRunning : m.running = ⟨task, bs, n⟩ :: outer) (hNear : ∀ b ∈ bs, task.near b ∈ roots)
    (hFar : ∀ b ∈ bs, task.far b < m.scene.store.size)
    (hClasses : m.scene.classes.Covered fun _ => False) (hKeeps : m.Keeps (held ++ roots)) :
    ∃ es m', Steps number m es m' ∧ m'.running = outer ∧ m'.ledger = m.ledger ∧
      m'.table = m.table ∧ m'.Keeps roots ∧
      m'.scene =
        (propagate roots (·.copy task.direction) task.far bs held n m.scene).2 ∧
      Ends (propagate roots (·.copy task.direction) task.far bs held n m.scene).1 es := by
  induction bs generalizing m held n with
  | nil =>
    exact ⟨_, _, .single (.finish hRunning rfl), rfl, rfl, rfl, hKeeps.of_append, rfl, rfl⟩
  | cons b bs ih =>
    have hSubjects' {m' : Memory} {n' : Nat} (h : m'.running = ⟨task, bs, n'⟩ :: outer) :
        ∀ q ∈ m'.running, q.task.subject ∈ roots := by
      rw [h]
      rw [hRunning] at hSubjects
      exact List.forall_mem_cons.2 (List.forall_mem_cons.1 hSubjects)
    have hNear' : ∀ b ∈ bs, task.near b ∈ roots :=
      fun b' hb' => hNear b' (List.mem_cons_of_mem b hb')
    have hFar' : ∀ b ∈ bs, task.far b < m.scene.store.size :=
      fun b' hb' => hFar b' (List.mem_cons_of_mem b hb')
    by_cases hAlive : m.scene.store.isAlive (held ++ roots) (task.far b) = true
    · have hReach := Store.isAlive_iff.1 hAlive
      rw [propagate, if_pos hAlive]
      cases hCopy : b.copy task.direction m.scene with
      | error failure =>
        have hLiving : m.living (task.far b) = true := living_iff.2 (hKeeps _ hReach)
        exact ⟨_, _, .single (.fail hRunning rfl hLiving hCopy), rfl, rfl, rfl, hKeeps.of_append,
          rfl, b, rfl⟩
      | ok store =>
        obtain ⟨m₁, hStep, hRunning₁, hScene, hLedger, hTable, hKeeps₁⟩ :=
          step_copy (n := n) hRunning (hNear b List.mem_cons_self) hReach hClasses hKeeps hCopy
        have hSize : m₁.scene.store.size = m.scene.store.size := by
          rw [hScene]
          exact Binding.size_copy hCopy
        obtain ⟨es, m', hSteps, hOuter, hLedger', hTable', hRest⟩ :=
          ih (n := n + 1) (hSubjects' hRunning₁) hRunning₁ hNear' (hSize ▸ hFar')
            (hScene ▸ hClasses) hKeeps₁
        rw [hScene] at hRest
        exact ⟨_, m', (Steps.single hStep).trans hSteps, hOuter, hLedger'.trans hLedger,
          hTable'.trans hTable, hRest.1, hRest.2.1, hRest.2.2.append⟩
    · rw [propagate, if_neg hAlive]
      obtain ⟨es₁, m₁, hSteps₁, hRunning₁, hScene, hLedger, hTable, hKeeps₁⟩ :=
        steps_pass hRunning hSubjects (hFar b List.mem_cons_self)
          (fun hReach => hAlive (Store.isAlive_iff.2 hReach)) hKeeps
      have hKeeps₁ : m₁.Keeps ([] ++ roots) := hKeeps₁
      obtain ⟨es, m', hSteps, hOuter, hLedger', hTable', hRest⟩ :=
        ih (hSubjects' hRunning₁) hRunning₁ hNear' (hScene ▸ hFar') (hScene ▸ hClasses) hKeeps₁
      rw [hScene] at hRest
      exact ⟨_, m', hSteps₁.trans hSteps, hOuter, hLedger'.trans hLedger, hTable'.trans hTable,
        hRest.1, hRest.2.1, hRest.2.2.append⟩

end Propagate

/-! ## Pushing and pulling -/

/-- Objects that are there are collected one after the other. -/
theorem steps_collect (number : ObjectId → Identity) {ids : List ObjectId} (hIdle : m.running = [])
    (hSize : ∀ id ∈ ids, id < m.scene.store.size) :
    ∃ es gone, Steps number m es { m with gone } ∧ ∀ id, id ∈ gone ↔ id ∈ ids ∨ id ∈ m.gone := by
  induction ids with
  | nil => exact ⟨[], m.gone, .refl, fun id => by simp⟩
  | cons id ids ih =>
    obtain ⟨es, gone, hSteps, hGone⟩ := ih fun id' hId' => hSize id' (List.mem_cons_of_mem id hId')
    by_cases hId : id ∈ gone
    · refine ⟨es, gone, hSteps, fun id' => ?_⟩
      rw [hGone]
      rw [hGone] at hId
      grind
    · have hFree : ∀ p ∈ m.running, p.task.subject ≠ id := by simp [hIdle]
      have hCollect : Step number { m with gone } (.collected id)
          { m with gone := id :: gone } :=
        .collect ⟨hSize id List.mem_cons_self, hId⟩ hFree
      refine ⟨_, _, hSteps.snoc hCollect, fun id' => ?_⟩
      rw [List.mem_cons, hGone, List.mem_cons, or_assoc]

end Memory

/-- Weeding looks at the views of the owner's own bindings only. -/
theorem Bindings.weed_congr {t : Bindings} {living living' : ObjectId → Bool} {owner : ObjectId}
    (h : ∀ b ∈ t.of owner, living b.view = living' b.view) :
    t.weed living owner = t.weed living' owner := by
  unfold weed
  cases hGet : t.get? owner with
  | none => rfl
  | some bs =>
    have hFilter : (bs.filter fun b => living b.view) = bs.filter fun b => living' b.view :=
      List.filter_congr fun b hb => h b (of_eq_of_get? hGet ▸ hb)
    dsimp only
    rw [hFilter]

private theorem classes_propagate {roots : List ObjectId}
    {move : Binding → Scene → Except Failure Store}
    {far : Binding → ObjectId} (bs : List Binding) (held : List ObjectId) (n : Nat) (sc : Scene) :
    (propagate roots move far bs held n sc).2.classes = sc.classes := by
  fun_induction propagate roots move far bs held n sc with
  | case1 => rfl
  | case2 _ _ _ _ _ _ _ _ ih => exact ih
  | case3 => rfl
  | case4 _ _ _ _ _ _ ih => exact ih

/-- A workspace in which everything that was collected is out of reach. -/
structure Memory.Mirrors (m : Memory) (w : Workspace) : Prop where
  scene : m.scene = w.scene
  table : m.table = w.world.bindings
  idle : m.running = []
  keeps : m.Keeps w.roots

namespace Working

/-- Copies values between an owner and its views. -/
def copyOwner (direction : Direction) (owner : ObjectId) : Working Nat := do
  copy (owner :: (← get).roots) (·.copy direction) (·.view) (← liveBindings owner)

theorem pushOwner_eq_copyOwner : pushOwner = copyOwner .toView := rfl

theorem pullOwner_eq_copyOwner : pullOwner = copyOwner .toOwner := rfl

/-- What copying leaves behind: the bindings that are left, and the store after their copies. -/
theorem copyOwner_eq (direction : Direction) (owner : ObjectId) (w : Workspace) :
    let bindings := w.world.bindings.prune w.scene w.roots owner
    let r := propagate (owner :: w.roots) (·.copy direction) (·.view) (bindings.of owner) [] 0
      w.scene
    (copyOwner direction owner w).2 =
        { w with world := { w.world with bindings, store := r.2.store } } ∧
      ∀ n, (copyOwner direction owner w).1 = .ok n → r.1 = .ok n := by
  intro bindings r
  have hRun : copyOwner direction owner w =
      ofExcept r.1 { w with world := { w.world with bindings, store := r.2.store } } := rfl
  rw [hRun]
  cases r.1 with
  | ok n => exact ⟨rfl, fun _ h => congrArg _ (Except.ok.inj h)⟩
  | error failure => exact ⟨rfl, fun _ h => nomatch h⟩

variable {number : ObjectId → Identity} {past : List Event} {m : Memory} {w : Workspace}
  {owner : ObjectId}

/-- Before a workspace copies the values of an owner, the views that it finds to be out of reach are
collected. Then weeding is what pruning does. -/
theorem begin_copyOwner (hRun : Memory.Run number past m) (hMirrors : m.Mirrors w)
    (hOwner : w.world.store.Reach w.roots owner) (hSize : owner < w.world.store.size) :
    ∃ es m', Memory.Steps number m es m' ∧ m'.Alive owner ∧ m'.scene = w.scene ∧
      m'.table = w.world.bindings ∧ m'.running = [] ∧ m'.Keeps (owner :: w.roots) ∧
      ∀ b ∈ w.world.bindings.of owner,
        m'.living b.view = (w.world.store.reachable (owner :: w.roots)).contains b.view := by
  have hStore : m.scene.store = w.world.store := congrArg Scene.store hMirrors.scene
  have hKeeps : m.Keeps (owner :: w.roots) := hMirrors.keeps.of_roots <| by
    rw [hStore]
    exact List.forall_mem_cons.2 ⟨hOwner, fun r hr => .root hr⟩
  have hViews : ∀ b ∈ w.world.bindings.of owner, b.view < m.scene.store.size := by
    intro b hb
    rw [← hMirrors.table, hRun.sound.table owner] at hb
    exact hRun.view_lt (List.mem_filter.1 hb).1
  -- What is collected are the views of the owner that are out of reach.
  have hLost : ∀ id ∈ ((w.world.bindings.of owner).map (·.view)).filter fun id =>
      !(w.world.store.reachable (owner :: w.roots)).contains id, id < m.scene.store.size := by
    intro id hId
    obtain ⟨b, hb, rfl⟩ := List.mem_map.1 (List.mem_filter.1 hId).1
    exact hViews b hb
  obtain ⟨es, gone, hSteps, hGone⟩ := Memory.steps_collect number hMirrors.idle hLost
  have hReached (id : ObjectId) (hId : w.world.store.Reach (owner :: w.roots) id) : id ∉ gone := by
    rw [hGone, not_or]
    refine ⟨fun hMem => ?_, hKeeps id (hStore ▸ hId)⟩
    simpa [Store.mem_reachable_iff.2 hId] using (List.mem_filter.1 hMem).2
  refine ⟨es, _, hSteps, ⟨hStore ▸ hSize, hReached owner (.root List.mem_cons_self)⟩,
    hMirrors.scene, hMirrors.table, hMirrors.idle, fun id hId => hReached id (hStore ▸ hId), ?_⟩
  intro b hb
  rw [Bool.eq_iff_iff, Memory.living_iff, List.contains_iff_mem]
  refine ⟨fun hLiving => ?_, fun hMem => hReached b.view (Store.mem_reachable_iff.1 hMem)⟩
  by_contra hOut
  refine hLiving ((hGone b.view).2 (.inl (List.mem_filter.2 ⟨List.mem_map_of_mem hb, ?_⟩)))
  simpa using hOut

/-- Every push and every pull of a workspace continues a history: there are steps that begin it,
that lead to what it leaves behind, and that end with its count. -/
theorem copyOwner_run (direction : Direction) (hRun : Memory.Run number past m)
    (hMirrors : m.Mirrors w) (hClasses : w.builder.library.classes.Covered fun _ => False)
    (hOwner : w.world.store.Reach w.roots owner) (hSize : owner < w.world.store.size) :
    ∃ es m', Memory.Run number (es ++ past) m' ∧ m'.Mirrors (copyOwner direction owner w).2 ∧
      .began (.ofOwner direction owner) ∈ es ∧
      ∀ n, (copyOwner direction owner w).1 = .ok n → es.head? = some (.ended n) := by
  obtain ⟨es₁, m₁, hSteps₁, hAlive, hScene, hTable, hIdle, hKeeps, hLiving⟩ :=
    begin_copyOwner hRun hMirrors hOwner hSize
  have hSound := (hRun.steps hSteps₁).sound
  have hBegin : Memory.Step number m₁ (.began (.ofOwner direction owner))
      (m₁.start number (.ofOwner direction owner)) := .begin hAlive
  have hPrune : m₁.table.weed m₁.living owner =
      w.world.bindings.prune w.scene w.roots owner := by
    rw [hTable, Bindings.prune_eq_weed]
    exact Bindings.weed_congr hLiving
  have hQueue : (m₁.ledger.weed number m₁.living owner).of number owner =
      (w.world.bindings.prune w.scene w.roots owner).of owner := by
    rw [Ledger.of_weed_self, hSound.ledger owner hAlive.2, ← hSound.table owner,
      ← Bindings.of_weed_self, hPrune]
  have hBegun : (m₁.start number (.ofOwner direction owner)).running =
      [⟨.ofOwner direction owner,
        (w.world.bindings.prune w.scene w.roots owner).of owner, 0⟩] := by
    rw [← hQueue, ← hIdle]
    rfl
  have hOwn : ∀ b ∈ (w.world.bindings.prune w.scene w.roots owner).of owner,
      b ∈ History.standing owner (es₁ ++ past) := by
    intro b hb
    rw [← hPrune, Bindings.of_weed_self, hSound.table owner] at hb
    exact (List.mem_filter.1 hb).1
  have hNear : ∀ b ∈ (w.world.bindings.prune w.scene w.roots owner).of owner,
      b.owner ∈ owner :: w.roots := fun b hb =>
    History.owner_of_mem_standing (hOwn b hb) ▸ List.mem_cons_self
  have hFar : ∀ b ∈ (w.world.bindings.prune w.scene w.roots owner).of owner,
      b.view < m₁.scene.store.size := fun b hb =>
    (hRun.steps hSteps₁).view_lt (List.mem_filter.1 (hOwn b hb)).1
  have hSubjects : ∀ q ∈ (m₁.start number (.ofOwner direction owner)).running,
      q.task.subject ∈ owner :: w.roots := by
    rw [hBegun]
    exact List.forall_mem_singleton.2 List.mem_cons_self
  have hKeeps' : (m₁.start number (.ofOwner direction owner)).Keeps ([] ++ (owner :: w.roots)) :=
    hKeeps
  obtain ⟨es₂, m', hSteps₂, hOuter, -, hTable', hKept, hScene', hEnds⟩ :=
    Memory.steps_propagate hSubjects hBegun hNear hFar (hScene ▸ hClasses) hKeeps'
  have hStart : (m₁.start number (.ofOwner direction owner)).scene = w.scene := hScene
  rw [hStart] at hScene' hEnds
  obtain ⟨hLeft, hAnswer⟩ := copyOwner_eq direction owner w
  refine ⟨es₂ ++ (.began (.ofOwner direction owner) :: es₁), m', ?_, ?_, ?_, fun n hn => ?_⟩
  · rw [List.append_assoc]
    exact ((hRun.steps hSteps₁).step hBegin).steps hSteps₂
  · rw [hLeft]
    refine ⟨?_, hTable'.trans hPrune, hOuter, hKept.of_roots fun r hr => ?_⟩
    · have hClasses' := congrArg Scene.classes hScene'
      rw [classes_propagate] at hClasses'
      exact congrArg₂ Scene.mk hClasses' (congrArg Scene.store hScene')
    · exact .root (List.mem_cons_of_mem _ hr)
  · exact List.mem_append_right _ List.mem_cons_self
  · have hEnded : Memory.Ends (.ok n) es₂ := hAnswer n hn ▸ hEnds
    exact hEnded.append

end Working
end ViewMarkup
