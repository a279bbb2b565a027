import ViewMarkup.Proofs.Build.Moves
import ViewMarkup.Proofs.Build.FailedBuild
import ViewMarkup.Proofs.Object.Fresh
import ViewMarkup.Proofs.View.Puts

/-!
# What is done to a supplied root lasts

A root that is supplied is built in place: its attributes are assigned and its hooks are called one
by one while the document is processed, and nothing of this is undone when the build fails. On the
other hand nothing but this is done to it. All other instances of a build are new, and what is done
to them changes only what can be reached from new instances. That may include objects that were
there before, but only those that classes give to all of their instances.

So the journal tells how a build leaves what was there: as the steps of the root have made it, all
of them and in their order. A build that fails before the first of these leaves it as it was.

## Main results

* `Assembly.Lasting.move` — whatever an attempt does, the steps of the root last.
* `Builder.outcome_undergoes` — what was there before a build has undergone the steps of its root,
  whether the build fails or not.
* `Builder.not_outcome_restores` — so a root is not always as it was when a build has failed.
-/

namespace ViewMarkup

open View View.Catalog

/-- The steps that are taken for an instance. -/
def stepsOf (id : ObjectId) (log : List Step) : List Step :=
  log.filter fun s => s.subject = some id

theorem stepsOf_append_of_subject {id : ObjectId} {s : Step} (h : s.subject = some id)
    (log : List Step) : stepsOf id (log ++ [s]) = stepsOf id log ++ [s] := by
  simp [stepsOf, h]

private theorem stepsOf_append_of_ne {id : ObjectId} {s : Step} (h : s.subject ≠ some id)
    (log : List Step) : stepsOf id (log ++ [s]) = stepsOf id log := by
  simp [stepsOf, h]

private theorem stepsOf_eq_nil {id : ObjectId} {log : List Step}
    (h : ∀ s ∈ log, s.subject ≠ some id) : stepsOf id log = [] := by
  simpa [stepsOf] using h

/-- The instances that are worked on, innermost first, where the outermost may be the root that is
supplied and all others belong to a region. -/
inductive Opened (U : Region) (r : ObjectId) : List (ObjectId × Capabilities) → Prop
  | nil : Opened U r []
  | root (caps : Capabilities) : Opened U r [(r, caps)]
  | cons {m : ObjectId × Capabilities} {ms : List (ObjectId × Capabilities)} : U m.1 →
      Opened U r ms → Opened U r (m :: ms)

/-- The object that an attempt is made for is the root, or it belongs to the region, and so does a
view that it is given. -/
def Subject.Inside (U : Region) (r : ObjectId) (x : Subject) : Prop :=
  (x.id = r ∨ U x.id) ∧ ∀ view, x.view? = some view → U view

namespace Opened

variable {U : Region} {r : ObjectId} {m m' : ObjectId × Capabilities}
  {ms : List (ObjectId × Capabilities)}

private theorem head (h : Opened U r (m :: ms)) : m.1 = r ∨ U m.1 := by
  cases h with
  | root caps => exact .inl rfl
  | cons hIn _ => exact .inr hIn

theorem tail (h : Opened U r ms) : Opened U r ms.tail := by
  cases h with
  | nil | root _ => exact .nil
  | cons _ hRest => exact hRest

/-- What is worked on inside of another instance is not the root. -/
theorem inner (h : Opened U r (m :: m' :: ms)) : U m.1 := by
  cases h with
  | cons hIn _ => exact hIn

/-- An attempt that is due is made for one of the instances that are worked on. -/
theorem subject {s : Stage} (h : Opened U r s.opened) {t : Attempt} (hDue : t.Due (some r) s)
    (x : Subject) (hSubject : t.subject? = some x) : x.Inside U r := by
  cases t with
  | root _ => cases hSubject
  | attributes id =>
    cases hSubject
    obtain ⟨caps, rest, rfl⟩ := hDue
    exact ⟨h.head, fun _ hView => nomatch hView⟩
  | deliver id caps _ | text id caps | child id caps | find id caps _ =>
    cases hSubject
    obtain ⟨rest, rfl⟩ := hDue
    exact ⟨h.head, fun _ hView => nomatch hView⟩
  | append parent caps view =>
    cases hSubject
    obtain ⟨own, rest, rfl⟩ := hDue
    refine ⟨h.tail.head, fun _ hView => ?_⟩
    cases hView
    exact h.inner

end Opened

namespace Assembly

/-- Starting from `start`, an object has undergone some steps, one after the other, and nothing but
this has changed any object outside of a region. -/
inductive Undergoes (a : Assembly) (U : Region) (r : ObjectId) (start : Progress) :
    List Step → Progress → Prop
  | start : Undergoes a U r start [] start
  | spared {log : List Step} {p q : Progress} : Undergoes a U r start log p →
      (∀ id, ¬ U id → q.store.get? id = p.store.get? id) → Undergoes a U r start log q
  | assigned {log : List Step} {p : Progress} (entry : String × String) :
      Undergoes a U r start log p →
      Undergoes a U r start (log ++ [.assigned r entry.1 (a.wayAt p r entry.1)])
        (a.assignProperty r entry p).2
  | told {log : List Step} {p : Progress} (call : Call) : Undergoes a U r start log p →
      Undergoes a U r start (log ++ [.told r call]) (a.tell r call p).2

variable {a : Assembly} {U : Region} {r x : ObjectId} {start p q : Progress} {log : List Step}

/-- Objects that have undergone nothing are as they were. -/
theorem Undergoes.of_nil (h : a.Undergoes U r start [] p) {id : ObjectId} (hId : ¬ U id) :
    p.store.get? id = start.store.get? id := by
  generalize hNone : [] = log at h
  induction h with
  | start => rfl
  | spared _ hSame ih => exact (hSame id hId).trans (ih hNone)
  | assigned | told => simp at hNone

/-- A build has come to a point where no attribute leads out of the region, which has all numbers
still to be given, and where everything outside has undergone the steps of the root. -/
structure Lasting (a : Assembly) (U : Region) (r : ObjectId) (start p : Progress) : Prop where
  ready : p.Ready U
  undergone : a.Undergoes U r start (stepsOf r p.journal) p

namespace Lasting

/-- A step that is not one of the root leaves alone what is outside of the region. -/
theorem aside (h : a.Lasting U r start p) (hReady : q.Ready U) {s : Step}
    (hJournal : q.journal = p.journal ++ [s]) (hOther : s.subject ≠ some r)
    (hSame : ∀ id, ¬ U id → q.store.get? id = p.store.get? id) : a.Lasting U r start q := by
  refine ⟨hReady, ?_⟩
  rw [hJournal, stepsOf_append_of_ne hOther]
  exact .spared h.undergone hSame

/-- Whatever an object is told, no attribute leads out of the region afterwards. -/
theorem ready_tell (hcs : a.library.classes.Covered U) (h : p.Ready U) {call : Call}
    (hView : ∀ view, call = .append view → U view) : (a.tell x call p).2.Ready U := by
  have hStore := a.tell_evolves x call p
  refine ⟨?_, fun n hn => h.fresh n (Nat.le_trans hStore.size_le hn)⟩
  by_cases hIn : U x
  · refine Yields.state (R := fun q : Progress => q.store.Closed U) ?_
    exact (tell_yields hcs h.closed hIn call hView).mono
      (fun _ q hq => hq.1.store.closed h.closed) fun q hq => hq.1.store.closed h.closed
  · have hPuts (sc sc' : Scene) (hClosed : sc.store.Closed U) (hPut : sc.Puts x call sc') :
        sc'.store.Closed U := hPut.closed hIn hView hClosed
    exact Acting.tell_puts.keeps (s := a.sceneAt p) hPuts hPuts h.closed

/-- Nor does a property that is assigned. -/
theorem ready_assign (h : p.Ready U) (entry : String × String) :
    (a.assignProperty x entry p).2.Ready U := by
  have hStore := a.assignProperty_evolves x entry p
  refine ⟨?_, fun n hn => h.fresh n (Nat.le_trans hStore.size_le hn)⟩
  obtain ⟨store, loader, hState, hStored⟩ := a.assignProperty_state x entry p
  rw [hState]
  rcases hStored with rfl | ⟨change, hChange, rfl⟩
  · exact h.closed
  · have hCovers : U.Covers change.2 :=
      Region.covers_of_objects_nil (Scene.objects_of_change? hChange)
    exact h.closed.assign change.1 hCovers

theorem tell (hcs : a.library.classes.Covered U) (h : a.Lasting U r start p) {call : Call}
    (hx : x = r ∨ U x) (hView : ∀ view, call = .append view → U view) :
    a.Lasting U r start (a.tell x call p).2 := by
  have hReady : (a.tell x call p).2.Ready U := ready_tell hcs h.ready hView
  have hJournal : (a.tell x call p).2.journal = p.journal ++ [.told x call] := rfl
  by_cases hRoot : x = r
  · subst hRoot
    refine ⟨hReady, ?_⟩
    rw [hJournal, stepsOf_append_of_subject rfl]
    exact .told call h.undergone
  · have hIn := hx.resolve_left hRoot
    refine h.aside hReady hJournal (fun hSame => hRoot (Option.some.inj hSame)) ?_
    refine Yields.state
      (R := fun q : Progress => ∀ id, ¬ U id → q.store.get? id = p.store.get? id) ?_
    exact (tell_yields hcs h.ready.closed hIn call hView).mono
      (fun _ q hq => hq.1.store.outside) fun q hq => hq.1.store.outside

private theorem assign (hcs : a.library.classes.Covered U) (h : a.Lasting U r start p)
    (entry : String × String) (hx : x = r ∨ U x) :
    a.Lasting U r start (a.assignProperty x entry p).2 := by
  have hReady : (a.assignProperty x entry p).2.Ready U := ready_assign h.ready entry
  have hJournal : (a.assignProperty x entry p).2.journal =
      p.journal ++ [.assigned x entry.1 (a.wayAt p x entry.1)] := by
    obtain ⟨store, loader, hState, -⟩ := a.assignProperty_state x entry p
    rw [hState]
  by_cases hRoot : x = r
  · subst hRoot
    refine ⟨hReady, ?_⟩
    rw [hJournal, stepsOf_append_of_subject rfl]
    exact .assigned entry h.undergone
  · have hIn := hx.resolve_left hRoot
    refine h.aside hReady hJournal (fun hSame => hRoot (Option.some.inj hSame)) ?_
    refine Yields.state
      (R := fun q : Progress => ∀ id, ¬ U id → q.store.get? id = p.store.get? id) ?_
    refine (assignProperty_attending hcs hIn entry p h.ready.closed).mono ?_ ?_
    · rintro _ q ⟨log, hExt, -⟩
      exact hExt.store.outside
    · rintro q ⟨told, log, hExt, -⟩
      exact hExt.store.outside

/-- What has been done to the root lasts, and what is done for other instances does not touch it. -/
theorem move (hcs : a.library.classes.Covered U) (h : a.Lasting U r start p)
    {subject? : Option Subject} (hSubject : ∀ x, subject? = some x → x.Inside U r)
    (hMove : a.Move subject? p q) : a.Lasting U r start q := by
  cases hMove with
  | resolve _ | load _ | note _ _ _ =>
    exact ⟨⟨h.ready.closed, h.ready.fresh⟩, .spared h.undergone fun _ _ => rfl⟩
  | make hMake =>
    obtain ⟨-, -, hStore⟩ := Classes.instantiateStyled_evolves hcs h.ready.fresh hMake
    refine h.aside ⟨hStore.closed h.ready.closed, fun n hn => ?_⟩ rfl (by simp [Step.subject])
      hStore.outside
    exact h.ready.fresh n (Nat.le_trans hStore.size_le hn)
  | assign entry hSome _ => exact h.assign hcs entry (hSubject _ hSome).1
  | tell call hSome hExpects _ =>
    obtain ⟨hx, hView⟩ := hSubject _ hSome
    exact h.tell hcs hx fun view hCall => hView view (hExpects.2 view hCall)

private theorem slip (hcs : a.library.classes.Covered U) (h : a.Lasting U r start p)
    {subject? : Option Subject} (hSubject : ∀ x, subject? = some x → x.Inside U r)
    (hSlip : a.Slip subject? p q) : a.Lasting U r start q := by
  cases hSlip with
  | tell call hSome hExpects =>
    obtain ⟨hx, hView⟩ := hSubject _ hSome
    exact h.tell hcs hx fun view hCall => hView view (hExpects.2 view hCall)

/-- An attempt that is due keeps to this, however it ends. -/
theorem visit (hcs : a.library.classes.Covered U) {v : Visit} {s : Stage}
    (h : a.Lasting U r start v.before) (hOpened : Opened U r s.opened)
    (hDue : v.attempt.Due (some r) s) : a.Lasting U r start (v.run a).2 :=
  v.keeps (fun _ _ h => h.move hcs (hOpened.subject hDue))
    (fun _ _ h => h.slip hcs (hOpened.subject hDue)) h

end Lasting

/-- The instances that an attempt leads to are the root, or they are new. -/
theorem opened_next (hcs : a.library.classes.Covered U) {v : Visit} {s : Stage}
    (hReady : v.before.Ready U) (hOpened : Opened U r s.opened) (hDue : v.attempt.Due (some r) s)
    {answer : v.attempt.Answer} (hRun : v.run a = (.ok answer, q)) :
    Opened U r (v.attempt.next s answer).opened := by
  obtain ⟨spot, t, p⟩ := v
  cases t with
  | deliver _ _ _ | attributes _ | text _ _ | find _ _ _ => exact hOpened
  | append parent caps view => exact hOpened.tail
  | root given =>
    obtain ⟨hStarted, -⟩ := (startRoot_yields hcs hReady spot.element given).ok hRun
    cases given with
    | none => exact .cons (hStarted.of_none.made hReady (by simp)) hOpened
    | some r' =>
      obtain ⟨hNone, hSupplied⟩ := hDue.2 r' rfl
      cases hSupplied
      obtain ⟨id, caps⟩ := answer
      obtain ⟨rfl, -⟩ := hStarted.of_some
      show Opened U id ((id, caps) :: s.opened)
      rw [hNone]
      exact .root caps
  | child parent caps =>
    have hStarted := (start_yields a.library.classes.covered_univ p.ready_univ trivial spot.element
      (delivered spot.element.leading)).ok hRun
    cases hStarted with
    | made _ hExt =>
      exact .cons (hReady.fresh _ (hExt.ascending.bounds _ (by simp)).1) hOpened
    | raw _ _ _ _ => exact hOpened

/-- However a tree ends that is built into a root, the steps of the root have lasted. -/
theorem buildTree_lasting (hcs : a.library.classes.Covered U) (origin : Origin) (hReady : p.Ready U)
    (hJournal : p.journal = []) : a.Lasting U r p (a.buildTree (some r) origin p).2 := by
  have hStart (loader : Loader) : a.Lasting U r p { p with loader } ∧ Opened U r [] := by
    refine ⟨⟨⟨hReady.closed, hReady.fresh⟩, ?_⟩, .nil⟩
    rw [show stepsOf r p.journal = [] by rw [hJournal]; rfl]
    exact .spared .start fun _ _ => rfl
  have hKept := a.buildTree_invariant (some r) origin
    (I := fun s q => a.Lasting U r p q ∧ Opened U r s.opened) hStart
    fun ⟨h, hOpened⟩ hDue hRun => by
      have hVisit := h.visit hcs hOpened hDue
      rw [hRun] at hVisit
      exact ⟨hVisit, opened_next hcs h.ready hOpened hDue hRun⟩
  rcases hKept with ⟨s, h, -⟩ | ⟨-, s, v, e, ⟨h, hOpened⟩, hDue, hRun⟩
  · exact h
  · have hVisit := h.visit hcs hOpened hDue
    rwa [hRun] at hVisit

end Assembly

namespace Builder

/-- What was there before a build has undergone the steps that the build has done to the supplied
root, all of them, in their order, and nothing else, whether the build fails or not. A commit gives
the owner its outlets besides. So what was there is as it was if no step was done to the root.

This is about all objects but those that every build can reach, since classes give them to their
instances or values bear them. -/
theorem outcome_undergoes (b : Builder) (owner : Option ObjectId) (r : ObjectId) (origin : Origin)
    (w : World) :
    let a : Assembly := { b with owner }
    let tree := a.buildTree (some r) origin { w with }
    let p := (b.outcome owner (some r) origin w).2
    a.Undergoes (b.territory none w.store) r { w with } (stepsOf r p.journal) tree.2 ∧
      (tree.1.isOk = false ∧ p.store = tree.2.store ∨
        tree.1.isOk = true ∧ p.store = a.storeCommitted tree.2) ∧
      ((∀ s ∈ p.journal, s.subject ≠ some r) → ∀ id, ¬ b.territory none w.store id →
        owner ≠ some id → p.store.get? id = w.store.get? id) := by
  intro a tree p
  have hLasting : a.Lasting (b.territory none w.store) r { w with } tree.2 :=
    Assembly.buildTree_lasting covered_territory origin (ready_territory rfl) rfl
  have hUndergone := hLasting.undergone
  rw [← b.outcome_journal_eq owner (some r) origin w] at hUndergone
  have hStore : tree.1.isOk = false ∧ p.store = tree.2.store ∨
      tree.1.isOk = true ∧ p.store = a.storeCommitted tree.2 :=
    (b.outcome_state owner (some r) origin w).imp
      (And.imp_right (congrArg fun p : Progress => p.store))
      (And.imp_right (congrArg fun p : Progress => p.store))
  refine ⟨hUndergone, hStore, fun hNone id hId hOwner => ?_⟩
  rw [stepsOf_eq_nil hNone] at hUndergone
  have hSame : tree.2.store.get? id = w.store.get? id := hUndergone.of_nil hId
  rcases hStore with ⟨-, hStore⟩ | ⟨-, hStore⟩
  · rw [hStore, hSame]
  · rw [hStore, Assembly.get?_storeCommitted_ne hOwner, hSame]

end Builder

namespace Sample

/-- A view with a property that there is, and with one that there is not. -/
def mistaken : Document where
  root := .mk "View" [("hidden", "true"), ("bogus", "1")] [] [] [] ""

/-- A view with a label that has a property that there is not. -/
def mistakenInside : Document where
  root := .mk "View" [] [.mk "Label" [("bogus", "1")] [] [] [] ""] [] [] ""

/-- The view that is there is not reached when no root is supplied. -/
theorem view_not_in_territory : ¬ views.territory none viewWorld.store 0 := by
  rintro (hNew | hReached)
  · exact absurd hNew (by decide +kernel)
  · have hStarts : ∀ c ∈ classes.all.toList, Blueprint.objectsOfFields c.starts = [] := by
      decide +kernel
    -- Nothing is reached: neither values nor classes have any objects.
    generalize hView : (0 : ObjectId) = id at hReached
    clear hView
    induction hReached with
    | field _ _ _ ih => exact ih
    | start hBegins =>
      cases hBegins with
      | root h => cases h
      | borne h _ => cases h
      | @given _ c hc hId =>
        rw [hStarts c (Array.mem_toList_iff.2 hc)] at hId
        cases hId

end Sample

/-- A view that is supplied is hidden by a build that then fails at the next property, and it stays
hidden. -/
theorem Builder.not_outcome_restores :
    ¬ ∀ (b : Builder) (owner : Option ObjectId) (r : ObjectId) (origin : Origin) (w : World)
      (e : Failure) (p : Progress), b.outcome owner (some r) origin w = (.error e, p) →
        p.store.get? r = w.store.get? r := by
  intro h
  have hFails : (Sample.views.outcome none (some 0) (.given Sample.mistaken)
      Sample.viewWorld).1.isOk = false := by decide +kernel
  have hHidden : ((Sample.views.outcome none (some 0) (.given Sample.mistaken)
      Sample.viewWorld).2.store.field? 0 "hidden").map Value.isTrue = some true := by
    decide +kernel
  have hShown : (Sample.viewWorld.store.field? 0 "hidden").map Value.isTrue = some false := by
    decide +kernel
  cases hRun : Sample.views.outcome none (some 0) (.given Sample.mistaken) Sample.viewWorld with
  | mk answer p =>
    rw [hRun] at hFails hHidden
    cases answer with
    | ok view => cases hFails
    | error e =>
      have hSame : p.store.get? 0 = Sample.viewWorld.store.get? 0 := h _ _ _ _ _ e p hRun
      rw [Store.field?_congr hSame, hShown] at hHidden
      cases hHidden

/-- The build of a view fails with a label inside of it. The view has undergone nothing by then, and
it is as it was. Where the build fails at a property of the view itself, the view has undergone what
was in front of that. -/
theorem Builder.outcome_undergoes_view :
    (Sample.views.outcome none (some 0) (.given Sample.mistakenInside)
        Sample.viewWorld).1.isOk = false ∧
      (Sample.views.outcome none (some 0) (.given Sample.mistakenInside)
        Sample.viewWorld).2.store.get? 0 = Sample.viewWorld.store.get? 0 ∧
      ({ Sample.views with owner := none } : Assembly).Undergoes
        (Sample.views.territory none Sample.viewWorld.store) 0 { Sample.viewWorld with }
        [.assigned 0 "hidden" [0], .assigned 0 "bogus" [0]]
        (({ Sample.views with owner := none } : Assembly).buildTree (some 0)
          (.given Sample.mistaken) { Sample.viewWorld with }).2 := by
  have hNone : ∀ s ∈ (Sample.views.outcome none (some 0) (.given Sample.mistakenInside)
      Sample.viewWorld).2.journal, s.subject ≠ some 0 := by decide +kernel
  have hSteps : stepsOf 0 (Sample.views.outcome none (some 0) (.given Sample.mistaken)
      Sample.viewWorld).2.journal = [.assigned 0 "hidden" [0], .assigned 0 "bogus" [0]] := by
    decide +kernel
  obtain ⟨-, -, hKept⟩ :=
    outcome_undergoes Sample.views none 0 (.given Sample.mistakenInside) Sample.viewWorld
  obtain ⟨hUndergone, -⟩ :=
    outcome_undergoes Sample.views none 0 (.given Sample.mistaken) Sample.viewWorld
  rw [hSteps] at hUndergone
  exact ⟨by decide +kernel, hKept hNone 0 Sample.view_not_in_territory (fun h => nomatch h),
    hUndergone⟩

end ViewMarkup
