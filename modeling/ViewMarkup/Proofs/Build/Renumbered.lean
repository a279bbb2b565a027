import ViewMarkup.Proofs.Build.Appending
import ViewMarkup.Proofs.Build.Lockstep

/-!
# Builds under other identity numbers

Which identity numbers objects have makes a difference to a build in one place only: where an object
that takes a single view is to be given one. Views that were given to other objects with its number
are counted there, too. So a build ends as it would if all objects had different numbers, unless
one of them has the number of another that was given a view before. A build that succeeds has met no
such object.

## Main results

* `Builder.outcome_takesAlone` — in a build that succeeds, no object that takes a single view has a
  number under which another one was given a view.
* `Builder.outcome_renumbered` — a build without such an object ends like the one where all objects
  have different numbers.
-/

namespace ViewMarkup

/-- Wherever a view child of an object that takes a single view is reached or appended, no other
object with its number has been given a view. -/
def Visit.TakesAlone (a : Assembly) (number : ObjectId → Identity) (v : Visit) : Prop :=
  ∀ parent caps,
    (v.viewParent? a = some (parent, caps) ∨ ∃ view, v.attempt = .append parent caps view) →
    caps.append = .single → CountedAlone number v.before.journal parent

/-- Two builds that have come equally far, the second one under numbers that are all different. -/
structure Progress.Renumbered (fs : Files) (docs : String → Option Document) (p q : Progress) :
    Prop where
  same : ∃ appended, q = { p with appended, number := id }
  has : p.Has fs docs

namespace Progress.Renumbered

variable {fs : Files} {docs : String → Option Document} {p q : Progress}

theorem has' (h : Renumbered fs docs p q) : q.Has fs docs := by
  obtain ⟨_, rfl⟩ := h.same
  exact h.has

/-- The count and the numbers are all that differs. -/
theorem owing : Owing (Renumbered fs docs) where
  store h := by obtain ⟨_, rfl⟩ := h.same; rfl
  outlets h := by obtain ⟨_, rfl⟩ := h.same; rfl
  links h := by obtain ⟨_, rfl⟩ := h.same; rfl
  bindings h := by obtain ⟨_, rfl⟩ := h.same; rfl
  withStore h hStore := by
    subst hStore
    obtain ⟨appended, rfl⟩ := h.same
    exact ⟨⟨appended, rfl⟩, h.has⟩
  noted step h := by
    obtain ⟨appended, rfl⟩ := h.same
    exact ⟨⟨appended, rfl⟩, h.has⟩
  withOutlets outlets h := by
    obtain ⟨appended, rfl⟩ := h.same
    exact ⟨⟨appended, rfl⟩, h.has⟩
  withLinks links h := by
    obtain ⟨appended, rfl⟩ := h.same
    exact ⟨⟨appended, rfl⟩, h.has⟩
  withBindings bindings h := by
    obtain ⟨appended, rfl⟩ := h.same
    exact ⟨⟨appended, rfl⟩, h.has⟩

/-- The same names are known. -/
theorem registering {α : Type} (act : Registering α) :
    Alike (Renumbered fs docs) (Building.registering act) (Building.registering act) := by
  intro p q h
  obtain ⟨appended, rfl⟩ := h.same
  exact ⟨rfl, ⟨appended, rfl⟩, h.has⟩

theorem load (name : String) :
    Alike (Renumbered fs docs) (Building.loading (loadDocument fs name))
      (Building.loading (loadDocument fs name)) := by
  intro p q h
  obtain ⟨appended, rfl⟩ := h.same
  refine ⟨rfl, ⟨appended, rfl⟩, fun other => ?_⟩
  exact (document?_run_loadDocument fs name other p.loader).trans (h.has other)

/-- A value is fetched from the same resources. -/
theorem assign (sc : Scene) (d : Decoder) (target : Value) (name raw : String) :
    Alike (Renumbered fs docs) (Building.fetching (sc.assign d fs target name raw))
      (Building.fetching (sc.assign d fs target name raw)) := by
  have hSame := Loader.SameValues.ofEq fs docs
  refine .ofFetching (sc.assign_alike _ hSame _ _ _) (fun h => ?_) fun h hNext => ?_
  · obtain ⟨_, rfl⟩ := h.same
    exact ⟨rfl, h.has⟩
  · obtain ⟨appended, rfl⟩ := h.same
    obtain ⟨rfl, hHas⟩ := hNext
    exact ⟨⟨appended, rfl⟩, hHas⟩

/-- A view is counted in both builds. -/
theorem count (parent : ObjectId) :
    Alike (ε := Failure) (Renumbered fs docs)
      (modify fun p => { p with appended := p.appended.put (p.number parent) (p.count parent + 1) })
      (modify fun p =>
        { p with appended := p.appended.put (p.number parent) (p.count parent + 1) }) := by
  intro p q h
  obtain ⟨appended, rfl⟩ := h.same
  exact ⟨rfl, ⟨_, rfl⟩, h.has⟩

end Progress.Renumbered

namespace Assembly

variable {a : Assembly} {docs : String → Option Document} {parent : ObjectId} {caps : Capabilities}
  {p q : Progress}

/-! ## Visits -/

/-- All along a tour, what is counted are the views that were given. -/
theorem tourTree_counted (a : Assembly) (root : Option ObjectId) (origin : Origin) (w : World) :
    ∀ v ∈ (a.tourTree root origin ⟨{ w with }, []⟩).2.visits,
      v.before.Counted ∧ v.before.number = w.number := by
  obtain ⟨loader, visits, hTour, hEnd⟩ := a.tourTree_builds root origin { w with }
  rw [hTour]
  rcases hEnd with hLinked | ⟨rfl, -⟩
  · exact hLinked.invariant (I := fun p => p.Counted ∧ p.number = w.number)
      (fun h hRun => ⟨Attempt.counted h.1 hRun, (Attempt.number_eq hRun).trans h.2⟩)
      ⟨fun _ => rfl, rfl⟩
  · exact fun v hv => absurd hv List.not_mem_nil

/-- Where a build succeeds, no object that takes a single view has a number under which another one
was given a view: it would have been refused its own. -/
theorem takesAlone_of_ok {root : Option ObjectId} {origin : Origin} {w : World} {view : ObjectId}
    (hDone : a.buildTree root origin { w with } = (.ok view, p)) :
    ∀ v ∈ (a.tourTree root origin ⟨{ w with }, []⟩).2.visits, v.TakesAlone a w.number := by
  intro v hv parent caps hReached hSingle
  obtain ⟨hCounted, hNumber⟩ := a.tourTree_counted root origin w v hv
  obtain ⟨answer, q, hRun⟩ : ∃ answer q, v.run a = (.ok answer, q) := by
    obtain ⟨loader, visits, hTour, hEnd⟩ := a.tourTree_builds root origin { w with }
    rw [hTour] at hv
    rw [hDone] at hEnd
    rcases hEnd with hLinked | ⟨rfl, -⟩
    · exact hLinked.exists_run_ok v hv
    · exact absurd hv List.not_mem_nil
  have hTaken : a.refusal? v.before parent caps = none := by
    rcases hReached with hView | ⟨view, hAppend⟩
    · by_contra hSome
      obtain ⟨fault, hRefused⟩ := Option.ne_none_iff_exists'.1 hSome
      obtain ⟨_, hFails⟩ := Visit.refused hView hRefused
      rw [hRun] at hFails
      cases hFails
    · obtain ⟨spot, t, before⟩ := v
      obtain rfl : t = .append parent caps view := hAppend
      exact (append_counted hRun).1
  have hPermits := refusal?_eq_none_iff.1 hTaken
  rw [hSingle] at hPermits
  have hNone : v.before.count parent = 0 := Nat.le_zero.1 (Nat.le_of_succ_le_succ hPermits)
  rw [← hNumber]
  exact (hCounted.eq_zero_iff.1 hNone).2

/-! ## Single attempts -/

/-- What is refused under some numbers is what is refused under numbers that are all different, as
long as the views of the object alone are counted. -/
theorem refusal?_renumbered (h : p.Renumbered a.files docs q) (hCounted : p.Counted)
    (hCounted' : q.Counted)
    (hAlone : caps.append = .single → CountedAlone p.number p.journal parent) :
    a.refusal? q parent caps = a.refusal? p parent caps := by
  obtain ⟨appended, rfl⟩ := h.same
  unfold refusal?
  cases hPolicy : caps.append with
  | none => rfl
  | multi => rfl
  | single =>
    have hZero : ({ p with appended, number := id } : Progress).count parent = 0 ↔
        p.count parent = 0 := by
      rw [hCounted.eq_zero_iff, hCounted'.eq_zero_iff]
      exact and_congr_right fun _ =>
        iff_of_true (.of_injective Function.injective_id _ _) (hAlone hPolicy)
    simp only [Nat.one_le_iff_ne_zero, ne_eq, hZero]

theorem checkAppend_renumbered (h : p.Renumbered a.files docs q)
    (hSame : a.refusal? q parent caps = a.refusal? p parent caps) :
    (Comparison.ofBoth (Progress.Renumbered a.files docs)).Meets Eq (a.checkAppend parent caps p)
      (a.checkAppend parent caps q) := by
  rw [checkAppend_eq, checkAppend_eq, hSame]
  cases a.refusal? p parent caps with
  | none => exact .ok rfl h
  | some fault => exact .failed rfl

theorem append_renumbered {view : ObjectId} (h : p.Renumbered a.files docs q)
    (hSame : a.refusal? q parent caps = a.refusal? p parent caps) :
    (Comparison.ofBoth (Progress.Renumbered a.files docs)).Meets Eq (a.append parent caps view p)
      (a.append parent caps view q) := by
  unfold append
  refine (checkAppend_renumbered h hSame).bind fun _ _ _ => .ofAlike (.bind ?_ fun _ => ?_)
  · exact Progress.Renumbered.owing.tell (Store.unseen_eq _) (.append view)
  · exact Progress.Renumbered.count parent

/-- A child element is started under other numbers, too. -/
theorem start_renumbered {e : Element} {leading : List Instruction}
    (h : p.Renumbered a.files docs q)
    (hSame : ∀ c, (a.componentOf caps e p).1 = .ok (some c) →
      a.refusal? q parent caps = a.refusal? p parent caps) :
    (Comparison.ofBoth (Progress.Renumbered a.files docs)).Meets Eq
      (a.start parent caps e leading p) (a.start parent caps e leading q) := by
  have hOwing : Owing (Progress.Renumbered a.files docs) := Progress.Renumbered.owing
  have hFound := Progress.Renumbered.registering (a.library.resolve a.registry e.name) p q h
  rw [← componentOf_eq] at hFound
  unfold start
  rw [run_bind, run_bind]
  cases hRun : a.componentOf caps e p with
  | mk answer p₁ =>
    cases hRun' : a.componentOf caps e q with
    | mk answer' q₁ =>
      rw [hRun] at hSame
      rw [hRun, hRun'] at hFound
      obtain ⟨hAnswer, hNext⟩ := hFound
      obtain rfl : answer = answer' := hAnswer
      match answer with
      | .error failure => exact .failed rfl
      | .ok (some c) =>
        rw [run_componentOf] at hRun hRun'
        obtain rfl : p₁ = { p with registries := _ } := (Prod.mk.inj hRun).2.symm
        obtain rfl : q₁ = { q with registries := _ } := (Prod.mk.inj hRun').2.symm
        exact (checkAppend_renumbered hNext (hSame c rfl)).bind fun _ _ _ =>
          .ofAlike (.bind (hOwing.instantiate (Store.unseen_eq _) c) fun _ => .ofPure _)
      | .ok none =>
        refine Comparison.Agrees.ofAlike (c := .ofBoth _) ?_ p₁ q₁ hNext
        exact .check (.bind (hOwing.deliverAll (Store.unseen_eq _) leading) fun _ =>
          .bind (hOwing.deliverRaw (Store.unseen_eq _) rfl rfl rfl rfl rfl) fun _ => .ofPure _)

/-- The document of an include is found under other numbers, too. -/
theorem findIncluded_renumbered {stack : List String} {name : String}
    (h : p.Renumbered a.files docs q)
    (hSame : name ≠ "" ∧ name ∉ stack → a.refusal? q parent caps = a.refusal? p parent caps) :
    (Comparison.ofBoth (Progress.Renumbered a.files docs)).Meets Eq
      (a.findIncluded stack parent caps name p) (a.findIncluded stack parent caps name q) := by
  rw [findIncluded_eq]
  split
  · exact .failed rfl
  · next hName =>
    split
    · exact .failed rfl
    · next hStack =>
      exact (checkAppend_renumbered h (hSame ⟨hName, hStack⟩)).bind fun _ _ _ =>
        .ofAlike (Progress.Renumbered.load name)

/-- The second build goes on counting the views of each object. -/
private theorem counted_meets {fs : Files} (spot : Place) (t : Attempt)
    {A : t.Answer → t.Answer → Prop} (hCounted : q.Counted)
    (h : (Comparison.ofBoth (Progress.Renumbered fs docs)).Meets A (t.act a spot p)
      (t.act a spot q)) :
    (Comparison.ofBoth fun p q => Progress.Renumbered fs docs p q ∧ q.Counted).Meets A
      (t.act a spot p) (t.act a spot q) := by
  cases hRun : t.act a spot p with
  | mk answer p' =>
    cases hRun' : t.act a spot q with
    | mk answer' q' =>
      rw [hRun, hRun'] at h
      cases h with
      | ok hAnswers hNext => exact .ok hAnswers ⟨hNext, Attempt.counted hCounted hRun'⟩
      | failed hFailed => exact .failed hFailed

/-! ## Builds -/

/-- Builds under different numbers go on in lockstep. -/
theorem renumbered_lockstep {number : ObjectId → Identity} :
    Lockstep a (.ofBoth fun p q => Progress.Renumbered a.files docs p q ∧ q.Counted)
      (fun v => v.TakesAlone a number ∧ v.before.Counted ∧ v.before.number = number) docs docs
      fun _ s s' e e' => s = s' ∧ e = e' where
  documents h := ⟨h.1.has, h.1.has'⟩
  shape := by
    rintro k s _ e _ ⟨rfl, rfl⟩
    exact ⟨rfl, rfl, rfl, rfl, List.forall₂_same.2 fun _ _ => ⟨rfl, rfl⟩⟩
  root := by
    rintro s _ e _ given ⟨rfl, rfl⟩ p q ⟨hState, hCounted⟩
    refine counted_meets ⟨s, e, e, e.name⟩ (.root given) hCounted ?_
    refine (Comparison.Agrees.ofAlike (c := .ofBoth _) ?_ p q hState).mono
      fun _ _ _ _ hMade => ⟨hMade, rfl, rfl⟩
    exact Progress.Renumbered.owing.startRoot (Store.unseen_eq _) rfl
      (Progress.Renumbered.registering _) rfl given
  child := by
    rintro s _ root e _ path parent caps p q ⟨rfl, rfl⟩ ⟨hState, hCounted⟩ ⟨hAlone, hBefore, rfl⟩
    refine counted_meets ⟨s, root, e, path⟩ (.child parent caps) hCounted ?_
    refine (start_renumbered hState fun c hComponent => ?_).mono
      fun _ _ _ _ hMade => ⟨hMade, fun _ => ⟨rfl, rfl⟩⟩
    refine refusal?_renumbered hState hBefore hCounted fun hSingle => ?_
    refine hAlone parent caps (.inl ?_) hSingle
    simp only [Visit.viewParent?, hComponent]
  attributes := by
    rintro s _ root e _ path id p q ⟨rfl, rfl⟩ ⟨hState, hCounted⟩ -
    refine counted_meets ⟨s, root, e, path⟩ (.attributes id) hCounted ?_
    exact Comparison.Agrees.ofAlike (c := .ofBoth _)
      (Progress.Renumbered.owing.takeAttributes
        (fun sc _ _ _ => Progress.Renumbered.assign sc _ _ _ _) _) p q hState
  find := by
    rintro k s _ root e _ path name parent caps p q ⟨rfl, rfl⟩ - ⟨hState, hCounted⟩
      ⟨hAlone, hBefore, rfl⟩
    refine counted_meets ⟨s, root, e, path⟩ (.find parent caps name) hCounted ?_
    refine (findIncluded_renumbered hState fun hName => ?_).mono
      fun _ _ _ _ hSame => ⟨rfl, congrArg Document.root hSame⟩
    refine refusal?_renumbered hState hBefore hCounted fun hSingle => ?_
    exact hAlone parent caps (.inl (if_pos hName)) hSingle
  deliver := by
    rintro id caps i p q ⟨hState, hCounted⟩
    let e : Element := .mk "" [] [] [] [] ""
    refine counted_meets ⟨[], e, e, ""⟩ (.deliver id caps i) hCounted ?_
    exact Comparison.Agrees.ofAlike (c := .ofBoth _)
      (Progress.Renumbered.owing.deliver (Store.unseen_eq _) i) p q hState
  text := by
    rintro id caps name text p q ⟨hState, hCounted⟩
    let e : Element := .mk name [] [] [] [] text
    refine counted_meets ⟨[], e, e, ""⟩ (.text id caps) hCounted ?_
    exact Comparison.Agrees.ofAlike (c := .ofBoth _)
      (Progress.Renumbered.owing.takeText (Store.unseen_eq _) name text) p q hState
  append := by
    rintro spot parent view caps p q ⟨hState, hCounted⟩ ⟨hAlone, hBefore, rfl⟩
    refine counted_meets spot (.append parent caps view) hCounted (append_renumbered hState ?_)
    exact refusal?_renumbered hState hBefore hCounted (hAlone parent caps (.inr ⟨view, rfl⟩))

/-- A build in which each object that takes a single view is counted alone ends like the one where
all objects have different numbers. -/
theorem buildTree_renumbered {root : Option ObjectId} {d : Document} {w : World}
    (hAlone : ∀ v ∈ (a.tourTree root (.given d) ⟨{ w with }, []⟩).2.visits,
      v.TakesAlone a w.number) :
    (Comparison.ofBoth (Progress.Renumbered a.files (w.loader.document? a.files))).Meets Eq
      (a.buildTree root (.given d) { w with })
      (a.buildTree root (.given d) { w with number := id }) := by
  have hStart : Progress.Renumbered a.files (w.loader.document? a.files) { w with }
      { w with number := id } := ⟨⟨[], rfl⟩, fun _ => rfl⟩
  refine (renumbered_lockstep.buildTree_given root ⟨rfl, rfl⟩ ⟨hStart, fun _ => rfl⟩
    fun v hv => ⟨hAlone v hv, a.tourTree_counted root (.given d) w v hv⟩).weaken ?_
  exact fun _ _ hState => hState.1

end Assembly

namespace Builder

variable {b : Builder} {owner root : Option ObjectId} {w : World}

/-- A build that succeeds has met no object under whose number another one was given a view, where
it takes a single one. -/
theorem outcome_takesAlone {origin : Origin} {view : ObjectId} {p : Progress}
    (hDone : b.outcome owner root origin w = (.ok view, p)) :
    ∀ v ∈ (({ b with owner } : Assembly).tourTree root origin ⟨{ w with }, []⟩).2.visits,
      v.TakesAlone { b with owner } w.number := by
  obtain ⟨_, hTree, -⟩ := Assembly.run_build_eq_ok_iff.1 hDone
  exact Assembly.takesAlone_of_ok hTree

/-- What was noted down is given to the owner whatever the numbers are. -/
theorem outcome_renumbered {d : Document}
    (hAlone : ∀ v ∈ (({ b with owner } : Assembly).tourTree root (.given d)
      ⟨{ w with }, []⟩).2.visits, v.TakesAlone { b with owner } w.number) :
    (Comparison.ofBoth (Progress.Renumbered b.files (w.loader.document? b.files))).Meets Eq
      (b.outcome owner root (.given d) w)
      (b.outcome owner root (.given d) { w with number := id }) := by
  refine (Assembly.buildTree_renumbered hAlone).bind fun view view' hView => ?_
  obtain rfl : view = view' := hView
  exact .ofAlike (.bind Progress.Renumbered.owing.commit fun _ => .ofPure view)

end Builder
end ViewMarkup
