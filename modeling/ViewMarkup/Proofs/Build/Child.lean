import ViewMarkup.Build.Document
import ViewMarkup.Proofs.Build.Attending

/-!
# Starting and appending views

The parts of a build that deal with a child view as well as with its parent: resolving the name of
an element, making an instance, appending it when it is finished, and loading the documents that are
included.

## Main results

* `Assembly.start_yields`, `Assembly.startRoot_yields` — an element is started by making its
  instance, unless it is a raw element or its instance was supplied.
* `Assembly.append_yields` — appending a view is one step of its parent.
-/

namespace ViewMarkup

/-- A build that has not left a region which has all numbers still to be given. -/
structure Progress.Ready (U : Region) (p : Progress) : Prop where
  closed : p.store.Closed U
  fresh : ∀ n, p.store.size ≤ n → U n

theorem Progress.ready_univ (p : Progress) : p.Ready fun _ => True :=
  ⟨p.store.closed_univ, fun _ _ => trivial⟩

theorem Progress.Extends.ready {fs : Files} {U : Region} {p p' : Progress} {log : List Step}
    (h : p.Extends fs U p' log) (hp : p.Ready U) : p'.Ready U :=
  ⟨h.store.closed hp.closed, fun n hn => hp.fresh n (Nat.le_trans h.store.size_le hn)⟩

/-- What is made belongs to the region. -/
theorem Progress.Extends.made {fs : Files} {U : Region} {p p' : Progress} {log : List Step}
    (h : p.Extends fs U p' log) (hp : p.Ready U) {view : ObjectId} (hView : view ∈ madeIn log) :
    U view :=
  hp.fresh view (h.ascending.bounds view hView).1

/-- A name without a namespace is only looked up, and nothing is registered. -/
theorem Library.run_resolve_of_unprefixed (lib : Library) {id : RegistryId} {name : String}
    (h : namespaceOf? name = none) (rs : Registries) :
    (lib.resolve id name).run rs = (.ok (rs.peek id name), rs) := by
  have hRun : (lib.resolve id name).run rs = (lib.resolveIn name (rs.chain id)).run rs := rfl
  rw [hRun]
  unfold Registries.peek Registries.chain resolveIn
  rw [run_eq, run_bind, run_get, h]
  dsimp only
  cases rs.peekIn name (id :: (rs.get id).below) with
  | none => rfl
  | some c => rfl

namespace Assembly

/-- Resolving a name where the registries are `rs` gives a component, or finds that there is none,
and leaves the registries `rs'`. -/
def Resolves (a : Assembly) (rs : Registries) (name : String) (c? : Option Component)
    (rs' : Registries) : Prop :=
  (a.library.resolve a.registry name).run rs = (.ok c?, rs')

variable {a : Assembly} {U : Region} {parent view : ObjectId} {caps : Capabilities}

/-! ## Resolving and loading -/

theorem ofExcept_yields {α : Type} {y : Except Failure α} {p : Progress}
    {P : α → Progress → Prop} {B : Progress → Prop} (hOk : ∀ x, y = .ok x → P x p) (hBad : B p) :
    Yields (Building.ofExcept y) p P B := by
  cases y with
  | ok x => exact .ofOk rfl (hOk x rfl)
  | error failure => exact .ofError rfl hBad

theorem registering_yields {α : Type} {act : Registering α} {fs : Files} {p : Progress} :
    Yields (Building.registering act) p
      (fun x p' => p.Extends fs U p' [] ∧ act.run p.registries = (.ok x, p'.registries))
      (fun p' => p.Extends fs U p' []) := by
  have hExt (rs : Registries) : p.Extends fs U { p with registries := rs } [] :=
    ⟨.refl U p.store, .of_madeIn_eq_nil (Nat.le_refl _) rfl, by simp, rfl, fun _ => rfl⟩
  cases h : act.run p.registries with
  | mk r rs =>
    cases r with
    | error failure => exact .ofError (run_registering h) (hExt rs)
    | ok x => exact .ofOk (run_registering h) ⟨hExt rs, rfl⟩

theorem loadDocument_yields {fs : Files} (U : Region) (name : String) {p : Progress} :
    Yields (Building.loading (loadDocument fs name)) p
      (fun d p' => p.Extends fs U p' [] ∧ p'.registries = p.registries ∧
        p.loader.document? fs name = some d)
      (fun p' => p.Extends fs U p' []) := by
  have hExt : p.Extends fs U { p with loader := ((loadDocument fs name).run p.loader).2 } [] :=
    ⟨.refl U p.store, .of_madeIn_eq_nil (Nat.le_refl _) rfl, by simp, rfl,
      fun other => document?_run_loadDocument fs name other p.loader⟩
  cases h : (loadDocument fs name).run p.loader with
  | mk r l =>
    rw [h] at hExt
    cases r with
    | error failure => exact .ofError (run_loading h) hExt
    | ok d => exact .ofOk (run_loading h) ⟨hExt, rfl, document?_eq_some_of_run h⟩

/-- A new instance is the next object. -/
theorem instantiate_yields (hcs : a.library.classes.Covered U) {fs : Files} {p : Progress}
    (hp : p.Ready U) (c : Component) :
    Yields (a.instantiate c) p
      (fun view p' => p.Extends fs U p' [.made view] ∧ p'.registries = p.registries)
      (fun p' => p.Extends fs U p' []) := by
  refine Yields.bind (P := fun r q => q = p ∧
    a.library.classes.instantiateStyled c.cls c.style p.store = .ok r) ?_ ?_
  · refine .ofGetBind ?_
    exact ofExcept_yields (fun _ hMake => ⟨rfl, hMake⟩) (.refl fs U p)
  · rintro ⟨view, store⟩ q ⟨hq, hMake⟩
    obtain ⟨rfl, hLt, hStore⟩ := Classes.instantiateStyled_evolves hcs hp.fresh hMake
    rw [hq]
    refine .ofModifyBind (.ofModifyBind ?_)
    exact .ofPure ⟨⟨hStore, Ascending.made (.of_madeIn_eq_nil hLt rfl) (Nat.le_refl _), rfl, rfl,
      fun _ => rfl⟩, rfl⟩

/-- A child element stands for the component that its name resolves to. -/
theorem componentOf_eq (a : Assembly) (caps : Capabilities) (e : Element) :
    a.componentOf caps e = Building.registering (a.library.resolve a.registry e.name) := by
  funext p
  unfold componentOf
  split
  · next h =>
    have hPrefix : namespaceOf? e.name = none := by
      simp only [Bool.and_eq_true, Option.isNone_iff_eq_none] at h
      exact h.2
    exact (run_registering (a.library.run_resolve_of_unprefixed hPrefix p.registries)).symm
  · rfl

theorem componentOf_yields (fs : Files) (U : Region) {p : Progress} (e : Element) :
    Yields (a.componentOf caps e) p
      (fun c? p' => p.Extends fs U p' [] ∧ a.Resolves p.registries e.name c? p'.registries)
      (fun p' => p.Extends fs U p' []) := by
  rw [componentOf_eq]
  exact registering_yields

/-! ## Starting -/

/-- How a child element may have been started, when the build went on from `p`. -/
inductive Started (a : Assembly) (U : Region) (parent : ObjectId) (caps : Capabilities)
    (e : Element) (leading : List Instruction) (p : Progress) :
    Option (ObjectId × Capabilities) → Progress → Prop
  | made {c : Component} {view : ObjectId} {p' : Progress} :
      a.Resolves p.registries e.name (some c) p'.registries →
      p.Extends a.files U p' [.made view] →
      Started a U parent caps e leading p (some (view, c.capabilities)) p'
  | raw {p' : Progress} {log : List Step} :
      a.Resolves p.registries e.name none p'.registries → p.Extends a.files U p' log →
      (∀ s ∈ log, s.IsOwn parent) →
      callsTo parent log = instructionCalls caps leading ++ [.raw e.name e.attributes] →
      Started a U parent caps e leading p none p'

theorem checkAppend_yields {p : Progress} :
    Yields (a.checkAppend parent caps) p (fun _ q => q = p) (fun q => q = p) := by
  have hName : Yields (a.typeName parent) p (fun _ q => q = p) (fun q => q = p) := .ofOk rfl rfl
  unfold checkAppend
  split
  · exact .bind hName fun _ _ h => .ofThrow h
  · refine .ofGetBind ?_
    split
    · exact .bind hName fun _ _ h => .ofThrow h
    · exact .ofPure rfl
  · exact .ofPure rfl

/-- Finding the document that an include names does nothing to any object. -/
theorem findIncluded_yields (U : Region) {p : Progress} (stack : List String) (name : String) :
    Yields (a.findIncluded stack parent caps name) p
      (fun d p' => p.Extends a.files U p' [] ∧ p'.registries = p.registries ∧
        p.loader.document? a.files name = some d)
      (fun p' => p.Extends a.files U p' []) := by
  have hRest : Yields (do
      a.checkAppend parent caps
      Building.loading (loadDocument a.files name)) p
      (fun d p' => p.Extends a.files U p' [] ∧ p'.registries = p.registries ∧
        p.loader.document? a.files name = some d)
      (fun p' => p.Extends a.files U p' []) := by
    refine .bind (checkAppend_yields.weaken fun q hq => ?_) fun _ q hq => ?_
    · exact hq ▸ .refl a.files U p
    · rw [hq]
      exact loadDocument_yields U name
  exact .check (.refl a.files U p) (.check (.refl a.files U p) hRest)

theorem start_yields (hcs : a.library.classes.Covered U) {p : Progress} (hp : p.Ready U)
    (hParent : U parent) (e : Element) (leading : List Instruction) :
    Yields (a.start parent caps e leading) p (a.Started U parent caps e leading p)
      (p.Touches a.files U parent) := by
  refine .bind ((componentOf_yields a.files U e).weaken fun _ h => ⟨[], h, by simp⟩) ?_
  rintro c? p' ⟨hExt, hResolve⟩
  cases c? with
  | some c =>
    have hSame {q : Progress} (h : p'.Extends a.files U q []) : p.Touches a.files U parent q :=
      ⟨[], hExt.trans h, by simp⟩
    refine .bind (checkAppend_yields.weaken fun q hq => ?_) fun _ q hq => ?_
    · exact hSame (hq ▸ .refl a.files U p')
    · rw [hq]
      refine .bind ((instantiate_yields hcs (hExt.ready hp) c).weaken fun _ => hSame) ?_
      rintro view q ⟨hMade, hRegistries⟩
      exact .ofPure (.made (hRegistries ▸ hResolve) (hExt.trans hMade))
  | none =>
    have hTouches {q : Progress} (h : p'.Touches a.files U parent q) :
        p.Touches a.files U parent q := by
      obtain ⟨log, h, hOwn⟩ := h
      exact ⟨log, hExt.trans h, hOwn⟩
    have hRest : Yields (do
        a.deliverAll parent caps leading
        a.deliverRaw parent e
        return (none : Option (ObjectId × Capabilities))) p'
        (a.Started U parent caps e leading p) (p.Touches a.files U parent) := by
      have hDeliver := (deliverAll_attending hcs hParent caps leading).bind fun _ =>
        deliverRaw_attending hcs hParent e
      rw [← bind_assoc]
      refine .bind ((hDeliver p' (hExt.ready hp).closed).weaken ?_) ?_
      · rintro q ⟨told, h⟩
        exact hTouches h.touches
      · rintro _ q ⟨log, hLog, hRegistries, hOwn, hCalls⟩
        exact .ofPure (.raw (hRegistries ▸ hResolve) (hExt.trans hLog) hOwn hCalls)
    exact .check (hTouches ⟨[], .refl a.files U p', by simp⟩) hRest

/-- Appending a view is one step of its parent, the last one if it fails. -/
theorem append_yields (hcs : a.library.classes.Covered U) {p : Progress} (hp : p.Ready U)
    (hParent : U parent) (hView : U view) :
    Yields (a.append parent caps view) p
      (fun _ p' => p.Extends a.files U p' [.told parent (.append view)] ∧
        p'.registries = p.registries)
      (fun p' => p' = p ∨ p.Extends a.files U p' [.told parent (.append view)]) := by
  refine .bind (checkAppend_yields.weaken fun _ h => .inl h) fun _ q hq => ?_
  rw [hq]
  have hTell := tell_yields hcs hp.closed hParent (.append view) fun _ h => by
    cases h
    exact hView
  refine .bind (hTell.weaken fun _ h => .inr h.1) ?_
  rintro _ r ⟨hExt, hRegistries⟩
  exact .ofModify ⟨⟨hExt.store, hExt.ascending, hExt.journal, hExt.bindings, hExt.documents⟩,
    hRegistries⟩

/-! ## Roots -/

/-- What the element that stands for the supplied root may contain: what the class of the root
allows. -/
def suppliedCapabilities (a : Assembly) (s : Store) (root : ObjectId) :
    Except Failure Capabilities :=
  match s.class? root with
  | some cls => (a.library.classes.capabilities cls).mapError .mistyped
  | none => .ok {}

/-- How a root element may have been started, when the build went on from `p`. -/
inductive RootStarted (a : Assembly) (U : Region) (root : Option ObjectId) (e : Element)
    (p : Progress) : ObjectId × Capabilities → Progress → Prop
  | reserved {r : ObjectId} {own : Capabilities} : e.name = rootName → root = some r →
      a.suppliedCapabilities p.store r = .ok own → RootStarted a U root e p (r, own) p
  | supplied {r : ObjectId} {c : Component} {p' : Progress} : e.name ≠ rootName → root = some r →
      a.Resolves p.registries e.name (some c) p'.registries → p.Extends a.files U p' [] →
      RootStarted a U root e p (r, c.capabilities) p'
  | made {c : Component} {view : ObjectId} {p' : Progress} : e.name ≠ rootName → root = none →
      a.Resolves p.registries e.name (some c) p'.registries →
      p.Extends a.files U p' [.made view] → RootStarted a U root e p (view, c.capabilities) p'

theorem RootStarted.of_some {r : ObjectId} {e : Element} {p p' : Progress}
    {made : ObjectId × Capabilities} (h : a.RootStarted U (some r) e p made p') :
    made.1 = r ∧ p.Extends a.files U p' [] := by
  cases h with
  | reserved _ hRoot _ => exact ⟨(Option.some.inj hRoot).symm, .refl a.files U p⟩
  | supplied _ hRoot _ hExt => exact ⟨(Option.some.inj hRoot).symm, hExt⟩
  | made _ hRoot _ _ => cases hRoot

theorem RootStarted.of_none {e : Element} {p p' : Progress} {made : ObjectId × Capabilities}
    (h : a.RootStarted U none e p made p') : p.Extends a.files U p' [.made made.1] := by
  cases h with
  | reserved _ hRoot _ => cases hRoot
  | supplied _ hRoot _ _ => cases hRoot
  | made _ _ _ hExt => exact hExt

private theorem rootInstance_yields (hcs : a.library.classes.Covered U) {p : Progress}
    (hp : p.Ready U) (e : Element) (root : Option ObjectId) :
    Yields (a.rootInstance e root) p (a.RootStarted U root e p)
      (fun p' => p.Extends a.files U p' []) := by
  unfold rootInstance
  dsimp only
  split
  · next hName =>
    cases root with
    | none => exact .ofThrow (.refl a.files U p)
    | some r =>
      refine .ofGetBind ?_
      have hCaps (own : Capabilities) (h : a.suppliedCapabilities p.store r = .ok own) :
          a.RootStarted U (some r) e p (r, own) p := .reserved hName rfl h
      unfold suppliedCapabilities at hCaps
      cases hClass : p.store.class? r with
      | none =>
        rw [hClass] at hCaps
        exact .ofPure (hCaps {} rfl)
      | some cls =>
        rw [hClass] at hCaps
        refine .bind (P := fun own q => q = p ∧
          (a.library.classes.capabilities cls).mapError Failure.mistyped = .ok own)
          (ofExcept_yields (fun _ h => ⟨rfl, h⟩) (.refl a.files U p)) fun own q h => ?_
        rw [h.1]
        exact .ofPure (hCaps own h.2)
  · next hName =>
    refine .bind registering_yields ?_
    rintro c? p' ⟨hExt, hResolve⟩
    cases c? with
    | none => exact .ofThrow hExt
    | some c =>
      cases root with
      | none =>
        refine .bind ((instantiate_yields hcs (hExt.ready hp) c).weaken fun _ h => hExt.trans h) ?_
        rintro view q ⟨hMade, hRegistries⟩
        exact .ofPure (.made hName rfl (hRegistries ▸ hResolve) (hExt.trans hMade))
      | some r =>
        refine .ofGetBind ?_
        split
        · exact .ofPure (.supplied hName rfl hResolve hExt)
        · refine .bind (P := fun _ q => q = p') (.ofOk rfl rfl) fun _ q hq => ?_
          rw [hq]
          exact .ofThrow hExt

/-- Starting a root element may also fail after its instance was made. -/
theorem startRoot_yields (hcs : a.library.classes.Covered U) {p : Progress} (hp : p.Ready U)
    (e : Element) (root : Option ObjectId) :
    Yields (a.startRoot e root) p
      (fun made p' => a.RootStarted U root e p made p' ∧
        ∀ i ∈ e.leading, i.target ≠ includeTarget)
      (fun p' => p.Extends a.files U p' [] ∨
        root = none ∧ ∃ view, p.Extends a.files U p' [.made view]) := by
  refine .bind ((rootInstance_yields hcs hp e root).weaken fun _ h => .inl h) ?_
  intro made p' hStarted
  dsimp only
  split
  · refine .bind (P := fun _ _ => False) (.ofThrow ?_) fun _ _ h => h.elim
    cases hStarted with
    | reserved _ _ _ => exact .inl (.refl a.files U p)
    | supplied _ _ _ hExt => exact .inl hExt
    | made _ hRoot _ hExt => exact .inr ⟨hRoot, _, hExt⟩
  · next hNone =>
    refine .ofPure ⟨hStarted, fun i hi hTarget => hNone ?_⟩
    exact List.any_eq_true.2 ⟨i, hi, by simpa using hTarget⟩

/-! ## Documents -/

/-- How deep includes may go is found out when the build of a document begins. -/
theorem run_buildDocument (a : Assembly) (stack : List String) (d : Document)
    (root : Option ObjectId) (p : Progress) : a.buildDocument stack d root p =
      a.buildRoot (includeDepth a.files p.loader d.root) stack d.root root p := by
  unfold buildDocument
  rw [run_bind, run_get]

end Assembly
end ViewMarkup
