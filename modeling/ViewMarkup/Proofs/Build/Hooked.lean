import ViewMarkup.Build.Open
import ViewMarkup.Proofs.Build.Moves
import ViewMarkup.Proofs.Component.Supported
import ViewMarkup.Proofs.Object.Fresh
import ViewMarkup.Proofs.View.Containers

/-!
# Nobody is told what it has no hook for

A build tells an object something if what the object may contain calls for the hook. What it may
contain has been looked at when its component was registered, for the class of the component and
not for that of the object: a root that is supplied may be of another class that builds on it, and
for the element that stands for any root the class of the root is looked at itself. In each case the
class of the object has the hook.

This rests on what all registries have in common that arise while classes are defined, registries
are asked and documents are built: a component has the capabilities of its class.

## Main results

* `Registries.Arises.sound` — what holds of the classes and registries that can arise.
* `Assembly.buildTree_heard` — whatever is told along a build goes through a hook of its object.
* `Builder.outcome_of_missing` — a class that declares a capability without its hook is not built
  into.
* `Registries.Arises.hooks_honoured` — the hooks of all objects are honoured, whatever has happened
  before.
-/

namespace ViewMarkup

/-! ## Objects that have hooks -/

namespace Store

variable {cs : Classes} {s t : Store} {id : ObjectId} {c : Component}

/-- The class of an object has a hook. -/
def Hears (cs : Classes) (s : Store) (id : ObjectId) (h : Hook) : Prop :=
  ∃ cls, s.class? id = some cls ∧ (cs.hook? cls h).isSome = true

/-- An object has the hooks that capabilities call for. -/
def Honours (cs : Classes) (s : Store) (id : ObjectId) (c : Capabilities) : Prop :=
  ∀ h, c.uses h = true → s.Hears cs id h

/-- An object keeps its hooks, since it stays what it is. -/
theorem Hears.evolves {h : Hook} (hHears : s.Hears cs id h) {U : Region} (hStore : Evolves U s t) :
    t.Hears cs id h := by
  obtain ⟨cls, hClass, hHook⟩ := hHears
  have hType := hStore.type id (lt_size_of_class? hClass)
  exact ⟨cls, (class?_of_type? hType).trans hClass, hHook⟩

theorem Honours.evolves {c : Capabilities} (h : s.Honours cs id c) {U : Region}
    (hStore : Evolves U s t) : t.Honours cs id c :=
  fun hook hUses => (h hook hUses).evolves hStore

theorem honours_none : s.Honours cs id {} := by
  intro h hUses
  cases h <;> cases hUses

theorem honours_of_supports {cls : ClassId} {own : Capabilities} (hClass : s.class? id = some cls)
    (h : cs.Supports cls own) : s.Honours cs id own :=
  fun hook hUses => ⟨cls, hClass, h hook hUses⟩

end Store

namespace Assembly

variable {a : Assembly} {caps : Capabilities} {parent : ObjectId} {p : Progress}

theorem instantiate_classed (a : Assembly) (c : Component) (p : Progress) :
    Yields (a.instantiate c) p (fun view q => q.store.class? view = some c.cls)
      fun _ => True := by
  refine Yields.bind (P := fun r q => a.library.classes.instantiateStyled c.cls c.style p.store =
    .ok r) ?_ ?_
  · exact .ofGetBind (ofExcept_yields (fun _ h => h) trivial)
  · rintro ⟨view, store⟩ q hMake
    exact .ofModifyBind (.ofModifyBind (.ofPure (Classes.instantiateStyled_class? hMake)))

/-- What a child element stands for has the capabilities of its class. -/
theorem componentOf_backed (hLib : a.library.Known)
    (hBacked : p.registries.Backed a.library.classes) (e : Element) :
    Yields (a.componentOf caps e) p (fun c? _ => ∀ c, c? = some c → c.Backed a.library.classes)
      fun _ => True := by
  refine (componentOf_yields a.files (fun _ => True) e).mono ?_ fun _ _ => trivial
  rintro c? q ⟨-, hResolves⟩ c rfl
  exact hBacked.resolve hLib hResolves

/-- A child that is started has the hooks that its capabilities call for. -/
theorem start_honours (hLib : a.library.Known) (hBacked : p.registries.Backed a.library.classes)
    (e : Element) (leading : List Instruction) :
    Yields (a.start parent caps e leading) p
      (fun made? q => ∀ made, made? = some made →
        q.store.Honours a.library.classes made.1 made.2)
      fun _ => True := by
  refine .bind (componentOf_backed hLib hBacked e) ?_
  rintro c? q hComponent
  cases c? with
  | some c =>
    have hSupports := (hComponent c rfl).supports
    refine .bind (.always _ q) fun _ q' _ => ?_
    refine .bind (a.instantiate_classed c q') fun view r hClass => ?_
    refine .ofPure fun made hMade => ?_
    cases hMade
    exact Store.honours_of_supports hClass hSupports
  | none =>
    refine .check trivial (.bind (.always _ q) fun _ q' _ => .bind (.always _ q') fun _ r _ => ?_)
    exact .ofPure fun made hMade => nomatch hMade

/-- The instance for a root has the hooks that its capabilities call for: a root that is supplied
has the class of the component or one that builds on it, and for the element that stands for any
root the capabilities are those of its own class. -/
theorem rootInstance_honours (hLib : a.library.Known) (hcs : a.library.classes.Transitive)
    (hBacked : p.registries.Backed a.library.classes) (e : Element) (root : Option ObjectId) :
    Yields (a.rootInstance e root) p
      (fun made q => q.store.Honours a.library.classes made.1 made.2) fun _ => True := by
  unfold rootInstance
  dsimp only
  split
  · cases root with
    | none => exact .ofThrow trivial
    | some r =>
      refine .ofGetBind ?_
      split
      · next cls hClass =>
        refine .bind (P := fun own q => q = p ∧
          (a.library.classes.capabilities cls).mapError Failure.mistyped = .ok own)
          (ofExcept_yields (fun _ h => ⟨rfl, h⟩) trivial) ?_
        rintro own _ ⟨rfl, hOwn⟩
        have hSupports := Classes.supports_of_capabilities (eq_ok_of_mapError_eq_ok hOwn)
        exact .ofPure (Store.honours_of_supports hClass hSupports)
      · exact .ofPure Store.honours_none
  · rw [← a.componentOf_eq {} e]
    refine .bind (componentOf_backed hLib hBacked e) ?_
    rintro c? q hComponent
    cases c? with
    | none => exact .ofThrow trivial
    | some c =>
      have hSupports := (hComponent c rfl).supports
      cases root with
      | none =>
        refine .bind (a.instantiate_classed c q) fun view r hClass => ?_
        exact .ofPure (Store.honours_of_supports hClass hSupports)
      | some r =>
        refine .ofGetBind ?_
        split
        · next hIs =>
          cases hClass : q.store.class? r with
          | none => simp [hClass] at hIs
          | some cls =>
            have hIsA : a.library.classes.isA cls c.cls = true := by simpa [hClass] using hIs
            exact .ofPure (Store.honours_of_supports hClass (hSupports.subclass hcs hIsA))
        · exact .bind (.always _ q) fun _ _ _ => .ofThrow trivial

/-- A root that is started has the hooks that its capabilities call for. -/
theorem startRoot_honours (hLib : a.library.Known) (hcs : a.library.classes.Transitive)
    (hBacked : p.registries.Backed a.library.classes) (e : Element) (root : Option ObjectId) :
    Yields (a.startRoot e root) p
      (fun made q => q.store.Honours a.library.classes made.1 made.2) fun _ => True := by
  refine .bind (rootInstance_honours hLib hcs hBacked e root) fun made q hMade => ?_
  exact .check trivial (.ofPure hMade)

/-! ## Along a build -/

/-- What holds all along a build, with the instances that are being worked on: all that is
registered has the capabilities of its class, whatever was told went through a hook, and the
instances have the hooks that their capabilities call for. -/
structure Hooked (a : Assembly) (opened : List (ObjectId × Capabilities)) (p : Progress) :
    Prop where
  backed : p.registries.Backed a.library.classes
  heard : ∀ id call, .told id call ∈ p.journal → p.store.Hears a.library.classes id call.hook
  honoured : ∀ m ∈ opened, p.store.Honours a.library.classes m.1 m.2

namespace Hooked

variable {opened opened' : List (ObjectId × Capabilities)} {q : Progress} {v : Visit} {s : Stage}
  {supplied : Option ObjectId}

theorem mono (h : a.Hooked opened p) (hOpened : opened' ⊆ opened) : a.Hooked opened' p :=
  ⟨h.backed, h.heard, fun m hm => h.honoured m (hOpened hm)⟩

private theorem cons (h : a.Hooked opened p) {made : ObjectId × Capabilities}
    (hMade : p.store.Honours a.library.classes made.1 made.2) : a.Hooked (made :: opened) p :=
  ⟨h.backed, h.heard, List.forall_mem_cons.2 ⟨hMade, h.honoured⟩⟩

/-- What tells nobody anything but what goes through a hook keeps to the hooks. -/
theorem tells (h : a.Hooked opened p) {subject? : Option Subject}
    (hSubject : ∀ x, subject? = some x → p.store.Honours a.library.classes x.id x.caps)
    (hBacked : q.registries.Backed a.library.classes)
    (hStore : Store.Evolves (fun _ => True) p.store q.store)
    (hTold : ∀ id call, .told id call ∈ q.journal → .told id call ∈ p.journal ∨
      ∃ x, subject? = some x ∧ x.id = id ∧ x.Expects call) : a.Hooked opened q := by
  refine ⟨hBacked, fun id call hNew => ?_, fun m hm => (h.honoured m hm).evolves hStore⟩
  rcases hTold id call hNew with hOld | ⟨x, hSome, rfl, hExpects⟩
  · exact (h.heard id call hOld).evolves hStore
  · exact (hSubject x hSome call.hook hExpects.1).evolves hStore

/-- A move keeps to the hooks if the object that it is made for has those it needs. -/
theorem move (h : a.Hooked opened p) (hLib : a.library.Known) {subject? : Option Subject}
    (hSubject : ∀ x, subject? = some x → p.store.Honours a.library.classes x.id x.caps)
    (hMove : a.Move subject? p q) : a.Hooked opened q := by
  refine h.tells hSubject ?_ hMove.evolves fun id call => hMove.told
  cases hMove with
  | resolve name => exact h.backed.treads (Library.resolve_treads hLib)
  | load _ | note _ _ _ | make _ | tell _ _ _ _ => exact h.backed
  | assign entry _ _ =>
    obtain ⟨store, loader, hState, -⟩ := a.assignProperty_state _ entry p
    rw [hState]
    exact h.backed

private theorem slip (h : a.Hooked opened p) {subject? : Option Subject}
    (hSubject : ∀ x, subject? = some x → p.store.Honours a.library.classes x.id x.caps)
    (hSlip : a.Slip subject? p q) : a.Hooked opened q := by
  refine h.tells hSubject ?_ hSlip.evolves fun id call => hSlip.told
  cases hSlip with
  | tell _ _ _ => exact h.backed

/-- The object that an attempt is made for has the hooks that the attempt needs. -/
theorem subject (h : a.Hooked s.opened p) {t : Attempt} (hDue : t.Due supplied s)
    (x : Subject) (hSubject : t.subject? = some x) :
    p.store.Honours a.library.classes x.id x.caps := by
  cases t with
  | root _ => cases hSubject
  | attributes id =>
    cases hSubject
    exact Store.honours_none
  | deliver id caps i | text id caps | child id caps | find id caps name =>
    cases hSubject
    obtain ⟨rest, rfl⟩ := hDue
    exact h.honoured _ List.mem_cons_self
  | append parent caps view =>
    cases hSubject
    obtain ⟨own, rest, rfl⟩ := hDue
    exact h.honoured (parent, caps) (by simp)

/-- An attempt that is due keeps to the hooks, however it ends. -/
theorem visit (h : a.Hooked s.opened v.before) (hLib : a.library.Known)
    (hDue : v.attempt.Due supplied s) : a.Hooked s.opened (v.run a).2 := by
  let I (p : Progress) : Prop := a.Hooked s.opened p ∧
    ∀ x, v.attempt.subject? = some x → p.store.Honours a.library.classes x.id x.caps
  have hKept : I (v.run a).2 := by
    refine v.keeps (I := I) ?_ ?_ ⟨h, h.subject hDue⟩
    · rintro p q ⟨hHooked, hSubject⟩ hMove
      exact ⟨hHooked.move hLib hSubject hMove, fun x hx => (hSubject x hx).evolves hMove.evolves⟩
    · rintro p q ⟨hHooked, hSubject⟩ hSlip
      exact ⟨hHooked.slip hSubject hSlip, fun x hx => (hSubject x hx).evolves hSlip.evolves⟩
  exact hKept.1

/-- An attempt that does not fail leads on to instances that have their hooks. -/
theorem next (h : a.Hooked s.opened v.before) (hLib : a.library.Known)
    (hcs : a.library.classes.Transitive) (hDue : v.attempt.Due supplied s)
    {answer : v.attempt.Answer} (hRun : v.run a = (.ok answer, q)) :
    a.Hooked (v.attempt.next s answer).opened q := by
  have hVisit : a.Hooked s.opened q := by
    have hKept := h.visit hLib hDue
    rwa [hRun] at hKept
  obtain ⟨spot, t, p⟩ := v
  cases t with
  | deliver _ _ _ | attributes _ | text _ _ | find _ _ _ => exact hVisit
  | append parent caps view => exact hVisit.mono fun _ => List.mem_of_mem_tail
  | root given =>
    exact hVisit.cons ((startRoot_honours hLib hcs h.backed spot.element given).ok hRun)
  | child parent caps =>
    have hMade := (start_honours hLib h.backed spot.element _).ok hRun
    cases answer with
    | none => exact hVisit
    | some made => exact hVisit.cons (hMade made rfl)

end Hooked

/-- Whatever is told along a build goes through a hook of its object, and all that is registered
then has the capabilities of its class. -/
theorem buildTree_heard (a : Assembly) (hLib : a.library.Known)
    (hcs : a.library.classes.Transitive) (root : Option ObjectId) (origin : Origin)
    (hBacked : p.registries.Backed a.library.classes) (hJournal : p.journal = []) :
    a.Hooked [] (a.buildTree root origin p).2 := by
  have hStart (loader : Loader) : a.Hooked [] { p with loader } := by
    refine ⟨hBacked, fun id call hTold => ?_, fun m hm => nomatch hm⟩
    have hNone : .told id call ∈ p.journal := hTold
    rw [hJournal] at hNone
    cases hNone
  rcases a.buildTree_invariant root origin (I := fun s => a.Hooked s.opened)
    hStart (fun h hDue hRun => h.next hLib hcs hDue hRun) with ⟨s, h⟩ | ⟨-, s, v, e, h, hDue, hRun⟩
  · exact h.mono (List.nil_subset _)
  · have hKept := h.visit hLib hDue
    rw [hRun] at hKept
    exact hKept.mono (List.nil_subset _)

end Assembly

/-! ## Classes without their hooks -/

namespace Assembly

variable {a : Assembly} {r : ObjectId} {cls : ClassId} {own : Capabilities} {hook : Hook}
  {p : Progress}

/-- For the element that stands for any root the capabilities of the class of the root are asked
for, which fails for a class without one of its hooks. -/
theorem rootInstance_of_missing {e : Element} (hReserved : e.name = rootName)
    (hClass : p.store.class? r = some cls)
    (hDeclared : a.library.classes.declaredCapabilities? cls = some own)
    (hUses : own.uses hook = true) (hMissing : a.library.classes.hook? cls hook = none) :
    ∃ failure, a.rootInstance e (some r) p = (.error failure, p) := by
  unfold rootInstance
  dsimp only
  rw [if_pos hReserved, run_bind, run_get]
  dsimp only
  rw [hClass]
  dsimp only
  cases hOwn : a.library.classes.capabilities cls with
  | error failure => exact ⟨.mistyped failure, rfl⟩
  | ok own' => exact absurd hOwn (Classes.capabilities_of_missing hDeclared hUses hMissing own')

/-- So a document for any root is not begun with. -/
theorem buildDocument_of_missing {d : Document} (hReserved : d.root.name = rootName)
    (hClass : p.store.class? r = some cls)
    (hDeclared : a.library.classes.declaredCapabilities? cls = some own)
    (hUses : own.uses hook = true) (hMissing : a.library.classes.hook? cls hook = none)
    (stack : List String) :
    ∃ failure, a.buildDocument stack d (some r) p = (.error failure, p) := by
  obtain ⟨failure, hRun⟩ := rootInstance_of_missing hReserved hClass hDeclared hUses hMissing
  have hRoot : a.startRoot d.root (some r) p = (.error failure, p) := run_bind_of_eq_error hRun
  have hStart : Building.within d.root.name (a.startRoot d.root (some r)) p =
      (.error (failure.withPath d.root.name), p) := by
    rw [Building.run_within, hRoot]
    rfl
  rw [run_buildDocument]
  exact ⟨_, run_bind_of_eq_error hStart⟩

/-- Nor is the tree of one, for which at most a document has been looked up. -/
theorem buildTree_of_missing {origin : Origin} {d : Document}
    (hOrigin : origin.Means (p.loader.document? a.files) d) (hReserved : d.root.name = rootName)
    (hClass : p.store.class? r = some cls)
    (hDeclared : a.library.classes.declaredCapabilities? cls = some own)
    (hUses : own.uses hook = true) (hMissing : a.library.classes.hook? cls hook = none) :
    ∃ failure loader, a.buildTree (some r) origin p = (.error failure, { p with loader }) := by
  cases origin with
  | given d' =>
    cases hOrigin
    obtain ⟨failure, hRun⟩ :=
      buildDocument_of_missing hReserved hClass hDeclared hUses hMissing []
    exact ⟨failure, p.loader, hRun⟩
  | named name =>
    let q : Progress := { p with loader := ((loadDocument a.files name).run p.loader).2 }
    have hLoad : Building.loading (loadDocument a.files name) p = (.ok d, q) :=
      Prod.ext (eq_ok_of_toOption_eq_some hOrigin) rfl
    obtain ⟨failure, hRun⟩ := buildDocument_of_missing (p := q) hReserved hClass hDeclared hUses
      hMissing [name]
    exact ⟨failure, _, (run_bind_of_eq_ok hLoad).trans hRun⟩

end Assembly

/-- A class that declares a capability without its hook is not built into: a build for the element
that stands for any root fails before it has done anything. -/
theorem Builder.outcome_of_missing (b : Builder) (owner : Option ObjectId) (origin : Origin)
    (w : World) {d : Document} {r : ObjectId} {cls : ClassId} {own : Capabilities} {hook : Hook}
    (hOrigin : origin.Means (w.loader.document? b.files) d)
    (hReserved : d.root.name = Assembly.rootName) (hClass : w.store.class? r = some cls)
    (hDeclared : b.library.classes.declaredCapabilities? cls = some own)
    (hUses : own.uses hook = true) (hMissing : b.library.classes.hook? cls hook = none) :
    ∃ e, (b.outcome owner (some r) origin w).1 = .error e ∧
      (b.outcome owner (some r) origin w).2.journal = [] ∧
      (b.outcome owner (some r) origin w).2.store = w.store := by
  let a : Assembly := { b with owner }
  obtain ⟨e, loader, hTree⟩ := Assembly.buildTree_of_missing (a := a) (p := { w with }) hOrigin
    hReserved hClass hDeclared hUses hMissing
  have hOutcome : b.outcome owner (some r) origin w = (.error e, { w with loader }) :=
    run_bind_of_eq_error hTree
  rw [hOutcome]
  exact ⟨e, rfl, rfl, rfl⟩

/-! ## Whatever has happened before -/

namespace Registries

open View.Catalog

/-- Classes and registries that can arise from the built-in ones: classes are defined on classes
that there are, registries are made and asked, with whatever modules there are by then, builders are
opened, and documents are built. What fails counts, too. -/
inductive Arises : Classes → Registries → Prop
  | start : Arises classes registries
  | define {cs cs' : Classes} {rs : Registries} {new : ClassId} {d : ClassDefinition} :
      Arises cs rs → cs.define d = .ok (new, cs') → (∀ b ∈ d.bases, (cs.get? b).isSome = true) →
      Arises cs' rs
  | addOver {cs : Classes} {rs : Registries} (parent : Option RegistryId) :
      Arises cs rs → Arises cs (rs.addOver parent).2
  | call {cs : Classes} {rs : Registries} {lib : Library} (on : RegistryId) {q : Request} :
      Arises cs rs → lib.classes = cs → lib.Known → q.Known cs →
      Arises cs ((lib.serve on q).run rs).2
  | opened {cs : Classes} {rs : Registries} (base : RegistryId)
      (namespaces : Table String Value) :
      Arises cs rs → Arises cs ((registryFor base namespaces).run rs).2
  | built {cs : Classes} {b : Builder} (owner root : Option ObjectId) (origin : Origin)
      {w : World} : Arises cs w.registries → b.library.classes = cs → b.library.Known →
      Arises cs (b.outcome owner root origin w).2.registries

/-- The built-in classes have what their bases have. -/
theorem transitive_classes : classes.Transitive :=
  Classes.transitive_of_forall_mem (by decide)

/-- The built-in components have the capabilities of their classes. -/
theorem backed_registries : registries.Backed classes := by
  have hFirst : ∀ e ∈ (registries.get 0).types, (classes.get? e.2.cls).isSome = true ∧
      (classes.capabilities e.2.cls).toOption = some e.2.capabilities := by decide +kernel
  intro r e he
  cases r with
  | zero =>
    obtain ⟨hThere, hCapabilities⟩ := hFirst e he
    exact ⟨hThere, eq_ok_of_toOption_eq_some hCapabilities⟩
  | succ r =>
    rw [get_of_size_le (Nat.succ_le_succ (Nat.zero_le r))] at he
    cases he

variable {cs : Classes} {rs : Registries}

private theorem registerNamespaces_treads (on : RegistryId) (entries : List (String × Value)) :
    Treads (Move cs) (Move cs) (registerNamespaces on entries) := by
  induction entries with
  | nil => exact .ofPure
  | cons entry rest ih => exact (Library.registerNamespace_treads entry.2).bind fun _ => ih

/-- A builder that is opened registers nothing. -/
theorem Backed.registryFor (h : rs.Backed cs) (base : RegistryId)
    (namespaces : Table String Value) :
    ((registryFor base namespaces).run rs).2.Backed cs := by
  have hOver := h.addOver (some base)
  unfold ViewMarkup.registryFor
  split
  · exact h
  · rw [run_eq, run_bind, run_get]
    dsimp only
    rw [run_bind]
    exact hOver.treads ((registerNamespaces_treads _ namespaces).bind fun _ => .ofPure)

/-- What holds of all classes and registries that can arise. -/
theorem Arises.sound (h : Arises cs rs) : cs.Complete ∧ cs.Transitive ∧ rs.Backed cs := by
  induction h with
  | start => exact ⟨View.complete_classes, transitive_classes, backed_registries⟩
  | define _ hDefine hBases ih =>
    obtain ⟨hComplete, hTrans, hBacked⟩ := ih
    exact ⟨hComplete.define hDefine hBases, .define hComplete hTrans hDefine hBases,
      hBacked.extends hComplete (Classes.define_extends hDefine)⟩
  | addOver parent _ ih => exact ⟨ih.1, ih.2.1, ih.2.2.addOver parent⟩
  | call on _ hClasses hLib hq ih =>
    subst hClasses
    exact ⟨ih.1, ih.2.1, ih.2.2.serve hLib hq on⟩
  | opened base namespaces _ ih => exact ⟨ih.1, ih.2.1, ih.2.2.registryFor base namespaces⟩
  | @built _ b owner root origin w _ hClasses hLib ih =>
    subst hClasses
    obtain ⟨hComplete, hTrans, hBacked⟩ := ih
    refine ⟨hComplete, hTrans, ?_⟩
    have hHooked := Assembly.buildTree_heard { b with owner } hLib hTrans root origin
      (p := { w with }) hBacked rfl
    rcases b.outcome_state owner root origin w with ⟨-, hState⟩ | ⟨-, hState⟩ <;> rw [hState]
    · exact hHooked.backed
    · exact hHooked.backed

end Registries

namespace Sample

/-- A class of views that say that they take text, and have no hook for it. -/
def mute : ClassDefinition where
  name := "Mute"
  bases := [View.Catalog.viewClass]
  declared := some (.capabilities { text := true, append := .multi })

/-- The built-in classes with this one behind them. -/
def muteClasses : Classes := ((View.Catalog.classes.define mute).toOption.map (·.2)).getD {}

/-- A builder for these classes. -/
def viewBuilder : Builder := { library := { classes := muteClasses } }

/-- A document that puts a label into whatever view is supplied. -/
def filled : Document where
  root := .mk "root" [] [.mk "Label" [] [] [] [] ""] [] [] ""

end Sample

end ViewMarkup
