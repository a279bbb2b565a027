import ViewMarkup.Proofs.Build.Altered
import ViewMarkup.Proofs.Build.Commit
import ViewMarkup.Proofs.Build.Nesting
import ViewMarkup.Proofs.Build.Renumbered
import ViewMarkup.Proofs.Build.Sample

/-!
# Documents without outlets and bindings

Outlets and bindings are for the owner. If they are taken out of the elements that stand for
components, what is left is built into the same objects by the same steps: while the tree is built
they are only noted down, and a commit changes nothing but the owner and the bindings.

But what is noted down as an outlet is kept alive. Without outlets an object may be gone before the
build ends, and leave its identity number to another one. So the two builds are not under the same
numbers, and the second one stops where the views of both objects are counted as those of one that
takes a single view.

## Main results

* `Assembly.takeAttributes_bare` — the properties of an element are assigned in the same way.
* `Builder.outcome_unowed` — a document that can be built can be built without outlets and bindings
  under the same numbers, with the same objects and steps.
* `Builder.outcome_bare` — so it can under others, exactly if objects that take a single view have
  not the number of one that was given a view before.
* `Builder.outcome_bare_tray` — some of them may have it.
-/

namespace ViewMarkup

open Text

/-! ## Bare documents -/

namespace Element

mutual

/-- The element without outlets and bindings on what stands for components, as far as this is known
of a name. -/
def bare (s : Settings) (component : String → Bool) : Element → Element
  | .mk name attributes children leading trailing text =>
    .mk name (if component name then s.properties attributes else attributes)
      (bareOfList s component children) leading trailing text

/-- Some elements without outlets and bindings. -/
def bareOfList (s : Settings) (component : String → Bool) : List Element → List Element
  | [] => []
  | e :: es => bare s component e :: bareOfList s component es

end

/-- The root element of a document without outlets and bindings. A root has an instance, whatever
its name is. -/
def bareRoot (s : Settings) (component : String → Bool) : Element → Element
  | .mk name attributes children leading trailing text =>
    .mk name (s.properties attributes) (bareOfList s component children) leading trailing text

end Element

/-- The document without outlets and bindings. -/
def Document.bare (s : Settings) (component : String → Bool) (d : Document) : Document :=
  { d with root := d.root.bareRoot s component }

/-- To have nothing left but the properties. -/
def Settings.Bares (s : Settings) (attributes attributes' : Table String String) : Prop :=
  attributes' = s.properties attributes

namespace Element

variable {s : Settings} {component : String → Bool}

mutual

theorem bare_alters : ∀ e : Element,
    e.Alters component s.Bares (component e.name) (e.bare s component)
  | .mk name attributes children leading trailing text => by
    refine .mk ?_ (bareOfList_alters children)
    cases hName : component name with
    | true => simp [Element.name, hName, Settings.Bares]
    | false => simp [Element.name, hName]

private theorem bareOfList_alters : ∀ es : List Element,
    List.Forall₂ (fun e e' => e.Alters component s.Bares (component e.name) e') es
      (bareOfList s component es)
  | [] => .nil
  | e :: es => .cons (bare_alters e) (bareOfList_alters es)

end

private theorem bareRoot_alters (e : Element) :
    e.Alters component s.Bares true (e.bareRoot s component) := by
  cases e with
  | mk name attributes children leading trailing text => exact .mk rfl (bareOfList_alters children)

end Element

/-! ## Bare attributes -/

namespace Settings

variable {s : Settings} {attributes : Table String String}

theorem isProperty_of_mem_properties {entry : String × String}
    (h : entry ∈ s.properties attributes) : s.isProperty entry.1 = true :=
  (List.mem_filter.1 h).2

private theorem properties_properties :
    s.properties (s.properties attributes) = s.properties attributes :=
  List.filter_eq_self.2 fun _ h => isProperty_of_mem_properties h

private theorem outlet?_properties : s.outlet? (s.properties attributes) = none := by
  have hNone : Table.get? (s.properties attributes).reverse s.outletAttribute = none := by
    refine Table.get?_eq_none_iff.2 fun hMem => ?_
    obtain ⟨entry, hEntry, hKey⟩ := List.mem_map.1 hMem
    have hProperty := isProperty_of_mem_properties (List.mem_reverse.1 hEntry)
    simp [isProperty, hKey] at hProperty
  rw [outlet?, hNone]
  rfl

private theorem binds_properties : s.binds (s.properties attributes) = [] := by
  refine List.filterMap_eq_nil_iff.2 fun entry hEntry => ?_
  have hProperty := isProperty_of_mem_properties hEntry
  simp only [isProperty, Bool.and_eq_true, Bool.not_eq_true', decide_eq_true_eq] at hProperty
  simp [boundPath?, hProperty.2]

end Settings

/-! ## Building -/

/-- Builds that differ in nothing but what is owed, of which the second one has nothing. -/
def Margin.unowed (cs : Classes) : Margin cs where
  store := Eq
  journal := Eq
  owed _ _ outlets links := outlets = [] ∧ links = []
  unseen := Store.unseen_eq cs
  noted _ h := h ▸ rfl

namespace Assembly

variable {a : Assembly} {rs : Registries} {docs docs' : String → Option Document} {id : ObjectId}

/-- Without outlets and bindings, the attributes of an element are its properties. -/
theorem takeAttributes_properties (attributes : Table String String) :
    a.takeAttributes id (a.settings.properties attributes) =
      (a.settings.properties attributes).forM (a.assignProperty id) := by
  rw [takeAttributes_eq, Settings.properties_properties, Settings.outlet?_properties,
    Settings.binds_properties]
  exact bind_pure _

/-- The attributes of an element can be taken in without outlets and bindings, with the same
effect on its instance. -/
theorem takeAttributes_bare (attributes : Table String String) :
    (Comparison.ofSuccess (Progress.Beside a (.unowed _) rs docs docs')).Agrees Eq
      (a.takeAttributes id attributes)
      (a.takeAttributes id (a.settings.properties attributes)) := by
  have hFramed : Framed Eq (Progress.Beside a (.unowed _) rs docs docs') :=
    (Progress.Beside.counting (m := .unowed _)).toFramed
  have hAssign : Alike (Progress.Beside a (.unowed _) rs docs docs')
      ((a.settings.properties attributes).forM (a.assignProperty id))
      ((a.settings.properties attributes).forM (a.assignProperty id)) :=
    .forM (hFramed.assignProperty Progress.Beside.assign) _
  have hNote : (Comparison.ofSuccess (Progress.Beside a (.unowed _) rs docs docs')).Agrees Eq
      (do
        (a.settings.outlet? attributes).toList.forM (a.addOutlet id)
        (a.settings.binds attributes).forM fun bind => a.addLink id bind.1 bind.2)
      (pure ()) := by
    intro p q hState
    have hNotes := a.takeRequests_yields id attributes p
    cases hRun : (do
        (a.settings.outlet? attributes).toList.forM (a.addOutlet id)
        (a.settings.binds attributes).forM fun bind => a.addLink id bind.1 bind.2) p with
    | mk answer p' =>
      cases answer with
      | error e => exact .failed trivial
      | ok _ =>
        obtain ⟨-, rfl⟩ := hNotes.ok hRun
        exact .ok rfl { hState with }
  rw [takeAttributes_properties, takeAttributes_eq]
  have hBoth := (Comparison.Agrees.ofAlike (c := .ofSuccess _) hAssign).bind fun _ _ _ => hNote
  rwa [bind_pure_unit] at hBoth

/-- The trees of documents with and without outlets and bindings are built in lockstep. -/
theorem buildTree_bare {d : Document} {p q : Progress}
    (hState : Progress.Beside a (.unowed _) rs docs docs' p q)
    (hIncluded : ∀ n ∈ d.root.included, ∀ name, Relation.ReflTransGen (Includes docs) n name →
      docs' name =
        (docs name).map (Document.bare a.settings (a.library.knows a.registry rs)))
    (root : Option ObjectId) :
    (Comparison.ofSuccess (Progress.Beside a (.unowed _) rs docs docs')).Meets Eq
      (a.buildTree root (.given d) p)
      (a.buildTree root (.given (d.bare a.settings (a.library.knows a.registry rs))) q) := by
  have hWithin : (Comparison.ofSuccess (Progress.Beside a (.unowed _) rs docs docs')).Within
      (Progress.Beside a (.unowed _) rs docs docs') := ⟨Iff.rfl, fun _ _ _ _ => trivial⟩
  have hBelow : d.root.Below (Document.Alters a rs a.settings.Bares) docs docs' := by
    intro n hn name hLeads
    rw [hIncluded n hn name hLeads]
    cases docs name with
    | none => exact .none
    | some other => exact .some (Element.bareRoot_alters other.root)
  refine (altered_lockstep (P := fun _ => True) hWithin ?_).buildTree_given root
    ⟨rfl, Element.bareRoot_alters d.root, hBelow⟩ hState fun _ _ => trivial
  rintro spot _ id p q rfl hState -
  exact takeAttributes_bare spot.element.attributes p q hState

end Assembly

namespace Sample

/-- A document with an outlet and a binding of its own, which also has a raw element. -/
def labelled : Document where
  root := .mk "Panel" [("id", "main"), ("bind.text", "title")]
    [.mk "rule" [("id", "thin")] [] [] [] ""] [] [⟨"include", "label"⟩] ""

/-- The document that it includes. -/
def label : Document where
  root := .mk "Panel" [("id", "label"), ("bind.text", "title")] [] [] [] " aside "

/-- Trays do nothing with what is put on them. -/
def trayClass : ComponentClass where
  name := "Tray"
  lineage := [2]
  properties := some []
  declared := some (.capabilities { append := .multi })
  hooks := [(.append, .restrictPlatforms)]
  starts := []

/-- A builder that knows panels, slots and trays. -/
def trays : Builder := { library := { classes := { all := #[panel, slot, trayClass] } } }

/-- A tray with two slots, which have a panel each. The owner is to get the first one. -/
def tray : Document where
  root := .mk "Tray" []
    [.mk "Slot" [("id", "main")] [.mk "Panel" [] [] [] [] ""] [] [] "",
      .mk "Slot" [] [.mk "Panel" [] [] [] [] ""] [] [] ""] [] [] ""

/-- The same without the outlet. -/
def bareTray : Document where
  root := .mk "Tray" []
    [.mk "Slot" [] [.mk "Panel" [] [] [] [] ""] [] [] "",
      .mk "Slot" [] [.mk "Panel" [] [] [] [] ""] [] [] ""] [] [] ""

/-- What is left of the document without outlets and bindings. -/
def unlabelled : Document where
  root := .mk "Panel" [] [.mk "rule" [("id", "thin")] [] [] [] ""] [] [⟨"include", "label"⟩] ""

/-- A world with an owner for outlets and bindings of these documents. -/
def labelWorld : World where
  store.objects := #[{
    type := .host "Owner" [] true
    fields := [("main", .none), ("label", .none), ("title", .text "hello")] }]
  registries := world.registries
  loader := .tables [] [] [("label", .parsed label)]

/-- A world with the same owner, where trays are registered. -/
def trayWorld : World where
  store := labelWorld.store
  registries := { all := #[{ types := [("Panel", ⟨"Panel", 0, none, capabilities⟩),
    ("Slot", ⟨"Slot", 1, none, slotCapabilities⟩),
    ("Tray", ⟨"Tray", 2, none, { append := .multi }⟩)] }] }

/-- The same world, where the fifth object gets the number of the third one. -/
def reusedWorld : World := { trayWorld with number := fun id => if id = 4 then 2 else id }

end Sample

namespace Builder

/-- A document that can be built for an owner can be built without outlets and bindings, into the
same objects and by the same steps, if objects have the same numbers. What the owner is given is all
that is missing. -/
theorem outcome_unowed (b : Builder) (owner : ObjectId) (root : Option ObjectId) (d : Document)
    (w : World) (loader : Loader) (hAgrees : w.loader.Agrees b.files loader)
    (hIncluded : ∀ n ∈ d.root.included, ∀ name,
      Relation.ReflTransGen (Includes (w.loader.document? b.files)) n name →
        loader.document? b.files name = (w.loader.document? b.files name).map
          (Document.bare b.settings (b.library.knows b.registry w.registries)))
    {view : ObjectId} {p : Progress}
    (hDone : b.outcome (some owner) root (.given d) w = (.ok view, p)) :
    ∃ q, b.outcome (some owner) root
        (.given (d.bare b.settings (b.library.knows b.registry w.registries))) { w with loader } =
          (.ok view, q) ∧
      q.journal = p.journal ∧ p.store = q.store.setOutlets owner p.outlets ∧
      (∀ id, id ≠ owner → q.store.get? id = p.store.get? id) ∧ q.bindings = w.bindings := by
  let a : Assembly := { b with owner := some owner }
  have hStart : Progress.Beside a (.unowed _) w.registries (w.loader.document? b.files)
      (loader.document? b.files) { w with } { w with loader } :=
    ⟨rfl, rfl, ⟨rfl, rfl⟩, rfl, rfl, rfl, fun _ => rfl, fun _ => rfl, fun _ => rfl, hAgrees⟩
  obtain ⟨p', hTree, hCommit⟩ := Assembly.run_build_eq_ok_iff.1 hDone
  have hMeets := a.buildTree_bare hStart hIncluded root
  rw [hTree] at hMeets
  obtain ⟨_, q, hTree', rfl, hBeside⟩ := hMeets.exists_of_ok
  obtain rfl := (Assembly.commit_done (a := a) rfl p').ok hCommit
  have hNothing : a.commit q = (.ok (), q) := by
    have hRun : a.commit q = (do
        a.commitOutlets owner q.outlets
        a.commitLinks (← get).links) q := rfl
    rw [hRun, hBeside.owed.1]
    exact congrArg (a.commitLinks · q) hBeside.owed.2
  refine ⟨q, Assembly.run_build_eq_ok_iff.2 ⟨q, hTree', hNothing⟩, hBeside.journal.symm, ?_, ?_, ?_⟩
  · exact congrArg (Store.setOutlets · owner p'.outlets) hBeside.store
  · intro id hNe
    rw [← hBeside.store]
    exact (Store.get?_setOutlets_ne hNe _).symm
  · have hReady : ({ w with } : Progress).Ready fun _ => True :=
      ⟨w.store.closed_univ, fun _ _ => trivial⟩
    obtain ⟨_, hExt, -⟩ := (Assembly.buildTree_yields (a := a) b.library.classes.covered_univ hReady
      (fun _ _ => trivial) (.given d)).ok hTree
    exact hBeside.bindings.trans hExt.bindings

/-- A document that can be built for an owner can be built without outlets and bindings, whatever
numbers objects have then, exactly if no object that takes a single view has the number of another
one that was given a view before. Then it is built into the same objects and by the same steps: what
the owner is given is all that is missing. -/
theorem outcome_bare (b : Builder) (owner : ObjectId) (root : Option ObjectId) (d : Document)
    (w : World) (loader : Loader) (number : ObjectId → Identity)
    (hAgrees : w.loader.Agrees b.files loader)
    (hIncluded : ∀ n ∈ d.root.included, ∀ name,
      Relation.ReflTransGen (Includes (w.loader.document? b.files)) n name →
        loader.document? b.files name = (w.loader.document? b.files name).map
          (Document.bare b.settings (b.library.knows b.registry w.registries)))
    {view : ObjectId} {p : Progress}
    (hDone : b.outcome (some owner) root (.given d) w = (.ok view, p)) :
    let a : Assembly := { b with owner := some owner }
    let bare := d.bare b.settings (b.library.knows b.registry w.registries)
    let w' : World := { w with loader, number }
    ((∃ view' q, b.outcome (some owner) root (.given bare) w' = (.ok view', q)) ↔
      ∀ v ∈ (a.tourTree root (.given bare) ⟨{ w' with }, []⟩).2.visits, v.TakesAlone a number) ∧
      ∀ view' q, b.outcome (some owner) root (.given bare) w' = (.ok view', q) →
        view' = view ∧ q.journal = p.journal ∧ p.store = q.store.setOutlets owner p.outlets ∧
          (∀ id, id ≠ owner → q.store.get? id = p.store.get? id) ∧ q.bindings = w.bindings := by
  intro a bare w'
  -- Without outlets, too, there is a build under numbers that are all different.
  have hFirst := outcome_renumbered (outcome_takesAlone hDone)
  rw [hDone] at hFirst
  obtain ⟨_, p₀, hLabelled, rfl, hSame⟩ := hFirst.exists_of_ok
  obtain ⟨_, rfl⟩ := hSame.same
  obtain ⟨q₀, hBare, hJournal, hStore, hOthers, hBindings⟩ :=
    b.outcome_unowed owner root d { w with number := id } loader hAgrees hIncluded hLabelled
  have hDifferent : b.outcome (some owner) root (.given bare) { w' with number := id } =
      (.ok view, q₀) := hBare
  refine ⟨⟨?_, fun hAlone => ?_⟩, fun view' q hRun => ?_⟩
  · rintro ⟨_, _, hRun⟩
    exact outcome_takesAlone hRun
  · have hSecond := outcome_renumbered (w := w') hAlone
    rw [hDifferent] at hSecond
    obtain ⟨view', q, hRun, -⟩ := hSecond.exists_of_second
    exact ⟨view', q, hRun⟩
  · have hSecond := outcome_renumbered (w := w') (outcome_takesAlone hRun)
    rw [hRun, hDifferent] at hSecond
    obtain ⟨_, _, hEnd, rfl, hSame'⟩ := hSecond.exists_of_ok
    cases hEnd
    obtain ⟨_, rfl⟩ := hSame'.same
    exact ⟨rfl, hJournal, hStore, hOthers, hBindings⟩

/-- The labelled page is built with and without its outlets and bindings. Its raw element keeps an
attribute with the name that is used for outlets. -/
theorem outcome_bare_labelled : ∃ p q,
    Sample.builder.outcome (some 0) none (.given Sample.labelled) Sample.labelWorld = (.ok 1, p) ∧
      p.outlets = [("main", 1), ("label", 2)] ∧
      Sample.builder.outcome (some 0) none (.given Sample.unlabelled)
        { Sample.labelWorld with
          loader := .tables [] [] [("label", .parsed Sample.side)], number := (8 * ·) } =
          (.ok 1, q) ∧
      q.journal = p.journal ∧ ∀ id, id ≠ 0 → q.store.get? id = p.store.get? id := by
  have hView : (Sample.builder.outcome (some 0) none (.given Sample.labelled)
      Sample.labelWorld).1.toOption = some 1 := by decide +kernel
  have hOutlets : (Sample.builder.outcome (some 0) none (.given Sample.labelled)
      Sample.labelWorld).2.outlets = [("main", 1), ("label", 2)] := by decide +kernel
  have hRule : Sample.builder.library.knows Sample.builder.registry Sample.labelWorld.registries
      "rule" = false := by decide +kernel
  have hProperties : Sample.builder.settings.properties [("id", "main"), ("bind.text", "title")] =
      [] := by decide +kernel
  have hProperties' : Sample.builder.settings.properties
      [("id", "label"), ("bind.text", "title")] = [] := by decide +kernel
  have hBare : Sample.labelled.bare Sample.builder.settings (Sample.builder.library.knows
      Sample.builder.registry Sample.labelWorld.registries) = Sample.unlabelled := by
    simp [Sample.labelled, Sample.unlabelled, Document.bare, Element.bareRoot,
      Element.bareOfList, Element.bare, hRule, hProperties]
  have hBareLabel : Sample.label.bare Sample.builder.settings (Sample.builder.library.knows
      Sample.builder.registry Sample.labelWorld.registries) = Sample.side := by
    simp [Sample.label, Sample.side, Document.bare, Element.bareRoot, Element.bareOfList,
      hProperties']
  have hIncluded (name : String) :
      (Loader.tables [] [] [("label", .parsed Sample.side)]).document? Sample.builder.files name =
        (Sample.labelWorld.loader.document? Sample.builder.files name).map
          (Document.bare Sample.builder.settings (Sample.builder.library.knows
            Sample.builder.registry Sample.labelWorld.registries)) := by
    have hLoader : Sample.labelWorld.loader = .tables [] [] [("label", .parsed Sample.label)] := rfl
    rw [hLoader, document?_tables, document?_tables]
    by_cases hName : name = "label"
    · subst hName
      exact congrArg some hBareLabel.symm
    · simp [Table.get?, Ne.symm hName]
  cases h : Sample.builder.outcome (some 0) none (.given Sample.labelled) Sample.labelWorld with
  | mk answer p =>
    rw [h] at hView hOutlets
    obtain rfl : answer = .ok 1 := eq_ok_of_toOption_eq_some hView
    obtain ⟨hBuilt, hSame⟩ := outcome_bare Sample.builder 0 none Sample.labelled Sample.labelWorld
      (.tables [] [] [("label", .parsed Sample.side)]) (8 * ·) ⟨rfl, fun _ => rfl⟩
      (fun _ _ name _ => hIncluded name) h
    have hInjective : Function.Injective (8 * · : ObjectId → Identity) :=
      fun _ _ hEq => Nat.eq_of_mul_eq_mul_left (by decide) hEq
    obtain ⟨view, q, hDone⟩ := hBuilt.2 fun _ _ _ _ _ _ => .of_injective hInjective _ _
    obtain ⟨rfl, hJournal, -, hStore, -⟩ := hSame view q hDone
    rw [hBare] at hDone
    exact ⟨p, q, rfl, hOutlets, hDone, hJournal, hStore⟩

/-- The tray is built with its outlet. Without it nothing refers to the first slot any more when the
second one is made. If that has its number then, it is refused its only panel. -/
theorem outcome_bare_tray :
    (Sample.trays.outcome (some 0) none (.given Sample.tray) Sample.trayWorld).1.toOption = some 1 ∧
      Sample.tray.bare Sample.trays.settings (Sample.trays.library.knows Sample.trays.registry
        Sample.trayWorld.registries) = Sample.bareTray ∧
      (Sample.trays.outcome (some 0) none (.given Sample.bareTray)
        Sample.reusedWorld).2.journal =
          [.made 1, .made 2, .made 3, .told 2 (.append 3), .told 1 (.append 2), .made 4] ∧
      (Sample.trays.outcome (some 0) none (.given Sample.bareTray)
        Sample.reusedWorld).2.store.isAlive [0, 1, 4] 2 = false ∧
      (failure? (Sample.trays.outcome (some 0) none (.given Sample.bareTray)
        Sample.reusedWorld).1).bind Failure.told? =
          some ("Slot accepts a single child view", some "Tray/Slot[1]/Panel[0]") := by
  have hSlot : Sample.trays.library.knows Sample.trays.registry Sample.trayWorld.registries
      "Slot" = true := by decide +kernel
  have hPanel : Sample.trays.library.knows Sample.trays.registry Sample.trayWorld.registries
      "Panel" = true := by decide +kernel
  have hNone : Sample.trays.settings.properties [] = [] := rfl
  have hMain : Sample.trays.settings.properties [("id", "main")] = [] := by decide +kernel
  refine ⟨by decide +kernel, ?_, by decide +kernel, by decide +kernel, by decide +kernel⟩
  simp [Sample.tray, Sample.bareTray, Document.bare, Element.bareRoot, Element.bareOfList,
    Element.bare, hPanel, hSlot, hNone, hMain]

end Builder
end ViewMarkup
