import Mathlib.Logic.Relation
import ViewMarkup.Proofs.Build.DocumentsAtHand
import ViewMarkup.Proofs.Build.Lockstep
import ViewMarkup.Proofs.Component.Ahead

/-!
# Documents with altered attributes

Two documents may be the same but for the attributes of elements that stand for components. Raw
elements are handed over with their attributes, so these stay as they are. Which names stand for
components is settled before the build: looking names up does not change it.

The builds of such documents go on in lockstep if attributes are taken in as compared. How far the
states may come apart by that is said by a `Margin`: in what objects do not see of each other, in
the journal, and in what is owed to the owner.

## Main results

* `Progress.Beside.counting` — whatever is done to single objects leaves states within the margin.
* `altered_lockstep` — documents with altered attributes are built in lockstep.
-/

namespace ViewMarkup

open Text

/-! ## Altered elements -/

/-- Two elements with the same names, instructions and texts. Attributes of components may be
altered as given; whether the outermost elements count as such is given, too. -/
inductive Element.Alters (component : String → Bool)
    (altered : Table String String → Table String String → Prop) : Bool → Element → Element → Prop
  | mk {own : Bool} {name : String} {attributes attributes' : Table String String}
      {children children' : List Element} {leading trailing : List Instruction} {text : String} :
      (if own then altered attributes attributes' else attributes' = attributes) →
      List.Forall₂ (fun c c' => Alters component altered (component c.name) c c')
        children children' →
      Alters component altered own (.mk name attributes children leading trailing text)
        (.mk name attributes' children' leading trailing text)

namespace Element.Alters

variable {component : String → Bool} {altered : Table String String → Table String String → Prop}
  {own : Bool} {e e' : Element}

private theorem shape (h : Alters component altered own e e') :
    e'.name = e.name ∧ e'.leading = e.leading ∧ e'.trailing = e.trailing ∧ e'.text = e.text ∧
      List.Forall₂ (fun c c' => Alters component altered (component c.name) c c')
        e.children e'.children := by
  cases h with
  | mk _ hChildren => exact ⟨rfl, rfl, rfl, rfl, hChildren⟩

private theorem attributes_eq (h : Alters component altered false e e') :
    e'.attributes = e.attributes := by
  cases h with
  | mk hAttributes _ => exact hAttributes

private theorem attributes (h : Alters component altered true e e') :
    altered e.attributes e'.attributes := by
  cases h with
  | mk hAttributes _ => exact hAttributes

end Element.Alters

/-! ## Margins -/

/-- How far two builds may come apart: in their objects, as long as these see no difference, in
their journals, as long as steps may be added, and in what is owed to the owner. -/
structure Margin (cs : Classes) where
  store : Store → Store → Prop
  journal : List Step → List Step → Prop
  owed : List (String × ObjectId) → List Binding → List (String × ObjectId) → List Binding → Prop
  unseen : Store.Unseen cs store
  noted {js js' : List Step} (step : Step) : journal js js' → journal (js ++ [step]) (js' ++ [step])

/-- Two builds that have come equally far within a margin. They know the same names as some
registries, and have documents that correspond. -/
structure Progress.Beside (a : Assembly) (m : Margin a.library.classes) (rs : Registries)
    (docs docs' : String → Option Document) (p q : Progress) : Prop where
  store : m.store p.store q.store
  journal : m.journal p.journal q.journal
  owed : m.owed p.outlets p.links q.outlets q.links
  tally : q.tally = p.tally
  bindings : q.bindings = p.bindings
  registries : q.registries = p.registries
  knows (name : String) :
    a.library.knows a.registry p.registries name = a.library.knows a.registry rs name
  has : p.Has a.files docs
  has' : q.Has a.files docs'
  agrees : p.loader.Agrees a.files q.loader

namespace Progress.Beside

variable {a : Assembly} {m : Margin a.library.classes} {rs : Registries}
  {docs docs' : String → Option Document}

theorem counting : Counting m.store (Beside a m rs docs docs') where
  store h := h.store
  tally h := h.tally
  withStore h hStore := { h with store := hStore }
  withAppended _ h := { h with tally := congrArg (Prod.mk _) (Prod.mk.inj h.tally).2 }
  noted step h := { h with journal := m.noted step h.journal }

/-- A name is looked up with the same answer, and no other names are known then. -/
theorem resolve (name : String) :
    Alike (Beside a m rs docs docs') (Building.registering (a.library.resolve a.registry name))
      (Building.registering (a.library.resolve a.registry name)) := by
  intro p q h
  have hRun (p : Progress) : Building.registering (a.library.resolve a.registry name) p =
      (((a.library.resolve a.registry name).run p.registries).1,
        { p with registries := ((a.library.resolve a.registry name).run p.registries).2 }) := rfl
  rw [hRun p, hRun q, h.registries]
  refine ⟨rfl, { h with registries := rfl, knows := fun other => ?_ }⟩
  rw [a.library.knows_resolve, h.knows]

/-- A document is read on both sides. -/
theorem load {p q : Progress} (h : Beside a m rs docs docs' p q) (name : String) :
    Beside a m rs docs docs' (Building.loading (loadDocument a.files name) p).2
      (Building.loading (loadDocument a.files name) q).2 where
  __ := h
  has other := (document?_run_loadDocument a.files name other p.loader).trans (h.has other)
  has' other := (document?_run_loadDocument a.files name other q.loader).trans (h.has' other)
  agrees := (Loader.Agrees.loadDocument a.files name p.loader).symm.trans
    (h.agrees.trans (.loadDocument a.files name q.loader))

/-- Strings and images are the same, and reading them changes nothing about the documents. -/
theorem sameValues (fs : Files) (docs docs' : String → Option Document) :
    Loader.SameValues fs fs fun l l' =>
      (∀ name, l.document? fs name = docs name) ∧
        (∀ name, l'.document? fs name = docs' name) ∧ l.Agrees fs l' where
  strings h := h.2.2.strings
  image name h := h.2.2.image name
  read {l l'} h := ⟨fun name => (document?_run_loadStrings fs name l).trans (h.1 name),
    fun name => (document?_run_loadStrings fs name l').trans (h.2.1 name),
    (Loader.Agrees.sameValues fs).read h.2.2⟩

/-- A value is fetched alike. -/
theorem assign (sc : Scene) (target : Value) (name raw : String) :
    Alike (Beside a m rs docs docs')
      (Building.fetching (sc.assign a.decoder a.files target name raw))
      (Building.fetching (sc.assign a.decoder a.files target name raw)) := by
  have hSame := sameValues a.files docs docs'
  exact .ofFetching (sc.assign_alike _ hSame _ _ _) (fun h => ⟨h.has, h.has', h.agrees⟩)
    fun h hNext => { h with has := hNext.1, has' := hNext.2.1, agrees := hNext.2.2 }

end Progress.Beside

/-! ## Starting children -/

/-- A child that has an instance has a name that is known. -/
theorem Assembly.knows_of_run_start {a : Assembly} {parent : ObjectId} {caps : Capabilities}
    {e : Element} {leading : List Instruction} {p p' : Progress} {made : ObjectId × Capabilities}
    (h : a.start parent caps e leading p = (.ok (some made), p')) :
    a.library.knows a.registry p.registries e.name = true := by
  obtain ⟨c?, q, hFound, hRest⟩ := exists_of_run_bind_eq_ok h
  have hAnswer : ((a.library.resolve a.registry e.name).run p.registries).1 = .ok c? := by
    rw [componentOf_eq] at hFound
    exact congrArg Prod.fst hFound
  cases c? with
  | some c =>
    rw [Library.knows, hAnswer]
  | none =>
    dsimp only at hRest
    split at hRest
    · cases hRest
    · obtain ⟨_, _, -, hRest⟩ := exists_of_run_bind_eq_ok hRest
      obtain ⟨_, _, -, hRest⟩ := exists_of_run_bind_eq_ok hRest
      cases hRest

/-! ## Lockstep -/

/-- The documents that an element leads to correspond. -/
def Element.Below (R : Document → Document → Prop) (docs docs' : String → Option Document)
    (e : Element) : Prop :=
  ∀ n ∈ e.included, ∀ m, Relation.ReflTransGen (Includes docs) n m → Option.Rel R (docs m) (docs' m)

private theorem Element.Below.push {R : Document → Document → Prop}
    {docs docs' : String → Option Document}
    {e : Element} (h : e.Below R docs docs') {n : String} (hn : n ∈ e.included) {d : Document}
    (hFound : docs n = some d) : d.root.Below R docs docs' :=
  fun _ hm x hLeads => h n hn x (.head ⟨d, hFound, hm⟩ hLeads)

/-- Whether an element counts as one that stands for a component: roots do, and so does what has
its own instance. -/
def Seat.counts (component : String → Bool) (e : Element) : Seat → Bool
  | .child => component e.name
  | .root | .own => true

/-- Where the first build fails, the second one may do so, too, in any way. -/
structure Comparison.Within (c : Comparison) (R : Progress → Progress → Prop) : Prop where
  state {p q : Progress} : c.state p q ↔ R p q
  failed (e e' : Failure) (p q : Progress) : c.failed e p (some e') q

private theorem Comparison.Within.agrees {α : Type} {c : Comparison}
    {R : Progress → Progress → Prop}
    (h : c.Within R) {x y : Building α} (hAlike : Alike R x y) : c.Agrees Eq x y :=
  .ofAlike fun p q hState =>
    (hAlike p q (h.state.1 hState)).imp_right h.state.2

section

variable {a : Assembly} {m : Margin a.library.classes} {rs : Registries}
  {docs docs' : String → Option Document}
  {altered : Table String String → Table String String → Prop} {c : Comparison}
  {P : Visit → Prop}

/-- Documents with altered attributes. -/
abbrev Document.Alters (a : Assembly) (rs : Registries)
    (altered : Table String String → Table String String → Prop) (d d' : Document) : Prop :=
  d.root.Alters (a.library.knows a.registry rs) altered true d'.root

variable (hc : c.Within (Progress.Beside a m rs docs docs'))
  (hAttributes : ∀ {spot : Place} {attributes' : Table String String} {id : ObjectId}
    {p q : Progress}, altered spot.element.attributes attributes' →
    Progress.Beside a m rs docs docs' p q → P ⟨spot, .attributes id, p⟩ →
    c.Meets Eq (a.takeAttributes id spot.element.attributes p) (a.takeAttributes id attributes' q))

include hc in
/-- A document is found if the other one is, and they correspond. -/
theorem load_altered {R : Document → Document → Prop} {name : String}
    (h : Option.Rel R (docs name) (docs' name)) :
    c.Agrees (fun d d' => R d d' ∧ docs name = some d)
      (Building.loading (loadDocument a.files name))
      (Building.loading (loadDocument a.files name)) := by
  intro p q hState
  have hBeside := hc.state.1 hState
  have hNext := hBeside.load name
  have hHas : ((loadDocument a.files name).run p.loader).1.toOption = docs name := hBeside.has name
  have hHas' : ((loadDocument a.files name).run q.loader).1.toOption = docs' name :=
    hBeside.has' name
  have hRun (p : Progress) : Building.loading (loadDocument a.files name) p =
      (((loadDocument a.files name).run p.loader).1,
        (Building.loading (loadDocument a.files name) p).2) := rfl
  rw [hRun p, hRun q]
  revert hHas hHas' hNext
  generalize ((loadDocument a.files name).run p.loader).1 = answer
  generalize ((loadDocument a.files name).run q.loader).1 = answer'
  intro hNext hHas hHas'
  cases answer with
  | error e =>
    cases answer' with
    | error e' => exact .failed (hc.failed ..)
    | ok d' =>
      rw [← hHas, ← hHas'] at h
      cases h
  | ok d =>
    cases answer' with
    | error e' =>
      rw [← hHas, ← hHas'] at h
      cases h
    | ok d' =>
      rw [← hHas, ← hHas'] at h
      cases h with
      | some hRelated => exact .ok ⟨hRelated, hHas.symm⟩ (hc.state.2 hNext)

include hc hAttributes

/-- Documents with altered attributes are built in lockstep, if the attributes are taken in as
compared. -/
theorem altered_lockstep : Lockstep a c P docs docs' fun k s s' e e' =>
    s = s' ∧ e.Alters (a.library.knows a.registry rs) altered
      (k.counts (a.library.knows a.registry rs) e) e' ∧
        e.Below (Document.Alters a rs altered) docs docs' where
  documents h := ⟨(hc.state.1 h).has, (hc.state.1 h).has'⟩
  shape := by
    rintro k s _ e e' ⟨rfl, hAlters, hBelow⟩
    obtain ⟨hName, hLeading, hTrailing, hText, hChildren⟩ := hAlters.shape
    have hInside : ∀ c ∈ e.children, c.Below (Document.Alters a rs altered) docs docs' :=
      fun child hChild n hn => hBelow n (Element.mem_included.2 (.inr ⟨child, hChild, hn⟩))
    refine ⟨hName, hLeading, hTrailing, hText, ?_⟩
    refine ((List.forall₂_and_left _ _).2 ⟨hInside, hChildren⟩).imp ?_
    exact fun _ _ h => ⟨rfl, h.2, h.1⟩
  root := by
    rintro s _ e e' given ⟨rfl, hAlters, hBelow⟩
    refine (hc.agrees ?_).mono fun _ _ hMade => ⟨hMade, rfl, hAlters, hBelow⟩
    exact Progress.Beside.counting.toFramed.startRoot m.unseen hAlters.shape.1
      (Progress.Beside.resolve e.name) hAlters.shape.2.1 given
  child := by
    rintro s _ _ e e' _ parent caps p q ⟨rfl, hAlters, hBelow⟩ hState -
    obtain ⟨hName, hLeading, hTrailing, hText, hChildren⟩ := hAlters.shape
    have hRaw (p q : Progress) (h : Progress.Beside a m rs docs docs' p q)
        (hNone : (Building.registering (a.library.resolve a.registry e.name) p).1 = .ok none) :
        e'.attributes = e.attributes := by
      have hUnknown : a.library.knows a.registry rs e.name = false := by
        rw [← h.knows]
        exact Library.knows_eq_false_iff.2 hNone
      rw [Seat.counts, hUnknown] at hAlters
      exact hAlters.attributes_eq
    have hEmpty : e'.children.isEmpty = e.children.isEmpty := by
      rw [Bool.eq_iff_iff, List.isEmpty_iff_length_eq_zero, List.isEmpty_iff_length_eq_zero,
        hChildren.length_eq]
    have hStart : c.Agrees Eq (a.start parent caps e (delivered e.leading))
        (a.start parent caps e' (delivered e.leading)) :=
      hc.agrees (Progress.Beside.counting.start m.unseen hName (Progress.Beside.resolve e.name)
        (delivered e.leading) hRaw hEmpty hTrailing hText)
    rw [hLeading]
    refine (hStart p q hState).mono fun made? _ hRun _ hSame =>
      ⟨hSame, fun hMade => ⟨rfl, ?_, hBelow⟩⟩
    obtain ⟨made, rfl⟩ := Option.isSome_iff_exists.1 hMade
    have hKnown := Assembly.knows_of_run_start (Prod.ext hRun rfl)
    rw [(hc.state.1 hState).knows] at hKnown
    rwa [Seat.counts, hKnown] at hAlters
  attributes := by
    rintro s _ root e e' path id p q ⟨rfl, hAlters, -⟩ hState hVisit
    exact hAttributes hAlters.attributes (hc.state.1 hState) hVisit
  find := by
    rintro k s _ _ e e' _ name parent caps p q ⟨rfl, -, hBelow⟩ hName hState -
    have hAppend : c.Agrees Eq (a.checkAppend parent caps) (a.checkAppend parent caps) :=
      hc.agrees (Progress.Beside.counting.checkAppend m.unseen)
    have hRest := hAppend.bind fun _ _ _ => load_altered hc (hBelow name hName name .refl)
    have hFind : c.Agrees (fun d d' => Document.Alters a rs altered d d' ∧ docs name = some d)
        (a.findIncluded s parent caps name) (a.findIncluded s parent caps name) := by
      unfold Assembly.findIncluded
      exact .check (.check hRest)
    refine (hFind p q hState).mono ?_
    rintro d d' - - ⟨hRelated, hStored⟩
    exact ⟨rfl, hRelated, hBelow.push hName hStored⟩
  deliver id caps i := hc.agrees (Progress.Beside.counting.toFramed.deliver m.unseen i)
  text id caps name text :=
    hc.agrees (Progress.Beside.counting.toFramed.takeText m.unseen name text)
  append hState _ := hc.agrees (Progress.Beside.counting.append m.unseen) _ _ hState

end
end ViewMarkup
