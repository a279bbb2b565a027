import ViewMarkup.Proofs.Build.AppendSites
import ViewMarkup.Proofs.Build.Calls

/-!
# Places of failures

A failure of markup is told with a path. It starts with the name of the root element of the
document that is being processed, and goes on from child to child, by name and number. Every attempt
that a tour lists is made at an element that its path leads to, and a build fails where the last of
them is made.

## Main results

* `Assembly.tourElement_follows`, `Assembly.tourRoot_follows` — every attempt is made at the element
  that its path leads to.
* `Builder.outcome_place` — where a build fails, and what the path that it tells leads to.
-/

namespace ViewMarkup

open Text

/-! ## Paths -/

/-- A path leads from a root element to an element: it is the name of the root, or it goes on with
the name and the number of a child element. -/
inductive Element.Leads (root : Element) : (path : String) → Element → Prop
  | root : Leads root root.name root
  | child {path : String} {e c : Element} {index : Nat} : Leads root path e →
      e.children[index]? = some c →
      Leads root (path ++ "/" ++ c.name ++ "[" ++ toString index ++ "]") c

/-- A root element is processed while documents are being included: it is that of the document that
is built, or of one that a processed document includes. -/
inductive Processed (docs : String → Option Document) (origin : Origin) :
    (stack : List String) → (root : Element) → Prop
  | built {d : Document} : origin.Means docs d → Processed docs origin origin.names d.root
  | included {stack : List String} {root : Element} {name : String} {d : Document} :
      Processed docs origin stack root → name ∈ root.included → docs name = some d →
      Processed docs origin (stack ++ [name]) d.root

/-- An attempt is one for the element at a place: a root is started at the root, and instructions
and includes are those in front of the element or after its last child. -/
def Attempt.Concerns (spot : Place) : Attempt → Prop
  | root _ => spot.element = spot.root
  | deliver _ _ i => i ∈ spot.element.leading ++ spot.element.trailing
  | find _ _ name => ∃ i ∈ spot.element.leading ++ spot.element.trailing,
      i.target = includeTarget ∧ trim i.data = name
  | _ => True

/-- An attempt is made at an element of a processed document that its path leads to. -/
structure Visit.AtElement (docs : String → Option Document) (origin : Origin) (v : Visit) :
    Prop where
  processed : Processed docs origin v.spot.stack v.spot.root
  leads : v.spot.root.Leads v.spot.path v.spot.element
  concerns : v.attempt.Concerns v.spot

/-! ## Placing failures -/

namespace Building

variable {α β : Type} (path : String)

theorem within_bind (x : Building α) (f : α → Building β) :
    within path (x >>= f) = (do let r ← within path x; within path (f r)) := by
  funext p
  rw [run_within, run_bind, run_bind, run_within]
  cases x p with
  | mk answer q => cases answer <;> rfl

private theorem within_forM {ι : Type} (is : List ι) (f : ι → Building Unit) :
    within path (is.forM f) = is.forM fun i => within path (f i) := by
  induction is with
  | nil => rfl
  | cons i is ih =>
    show within path (f i >>= fun _ => is.forM f) = _
    rw [within_bind, ih]
    rfl

end Building

/-! ## Tours -/

namespace Assembly

/-- What is done before the children of an element are built, with each failure placed by itself. -/
theorem opening_eq (a : Assembly) (path : String) (id : ObjectId) (caps : Capabilities)
    (leading : List Instruction) (attributes : Table String String) (name text : String) :
    (Building.within path do
      a.deliverAll id caps leading
      a.takeAttributes id attributes
      a.takeText id caps name text) = (do
    leading.forM fun i => Building.within path (a.deliver id caps i)
    Building.within path (a.takeAttributes id attributes)
    Building.within path (a.takeText id caps name text)) := by
  rw [Building.within_bind, Building.within_bind, deliverAll, Building.within_forM]

variable {a : Assembly} {docs : String → Option Document} {origin : Origin} {root : Element}
  {stack : List String} {tour : List String → Element → Touring ObjectId} {expand : Expansion}

/-- The documents that a root element includes are toured like they are expanded, unless they are on
the stack. -/
def TourDescends (a : Assembly) (docs : String → Option Document) (origin : Origin)
    (root : Element) (stack : List String) (tour : List String → Element → Touring ObjectId)
    (expand : Expansion) : Prop :=
  ∀ name ∈ root.included, name ∉ stack → ∀ d, docs name = some d →
    Touring.Follows a docs (Visit.AtElement docs origin) (tour (stack ++ [name]) d.root)
      (expand (stack ++ [name]) d.root)

section

variable (hRoot : Processed docs origin stack root)
  (h : TourDescends a docs origin root stack tour expand)

include hRoot h

/-- An include among the instructions of an element is carried out at the element. -/
theorem tourInclude_follows {e : Element} {parent : ObjectId} {caps : Capabilities} {path : String}
    (hLeads : root.Leads path e) (hIncluded : ∀ n ∈ e.included, n ∈ root.included)
    {i : Instruction} (hi : i ∈ e.leading ++ e.trailing) (hTarget : i.target = includeTarget) :
    Touring.Follows a docs (Visit.AtElement docs origin)
      (a.tourInclude tour ⟨stack, root, e, path⟩ parent caps i.data)
      (a.takeInclude expand stack parent caps path i.data) := by
  have hName : trim i.data ∈ root.included :=
    hIncluded _ (Element.mem_included.2 (.inl ⟨i, hi, hTarget, rfl⟩))
  have hFind : Touring.Follows a docs (Visit.AtElement docs origin)
      (a.visit ⟨stack, root, e, path⟩ (.find parent caps (trim i.data)))
      (Building.within path (a.findIncluded stack parent caps (trim i.data))) :=
    .visit fun p => ⟨hRoot, hLeads, i, hi, hTarget, rfl⟩
  intro t hDocs
  obtain ⟨vs, hFound⟩ := hFind t hDocs
  refine hFound.bind fun d p hRun => ?_
  have hRun' := run_adapt_eq_ok_iff.1 hRun
  have hStored := ((findIncluded_yields (fun _ => True) stack (trim i.data)).ok hRun').2.2
  refine (h _ hName (not_mem_of_findIncluded hRun') d ((hDocs _).symm.trans hStored)).bind
    fun view => ?_
  exact .visit fun q => ⟨hRoot, hLeads, trivial⟩

/-- A child element is toured like it is built. -/
theorem tourChild_follows {e : Element} {parent : ObjectId} {caps : Capabilities} {path : String}
    (hLeads : root.Leads path e) (hIncluded : ∀ n ∈ e.included, n ∈ root.included)
    {work : ObjectId → Capabilities → Touring Unit}
    {work' : ObjectId → Capabilities → List Instruction → Building Unit}
    (hWork : ∀ id own, Touring.Follows a docs (Visit.AtElement docs origin) (work id own)
      (work' id own (delivered e.leading))) :
    Touring.Follows a docs (Visit.AtElement docs origin)
      (a.tourChild tour ⟨stack, root, e, path⟩ parent caps work)
      (a.takeChild expand stack parent caps path e work') := by
  have hIncludes : Touring.Follows a docs (Visit.AtElement docs origin)
      ((includes e.leading).forM fun i =>
        a.tourInclude tour ⟨stack, root, e, path⟩ parent caps i.data)
      ((includes e.leading).forM fun i => a.takeInclude expand stack parent caps path i.data) := by
    refine .forM fun i hi => tourInclude_follows hRoot h hLeads hIncluded ?_ ?_
    · exact List.mem_append_left e.trailing (List.mem_filter.1 hi).1
    · exact target_of_mem_includes hi
  have hStart : Touring.Follows a docs (Visit.AtElement docs origin)
      (a.visit ⟨stack, root, e, path⟩ (.child parent caps))
      (Building.within path (a.start parent caps e (delivered e.leading))) :=
    .visit fun p => ⟨hRoot, hLeads, trivial⟩
  unfold tourChild takeChild takeIncludes
  rw [bind_assoc]
  refine hIncludes.bind fun _ => ?_
  rw [pure_bind]
  refine hStart.bind fun made => ?_
  cases made with
  | none => exact .ofPure
  | some made =>
    refine (hWork made.1 made.2).bind fun _ => ?_
    exact .visit fun p => ⟨hRoot, hLeads, trivial⟩

mutual

/-- An element is toured like it is processed. -/
theorem tourElement_follows : ∀ (e : Element) {id : ObjectId} {caps : Capabilities} {path : String}
    {leading : List Instruction}, root.Leads path e → (∀ n ∈ e.included, n ∈ root.included) →
    (∀ i ∈ leading, i ∈ e.leading) →
    Touring.Follows a docs (Visit.AtElement docs origin)
      (a.tourElement tour stack root e id caps path leading)
      (a.process expand stack e id caps path leading)
  | .mk name attributes children before trailing text, id, caps, path, leading, hLeads, hIncluded,
      hLeading => by
    have hDeliver (i : Instruction) (hi : i ∈ before ++ trailing) :
        Touring.Follows a docs (Visit.AtElement docs origin)
          (a.visit ⟨stack, root, .mk name attributes children before trailing text, path⟩
            (.deliver id caps i))
          (Building.within path (a.deliver id caps i)) :=
      .visit fun p => ⟨hRoot, hLeads, hi⟩
    unfold tourElement process
    rw [opening_eq, bind_assoc]
    refine .bind (.forM fun i hi => hDeliver i (List.mem_append_left trailing (hLeading i hi)))
      fun _ => ?_
    rw [bind_assoc]
    refine .bind (.visit fun p => ⟨hRoot, hLeads, trivial⟩) fun _ => ?_
    refine .bind (.visit fun p => ⟨hRoot, hLeads, trivial⟩) fun _ => ?_
    refine .bind ?_ fun _ => .forM fun i hi => ?_
    · refine tourChildren_follows children hLeads (fun i => ?_) fun c hc n hn =>
        hIncluded n (Element.mem_included.2 (.inr ⟨c, hc, hn⟩))
      rw [Nat.zero_add]
      rfl
    · split
      · next hTarget =>
        exact tourInclude_follows hRoot h hLeads hIncluded (List.mem_append_right before hi) hTarget
      · exact hDeliver i (List.mem_append_right before hi)

/-- Child elements are toured like they are processed. -/
theorem tourChildren_follows : ∀ (es : List Element) {parent : ObjectId} {caps : Capabilities}
    {path : String} {index : Nat} {e : Element}, root.Leads path e →
    (∀ i : Nat, es[i]? = e.children[index + i]?) → (∀ c ∈ es, ∀ n ∈ c.included, n ∈ root.included) →
    Touring.Follows a docs (Visit.AtElement docs origin)
      (a.tourChildren tour stack root es parent caps path index)
      (a.processChildren expand stack es parent caps path index)
  | [], parent, caps, path, index, e, _, _, _ => by
    unfold tourChildren processChildren
    exact .ofPure
  | c :: cs, parent, caps, path, index, e, hLeads, hPart, hIncluded => by
    have hHead : e.children[index]? = some c := (hPart 0).symm
    have hChild := hLeads.child hHead
    have hOwn := hIncluded c List.mem_cons_self
    unfold tourChildren processChildren
    refine .bind (tourChild_follows hRoot h hChild hOwn fun id own => ?_) fun _ => ?_
    · exact tourElement_follows c hChild hOwn fun i hi => (List.mem_filter.1 hi).1
    · refine tourChildren_follows cs hLeads (fun i => ?_) fun d hd =>
        hIncluded d (List.mem_cons_of_mem c hd)
      have hNext := hPart (i + 1)
      rw [List.getElem?_cons_succ] at hNext
      rw [hNext, Nat.add_assoc, Nat.add_comm 1]

end

end

/-! ## Roots and documents -/

/-- A root element is toured like it is built with a depth that is enough. -/
theorem tourRoot_follows {names : List String}
    (hDocs : ∀ name d, docs name = some d → d.root.included ⊆ names) {depth : Nat} (e : Element)
    (given : Option ObjectId) (hRoot : Processed docs origin stack e)
    (hIncluded : e.included ⊆ names) (hFits : Fits names depth stack) :
    Touring.Follows a docs (Visit.AtElement docs origin) (a.tourRoot depth stack e given)
      (a.buildRoot depth stack e given) := by
  induction depth generalizing e given stack with
  | zero => exact absurd hFits.depth_pos (Nat.lt_irrefl 0)
  | succ depth ih =>
    have hDescends : TourDescends a docs origin e stack
        (fun stack e => a.tourRoot depth stack e none)
        fun stack e => a.buildRoot depth stack e none :=
      fun name hName hFresh d hFound =>
        ih d.root none (hRoot.included hName hFound) (hDocs name d hFound)
          (hFits.push (hIncluded hName) hFresh)
    have hStart : Touring.Follows a docs (Visit.AtElement docs origin)
        (a.visit ⟨stack, e, e, e.name⟩ (.root given))
        (Building.within e.name (a.startRoot e given)) :=
      .visit fun p => ⟨hRoot, .root, rfl⟩
    unfold tourRoot buildRoot
    refine hStart.bind fun made => .bind ?_ fun _ => .ofPure
    exact tourElement_follows hRoot hDescends e .root (fun _ hn => hn) fun _ hi => hi

/-- A document is toured like it is built. -/
theorem tourDocument_follows {d : Document} (given : Option ObjectId)
    (hOrigin : origin.Means docs d) :
    Touring.Follows a docs (Visit.AtElement docs origin) (a.tourDocument origin.names d given)
      (a.buildDocument origin.names d given) := by
  intro t hDocs
  have hMentioned (name : String) (other : Document) (hFound : docs name = some other) :
      other.root.included ⊆ (d.root.included ++ t.loader.included a.files).eraseDups := by
    intro n hn
    rw [← hDocs name] at hFound
    exact List.mem_eraseDups.2 (List.mem_append_right _ (Loader.mem_included hFound hn))
  have hFits : Fits (d.root.included ++ t.loader.included a.files).eraseDups
      (includeDepth a.files t.loader d.root) origin.names := .start origin.names
  have hBuild := a.run_buildDocument origin.names d given t.toProgress
  have hTour : a.tourDocument origin.names d given t =
      a.tourRoot (includeDepth a.files t.loader d.root) origin.names d.root given t := by
    unfold tourDocument
    rw [run_bind, run_get]
  obtain ⟨vs, h⟩ := tourRoot_follows hMentioned d.root given (.built hOrigin)
    (fun n hn => List.mem_eraseDups.2 (List.mem_append_left _ hn)) hFits t hDocs
  refine ⟨vs, ?_, ?_, ?_, h.all⟩
  · rw [hTour, hBuild]
    exact h.run
  · rw [hBuild]
    exact h.documents
  · rw [hBuild]
    exact h.linked

/-- The document at an origin is toured like its tree is built. Its visits start with the document
loaded. -/
theorem tourTree_linked (a : Assembly) (given : Option ObjectId) {p : Progress} {d : Document}
    (hOrigin : origin.Means (p.loader.document? a.files) d) :
    ∃ loader vs, a.tourTree given origin ⟨p, []⟩ =
        ((a.buildTree given origin p).1, ⟨(a.buildTree given origin p).2, vs⟩) ∧
      Linked a { p with loader } vs (failure? (a.buildTree given origin p).1)
        (a.buildTree given origin p).2 ∧
      ∀ v ∈ vs, v.AtElement (p.loader.document? a.files) origin := by
  have hFollows := tourDocument_follows (a := a) given hOrigin
  cases origin with
  | given d' =>
    cases hOrigin
    obtain ⟨vs, h⟩ := hFollows ⟨p, []⟩ fun _ => rfl
    exact ⟨p.loader, vs, h.run, h.linked, h.all⟩
  | named name =>
    have hLoad : Building.loading (loadDocument a.files name) p =
        (.ok d, { p with loader := ((loadDocument a.files name).run p.loader).2 }) :=
      Prod.ext (eq_ok_of_toOption_eq_some hOrigin) rfl
    have hBuild : a.buildTree given (.named name) p = a.buildDocument [name] d given
        { p with loader := ((loadDocument a.files name).run p.loader).2 } :=
      run_bind_of_eq_ok hLoad
    obtain ⟨vs, h⟩ :=
      hFollows ⟨{ p with loader := ((loadDocument a.files name).run p.loader).2 }, []⟩
        fun other => document?_run_loadDocument a.files name other p.loader
    rw [hBuild, run_tourTree_of_ok hLoad]
    exact ⟨_, vs, h.run, h.linked, h.all⟩

/-- The document at an origin is toured like its tree is built even if it cannot be loaded: there
are no visits then. -/
theorem tourTree_builds (a : Assembly) (given : Option ObjectId) (origin : Origin) (p : Progress) :
    ∃ loader vs, a.tourTree given origin ⟨p, []⟩ =
        ((a.buildTree given origin p).1, ⟨(a.buildTree given origin p).2, vs⟩) ∧
      (Linked a { p with loader } vs (failure? (a.buildTree given origin p).1)
          (a.buildTree given origin p).2 ∨
        vs = [] ∧ (a.buildTree given origin p).2 = { p with loader }) := by
  by_cases hFound : ∃ d, origin.Means (p.loader.document? a.files) d
  · obtain ⟨d, hOrigin⟩ := hFound
    obtain ⟨loader, vs, hTour, hLinked, -⟩ := a.tourTree_linked given hOrigin
    exact ⟨loader, vs, hTour, .inl hLinked⟩
  · cases origin with
    | given d => exact absurd ⟨d, rfl⟩ hFound
    | named name =>
      cases hLoad : (loadDocument a.files name).run p.loader with
      | mk answer loader =>
        cases answer with
        | ok d => exact absurd ⟨d, document?_eq_some_of_run hLoad⟩ hFound
        | error e =>
          have hRun := run_loading hLoad
          have hBuild : a.buildTree given (.named name) p = (.error e, { p with loader }) :=
            run_bind_of_eq_error hRun
          refine ⟨loader, [], ?_, .inr ⟨rfl, ?_⟩⟩
          · rw [run_tourTree_of_error hRun, hBuild]
          · rw [hBuild]

end Assembly

/-- A failure that had no place has the one that it is told with. -/
theorem Failure.Unplaced.of_withPath {e : Failure} {fault : Fault} {path : String}
    {place : Option String} (h : e.Unplaced) (hEq : e.withPath path = .markup fault place) :
    e = .markup fault none ∧ place = some path := by
  cases e with
  | markup fault' place' =>
    cases (h : place' = none)
    cases hEq
    exact ⟨rfl, rfl⟩
  | _ => cases hEq

/-- What a failure of the markup says, and where. -/
def Failure.told? : Failure → Option (String × Option String)
  | markup fault path => some (fault.message, path)
  | _ => none

namespace Builder

/-- A build whose tree fails because of the markup tells where: it fails with the last attempt that
it makes, and the path that it tells is the one to the element that the attempt is made for, from
the root of the document that is being processed. A view that could not be appended was brought from
there. -/
theorem outcome_place (b : Builder) (owner root : Option ObjectId) (origin : Origin) (w : World)
    {d : Document} (hOrigin : origin.Means (w.loader.document? b.files) d) {fault : Fault}
    {path : Option String} {p : Progress}
    (hFails : ({ b with owner } : Assembly).buildTree root origin { w with } =
      (.error (.markup fault path), p)) :
    let a : Assembly := { b with owner }
    b.outcome owner root origin w = (.error (.markup fault path), p) ∧
      ∃ loader visits v, a.tourTree root origin ⟨{ w with }, []⟩ =
          (.error (.markup fault path), ⟨p, visits ++ [v]⟩) ∧
        Linked a { w with loader } (visits ++ [v]) (some (.markup fault path)) p ∧
        v.run a = (.error (.markup fault none), p) ∧
        path = some v.spot.path ∧
        v.AtElement (w.loader.document? b.files) origin ∧ v.Accounted a visits := by
  intro a
  have hOutcome : b.outcome owner root origin w = (.error (.markup fault path), p) := by
    have hBuild : a.build root origin { w with } = (.error (.markup fault path), p) := by
      unfold Assembly.build
      rw [run_bind, hFails]
    exact hBuild
  refine ⟨hOutcome, ?_⟩
  obtain ⟨loader, vs, hTour, hLinked, hAll⟩ := a.tourTree_linked (p := { w with }) root hOrigin
  rw [hFails] at hTour hLinked
  obtain ⟨visits, v, e, rfl, hRun, hFailure⟩ := hLinked.last
  obtain ⟨rfl, hPath⟩ := (Attempt.unplaced hRun).of_withPath hFailure.symm
  refine ⟨loader, visits, v, hTour, hLinked, hRun, hPath, ?_, ?_⟩
  · exact hAll v (List.mem_append_right visits List.mem_cons_self)
  · exact a.tourTree_accounted root origin { w with } (by rw [hTour])

/-- The raw element of the included document must not have text inside of it. -/
theorem outcome_place_crooked :
    ∃ v : Visit, v.AtElement (Sample.crookedWorld.loader.document? Sample.builder.files)
        (.given Sample.frame) ∧
      v.spot.path = "Panel/rule[1]" ∧
      (failure? (Sample.builder.outcome none none (.given Sample.frame)
        Sample.crookedWorld).1).bind Failure.told? =
          some ("`rule` may not contain text content", some v.spot.path) := by
  have hTold : (failure? (({ Sample.builder with owner := none } : Assembly).buildTree none
      (.given Sample.frame) { Sample.crookedWorld with }).1).bind Failure.told? =
        some ("`rule` may not contain text content", some "Panel/rule[1]") := by
    decide +kernel
  generalize hTree : ({ Sample.builder with owner := none } : Assembly).buildTree none
    (.given Sample.frame) { Sample.crookedWorld with } = tree at hTold
  obtain ⟨_ | _, p⟩ := tree
  case ok => cases hTold
  case error e =>
    cases e with
    | markup fault path =>
      obtain ⟨hOutcome, -, -, v, -, -, -, hPath, hPlace, -⟩ :=
        Sample.builder.outcome_place none none (.given Sample.frame) Sample.crookedWorld
          (d := Sample.frame) rfl hTree
      have hSame : v.spot.path = "Panel/rule[1]" := by
        have hEnd : path = some "Panel/rule[1]" := congrArg Prod.snd (Option.some.inj hTold)
        exact Option.some.inj (hPath.symm.trans hEnd)
      refine ⟨v, hPlace, hSame, ?_⟩
      rw [hOutcome, hSame]
      exact hTold
    | _ => cases hTold

end Builder
end ViewMarkup
