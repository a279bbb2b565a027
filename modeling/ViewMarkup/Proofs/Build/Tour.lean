import ViewMarkup.Proofs.Build.Termination

/-!
# Tours

A build makes one attempt after the other: it starts an element, delivers an instruction to it,
assigns its attributes, hands its text over, finds an included document or appends a view. A tour is
the same recursion as a build, and it lists these attempts with the place in the document at which
each of them is made and the progress that it starts from.

`Touring.Follows` says that a tour ends like a build, and that its visits are linked: each attempt
goes on from where the one before it has ended, one that fails is the last, and its failure is that
of the build.

## Main results

* `Attempt.unplaced` — what an attempt fails with has no place yet.
* `Linked.last`, `Linked.stops` — where visits end with a failure, it is that of the last attempt.
* `Touring.Follows.bind`, `Touring.Follows.visit` — builds are followed part by part.
-/

namespace ViewMarkup

open Text

/-! ## Attempts -/

/-- A place in a document: the names of the documents that are being included, outermost first, the
root element of the innermost document, an element of it and the path that is told for that. -/
structure Place where
  stack : List String
  root : Element
  element : Element
  path : String

/-- What a build attempts to do at an element: to start it as a root; to deliver an instruction, to
assign the attributes or to hand the text over to its instance; to start it as a child; to find a
document that is included, or to append a view. -/
inductive Attempt where
  | root (given : Option ObjectId)
  | deliver (id : ObjectId) (caps : Capabilities) (i : Instruction)
  | attributes (id : ObjectId)
  | text (id : ObjectId) (caps : Capabilities)
  | child (parent : ObjectId) (caps : Capabilities)
  | find (parent : ObjectId) (caps : Capabilities) (name : String)
  | append (parent : ObjectId) (caps : Capabilities) (view : ObjectId)

/-- What an attempt gives. -/
@[reducible]
def Attempt.Answer : Attempt → Type
  | root _ => ObjectId × Capabilities
  | child _ _ => Option (ObjectId × Capabilities)
  | find _ _ _ => Document
  | _ => Unit

/-- Makes an attempt. Its failure is not placed. -/
def Attempt.act (a : Assembly) (spot : Place) : (t : Attempt) → Building t.Answer
  | root given => a.startRoot spot.element given
  | deliver id caps i => a.deliver id caps i
  | attributes id => a.takeAttributes id spot.element.attributes
  | text id caps => a.takeText id caps spot.element.name spot.element.text
  | child parent caps => a.start parent caps spot.element (delivered spot.element.leading)
  | find parent caps name => a.findIncluded spot.stack parent caps name
  | append parent caps view => a.append parent caps view

/-- The instance that an attempt gives, and what it may contain. -/
def Attempt.instance? : (t : Attempt) → t.Answer → Option (ObjectId × Capabilities)
  | root _, made => some made
  | child _ _, made? => made?
  | _, _ => none

/-- An attempt at a place, and the progress that it starts from. -/
structure Visit where
  spot : Place
  attempt : Attempt
  before : Progress

namespace Visit

/-- Makes the attempt. -/
def run (a : Assembly) (v : Visit) : Except Failure v.attempt.Answer × Progress :=
  v.attempt.act a v.spot v.before

/-- The instance that a visit gives, with what it may contain. -/
def instance? (a : Assembly) (v : Visit) : Option (ObjectId × Capabilities) :=
  (v.run a).1.toOption.bind v.attempt.instance?

variable {a : Assembly} {v : Visit} {q : Progress}

theorem instance?_of_ok {answer : v.attempt.Answer} (h : v.run a = (.ok answer, q)) :
    v.instance? a = v.attempt.instance? answer := by
  rw [instance?, h]
  rfl

theorem instance?_of_error {e : Failure} (h : v.run a = (.error e, q)) :
    v.instance? a = none := by
  rw [instance?, h]
  rfl

end Visit

/-! ## Tours -/

/-- How far a tour has come: as far as a build, with the visits so far. -/
structure Tour extends Progress where
  visits : List Visit := []

/-- Touring may fail, and keeps what was done before it failed. -/
abbrev Touring := ExceptT Failure (StateM Tour)

/-- A part of a build in which nothing is attempted at an element. -/
def Touring.building {α : Type} (act : Building α) : Touring α := fun t =>
  let (answer, progress) := act t.toProgress
  (answer, { t with toProgress := progress })

namespace Assembly

variable (a : Assembly)

/-- Makes an attempt at a place, which its failure is told with. -/
def visit (spot : Place) (t : Attempt) : Touring t.Answer := fun tour =>
  let (answer, progress) := Building.within spot.path (t.act a spot) tour.toProgress
  (answer, ⟨progress, tour.visits ++ [⟨spot, t, tour.toProgress⟩]⟩)

/-- Finds an included document, tours it and appends its root. -/
def tourInclude (expand : List String → Element → Touring ObjectId) (spot : Place)
    (parent : ObjectId) (caps : Capabilities) (data : String) : Touring Unit := do
  let d ← a.visit spot (.find parent caps (trim data))
  let view ← expand (spot.stack ++ [trim data]) d.root
  a.visit spot (.append parent caps view)

/-- Tours a child element, given how the element itself is toured: the includes in front of it, then
the child. -/
def tourChild (expand : List String → Element → Touring ObjectId) (spot : Place)
    (parent : ObjectId) (caps : Capabilities)
    (work : ObjectId → Capabilities → Touring Unit) : Touring Unit := do
  (includes spot.element.leading).forM fun i => a.tourInclude expand spot parent caps i.data
  match ← a.visit spot (.child parent caps) with
  | none => pure ()
  | some (id, own) => do
    work id own
    a.visit spot (.append parent caps id)

mutual

/-- Tours an element: everything that it says about its instance, after the instructions given. -/
def tourElement (expand : List String → Element → Touring ObjectId) (stack : List String)
    (root : Element) : Element → ObjectId → Capabilities → (path : String) → List Instruction →
    Touring Unit
  | .mk name attributes children before trailing text, id, caps, path, leading => do
    let spot : Place :=
      { stack, root, element := .mk name attributes children before trailing text, path }
    leading.forM fun i => a.visit spot (.deliver id caps i)
    a.visit spot (.attributes id)
    a.visit spot (.text id caps)
    tourChildren expand stack root children id caps path 0
    trailing.forM fun i =>
      if i.target = includeTarget then a.tourInclude expand spot id caps i.data
      else a.visit spot (.deliver id caps i)

/-- Tours child elements in order, the first of which has the index given. -/
def tourChildren (expand : List String → Element → Touring ObjectId) (stack : List String)
    (root : Element) : List Element → ObjectId → Capabilities → (path : String) → (index : Nat) →
    Touring Unit
  | [], _, _, _, _ => pure ()
  | e :: es, parent, caps, path, index => do
    let here := path ++ "/" ++ e.name ++ "[" ++ toString index ++ "]"
    a.tourChild expand { stack, root, element := e, path := here } parent caps fun id own =>
      tourElement expand stack root e id own here (delivered e.leading)
    tourChildren expand stack root es parent caps path (index + 1)

end

/-- Tours a root element. -/
def tourRoot : (depth : Nat) → (stack : List String) → Element → Option ObjectId → Touring ObjectId
  | 0, stack, _, _ => throw (.of (.includeCycle stack))
  | depth + 1, stack, e, given => do
    let (id, caps) ← a.visit { stack, root := e, element := e, path := e.name } (.root given)
    a.tourElement (fun stack e => tourRoot depth stack e none) stack e e id caps e.name e.leading
    return id

/-- Tours a document that is reached through the names given. -/
def tourDocument (stack : List String) (d : Document) (given : Option ObjectId) :
    Touring ObjectId := do
  a.tourRoot (includeDepth a.files (← get).loader d.root) stack d.root given

/-- Tours the document at an origin. -/
def tourTree (given : Option ObjectId) : Origin → Touring ObjectId
  | .given d => a.tourDocument [] d given
  | .named name => do
    let d ← Touring.building (Building.loading (loadDocument a.files name))
    a.tourDocument [name] d given

section

variable {a} {given : Option ObjectId} {name : String} {p q : Progress}

theorem run_tourTree_of_ok {d : Document}
    (h : Building.loading (loadDocument a.files name) p = (.ok d, q)) :
    a.tourTree given (.named name) ⟨p, []⟩ = a.tourDocument [name] d given ⟨q, []⟩ := by
  refine run_bind_of_eq_ok ?_
  unfold Touring.building
  rw [h]

/-- A document that cannot be loaded is not toured. -/
theorem run_tourTree_of_error {e : Failure}
    (h : Building.loading (loadDocument a.files name) p = (.error e, q)) :
    a.tourTree given (.named name) ⟨p, []⟩ = (.error e, ⟨q, []⟩) := by
  refine run_bind_of_eq_error ?_
  unfold Touring.building
  rw [h]

end

end Assembly

/-! ## What attempts fail with -/

/-- A failure that has no place yet. -/
def Failure.Unplaced : Failure → Prop
  | .markup _ path => path = none
  | _ => True

private theorem Failure.Plain.unplaced {e : Failure} (h : e.Plain) : e.Unplaced := by
  cases e with
  | markup fault path =>
    cases fault with
    | includeCycle chain => exact h.elim
    | _ => exact h
  | _ => trivial

/-- What an attempt fails with has no place yet. -/
theorem Attempt.unplaced {a : Assembly} {spot : Place} {t : Attempt} {p p' : Progress}
    {e : Failure} (h : t.act a spot p = (.error e, p')) : e.Unplaced := by
  have hPlain {α : Type} {act : Building α} {answer : Except Failure α} (hAct : ActsPlainly act)
      (hRun : act p = (answer, p')) (hError : answer = .error e) : e.Unplaced :=
    (hAct p e (by rw [hRun, hError])).unplaced
  cases t with
  | root given => exact hPlain (Assembly.startRoot_plain _ _) h rfl
  | deliver id caps i => exact hPlain (Assembly.deliver_plain i) h rfl
  | attributes id => exact hPlain (Assembly.takeAttributes_plain _) h rfl
  | text id caps => exact hPlain (Assembly.takeText_plain _ _) h rfl
  | child parent caps => exact hPlain (Assembly.start_plain _ _) h rfl
  | append parent caps view => exact hPlain Assembly.append_plain h rfl
  | find parent caps name =>
    have hFind : a.findIncluded spot.stack parent caps name p = (.error e, p') := h
    rw [Assembly.findIncluded_eq] at hFind
    split at hFind
    · cases hFind
      rfl
    · split at hFind
      · cases hFind
        rfl
      · refine hPlain (.bind Assembly.checkAppend_plain fun _ => ?_) hFind rfl
        exact .loading (loadDocument_plain a.files name)

/-- An attempt changes nothing about the documents. -/
theorem Attempt.documents (a : Assembly) (spot : Place) (t : Attempt) (p : Progress)
    (name : String) :
    (t.act a spot p).2.loader.document? a.files name = p.loader.document? a.files name := by
  have hcs := a.library.classes.covered_univ
  have hQuiet {α : Type} {act : Building α} (h : Quiet a.files (Building.within "" act)) :
      (act p).2.loader.document? a.files name = p.loader.document? a.files name :=
    h.documents p name
  cases t with
  | root given => exact hQuiet (Assembly.startRoot_quiet _ given)
  | deliver id caps i => exact hQuiet (Assembly.deliver_quiet i)
  | attributes id =>
    exact hQuiet ((Assembly.takeAttributes_attending hcs trivial _).quiet
      (Assembly.takeAttributes_plain _))
  | text id caps =>
    exact hQuiet ((Assembly.takeText_attending hcs trivial _ _).quiet (Assembly.takeText_plain _ _))
  | child parent caps => exact hQuiet (Assembly.start_quiet _ _)
  | append parent caps view => exact hQuiet (Assembly.append_quiet view)
  | find parent caps found =>
    exact ((Assembly.findIncluded_yields (fun _ => True) spot.stack found).mono
      (fun _ _ h => h.1.documents name) fun _ h => h.documents name).state

/-! ## Linked visits -/

/-- Visits each of which starts where the one before has ended, from one state to another. One that
fails is the last; its failure is told with the path of its place. -/
inductive Linked (a : Assembly) : Progress → List Visit → Option Failure → Progress → Prop
  | done {p : Progress} : Linked a p [] none p
  | failed {v : Visit} {e : Failure} {q : Progress} : v.run a = (.error e, q) →
      Linked a v.before [v] (some (e.withPath v.spot.path)) q
  | passed {v : Visit} {answer : v.attempt.Answer} {p q : Progress} {vs : List Visit}
      {f : Option Failure} : v.run a = (.ok answer, p) → Linked a p vs f q →
      Linked a v.before (v :: vs) f q

namespace Linked

variable {a : Assembly} {p q r : Progress} {vs vs' : List Visit} {f : Option Failure}

private theorem append (h : Linked a p vs none q) (h' : Linked a q vs' f r) :
    Linked a p (vs ++ vs') f r := by
  generalize hNone : none = g at h
  induction h with
  | done => exact h'
  | failed _ => cases hNone
  | passed hRun _ ih => exact .passed hRun (ih h' hNone)

/-- Where visits end with a failure, it is that of the last one. -/
theorem last {e : Failure} (h : Linked a p vs (some e) q) :
    ∃ front v e', vs = front ++ [v] ∧ v.run a = (.error e', q) ∧ e = e'.withPath v.spot.path := by
  generalize hSome : some e = g at h
  induction h with
  | done => cases hSome
  | @failed v e' q hRun =>
    cases hSome
    exact ⟨[], v, e', rfl, hRun, rfl⟩
  | @passed v _ _ _ _ _ _ _ ih =>
    obtain ⟨front, last, e', rfl, hRun, hFailure⟩ := ih hSome
    exact ⟨v :: front, last, e', rfl, hRun, hFailure⟩

theorem before_eq {v : Visit} (h : Linked a p (v :: vs) f q) : p = v.before := by
  cases h with
  | failed _ => rfl
  | passed _ _ => rfl

/-- What follows a visit that does not fail starts where that has ended. -/
theorem tail {v : Visit} {answer : v.attempt.Answer} (h : Linked a p (v :: vs) f q)
    (hRun : v.run a = (.ok answer, r)) : Linked a r vs f q := by
  cases h with
  | failed hFails =>
    rw [hRun] at hFails
    cases hFails
  | passed hPasses hRest =>
    rw [hRun] at hPasses
    cases hPasses
    exact hRest

/-- Visits end with the first one that fails. -/
theorem stops {pre post : List Visit} {v : Visit} {e : Failure}
    (h : Linked a p (pre ++ v :: post) f q) (hRun : v.run a = (.error e, r)) :
    post = [] ∧ f = some (e.withPath v.spot.path) ∧ q = r := by
  induction pre generalizing p with
  | nil =>
    cases h with
    | failed hFails =>
      rw [hRun] at hFails
      cases hFails
      exact ⟨rfl, rfl, rfl⟩
    | passed hPasses _ =>
      rw [hRun] at hPasses
      cases hPasses
  | cons u pre ih =>
    rw [List.cons_append] at h
    generalize hRest : pre ++ v :: post = rest at h
    cases h with
    | failed _ => simp at hRest
    | passed _ h =>
      subst hRest
      exact ih h

/-- Where visits end without a failure, none of them has failed. -/
theorem exists_run_ok (h : Linked a p vs none q) :
    ∀ v ∈ vs, ∃ answer r, v.run a = (.ok answer, r) := by
  generalize hNone : none = g at h
  induction h with
  | done => exact fun v hv => absurd hv List.not_mem_nil
  | failed _ => cases hNone
  | passed hRun _ ih =>
    intro v hv
    rcases List.mem_cons.1 hv with rfl | hv
    · exact ⟨_, _, hRun⟩
    · exact ih hNone v hv

/-- What attempts keep that do not fail holds before each visit. -/
theorem invariant {I : Progress → Prop}
    (hStep : ∀ {v : Visit} {answer r}, I v.before → v.run a = (.ok answer, r) → I r)
    (h : Linked a p vs f q) (hStart : I p) : ∀ v ∈ vs, I v.before := by
  induction h with
  | done => exact fun v hv => absurd hv List.not_mem_nil
  | failed _ =>
    intro v hv
    rw [List.mem_singleton.1 hv]
    exact hStart
  | passed hRun _ ih =>
    intro v hv
    rcases List.mem_cons.1 hv with rfl | hv
    · exact hStart
    · exact ih (hStep hStart hRun) v hv

end Linked

/-! ## Following a build -/

/-- The failure that an answer is, if it is one. -/
def failure? {α : Type} : Except Failure α → Option Failure
  | .ok _ => none
  | .error e => some e

/-- A tour that ends like a build, from the same state, with linked visits of some kind. The
documents are still those that there were. -/
structure Touring.EndsLike {α : Type} (a : Assembly) (docs : String → Option Document)
    (P : Visit → Prop) (x : Touring α) (y : Building α) (t : Tour) (vs : List Visit) : Prop where
  run : x t = ((y t.toProgress).1, ⟨(y t.toProgress).2, t.visits ++ vs⟩)
  documents : ∀ name, (y t.toProgress).2.loader.document? a.files name = docs name
  linked : Linked a t.toProgress vs (failure? (y t.toProgress).1) (y t.toProgress).2
  all : ∀ v ∈ vs, P v

/-- A tour that ends like a build from every state with the documents given. -/
def Touring.Follows {α : Type} (a : Assembly) (docs : String → Option Document) (P : Visit → Prop)
    (x : Touring α) (y : Building α) : Prop :=
  ∀ t : Tour, (∀ name, t.loader.document? a.files name = docs name) →
    ∃ vs, EndsLike a docs P x y t vs

namespace Touring

variable {α β : Type} {a : Assembly} {docs : String → Option Document} {P : Visit → Prop}
  {x : Touring α} {y : Building α} {f : α → Touring β} {g : α → Building β}

/-- What follows a tour goes on where it has ended. -/
theorem EndsLike.bind {t : Tour} {vs : List Visit} (hx : EndsLike a docs P x y t vs)
    (hf : ∀ r p, y t.toProgress = (.ok r, p) → Follows a docs P (f r) (g r)) :
    ∃ vs', EndsLike a docs P (x >>= f) (y >>= g) t vs' := by
  obtain ⟨hRun, hDocs, hLinked, hAll⟩ := hx
  have hTour := run_bind x f t
  have hBuild := run_bind y g t.toProgress
  rw [hRun] at hTour
  generalize y t.toProgress = first at hf hTour hBuild hDocs hLinked
  obtain ⟨answer, p⟩ := first
  cases answer with
  | error e =>
    refine ⟨vs, by rw [hTour, hBuild], by rwa [hBuild], ?_, hAll⟩
    rw [hBuild]
    exact hLinked
  | ok r =>
    obtain ⟨vs', hRest⟩ := hf r p rfl ⟨p, t.visits ++ vs⟩ hDocs
    refine ⟨vs ++ vs', ?_, ?_, ?_, ?_⟩
    · rw [hTour, hBuild, ← List.append_assoc]
      exact hRest.run
    · rw [hBuild]
      exact hRest.documents
    · rw [hBuild]
      exact hLinked.append hRest.linked
    · intro v hv
      rcases List.mem_append.1 hv with hv | hv
      · exact hAll v hv
      · exact hRest.all v hv

namespace Follows

theorem ofPure {r : α} : Follows a docs P (pure r) (pure r) := by
  intro t hDocs
  refine ⟨[], ?_, hDocs, .done, by simp⟩
  rw [List.append_nil]
  rfl

theorem bind (hx : Follows a docs P x y) (hf : ∀ r, Follows a docs P (f r) (g r)) :
    Follows a docs P (x >>= f) (y >>= g) := by
  intro t hDocs
  obtain ⟨vs, h⟩ := hx t hDocs
  exact h.bind fun r _ _ => hf r

theorem forM {ι : Type} {f : ι → Touring Unit} {g : ι → Building Unit} {is : List ι}
    (h : ∀ i ∈ is, Follows a docs P (f i) (g i)) :
    Follows a docs P (is.forM f) (is.forM g) := by
  induction is with
  | nil => exact ofPure
  | cons i is ih =>
    exact (h i List.mem_cons_self).bind fun _ => ih fun j hj => h j (List.mem_cons_of_mem i hj)

/-- A visit is the attempt with its failures placed. -/
theorem visit {spot : Place} {t : Attempt} (h : ∀ p, P ⟨spot, t, p⟩) :
    Follows a docs P (a.visit spot t) (Building.within spot.path (t.act a spot)) := by
  intro tour hDocs
  let v : Visit := ⟨spot, t, tour.toProgress⟩
  refine ⟨[v], rfl, fun name => ?_, ?_, ?_⟩
  · exact (t.documents a spot tour.toProgress name).trans (hDocs name)
  · have hRun : Building.within spot.path (t.act a spot) tour.toProgress =
        ((v.run a).1.mapError (Failure.withPath spot.path), (v.run a).2) := rfl
    rw [hRun]
    cases hAct : v.run a with
    | mk answer p =>
      cases answer with
      | error e => exact .failed hAct
      | ok r => exact .passed hAct .done
  · intro w hw
    rw [List.mem_singleton.1 hw]
    exact h tour.toProgress

end Follows
end Touring
end ViewMarkup
