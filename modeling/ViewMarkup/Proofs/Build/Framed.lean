import ViewMarkup.Proofs.Build.Attributes
import ViewMarkup.Proofs.Build.Child

/-!
# What builds make nothing of

Most parts of a build look at little of its state: at the objects, and where a view is to be
appended, at the count of views. From states that differ in something else they go on alike.
`Framed` says what has to be true of a relation of states for this, whatever it is that differs; the
objects themselves may differ in what objects cannot see of each other (`Store.Unseen`). `Counting`
is for the parts that look at the count, and `Owing` for what an owner is owed.

## Main results

* `Alike.ofFetching` — what is fetched alike from resources is fetched alike by builds.
* `Framed.deliver`, `Framed.takeText`, `Counting.append` — an instance is told of things alike.
* `Framed.startRoot`, `Counting.start` — instances are made alike, if names are resolved alike.
* `Owing.takeAttributes`, `Owing.commit` — what an owner is owed is noted down and given alike.
-/

namespace ViewMarkup

open Text

/-! ## Actions that agree -/

section

variable {α σ : Type} {R : σ → σ → Prop}

theorem Alike.forM {ε ι : Type} {f g : ι → ExceptT ε (StateM σ) Unit}
    (h : ∀ i, Alike R (f i) (g i)) (is : List ι) : Alike R (is.forM f) (is.forM g) := by
  induction is with
  | nil => exact .ofPure _
  | cons i is ih => exact (h i).bind fun _ => ih

/-- A check in front of an action. -/
theorem Alike.check {ε : Type} {x y : ExceptT ε (StateM σ) α} {c : Prop} [Decidable c] {e : ε}
    (h : Alike R x y) :
    Alike R (if c then (do throw e; x) else x) (if c then (do throw e; y) else y) := by
  split
  · exact .bind (.ofThrow e) fun _ => h
  · exact h

/-- What is fetched alike from resources that correspond is fetched alike by builds that have such
resources. -/
theorem Alike.ofFetching {R : Progress → Progress → Prop} {T : Loader → Loader → Prop}
    {act act' : Fetching α} (h : Alike (Option.Rel T) act act')
    (hLoader : ∀ {p q}, R p q → T p.loader q.loader)
    (hNext : ∀ {p q l l'}, R p q → T l l' → R { p with loader := l } { q with loader := l' }) :
    Alike R (Building.fetching act) (Building.fetching act') := by
  intro p q hR
  obtain ⟨hAnswer, hState⟩ := h _ _ (.some (hLoader hR))
  cases hFirst : act (some p.loader) with
  | mk answer l? =>
    cases hSecond : act' (some q.loader) with
    | mk answer' l'? =>
      rw [hFirst, hSecond] at hAnswer hState
      cases hState with
      | none =>
        unfold Building.fetching
        rw [run_eq, run_eq, hFirst, hSecond]
        exact ⟨hAnswer, hR⟩
      | some hT =>
        rw [run_fetching hFirst, run_fetching hSecond]
        exact ⟨hAnswer, hNext hR hT⟩

theorem Alike.ofExcept {R : Progress → Progress → Prop} (y : Except Failure α) :
    Alike R (Building.ofExcept y) (Building.ofExcept y) := by
  cases y with
  | ok x => exact .ofPure x
  | error failure => exact .ofThrow failure

end

/-! ## Objects -/

/-- Two new instances with the same number, in stores that are related, or the same failure. -/
inductive Store.Makes (S : Store → Store → Prop) : Except Failure (ObjectId × Store) →
    Except Failure (ObjectId × Store) → Prop
  | ok {id : ObjectId} {s t : Store} : S s t → Makes S (.ok (id, s)) (.ok (id, t))
  | error (e : Failure) : Makes S (.error e) (.error e)

/-- A difference between stores that objects do not see: they have the same classes, do the same
when they are told something, and are made in the same way. -/
structure Store.Unseen (cs : Classes) (S : Store → Store → Prop) : Prop where
  class? {s t : Store} (h : S s t) (id : ObjectId) : t.class? id = s.class? id
  typeName {s t : Store} (h : S s t) (v : Value) :
    Scene.typeName ⟨cs, t⟩ v = Scene.typeName ⟨cs, s⟩ v
  tell {s t : Store} (h : S s t) (platform : String) (id : ObjectId) (call : Call) :
    (Acting.tell platform id call ⟨cs, t⟩).1 = (Acting.tell platform id call ⟨cs, s⟩).1 ∧
      S (Acting.tell platform id call ⟨cs, s⟩).2.store
        (Acting.tell platform id call ⟨cs, t⟩).2.store
  make {s t : Store} (h : S s t) (c : ClassId) (style : Option String) :
    Makes S (cs.instantiateStyled c style s) (cs.instantiateStyled c style t)

theorem Store.unseen_eq (cs : Classes) : Store.Unseen cs Eq where
  class? h _ := by rw [h]
  typeName h _ := by rw [h]
  tell h _ _ _ := by
    subst h
    exact ⟨rfl, rfl⟩
  make h c style := by
    subst h
    cases cs.instantiateStyled c style _ with
    | error e => exact .error e
    | ok made => exact .ok rfl

/-! ## Instances -/

/-- States of builds that correspond: the objects differ in nothing that they see, and all that is
done to them on both sides leaves states that correspond. -/
structure Framed (S : Store → Store → Prop) (R : Progress → Progress → Prop) : Prop where
  store {p q : Progress} : R p q → S p.store q.store
  withStore {p q : Progress} {s t : Store} : R p q → S s t →
    R { p with store := s } { q with store := t }
  noted {p q : Progress} (step : Step) : R p q →
    R { p with journal := p.journal ++ [step] } { q with journal := q.journal ++ [step] }

/-- What the count of views rests on: the table of it, and the numbers of objects. -/
def Progress.tally (p : Progress) : Table Identity Nat × (ObjectId → Identity) :=
  (p.appended, p.number)

theorem Progress.count_eq {p q : Progress} (h : q.tally = p.tally) (id : ObjectId) :
    q.count id = p.count id := by
  obtain ⟨hAppended, hNumber⟩ := Prod.mk.inj h
  rw [count, count, hAppended, hNumber]

/-- States of builds that correspond and count views alike. -/
structure Counting (S : Store → Store → Prop) (R : Progress → Progress → Prop) : Prop
    extends Framed S R where
  tally {p q : Progress} : R p q → q.tally = p.tally
  withAppended {p q : Progress} (appended : Table Identity Nat) : R p q →
    R { p with appended } { q with appended }

namespace Framed

variable {a : Assembly} {S : Store → Store → Prop} {R : Progress → Progress → Prop}
  {id parent view : ObjectId} {caps : Capabilities}

theorem note (h : Framed S R) (step : Step) :
    Alike R (Building.note step) (Building.note step) :=
  .ofModify fun _ _ hR => h.noted step hR

section

variable (hS : Store.Unseen a.library.classes S) (h : Framed S R)

include hS h

theorem typeName : Alike R (a.typeName id) (a.typeName id) := by
  intro p q hR
  refine ⟨?_, hR⟩
  have hName := hS.typeName (h.store hR) (.object id)
  exact congrArg Except.ok hName.symm

theorem tell (call : Call) : Alike R (a.tell id call) (a.tell id call) := by
  refine .bind (h.note _) fun _ p q hR => ?_
  obtain ⟨hAnswer, hStore⟩ := hS.tell (h.store hR) a.platform id call
  exact ⟨hAnswer.symm, h.withStore hR hStore⟩

theorem deliver (i : Instruction) : Alike R (a.deliver id caps i) (a.deliver id caps i) := by
  unfold Assembly.deliver
  dsimp only
  split
  · refine .ofCatch (h.tell hS _) fun failure => ?_
    split
    · split
      · exact .ofPure _
      · exact .ofThrow _
    · exact .ofThrow _
  · split
    · exact .ofPure _
    · exact .bind (h.typeName hS) fun _ => .ofThrow _

theorem deliverAll (is : List Instruction) :
    Alike R (a.deliverAll id caps is) (a.deliverAll id caps is) :=
  .forM (h.deliver hS) is

theorem takeText (name text : String) :
    Alike R (a.takeText id caps name text) (a.takeText id caps name text) := by
  unfold Assembly.takeText
  dsimp only
  split
  · exact .ofPure _
  · exact .check (h.tell hS _)

/-- Raw elements with the same name, attributes and text are handed over alike, if either both or
none of them have something inside. -/
theorem deliverRaw {e e' : Element} (hName : e'.name = e.name)
    (hAttributes : e'.attributes = e.attributes)
    (hChildren : e'.children.isEmpty = e.children.isEmpty) (hTrailing : e'.trailing = e.trailing)
    (hText : e'.text = e.text) : Alike R (a.deliverRaw parent e) (a.deliverRaw parent e') := by
  unfold Assembly.deliverRaw
  rw [hName, hAttributes, hChildren, hTrailing, hText]
  exact .check (.check (.check (h.tell hS _)))

theorem instantiate (c : Component) : Alike R (a.instantiate c) (a.instantiate c) := by
  unfold Assembly.instantiate
  refine .ofGet fun p q hR => ?_
  have hMakes := hS.make (h.store hR) c.cls c.style
  revert hMakes
  generalize a.library.classes.instantiateStyled c.cls c.style p.store = made
  generalize a.library.classes.instantiateStyled c.cls c.style q.store = made'
  intro hMakes
  cases hMakes with
  | error e => exact ⟨rfl, hR⟩
  | ok hStore => exact ⟨rfl, h.noted _ (h.withStore hR hStore)⟩

section

variable {e e' : Element} (hName : e'.name = e.name)
  (hResolve : Alike R (Building.registering (a.library.resolve a.registry e.name))
    (Building.registering (a.library.resolve a.registry e.name)))

include hName hResolve

theorem rootInstance (given : Option ObjectId) :
    Alike R (a.rootInstance e given) (a.rootInstance e' given) := by
  unfold Assembly.rootInstance
  rw [hName]
  dsimp only
  split
  · cases given with
    | none => exact .ofThrow _
    | some r =>
      refine .ofGet fun p q hR => ?_
      rw [hS.class? (h.store hR)]
      cases p.store.class? r with
      | none => exact ⟨rfl, hR⟩
      | some cls => exact Alike.bind (.ofExcept _) (fun _ => .ofPure _) p q hR
  · refine .bind hResolve fun c? => ?_
    cases c? with
    | none => exact .ofThrow _
    | some c =>
      cases given with
      | none => exact .bind (h.instantiate hS c) fun _ => .ofPure _
      | some r =>
        refine .ofGet fun p q hR => ?_
        rw [hS.class? (h.store hR)]
        split
        · exact ⟨rfl, hR⟩
        · exact Alike.bind (h.typeName hS) (fun _ => .ofThrow _) p q hR

/-- Root elements with the same name and no other instructions in front are started alike. -/
theorem startRoot (hLeading : e'.leading = e.leading) (given : Option ObjectId) :
    Alike R (a.startRoot e given) (a.startRoot e' given) := by
  unfold Assembly.startRoot
  rw [hLeading]
  refine .bind (h.rootInstance hS hName hResolve given) fun made => ?_
  exact .check (.ofPure made)

end
end

/-- Properties are assigned alike, if their values are fetched alike, each from its own files. -/
theorem assignProperty (h : Framed Eq R) {files : Files}
    (hFetch : ∀ sc target name raw, Alike R
      (Building.fetching (Scene.assign sc a.decoder a.files target name raw))
      (Building.fetching (Scene.assign sc a.decoder files target name raw)))
    (entry : String × String) :
    Alike R (a.assignProperty id entry) ({ a with files }.assignProperty id entry) := by
  refine .ofGet fun p q hR => ?_
  have hNext (store : Store) : Alike R
      (modify fun p => { p with store } : Building Unit) (modify fun p => { p with store }) :=
    .ofModify fun _ _ hR => h.withStore hR rfl
  rw [← h.store hR]
  exact Alike.bind (h.note _) (fun _ => .bind (hFetch _ _ _ _) hNext) p q hR

end Framed

namespace Counting

variable {a : Assembly} {S : Store → Store → Prop} {R : Progress → Progress → Prop}
  {parent view : ObjectId} {caps : Capabilities}
  (hS : Store.Unseen a.library.classes S) (h : Counting S R)

include hS h

theorem checkAppend : Alike R (a.checkAppend parent caps) (a.checkAppend parent caps) := by
  unfold Assembly.checkAppend
  split
  · exact .bind (h.typeName hS) fun _ => .ofThrow _
  · refine .ofGet fun p q hR => ?_
    rw [Progress.count_eq (h.tally hR)]
    split
    · exact Alike.bind (h.typeName hS) (fun _ => .ofThrow _) p q hR
    · exact ⟨rfl, hR⟩
  · exact .ofPure _

theorem append : Alike R (a.append parent caps view) (a.append parent caps view) := by
  refine .bind (h.checkAppend hS) fun _ => .bind (h.tell hS _) fun _ => .ofModify fun p q hR => ?_
  obtain ⟨hAppended, hNumber⟩ := Prod.mk.inj (h.tally hR)
  rw [Progress.count_eq (h.tally hR), hAppended, hNumber]
  exact h.withAppended _ hR

/-- Child elements with the same name are started alike, if as raw elements they would be handed
over alike. -/
theorem start {e e' : Element} (hName : e'.name = e.name)
    (hResolve : Alike R (Building.registering (a.library.resolve a.registry e.name))
      (Building.registering (a.library.resolve a.registry e.name)))
    (leading : List Instruction)
    (hAttributes : ∀ p q, R p q →
      (Building.registering (a.library.resolve a.registry e.name) p).1 = .ok none →
      e'.attributes = e.attributes)
    (hChildren : e'.children.isEmpty = e.children.isEmpty) (hTrailing : e'.trailing = e.trailing)
    (hText : e'.text = e.text) :
    Alike R (a.start parent caps e leading) (a.start parent caps e' leading) := by
  intro p q hR
  obtain ⟨hAnswer, hNext⟩ := hResolve p q hR
  have hNone := hAttributes p q hR
  unfold Assembly.start
  rw [Assembly.componentOf_eq, Assembly.componentOf_eq, hName, run_bind, run_bind]
  revert hAnswer hNext hNone
  generalize Building.registering (a.library.resolve a.registry e.name) p = first
  generalize Building.registering (a.library.resolve a.registry e.name) q = second
  obtain ⟨answer, p'⟩ := first
  obtain ⟨answer', q'⟩ := second
  rintro ⟨⟩ hNext hNone
  match answer with
  | .error failure => exact ⟨rfl, hNext⟩
  | .ok (some c) =>
    exact Alike.bind (h.checkAppend hS)
      (fun _ => .bind (h.instantiate hS c) fun _ => .ofPure _) p' q' hNext
  | .ok none =>
    exact Alike.check (.bind (h.deliverAll hS leading) fun _ =>
      .bind (h.deliverRaw hS hName (hNone rfl) hChildren hTrailing hText) fun _ => .ofPure _)
      p' q' hNext

end Counting

/-! ## Owners -/

/-- States of builds that have come equally far with the objects and with what the owner is owed. -/
structure Owing (R : Progress → Progress → Prop) : Prop extends Framed Eq R where
  outlets {p q : Progress} : R p q → q.outlets = p.outlets
  links {p q : Progress} : R p q → q.links = p.links
  bindings {p q : Progress} : R p q → q.bindings = p.bindings
  withOutlets {p q : Progress} (outlets : List (String × ObjectId)) : R p q →
    R { p with outlets } { q with outlets }
  withLinks {p q : Progress} (links : List Binding) : R p q → R { p with links } { q with links }
  withBindings {p q : Progress} (bindings : Bindings) : R p q →
    R { p with bindings } { q with bindings }

/-- States that differ in their registries and resources only, and in which the rest may be changed
on both sides. -/
structure Outlying (R : Progress → Progress → Prop) : Prop where
  same {p q : Progress} : R p q → ∃ registries loader, q = { p with registries, loader }
  other {p q : Progress} (p' : Progress) : R p q → p'.registries = p.registries →
    p'.loader = p.loader → R p' { p' with registries := q.registries, loader := q.loader }

namespace Outlying

variable {R : Progress → Progress → Prop} (h : Outlying R)

include h

theorem framed : Framed Eq R where
  store hR := by obtain ⟨_, _, rfl⟩ := h.same hR; rfl
  withStore {p _ s _} hR hStore := by
    subst hStore
    obtain ⟨_, _, rfl⟩ := h.same hR
    exact h.other { p with store := s } hR rfl rfl
  noted {p _} step hR := by
    obtain ⟨_, _, rfl⟩ := h.same hR
    exact h.other { p with journal := p.journal ++ [step] } hR rfl rfl

theorem counting : Counting Eq R where
  __ := h.framed
  tally hR := by obtain ⟨_, _, rfl⟩ := h.same hR; rfl
  withAppended {p _} appended hR := by
    obtain ⟨_, _, rfl⟩ := h.same hR
    exact h.other { p with appended } hR rfl rfl

theorem owing : Owing R where
  __ := h.framed
  outlets hR := by obtain ⟨_, _, rfl⟩ := h.same hR; rfl
  links hR := by obtain ⟨_, _, rfl⟩ := h.same hR; rfl
  bindings hR := by obtain ⟨_, _, rfl⟩ := h.same hR; rfl
  withOutlets {p _} outlets hR := by
    obtain ⟨_, _, rfl⟩ := h.same hR
    exact h.other { p with outlets } hR rfl rfl
  withLinks {p _} links hR := by
    obtain ⟨_, _, rfl⟩ := h.same hR
    exact h.other { p with links } hR rfl rfl
  withBindings {p _} bindings hR := by
    obtain ⟨_, _, rfl⟩ := h.same hR
    exact h.other { p with bindings } hR rfl rfl

end Outlying

namespace Owing

variable {a : Assembly} {R : Progress → Progress → Prop} {id : ObjectId} (h : Owing R)

include h

theorem typeName : Alike R (a.typeName id) (a.typeName id) :=
  h.toFramed.typeName (Store.unseen_eq _)

theorem scene : Alike R a.scene a.scene := by
  refine .ofGet fun p q hR => ?_
  rw [h.store hR]
  exact ⟨rfl, hR⟩

private theorem addOutlet (name : String) :
    Alike R (a.addOutlet id name) (a.addOutlet id name) := by
  unfold Assembly.addOutlet
  split
  · exact .ofPure _
  · refine .bind h.scene fun sc => .bind (.ofExcept _) fun found => ?_
    split
    · refine .ofModify fun p q hR => ?_
      rw [h.outlets hR]
      exact h.withOutlets _ hR
    · exact .bind h.typeName fun _ => .ofThrow _

private theorem addLink (viewPath ownerPath : String) :
    Alike R (a.addLink id viewPath ownerPath) (a.addLink id viewPath ownerPath) := by
  unfold Assembly.addLink
  split
  · exact .ofThrow _
  · refine .bind h.scene fun sc => .bind (.ofExcept _) fun _ => .bind (.ofExcept _) fun _ => ?_
    split
    · exact .bind h.typeName fun _ => .ofThrow _
    · refine .ofModify fun p q hR => ?_
      rw [h.links hR]
      exact h.withLinks _ hR

/-- The attributes of an element are taken in alike, if values are fetched alike. -/
theorem takeAttributes {files : Files} (hFetch : ∀ sc target name raw, Alike R
      (Building.fetching (Scene.assign sc a.decoder a.files target name raw))
      (Building.fetching (Scene.assign sc a.decoder files target name raw)))
    (attributes : Table String String) :
    Alike R (a.takeAttributes id attributes) ({ a with files }.takeAttributes id attributes) := by
  rw [Assembly.takeAttributes_eq, Assembly.takeAttributes_eq]
  exact .bind (.forM (h.assignProperty hFetch) _) fun _ =>
    .bind (.forM h.addOutlet _) fun _ => .forM (fun _ => h.addLink _ _) _

private theorem commitOutlets {files : Files} (owner : ObjectId)
    (outlets : List (String × ObjectId)) :
    Alike R (a.commitOutlets owner outlets) ({ a with files }.commitOutlets owner outlets) := by
  induction outlets with
  | nil => exact .ofPure _
  | cons outlet rest ih =>
    unfold Assembly.commitOutlets
    refine .bind h.scene fun sc => .bind (.ofExcept _) fun store => ?_
    exact .bind (.ofModify fun _ _ hR => h.withStore hR rfl) fun _ => ih

private theorem commitLinks {files : Files} (links : List Binding) :
    Alike R (a.commitLinks links) ({ a with files }.commitLinks links) := by
  induction links with
  | nil => exact .ofPure _
  | cons b rest ih =>
    have hRest (held : Bindings) : Alike R
        (do
          let bindings ← Building.ofExcept (held.register (← a.scene) b)
          modify fun p => { p with bindings }
          a.commitLinks rest)
        (do
          let bindings ← Building.ofExcept (held.register (← a.scene) b)
          modify fun p => { p with bindings }
          Assembly.commitLinks { a with files } rest) :=
      .bind h.scene fun sc => .bind (.ofExcept _) fun bindings =>
        .bind (.ofModify fun _ _ hR => h.withBindings _ hR) fun _ => ih
    unfold Assembly.commitLinks
    refine .ofGet fun p q hR => ?_
    rw [h.bindings hR]
    exact hRest p.bindings p q hR

/-- What was noted down is given to the owner alike; files have no part in that. -/
theorem commit {files : Files} : Alike R a.commit { a with files }.commit := by
  have hLinks : Alike R (do a.commitLinks (← get).links)
      (do Assembly.commitLinks { a with files } (← get).links) := by
    refine .ofGet fun p q hR => ?_
    rw [h.links hR]
    exact h.commitLinks _ p q hR
  unfold Assembly.commit
  dsimp only
  split
  · refine .ofGet fun p q hR => ?_
    rw [h.outlets hR]
    exact Alike.bind (h.commitOutlets _ _) (fun _ => hLinks) p q hR
  · exact hLinks

end Owing
end ViewMarkup
