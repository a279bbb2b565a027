import ViewMarkup.Build.Document
import ViewMarkup.Proofs.Outcome

/-!
# What elements ask of the owner

The attributes of an element may ask for an outlet and for bindings. Both are noted down when the
attributes are taken in, and nowhere else: all other parts of a build are `Silent`, whether they
succeed or fail. `Noting` says of an action what it notes down if it succeeds.

## Main results

* `Assembly.takeAttributes_noting` — what is noted down for an element.
* `Assembly.start_silent`, `Assembly.startRoot_silent`, `Assembly.append_silent`,
  `Assembly.findIncluded_silent` — the parts of a build that note nothing down.
-/

namespace ViewMarkup

open Text

/-! ## Requests of an element -/

namespace Settings

/-- The outlet that attributes ask for: the last one under the name for outlets, unless it is
blank. -/
def outlet? (s : Settings) (attributes : Table String String) : Option String :=
  ((Table.get? attributes.reverse s.outletAttribute).map trim).filter fun name => !name.isEmpty

/-- The path of a view that an attribute binds, if it binds one. -/
def boundPath? (s : Settings) (key : String) : Option String :=
  let start := s.bindPrefix.toList
  if key ≠ s.outletAttribute ∧ start.isPrefixOf key.toList then
    some (String.ofList (key.toList.drop start.length))
  else none

/-- The bindings that attributes ask for, in order: a path of the view and a path of the owner. -/
def binds (s : Settings) (attributes : Table String String) : List (String × String) :=
  attributes.filterMap fun (key, value) =>
    (s.boundPath? key).map fun viewPath => (viewPath, trim value)

end Settings

namespace Assembly

/-- The outlet that an element asks for, with the instance that was built for the element. -/
def outletsAt (a : Assembly) (e : Element) (id : ObjectId) : List (String × ObjectId) :=
  a.owner.toList.flatMap fun _ =>
    (a.settings.outlet? e.attributes).toList.map fun name => (name, id)

/-- The bindings that an element asks for, each between the owner and the instance that was built
for the element. -/
def linksAt (a : Assembly) (e : Element) (id : ObjectId) : List Binding :=
  a.owner.toList.flatMap fun owner =>
    (a.settings.binds e.attributes).map fun (viewPath, ownerPath) =>
      ⟨owner, ownerPath, id, viewPath⟩

end Assembly

/-! ## Noting down -/

/-- What was noted down when a build went on from `p` to `p'`. -/
structure Progress.Notes (outlets : List (String × ObjectId)) (links : List Binding)
    (p p' : Progress) : Prop where
  outlets : p'.outlets = p.outlets ++ outlets
  links : p'.links = p.links ++ links

theorem Progress.Notes.ofSame {p p' : Progress} (hOutlets : p'.outlets = p.outlets)
    (hLinks : p'.links = p.links) : p.Notes [] [] p' :=
  ⟨by rw [hOutlets, List.append_nil], by rw [hLinks, List.append_nil]⟩

theorem Progress.Notes.trans {outlets outlets' : List (String × ObjectId)}
    {links links' : List Binding} {p p' p'' : Progress} (h : p.Notes outlets links p')
    (h' : p'.Notes outlets' links' p'') :
    p.Notes (outlets ++ outlets') (links ++ links') p'' where
  outlets := by rw [h'.outlets, h.outlets, List.append_assoc]
  links := by rw [h'.links, h.links, List.append_assoc]

/-- An action that notes nothing down, whether it succeeds or fails. -/
def Silent {α : Type} (x : Building α) : Prop := ∀ p : Progress, p.Notes [] [] (x p).2

/-- An action that notes down what is given if it succeeds. -/
def Noting {α : Type} (outlets : List (String × ObjectId)) (links : List Binding) (x : Building α) :
    Prop :=
  ∀ p : Progress, Yields x p (fun _ => p.Notes outlets links) fun _ => True

namespace Silent

variable {α β : Type} {x : Building α} {f : α → Building β}

theorem ofPure {r : α} : Silent (pure r : Building α) := fun _ => .ofSame rfl rfl

theorem ofThrow {failure : Failure} : Silent (throw failure : Building α) :=
  fun _ => .ofSame rfl rfl

theorem ofGet : Silent (get : Building Progress) := fun _ => .ofSame rfl rfl

theorem bind (hx : Silent x) (hf : ∀ r, Silent (f r)) : Silent (x >>= f) := by
  intro p
  have hFirst := hx p
  rw [run_bind]
  generalize x p = run at hFirst
  obtain ⟨answer, p'⟩ := run
  cases answer with
  | error failure => exact hFirst
  | ok r => exact hFirst.trans (hf r p')

theorem ofExcept {y : Except Failure α} : Silent (Building.ofExcept y) := by
  cases y with
  | ok r => exact ofPure
  | error failure => exact ofThrow

theorem registering {act : Registering α} : Silent (Building.registering act) :=
  fun _ => .ofSame rfl rfl

theorem loading {act : Loading α} : Silent (Building.loading act) := fun _ => .ofSame rfl rfl

private theorem fetching {act : Fetching α} : Silent (Building.fetching act) := by
  intro p
  unfold Building.fetching
  split
  · exact .ofSame rfl rfl
  · exact .ofSame rfl rfl

private theorem acting {a : Assembly} {act : Acting α} : Silent (a.acting act) :=
  fun _ => .ofSame rfl rfl

theorem note {step : Step} : Silent (Building.note step) := fun _ => .ofSame rfl rfl

theorem storing {s : Store} : Silent (modify fun p => { p with store := s } : Building Unit) :=
  fun _ => .ofSame rfl rfl

/-- A check in front of an action. -/
theorem check {c : Prop} [Decidable c] {failure : Failure} (hx : Silent x) :
    Silent (if c then (do throw failure; x) else x) := by
  split
  · exact ofThrow.bind fun _ => hx
  · exact hx

theorem ofCatch {handle : Failure → Building α} (hx : Silent x)
    (hHandle : ∀ failure, Silent (handle failure)) : Silent (tryCatch x handle) := by
  intro p
  have hFirst := hx p
  rw [run_tryCatch]
  generalize x p = run at hFirst
  obtain ⟨answer, p'⟩ := run
  cases answer with
  | ok r => exact hFirst
  | error failure => exact hFirst.trans (hHandle failure p')

theorem forM {ι : Type} {g : ι → Building Unit} (h : ∀ i, Silent (g i)) (is : List ι) :
    Silent (is.forM g) := by
  induction is with
  | nil => exact ofPure
  | cons i is ih => exact (h i).bind fun _ => ih

theorem noting (hx : Silent x) : Noting [] [] x := by
  intro p
  have hEnd := hx p
  constructor
  · intro r p' hRun
    rwa [hRun] at hEnd
  · intro _ _ _
    trivial

end Silent

namespace Noting

variable {α β : Type} {outlets outlets' : List (String × ObjectId)} {links links' : List Binding}
  {x : Building α} {f : α → Building β}

theorem bind (hx : Noting outlets links x) (hf : ∀ r, Noting outlets' links' (f r)) :
    Noting (outlets ++ outlets') (links ++ links') (x >>= f) := by
  intro p
  refine .bind (hx p) fun r p' h => ?_
  exact (hf r p').mono (fun _ _ h' => h.trans h') fun _ h' => h'

/-- An action whose first half notes nothing down. -/
theorem andThen (hx : Silent x) (hf : ∀ r, Noting outlets links (f r)) :
    Noting outlets links (x >>= f) :=
  hx.noting.bind hf

theorem ofThrow {failure : Failure} : Noting outlets links (throw failure : Building α) :=
  fun _ => .ofThrow trivial

theorem forM {ι : Type} {g : ι → Building Unit} {noted : ι → List Binding}
    (h : ∀ i, Noting [] (noted i) (g i)) (is : List ι) :
    Noting [] (is.flatMap noted) (is.forM g) := by
  induction is with
  | nil => exact Silent.ofPure.noting
  | cons i is ih =>
    rw [List.flatMap_cons]
    exact (h i).bind fun _ => ih

end Noting

namespace Assembly

variable {a : Assembly} {id : ObjectId} {caps : Capabilities}

/-! ## Parts that note nothing down -/

theorem scene_silent : Silent a.scene := Silent.ofGet.bind fun _ => .ofPure

theorem typeName_silent : Silent (a.typeName id) := scene_silent.bind fun _ => .ofPure

theorem tell_silent (call : Call) : Silent (a.tell id call) := Silent.note.bind fun _ => .acting

theorem deliver_silent (i : Instruction) : Silent (a.deliver id caps i) := by
  unfold deliver
  dsimp only
  split
  · refine (tell_silent _).ofCatch fun failure => ?_
    split
    · split
      · exact .ofPure
      · exact .ofThrow
    · exact .ofThrow
  · split
    · exact .ofPure
    · exact typeName_silent.bind fun _ => .ofThrow

theorem deliverAll_silent (is : List Instruction) : Silent (a.deliverAll id caps is) :=
  .forM deliver_silent is

theorem takeText_silent (name text : String) : Silent (a.takeText id caps name text) := by
  unfold takeText
  dsimp only
  split
  · exact .ofPure
  · exact .check (tell_silent _)

private theorem deliverRaw_silent (e : Element) : Silent (a.deliverRaw id e) :=
  .check (.check (.check (tell_silent _)))

theorem checkAppend_silent : Silent (a.checkAppend id caps) := by
  unfold checkAppend
  split
  · exact typeName_silent.bind fun _ => .ofThrow
  · refine Silent.ofGet.bind fun _ => ?_
    split
    · exact typeName_silent.bind fun _ => .ofThrow
    · exact .ofPure
  · exact .ofPure

theorem append_silent (view : ObjectId) : Silent (a.append id caps view) :=
  checkAppend_silent.bind fun _ => (tell_silent _).bind fun _ _ => .ofSame rfl rfl

theorem instantiate_silent (c : Component) : Silent (a.instantiate c) :=
  Silent.ofGet.bind fun _ => Silent.ofExcept.bind fun _ => Silent.storing.bind fun _ =>
    Silent.note.bind fun _ => .ofPure

private theorem componentOf_silent (e : Element) : Silent (a.componentOf caps e) := by
  unfold componentOf
  split
  · exact Silent.ofGet.bind fun _ => .ofPure
  · exact .registering

theorem start_silent (e : Element) (leading : List Instruction) :
    Silent (a.start id caps e leading) := by
  refine (componentOf_silent e).bind fun c? => ?_
  cases c? with
  | some c => exact checkAppend_silent.bind fun _ => (instantiate_silent c).bind fun _ => .ofPure
  | none =>
    exact .check ((deliverAll_silent leading).bind fun _ =>
      (deliverRaw_silent e).bind fun _ => .ofPure)

theorem findIncluded_silent (stack : List String) (name : String) :
    Silent (a.findIncluded stack id caps name) :=
  .check (.check (checkAppend_silent.bind fun _ => .loading))

private theorem rootInstance_silent (e : Element) (root : Option ObjectId) :
    Silent (a.rootInstance e root) := by
  unfold rootInstance
  dsimp only
  split
  · split
    · exact .ofThrow
    · refine Silent.ofGet.bind fun p => ?_
      split
      · exact Silent.ofExcept.bind fun _ => .ofPure
      · exact .ofPure
  · refine Silent.registering.bind fun c? => ?_
    split
    · exact .ofThrow
    · split
      · exact (instantiate_silent _).bind fun _ => .ofPure
      · refine Silent.ofGet.bind fun p => ?_
        split
        · exact .ofPure
        · exact typeName_silent.bind fun _ => .ofThrow

theorem startRoot_silent (e : Element) (root : Option ObjectId) : Silent (a.startRoot e root) :=
  (rootInstance_silent e root).bind fun _ => .check .ofPure

/-! ## Attributes -/

/-- What an attribute adds to the requests of an element. -/
def request (a : Assembly) (rs : Requests) (entry : String × String) : Requests where
  outlet := if entry.1 = a.settings.outletAttribute then some (trim entry.2) else rs.outlet
  binds := rs.binds ++
    ((a.settings.boundPath? entry.1).map fun viewPath => (viewPath, trim entry.2)).toList

private theorem takeAttribute_noting (rs : Requests) (entry : String × String) (p : Progress) :
    Yields (a.takeAttribute id rs entry) p
      (fun rs' p' => rs' = a.request rs entry ∧ p.Notes [] [] p') fun _ => True := by
  obtain ⟨key, value⟩ := entry
  have hSame : p.Notes [] [] p := .ofSame rfl rfl
  unfold takeAttribute
  dsimp only
  by_cases hOutlet : key = a.settings.outletAttribute
  · have hRequest : a.request rs (key, value) = { rs with outlet := some (trim value) } := by
      simp [request, Settings.boundPath?, hOutlet]
    rw [if_pos hOutlet, hRequest]
    exact .ofPure ⟨rfl, hSame⟩
  · by_cases hBind : a.settings.bindPrefix.toList.isPrefixOf key.toList = true
    · have hRequest : a.request rs (key, value) = { rs with binds := rs.binds ++ [
          (String.ofList (key.toList.drop a.settings.bindPrefix.toList.length), trim value)] } := by
        simp [request, Settings.boundPath?, hOutlet, hBind]
      rw [if_neg hOutlet, if_pos hBind, hRequest]
      exact .ofPure ⟨rfl, hSame⟩
    · have hRequest : a.request rs (key, value) = rs := by
        simp [request, Settings.boundPath?, hOutlet, hBind]
      rw [if_neg hOutlet, if_neg hBind, hRequest]
      have hAssign : Silent (a.assignProperty id (key, value)) :=
        scene_silent.bind fun _ => Silent.note.bind fun _ => Silent.fetching.bind fun _ => .storing
      exact .bind (hAssign.noting p) fun _ p' h => .ofPure ⟨rfl, h⟩

theorem foldl_request (attributes : Table String String) (rs : Requests) :
    attributes.foldl a.request rs =
      { outlet := ((Table.get? attributes.reverse a.settings.outletAttribute).map trim).or rs.outlet
        binds := rs.binds ++ a.settings.binds attributes } := by
  induction attributes generalizing rs with
  | nil => simp [Table.get?, Settings.binds]
  | cons entry attributes ih =>
    rw [List.foldl_cons, ih]
    obtain ⟨key, value⟩ := entry
    have hOutlet : ((Table.get? attributes.reverse a.settings.outletAttribute).map trim).or
          (a.request rs (key, value)).outlet =
        ((Table.get? ((key, value) :: attributes).reverse a.settings.outletAttribute).map trim).or
          rs.outlet := by
      rw [List.reverse_cons, Table.get?_append]
      by_cases hKey : key = a.settings.outletAttribute <;>
        cases Table.get? attributes.reverse a.settings.outletAttribute <;>
          simp [request, Table.get?, hKey]
    have hBinds : (a.request rs (key, value)).binds ++ a.settings.binds attributes =
        rs.binds ++ a.settings.binds ((key, value) :: attributes) := by
      cases hPath : a.settings.boundPath? key <;> simp [request, Settings.binds, hPath]
    rw [hOutlet, hBinds]

/-- Taking the attributes in gives all that they request. -/
theorem foldlM_takeAttribute_noting (attributes : Table String String) (rs : Requests)
    (p : Progress) :
    Yields (attributes.foldlM (a.takeAttribute id) rs) p
      (fun rs' p' => rs' = attributes.foldl a.request rs ∧ p.Notes [] [] p') fun _ => True := by
  induction attributes generalizing rs p with
  | nil => exact .ofPure ⟨rfl, .ofSame rfl rfl⟩
  | cons entry attributes ih =>
    rw [List.foldlM_cons]
    refine .bind (takeAttribute_noting rs entry p) ?_
    rintro rs' p' ⟨rfl, h⟩
    exact (ih _ p').mono (fun _ _ h' => ⟨h'.1, h.trans h'.2⟩) fun _ h' => h'

private theorem addOutlet_noting (name : String) :
    Noting (a.owner.toList.map fun _ => (name, id)) [] (a.addOutlet id name) := by
  unfold addOutlet
  cases a.owner with
  | none => exact Silent.ofPure.noting
  | some owner =>
    refine .andThen scene_silent fun sc => .andThen .ofExcept fun found => ?_
    split
    · exact fun p => .ofModify ⟨rfl, (List.append_nil _).symm⟩
    · exact .andThen typeName_silent fun _ => .ofThrow

private theorem addLink_noting (viewPath ownerPath : String) :
    Noting [] (a.owner.toList.map fun owner => ⟨owner, ownerPath, id, viewPath⟩)
      (a.addLink id viewPath ownerPath) := by
  unfold addLink
  cases a.owner with
  | none => exact .ofThrow
  | some owner =>
    refine .andThen scene_silent fun sc => .andThen .ofExcept fun _ => .andThen .ofExcept fun _ =>
      ?_
    split
    · exact .andThen typeName_silent fun _ => .ofThrow
    · exact fun p => .ofModify ⟨(List.append_nil _).symm, rfl⟩

/-- The outlet of an element and its bindings are noted down with the instance of the element. -/
theorem takeAttributes_noting (e : Element) :
    Noting (a.outletsAt e id) (a.linksAt e id) (a.takeAttributes id e.attributes) := by
  have hLinks : Noting [] (a.linksAt e id)
      ((a.settings.binds e.attributes).forM fun bind => a.addLink id bind.1 bind.2) := by
    have hEach (bind : String × String) :
        Noting [] (a.owner.toList.map fun owner => (⟨owner, bind.2, id, bind.1⟩ : Binding))
          (a.addLink id bind.1 bind.2) := addLink_noting bind.1 bind.2
    have h := Noting.forM hEach (a.settings.binds e.attributes)
    have hSame : ((a.settings.binds e.attributes).flatMap fun bind =>
        a.owner.toList.map fun owner => (⟨owner, bind.2, id, bind.1⟩ : Binding)) =
        a.linksAt e id := by
      unfold linksAt
      cases a.owner <;> simp [List.map_eq_flatMap]
    rwa [hSame] at h
  intro p
  refine .bind (foldlM_takeAttribute_noting e.attributes {} p) ?_
  rintro rs p' ⟨hRequests, hNotes⟩
  rw [foldl_request, Option.or_none, List.nil_append] at hRequests
  subst hRequests
  cases hOutlet : (Table.get? e.attributes.reverse a.settings.outletAttribute).map trim with
  | none =>
    have hNone : a.outletsAt e id = [] := by simp [outletsAt, Settings.outlet?, hOutlet]
    rw [hNone]
    exact (hLinks p').mono (fun _ _ h => hNotes.trans h) fun _ h => h
  | some name =>
    dsimp only
    split
    · next hName =>
      have hSome : a.outletsAt e id = a.owner.toList.map fun _ => (name, id) := by
        have hKept : name.isEmpty = false := by simpa using hName
        simp [outletsAt, Settings.outlet?, hOutlet, Option.filter, hKept, List.map_eq_flatMap]
      rw [hSome]
      have hAdd : Noting (a.owner.toList.map fun _ => (name, id)) [] (a.addOutlet id name) :=
        addOutlet_noting name
      have hBoth := hAdd.bind fun _ => hLinks
      rw [List.append_nil] at hBoth
      exact (hBoth p').mono (fun _ _ h => hNotes.trans h) fun _ h => h
    · next hName =>
      have hNone : a.outletsAt e id = [] := by
        have hBlank : name.isEmpty = true := by simpa using hName
        simp [outletsAt, Settings.outlet?, hOutlet, Option.filter, hBlank]
      rw [hNone]
      exact (hLinks p').mono (fun _ _ h => hNotes.trans h) fun _ h => h

end Assembly
end ViewMarkup
