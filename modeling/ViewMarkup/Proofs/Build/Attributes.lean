import ViewMarkup.Proofs.Build.Child
import ViewMarkup.Proofs.Build.Commit
import ViewMarkup.Proofs.Build.Requests

/-!
# The attributes of an element

The attributes of an element are of three kinds: the outlet, bindings, and properties of its
instance. While they are taken in one after the other only properties do something; the others are
collected. So all properties are assigned first, in order, then the outlet is noted down and then
the bindings, wherever they stand.

## Main results

* `Assembly.takeAttributes_eq` — the attributes are taken in as three lists.
* `Assembly.takeRequests_yields` — what the outlet and the bindings come to.
-/

namespace ViewMarkup

open Text

/-- Whether an attribute is a property of the instance: it is not the outlet, and no binding. -/
def Settings.isProperty (s : Settings) (key : String) : Bool :=
  key ≠ s.outletAttribute && !s.bindPrefix.toList.isPrefixOf key.toList

/-- The properties among attributes, in order. -/
def Settings.properties (s : Settings) (attributes : Table String String) :
    List (String × String) :=
  attributes.filter fun entry => s.isProperty entry.1

private theorem Settings.properties_cons (s : Settings) (entry : String × String)
    (attributes : Table String String) : s.properties (entry :: attributes) =
      if s.isProperty entry.1 then entry :: s.properties attributes else s.properties attributes :=
  List.filter_cons

namespace Assembly

variable {a : Assembly} {id : ObjectId}

/-- An attribute is assigned if it is a property, and else adds to the requests. -/
theorem takeAttribute_eq (rs : Requests) (entry : String × String) :
    a.takeAttribute id rs entry =
      if a.settings.isProperty entry.1 then (do
        a.assignProperty id entry
        return a.request rs entry)
      else return a.request rs entry := by
  obtain ⟨key, value⟩ := entry
  unfold takeAttribute request Settings.boundPath? Settings.isProperty
  by_cases hOutlet : key = a.settings.outletAttribute
  · simp [hOutlet]
  · by_cases hBind : a.settings.bindPrefix.toList.isPrefixOf key.toList = true
    · simp [hOutlet, hBind]
    · simp [hOutlet, hBind]

private theorem foldlM_takeAttribute_eq (attributes : Table String String) (rs : Requests) :
    attributes.foldlM (a.takeAttribute id) rs = (do
      (a.settings.properties attributes).forM (a.assignProperty id)
      return attributes.foldl a.request rs) := by
  induction attributes generalizing rs with
  | nil => rfl
  | cons entry attributes ih =>
    rw [List.foldlM_cons, takeAttribute_eq, List.foldl_cons, Settings.properties_cons]
    split
    · have hFirst : (entry :: a.settings.properties attributes).forM (a.assignProperty id) = (do
          a.assignProperty id entry
          (a.settings.properties attributes).forM (a.assignProperty id)) := rfl
      simp only [hFirst, bind_assoc, pure_bind, ih]
    · rw [pure_bind, ih]

/-- The attributes of an element are taken in as three lists: properties, outlet and bindings. -/
theorem takeAttributes_eq (attributes : Table String String) :
    a.takeAttributes id attributes = (do
      (a.settings.properties attributes).forM (a.assignProperty id)
      (a.settings.outlet? attributes).toList.forM (a.addOutlet id)
      (a.settings.binds attributes).forM fun bind => a.addLink id bind.1 bind.2) := by
  unfold takeAttributes
  rw [foldlM_takeAttribute_eq, foldl_request, bind_assoc]
  refine congrArg _ (funext fun _ => ?_)
  rw [pure_bind, Option.or_none, List.nil_append]
  unfold Settings.outlet?
  cases (Table.get? attributes.reverse a.settings.outletAttribute).map trim with
  | none => rfl
  | some name =>
    dsimp only
    by_cases hBlank : name.isEmpty = true
    · simp [hBlank, Option.filter]
    · simp [hBlank, Option.filter]

/-! ## Noting down -/

/-- Whether an outlet is noted down, which it is not if the owner has no field for it. -/
def takesOutlet (a : Assembly) (s : Store) (name : String) : Bool :=
  a.owner.all fun owner => isIdentifier name &&
    (hasField { classes := a.library.classes, store := s } owner name).toOption.getD false

/-- Whether a binding is noted down: there has to be an owner for whom it could be registered. -/
def takesLink (a : Assembly) (id : ObjectId) (s : Store) (bind : String × String) : Bool :=
  a.owner.any fun owner => a.registers s ⟨owner, bind.2, id, bind.1⟩

private theorem addOutlet_yields (name : String) (p : Progress) : Yields (a.addOutlet id name) p
    (fun _ p' => a.takesOutlet p.store name = true ∧
      p' = { p with outlets := p.outlets ++ a.owner.toList.map fun _ => (name, id) })
    (fun _ => a.takesOutlet p.store name = false) := by
  unfold addOutlet takesOutlet
  cases a.owner with
  | none => exact .ofPure ⟨rfl, by simp⟩
  | some owner =>
    refine yields_scene_bind ?_
    cases hField : hasField { classes := a.library.classes, store := p.store } owner name with
    | error e => exact .ofError rfl (by simp [hField, Except.toOption])
    | ok found =>
      refine .bind (P := fun r q => r = found ∧ q = p) (.ofOk rfl ⟨rfl, rfl⟩) ?_
      rintro _ _ ⟨rfl, rfl⟩
      split
      · next h => exact .ofModify ⟨by simpa [hField, Except.toOption] using h, rfl⟩
      · next h => exact .ofError rfl (by simpa [hField, Except.toOption] using h)

private theorem addLink_yields (viewPath ownerPath : String) (p : Progress) :
    Yields (a.addLink id viewPath ownerPath) p
      (fun _ p' => a.takesLink id p.store (viewPath, ownerPath) = true ∧
        p' = { p with
          links := p.links ++ a.owner.toList.map fun owner => ⟨owner, ownerPath, id, viewPath⟩ })
      (fun _ => a.takesLink id p.store (viewPath, ownerPath) = false) := by
  unfold addLink takesLink
  cases a.owner with
  | none => exact .ofThrow rfl
  | some owner =>
    refine yields_scene_bind ?_
    unfold registers Bindings.register
    dsimp only [Option.any_some]
    cases hOwner : Scene.readPath { classes := a.library.classes, store := p.store }
        (.object owner) ownerPath with
    | error e => exact .ofError rfl rfl
    | ok v =>
      cases hView : Scene.readPath { classes := a.library.classes, store := p.store }
          (.object id) viewPath with
      | error e => exact .ofError rfl rfl
      | ok v' =>
        refine .bind (P := fun _ q => q = p) (.ofOk rfl rfl) ?_
        rintro _ p rfl
        refine .bind (P := fun _ q => q = p) (.ofOk rfl rfl) ?_
        rintro _ p rfl
        cases hFind : [owner, id].find? (!p.store.isReferable ·) with
        | some blocked => exact .ofError rfl rfl
        | none => exact .ofModify ⟨rfl, rfl⟩

/-- Whether all is noted down that attributes ask for. -/
def takesRequests (a : Assembly) (id : ObjectId) (s : Store) (attributes : Table String String) :
    Bool :=
  (a.settings.outlet? attributes).all (a.takesOutlet s) &&
    (a.settings.binds attributes).all (a.takesLink id s)

/-- What is noted down for an instance that was built for an element with some attributes. -/
def noteRequests (a : Assembly) (id : ObjectId) (attributes : Table String String) (p : Progress) :
    Progress :=
  { p with
    outlets := p.outlets ++ a.owner.toList.flatMap fun _ =>
      (a.settings.outlet? attributes).toList.map fun name => (name, id)
    links := p.links ++ a.owner.toList.flatMap fun owner =>
      (a.settings.binds attributes).map fun bind => ⟨owner, bind.2, id, bind.1⟩ }

private theorem addLinks_yields (binds : List (String × String)) (p : Progress) :
    Yields (binds.forM fun bind => a.addLink id bind.1 bind.2) p
      (fun _ p' => binds.all (a.takesLink id p.store) = true ∧
        p' = { p with
          links := p.links ++ a.owner.toList.flatMap fun owner =>
            binds.map fun bind => ⟨owner, bind.2, id, bind.1⟩ })
      (fun _ => binds.all (a.takesLink id p.store) = false) := by
  induction binds generalizing p with
  | nil => exact .ofPure ⟨rfl, by cases a.owner <;> simp⟩
  | cons bind rest ih =>
    refine .bind ((addLink_yields bind.1 bind.2 p).weaken fun _ h => by simp [h]) ?_
    rintro _ _ ⟨hTaken, rfl⟩
    refine (ih _).mono ?_ fun _ h => by simp_all
    rintro _ _ ⟨hRest, rfl⟩
    refine ⟨by simp_all, ?_⟩
    cases a.owner <;> simp

/-- What is asked for besides properties is noted down, if all of it can be. -/
theorem takeRequests_yields (a : Assembly) (id : ObjectId) (attributes : Table String String)
    (p : Progress) :
    Yields (do
      (a.settings.outlet? attributes).toList.forM (a.addOutlet id)
      (a.settings.binds attributes).forM fun bind => a.addLink id bind.1 bind.2) p
      (fun _ p' => a.takesRequests id p.store attributes = true ∧
        p' = a.noteRequests id attributes p)
      (fun _ => a.takesRequests id p.store attributes = false) := by
  have hOutlet : Yields ((a.settings.outlet? attributes).toList.forM (a.addOutlet id)) p
      (fun _ p' => (a.settings.outlet? attributes).all (a.takesOutlet p.store) = true ∧
        p' = { p with outlets := p.outlets ++ a.owner.toList.flatMap fun _ =>
          (a.settings.outlet? attributes).toList.map fun name => (name, id) })
      (fun _ => (a.settings.outlet? attributes).all (a.takesOutlet p.store) = false) := by
    cases a.settings.outlet? attributes with
    | none => exact .ofPure ⟨rfl, by cases a.owner <;> simp⟩
    | some name =>
      refine .bind (addOutlet_yields name p) ?_
      rintro _ _ ⟨hTaken, rfl⟩
      exact .ofPure ⟨hTaken, by cases a.owner <;> simp⟩
  unfold takesRequests
  refine .bind (hOutlet.weaken fun _ h => by simp [h]) ?_
  rintro _ _ ⟨hTaken, rfl⟩
  refine (addLinks_yields _ _).mono ?_ fun _ h => by simp [hTaken, h]
  rintro _ _ ⟨hLinks, rfl⟩
  exact ⟨by simp [hTaken, hLinks], rfl⟩

end Assembly
end ViewMarkup
