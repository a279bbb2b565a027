import ViewMarkup.Fetch
import ViewMarkup.Object.Attribute

/-!
# Assigning properties

An attribute of an element assigns a property of its component. A dotted name goes through the
objects of properties that hold objects; none of them is ever made on the way.

## Main results

- `Scene.locate_settable`: only settable properties are found.
-/

namespace ViewMarkup

open Text

namespace Scene

/-- Follows the parts of a dotted name to the property that it names and the object that has it. An
empty last part counts as none. -/
def locate (sc : Scene) : Value → List String → Except Failure (Value × Property)
  | v, [] => .error (.of (.property (.undeclared (sc.typeName v) "")))
  | v, name :: rest => do
    match (sc.propertiesOf v).get? name with
    | none => throw (.of (.property (.undeclared (sc.typeName v) name)))
    | some p =>
      if rest.isEmpty ∨ rest = [""] then
        if p.settable then return (v, p)
        else throw (.of (.property (.readOnly (sc.typeName v) name)))
      else if p.kind ≠ .object then throw (.of (.property (.notNested (sc.typeName v) name)))
      else
        match ← sc.attribute? v p.target with
        | none | some .none => throw (.of (.property (.unset (sc.typeName v) name)))
        | some inner => sc.locate inner rest

/-- The object that a read-only attribute of an instance is looked up in, if it is another one. -/
def lookedUpIn? (sc : Scene) (id : ObjectId) : Computed → Option ObjectId
  | .selectedValue =>
    match sc.elementAt (sc.stored id "segments") (sc.stored id "selected_segment_index") with
    | .ok (.object segment) => some segment
    | _ => none
  | .imageSize =>
    match sc.stored id "image" with
    | .object image => some image
    | _ => none
  | .controlState | .displayText => none

/-- The objects that a dotted name leads through as far as it can be followed, those included that
read-only attributes are looked up in. The last one is where the property is looked for. -/
def way (sc : Scene) : Value → List String → List ObjectId
  | .object id, name :: rest =>
    id ::
      match (sc.propertiesOf (.object id)).get? name with
      | none => []
      | some p =>
        if rest.isEmpty ∨ rest = [""] ∨ p.kind ≠ .object then []
        else
          match sc.attribute? (.object id) p.target with
          | .ok (some inner) =>
            (((sc.store.class? id).bind (sc.classes.computed? · p.target)).bind
              (sc.lookedUpIn? id)).toList ++ sc.way inner rest
          | _ => []
  | _, _ => []

/-- Assigns the value that a text stands for to the property with a name. -/
def assign (sc : Scene) (d : Decoder) (fs : Files) (target : Value) (name raw : String) :
    Fetching Store := do
  let (owner, p) ← (sc.locate target (splitOn '.' name) : Except Failure _)
  let v ← d.fetchProperty fs p raw
  (sc.setAttribute owner p.target v : Except Failure Store)

/-- Only settable properties are found. -/
theorem locate_settable {sc : Scene} {v owner : Value} {names : List String} {p : Property}
    (h : sc.locate v names = .ok (owner, p)) : p.settable = true := by
  induction names generalizing v with
  | nil => simp [locate] at h
  | cons name rest ih =>
    unfold locate at h
    split at h
    · cases h
    · next q _ =>
      split at h
      · split at h
        · next hs => cases h; exact hs
        · cases h
      · split at h
        · cases h
        · cases hAttr : sc.attribute? v q.target with
          | error _ => simp [hAttr, bind, Except.bind] at h
          | ok inner? =>
            simp only [hAttr, bind, Except.bind] at h
            split at h
            · cases h
            · cases h
            · exact ih h

end Scene
end ViewMarkup
