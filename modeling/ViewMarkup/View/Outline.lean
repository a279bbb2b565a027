import ViewMarkup.View.Display
import ViewMarkup.View.Query

/-!
# Outlines

The outline of a view has a line for every view of its tree, in preorder and indented by depth. The
line names the class and every settable property whose value is not the one that it starts with.

## Main results

- `Scene.outlineTo_ne_nil`: there is a line for the view itself.
-/

namespace ViewMarkup

open Text

/-- A font, the weight and slant of which are left out when they are the usual ones. -/
def outlineFont (f : Font) : String :=
  let d := f.descriptor
  let style :=
    if d.weight = 400 ∧ d.slant = "regular" then ""
    else "/" ++ toString d.weight ++ String.ofList (d.slant.toList.take 1)
  let size := match f.size with
    | .int n => ((Decimal.ofInt? n).map Decimal.writeCompact).getD ""
    | .float x => Decimal.writeCompact x
  d.family ++ style ++ "@" ++ size

namespace Scene

/-- The value of a property as it stands in an outline. -/
def outlineValue (sc : Scene) : Value → String
  | .color c => c.toHex
  | .font f => outlineFont f
  | .member m => lower m.name
  | v => sc.display v

/-- Whether a property has the value that it starts with. -/
def isAtStart (sc : Scene) (cls : ClassId) (p : Property) (v : Value) : Bool :=
  match Table.get? (sc.classes.laidDown cls) p.target with
  | some (.value start) => start.same v
  | some (.list []) => Value.same (.list []) v
  | _ => false

/-- The value of a property of an object; what is not there counts as nothing. -/
def propertyValue (sc : Scene) (id : ObjectId) (p : Property) : Except Failure Value :=
  (sc.attribute? (.object id) p.target).map (·.getD .none)

/-- The class of a view and the properties to be shown of it. -/
def outlineLine (sc : Scene) (id : ObjectId) (cls : ClassId) : Except Failure String := do
  let shown ← ((sc.classes.properties cls).map (·.2)).filterMapM fun p => do
    if !p.settable then return none
    let v ← sc.propertyValue id p
    if sc.isAtStart cls p v then return none
    return some (p.name ++ "=" ++ sc.outlineValue v)
  return joined " " (sc.classes.name cls :: shown)

/-- Whether a value is a view all of whose arranged children are such views, too. A tree that is
deeper than there are objects does not end. -/
def isViewTreeTo (sc : Scene) : (depth : Nat) → Value → Except Failure Bool
  | depth + 1, .object id => do
    if !(sc.store.class? id).any sc.classes.isView then return false
    (← sc.arrangedChildren id).allM (sc.isViewTreeTo depth)
  | 0, .object _ => .error .endlessTree
  | _, _ => .ok false

/-- Whether there can be an outline: everything that is arranged in the tree is a view. -/
def isViewTree (sc : Scene) (id : ObjectId) : Except Failure Bool :=
  sc.isViewTreeTo (sc.store.size + 1) (.object id)

/-- The lines of a view and of the views inside of it. -/
def outlineTo (sc : Scene) : (depth indent : Nat) → Value → Except Failure (List String)
  | depth + 1, indent, .object id => do
    match sc.store.class? id with
    | none => throw .noAttribute
    | some cls =>
      let line ← sc.outlineLine id cls
      let inner ← (← sc.arrangedChildren id).mapM (sc.outlineTo depth (indent + 1))
      return (String.ofList (List.replicate (2 * indent) ' ') ++ line) :: inner.flatten
  | _, _, _ => .error .noAttribute

/-- The outline of a view. -/
def outline (sc : Scene) (id : ObjectId) : Except Failure String :=
  (sc.outlineTo (sc.store.size + 1) 0 (.object id)).map (joined "\n")

/-- There is a line for the view itself. -/
theorem outlineTo_ne_nil {sc : Scene} {depth indent : Nat} {v : Value} {lines : List String}
    (h : sc.outlineTo depth indent v = .ok lines) : lines ≠ [] := by
  rintro rfl
  unfold outlineTo at h
  split at h
  · next below id =>
    split at h
    · cases h
    · next cls _ =>
      cases hLine : sc.outlineLine id cls with
      | error _ => simp [hLine, bind, Except.bind] at h
      | ok line =>
        cases hChildren : sc.arrangedChildren id with
        | error _ => simp [hLine, hChildren, bind, Except.bind] at h
        | ok children =>
          cases hInner : children.mapM (sc.outlineTo below (indent + 1)) with
          | error _ => simp [hLine, hChildren, hInner, bind, Except.bind] at h
          | ok inner =>
            simp [hLine, hChildren, hInner, bind, Except.bind, pure, Except.pure] at h
  · cases h

end Scene
end ViewMarkup
