import ViewMarkup.Proofs.Object.Reachability
import ViewMarkup.Proofs.Object.Region
import ViewMarkup.Proofs.Outcome
import ViewMarkup.Workspace

/-!
# Finding objects

A reference starts at an object that the host holds, and goes on from children to children. So what
it leads to is alive.

## Main results

* `Scene.mem_references_of_children` — an object refers to its children.
* `Workspace.reach_of_find?` — what a reference leads to can be reached from what the host holds.
* `Working.find_of_find?` — finding an object changes nothing.
-/

namespace ViewMarkup

open Text

/-- What a value runs through stands in it. -/
theorem Scene.mem_objects_of_elements {sc : Scene} {v : Value} {items : List Value} {id : ObjectId}
    (h : sc.elements v = .ok items) (hItem : .object id ∈ items) : id ∈ v.objects := by
  have hInList {items : List Value} (hMem : .object id ∈ items) :
      id ∈ Value.objectsOfList items :=
    Region.mem_objectsOfList.2 ⟨.object id, hMem, List.mem_singleton_self id⟩
  cases v with
  | list items =>
    cases h
    exact hInList hItem
  | tuple items =>
    cases h
    exact hInList hItem
  | text s =>
    cases h
    simp at hItem
  | selection rows =>
    cases h
    obtain ⟨⟨k, row⟩, -, hKey⟩ := List.mem_map.1 hItem
    cases k <;> cases hKey
  | _ => cases h

/-- An object refers to its children. -/
theorem Scene.mem_references_of_children {sc : Scene} {id child : ObjectId}
    {below : List ObjectId} (h : sc.children id = .ok below) (hChild : child ∈ below) :
    child ∈ sc.store.references id := by
  unfold children at h
  split at h
  · cases h
    cases hChild
  · split at h
    · cases h
      cases hChild
    · next v hField =>
      obtain ⟨items, hItems, rfl⟩ := exists_of_map_eq_ok h
      obtain ⟨x, hx, hObject⟩ := List.mem_filterMap.1 hChild
      cases x with
      | object c =>
        obtain ⟨cls, -, rfl⟩ := Option.map_eq_some_iff.1 hObject
        exact Store.mem_references_of_field? hField (mem_objects_of_elements hItems hx)
      | _ => cases hObject

namespace Workspace

variable {w : Workspace} {ref : String} {id child : ObjectId} {roots : List ObjectId}

private theorem reach_of_descend {sc : Scene} {indices : List String}
    (hReach : sc.store.Reach roots id)
    (h : descend sc id indices = .ok (some child)) : sc.store.Reach roots child := by
  induction indices generalizing id with
  | nil =>
    cases h
    exact hReach
  | cons i rest ih =>
    obtain ⟨children, hChildren, h⟩ := exists_of_bind_eq_ok h
    split at h
    · next next hNext =>
      obtain ⟨n, -, hAt⟩ := Option.bind_eq_some_iff.1 hNext
      have hMem : next ∈ children := List.mem_of_getElem? hAt
      exact ih (hReach.step (Scene.mem_references_of_children hChildren hMem)) h
    · cases h

/-- What a reference leads to can be reached from what the host holds. -/
theorem reach_of_find? (h : w.find? ref = .ok (some id)) : w.world.store.Reach w.roots id := by
  unfold find? at h
  split at h
  · cases h
  · split at h
    · cases h
    · next root hRoot =>
      have hHeld : root ∈ w.roots := List.mem_map_of_mem (Table.mem_of_get? hRoot)
      have hReach : w.scene.store.Reach w.roots root := .root hHeld
      exact reach_of_descend hReach h

end Workspace

namespace Working

variable {w w' : Workspace} {ref : String} {id : ObjectId}

/-- Finding an object changes nothing. -/
theorem find_of_find? (h : w.find? ref = .ok (some id)) : find ref w = (.ok id, w) := by
  unfold find
  rw [run_bind_of_eq_ok (run_get w), h]
  rfl

theorem find?_of_find (h : find ref w = (.ok id, w')) :
    w.find? ref = .ok (some id) ∧ w' = w := by
  unfold find at h
  rw [run_bind_of_eq_ok (run_get w)] at h
  cases hFind : w.find? ref with
  | error e =>
    rw [hFind] at h
    cases h
  | ok found =>
    rw [hFind] at h
    cases found with
    | none => cases h
    | some x =>
      cases h
      exact ⟨rfl, rfl⟩

end Working
end ViewMarkup
