import ViewMarkup.Proofs.Object.Footprint

/-!
# The end of a path

All segments of a path but the last one are followed to a value, and the last one is one of its
attributes. Reading the path reads this attribute, and writing it sets this attribute, so both do
the same as long as the attribute is concerned that the path *ends at*. It can be read without being
one that can be set; but what has been set can be read.

## Main results

* `Scene.EndsAt.readSegments`, `Scene.EndsAt.writeSegments` — reading and writing a path are reading
  and setting the attribute at its end.
* `Scene.exists_endsAt_of_readPath` — what can be read along a path is at its end.
* `Scene.attribute?_setAttribute` — an attribute that has been set is what it was set to.
-/

namespace ViewMarkup

open Text

namespace Scene

variable {sc : Scene} {v w x new : Value} {attr name path : String} {names : List String}
  {s : Store}

/-! ## The end of some segments -/

/-- The last one of some segments is an attribute of the value that the others lead to. -/
inductive EndsAt (sc : Scene) : Value → List String → Value → String → Prop where
  | last {v : Value} {name : String} : EndsAt sc v [name] v (sc.attributeNamed v name)
  | through {v next w : Value} {name attr : String} {names : List String}
      (hNext : sc.attribute? v (sc.attributeNamed v name) = .ok (some next))
      (hRest : EndsAt sc next names w attr) : EndsAt sc v (name :: names) w attr

private theorem EndsAt.ne_nil (h : sc.EndsAt v names w attr) : names ≠ [] := by
  cases h <;> exact List.cons_ne_nil _ _

/-- Reading along segments is reading the attribute at their end. -/
theorem EndsAt.readSegments (h : sc.EndsAt v names w attr)
    (hAttr : sc.attribute? w attr = .ok (some x)) : sc.readSegments path v names = .ok x := by
  induction h with
  | last =>
    simp only [Scene.readSegments, hAttr]
    rfl
  | through hNext _ ih =>
    simp only [Scene.readSegments, hNext]
    exact ih hAttr

/-- Writing along segments is setting the attribute at their end. -/
theorem EndsAt.writeSegments (h : sc.EndsAt v names w attr) (new : Value) :
    sc.writeSegments new v names = sc.setAttribute w attr new := by
  induction h with
  | last => rfl
  | through hNext hRest ih =>
    rw [writeSegments.eq_3 _ _ _ _ _ hRest.ne_nil, hNext]
    exact ih

/-- What has been read along segments is the attribute at their end. -/
theorem exists_endsAt_of_readSegments (hNames : names ≠ [])
    (h : sc.readSegments path v names = .ok x) :
    ∃ w attr, sc.EndsAt v names w attr ∧ sc.attribute? w attr = .ok (some x) := by
  induction names generalizing v with
  | nil => exact absurd rfl hNames
  | cons name rest ih =>
    obtain ⟨next?, hNext, h⟩ := exists_of_bind_eq_ok h
    cases next? with
    | none => cases h
    | some next =>
      by_cases hRest : rest = []
      · subst hRest
        cases h
        exact ⟨v, _, .last, hNext⟩
      · obtain ⟨w, attr, hEnds, hAttr⟩ := ih hRest h
        exact ⟨w, attr, .through hNext hEnds, hAttr⟩

/-! ## The end of a path -/

theorem pathSegments_eq_ok_iff :
    pathSegments path = .ok names ↔
      names = splitOn '.' path ∧ ∀ segment ∈ splitOn '.' path, isIdentifier segment = true := by
  unfold pathSegments
  dsimp only
  split
  · next hAll =>
    constructor
    · intro h
      cases h
      exact ⟨rfl, List.all_eq_true.1 hAll⟩
    · rintro ⟨rfl, -⟩
      rfl
  · next hNot =>
    constructor
    · intro h
      cases h
    · rintro ⟨-, hAll⟩
      exact absurd (List.all_eq_true.2 hAll) hNot

/-- Reading along a path whose segments are identifiers is reading along its segments. -/
theorem readPath_eq (h : ∀ segment ∈ splitOn '.' path, isIdentifier segment = true) (v : Value) :
    sc.readPath v path = sc.readSegments path v (splitOn '.' path) := by
  unfold readPath
  rw [pathSegments_eq_ok_iff.2 ⟨rfl, h⟩]
  rfl

/-- Writing along a path whose segments are identifiers is writing along its segments. -/
theorem writePath_eq (h : ∀ segment ∈ splitOn '.' path, isIdentifier segment = true)
    (v new : Value) : sc.writePath v path new = sc.writeSegments new v (splitOn '.' path) := by
  unfold writePath
  rw [pathSegments_eq_ok_iff.2 ⟨rfl, h⟩]
  rfl

/-- What has been read along a path is the attribute at its end. -/
theorem exists_endsAt_of_readPath (h : sc.readPath v path = .ok x) :
    (∀ segment ∈ splitOn '.' path, isIdentifier segment = true) ∧
      ∃ w attr, sc.EndsAt v (splitOn '.' path) w attr ∧ sc.attribute? w attr = .ok (some x) := by
  obtain ⟨names, hNames, h⟩ := exists_of_bind_eq_ok h
  obtain ⟨rfl, hAll⟩ := pathSegments_eq_ok_iff.1 (eq_ok_of_mapError_eq_ok hNames)
  exact ⟨hAll, exists_endsAt_of_readSegments (splitOn_ne_nil '.' path) h⟩

/-! ## Setting and reading -/

/-- An attribute is set if its cell can be set, and then this cell is assigned. -/
theorem setAttribute_eq_ok_iff :
    sc.setAttribute v attr new = .ok s ↔
      ∃ cell, cellOf v attr = some cell ∧ sc.takes cell = true ∧ s = sc.store.assign cell new := by
  have hSet := sc.toOption_setAttribute v attr new
  constructor
  · intro h
    rw [h] at hSet
    obtain ⟨cell, hCell, hAssigned⟩ := Option.map_eq_some_iff.1 hSet.symm
    obtain ⟨hCell, hTakes⟩ := Option.filter_eq_some_iff.1 hCell
    exact ⟨cell, hCell, hTakes, hAssigned.symm⟩
  · rintro ⟨cell, hCell, hTakes, rfl⟩
    have hFilter : (cellOf v attr).filter sc.takes = some cell :=
      Option.filter_eq_some_iff.2 ⟨hCell, hTakes⟩
    rw [hFilter] at hSet
    exact eq_ok_of_toOption_eq_some hSet

/-- What can be set has a place to be in. -/
theorem holds_of_takes {cell : Cell} (h : sc.takes cell = true) : sc.store.holds cell = true := by
  cases cell with
  | borne b attr => rfl
  | field id attr =>
    cases hType : sc.store.type? id with
    | none => simp [takes, hType] at h
    | some type => simp [Store.holds, hType]

/-- An attribute is what its cell holds, if the cell can be set. -/
theorem attribute?_of_takes {cell : Cell} (hCell : cellOf v attr = some cell)
    (hTakes : sc.takes cell = true) (hValue : sc.store.valueAt? cell = some x) :
    sc.attribute? v attr = .ok (some x) := by
  cases v with
  | object id =>
    cases hCell
    have hField : sc.store.field? id attr = some x := hValue
    simp only [takes, Bool.and_eq_true, decide_eq_true_eq] at hTakes
    have hComputed : (sc.store.class? id).bind (sc.classes.computed? · attr) = none := by
      cases hType : sc.store.type? id with
      | none => simp [Store.class?, hType]
      | some type =>
        cases type with
        | component cls => simpa [Store.class?, hType] using hTakes.2
        | host typeName declared referable => simp [Store.class?, hType]
    simp [attribute?, hComputed, given?, hTakes.1, ownAttribute?, hField]
  -- What makes up such a value cannot be set, so it does not hide what has been.
  | member | image =>
    cases hCell
    simp only [takes, bearerValue, Bool.and_eq_true, decide_eq_true_eq, Option.isNone_iff_eq_none]
      at hTakes
    simp only [Store.valueAt?] at hValue
    simp [attribute?, given?, hTakes.1, hTakes.2, bearer?, hValue]
  | _ => simp [cellOf, bearer?] at hCell

/-- An attribute that has been set is what it was set to. -/
theorem attribute?_setAttribute (h : sc.setAttribute v attr new = .ok s) :
    ({ sc with store := s } : Scene).attribute? v attr = .ok (some new) := by
  obtain ⟨cell, hCell, hTakes, rfl⟩ := setAttribute_eq_ok_iff.1 h
  have hSame : Store.SameBut [cell] sc.store (sc.store.assign cell new) :=
    .assign _ _ List.mem_cons_self
  have hTaken : ∀ cell' ∈ [cell], sc.takes cell' = true := by
    intro cell' hMem
    rwa [List.mem_singleton.1 hMem]
  have hValue : (sc.store.assign cell new).valueAt? cell = some new := by
    rw [Store.valueAt?_assign, if_pos rfl, if_pos (holds_of_takes hTakes)]
  exact attribute?_of_takes hCell ((takes_congr hSame hTaken cell).trans hTakes) hValue

end Scene
end ViewMarkup
