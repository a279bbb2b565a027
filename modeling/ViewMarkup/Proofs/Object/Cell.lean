import ViewMarkup.Proofs.Object.Access

/-!
# Cells

A cell is a place where a value is stored as such: an attribute of an object, or one that a host
has given to what is no object. A path over plain stored attributes walks through cells and ends at
one; reading the path gives the value of that cell, and setting it assigns the cell. Where a path
leads depends on the cells that it walks through, and not on the one at its end.

## Main results

* `Store.valueAt?_assign`, `Store.assign_eq_self`: what a cell holds after an assignment, and that
  assigning what it holds changes nothing at all.
* `Scene.readPath_of_routeAt?`, `Scene.writePath_of_routeAt?`: reading and setting are looking a
  cell up and assigning it.
* `Scene.routeAt?_congr`: a path leads to the same cell as long as those on its way stay as they
  are.
-/

namespace ViewMarkup

/-- A place where a value is stored as such. -/
inductive Cell where
  | field (id : ObjectId) (attr : String)
  | borne (b : Bearer) (attr : String)
deriving DecidableEq, Repr

/-- The name of the attribute. -/
def Cell.attr : Cell → String
  | .field _ attr | .borne _ attr => attr

/-! ## Cells in a store -/

namespace Store

variable {s t u : Store} {cell cell' : Cell} {v : Value}

/-- The value of a cell. -/
def valueAt? (s : Store) : Cell → Option Value
  | .field id attr => s.field? id attr
  | .borne b attr => s.borne? b attr

/-- The store with another value in a cell. -/
def assign (s : Store) (cell : Cell) (v : Value) : Store :=
  match cell with
  | .field id attr => s.setField id attr v
  | .borne b attr => s.bear b attr v

theorem valueAt?_assign_self (h : (s.valueAt? cell).isSome = true) :
    (s.assign cell v).valueAt? cell = some v := by
  cases cell with
  | field id attr =>
    simp only [valueAt?, field?_eq] at h
    simp only [valueAt?, assign, field?_eq, get?_setField_self]
    cases hGet : s.get? id with
    | none => simp [hGet] at h
    | some o => simp [Table.get?_put_self]
  | borne b attr => simp [valueAt?, assign, borne?, bear, Table.get?_put_self]

theorem valueAt?_assign_ne (hNe : cell' ≠ cell) :
    (s.assign cell v).valueAt? cell' = s.valueAt? cell' := by
  cases cell with
  | field id attr =>
    cases cell' with
    | field id' attr' =>
      simp only [valueAt?, assign, field?_eq]
      by_cases hId : id' = id
      · subst hId
        have hAttr : attr' ≠ attr := fun h => hNe (h ▸ rfl)
        rw [get?_setField_self]
        cases s.get? id' with
        | none => rfl
        | some o => simp [Table.get?_put_ne v hAttr]
      · rw [get?_setField_ne s attr v hId]
    | borne b' attr' => rfl
  | borne b attr =>
    cases cell' with
    | field id' attr' => rfl
    | borne b' attr' =>
      simp only [valueAt?, assign, borne?, bear]
      by_cases hBearer : b' = b
      · subst hBearer
        have hAttr : attr' ≠ attr := fun h => hNe (h ▸ rfl)
        rw [Table.get?_put_self]
        cases hGet : s.borne.get? b' with
        | none => simp [Table.get?_put_ne v hAttr, Table.get?]
        | some fields => simp [Table.get?_put_ne v hAttr]
      · rw [Table.get?_put_ne _ hBearer]

/-- Whether a cell can hold a value: objects have no attributes unless they are there. -/
def holds (s : Store) : Cell → Bool
  | .field id _ => (s.type? id).isSome
  | .borne _ _ => true

/-- What is in a cell after an assignment. -/
theorem valueAt?_assign (s : Store) (cell : Cell) (v : Value) (cell' : Cell) :
    (s.assign cell v).valueAt? cell' =
      if cell' = cell then (if s.holds cell then some v else none) else s.valueAt? cell' := by
  split
  · next hEq =>
    subst hEq
    cases cell' with
    | borne b attr => simp [valueAt?, assign, borne?, bear, Table.get?_put_self, holds]
    | field id attr =>
      rcases Option.eq_none_or_eq_some (s.get? id) with hGet | ⟨o, hGet⟩ <;>
        simp [valueAt?, assign, field?_eq, get?_setField_self, holds, type?, hGet,
          Table.get?_put_self]
  · next hNe => exact valueAt?_assign_ne hNe

/-- Assigning what a cell holds changes nothing, not even the order of attributes. -/
theorem assign_eq_self (h : s.valueAt? cell = some v) : s.assign cell v = s := by
  cases cell with
  | field id attr =>
    simp only [valueAt?, field?_eq] at h
    obtain ⟨o, hGet, hAttr⟩ := Option.bind_eq_some_iff.1 h
    have hPut : o.fields.put attr v = o.fields := Table.put_of_get? hAttr
    have hObjects : s.objects.modify id (fun o => { o with fields := o.fields.put attr v }) =
        s.objects := by
      refine Array.ext_getElem? fun i => ?_
      rw [Array.getElem?_modify]
      by_cases hi : id = i
      · subst hi
        have hGet' : s.objects[id]? = some o := hGet
        simp [hGet', hPut]
      · simp [hi]
    simp only [assign, setField, modify, hObjects]
  | borne b attr =>
    simp only [valueAt?, borne?] at h
    obtain ⟨fields, hGet, hAttr⟩ := Option.bind_eq_some_iff.1 h
    have hPut : s.borne.put b (((s.borne.get? b).getD []).put attr v) = s.borne := by
      rw [hGet, Option.getD_some, Table.put_of_get? hAttr]
      exact Table.put_of_get? hGet
    simp only [assign, bear, hPut]

theorem type?_assign (s : Store) (cell : Cell) (v : Value) (id : ObjectId) :
    (s.assign cell v).type? id = s.type? id := by
  cases cell with
  | field id' attr => exact type?_setField s id' id attr v
  | borne b attr => rfl

/-- A cell is assigned a value that stays in a region. -/
theorem Closed.assign {U : Region} (h : s.Closed U) (cell : Cell) (hv : U.Covers v) :
    (s.assign cell v).Closed U := by
  cases cell with
  | field id attr => exact h.setField attr fun _ => hv
  | borne b attr => exact h.bear b attr hv

/-- The second of two stores has the same objects as the first, and other values in some cells
only; no cell is empty that was not. -/
structure SameBut (cells : List Cell) (s t : Store) : Prop where
  type : ∀ id, t.type? id = s.type? id
  value : ∀ cell, cell ∉ cells → t.valueAt? cell = s.valueAt? cell
  there : ∀ cell, (s.valueAt? cell).isSome = true → (t.valueAt? cell).isSome = true

namespace SameBut

variable {cells cells' : List Cell}

theorem refl (cells : List Cell) (s : Store) : SameBut cells s s :=
  ⟨fun _ => rfl, fun _ _ => rfl, fun _ => id⟩

theorem trans (h : SameBut cells s t) (h' : SameBut cells t u) : SameBut cells s u where
  type id := (h'.type id).trans (h.type id)
  value cell hCell := (h'.value cell hCell).trans (h.value cell hCell)
  there cell hThere := h'.there cell (h.there cell hThere)

theorem mono (h : SameBut cells s t) (hCells : ∀ cell ∈ cells, cell ∈ cells') :
    SameBut cells' s t where
  type := h.type
  value cell hCell := h.value cell fun hMem => hCell (hCells cell hMem)
  there := h.there

theorem assign (s : Store) (v : Value) (hCell : cell ∈ cells) :
    SameBut cells s (s.assign cell v) where
  type := s.type?_assign cell v
  value _ hOther := valueAt?_assign_ne fun h => hOther (h ▸ hCell)
  there cell' hThere := by
    by_cases hEq : cell' = cell
    · subst hEq
      rw [valueAt?_assign_self hThere]
      rfl
    · rwa [valueAt?_assign_ne hEq]

end SameBut
end Store

/-! ## Paths over plain stored attributes -/

/-- Where a path over plain stored attributes leads: the cells that it walks through, and the one
at its end. -/
structure Route where
  walked : List Cell
  cell : Cell
deriving DecidableEq, Repr

namespace Scene

variable {sc : Scene} {v x : Value} {name path : String} {cell : Cell}

/-- The cell behind a name, if the attribute can be stored and set as such. -/
def cell? (sc : Scene) (v : Value) (name : String) : Option Cell :=
  let attr := sc.attributeNamed v name
  if attr = classAttribute then none
  else
    match v with
    | .object id =>
      match (sc.store.class? id).bind (sc.classes.computed? · attr) with
      | some _ => none
      | none => some (.field id attr)
    | v =>
      match partOf? v attr with
      | some _ => none
      | none => (bearer? v).map (.borne · attr)

/-- A cell is an attribute of an object that does not follow from others, or one of what takes new
attributes though it is no object. -/
theorem cell?_cases (h : sc.cell? v name = some cell) :
    sc.attributeNamed v name ≠ classAttribute ∧
      ((∃ id, v = .object id ∧ cell = .field id (sc.attributeNamed v name) ∧
          (sc.store.class? id).bind (sc.classes.computed? · (sc.attributeNamed v name)) = none) ∨
        ∃ b, bearer? v = some b ∧ cell = .borne b (sc.attributeNamed v name) ∧
          partOf? v (sc.attributeNamed v name) = none) := by
  unfold cell? at h
  dsimp only at h
  split at h
  · cases h
  · next hClass =>
    refine ⟨hClass, ?_⟩
    split at h
    · next id =>
      split at h
      · cases h
      · next hComputed =>
        cases h
        exact .inl ⟨id, rfl, rfl, hComputed⟩
    · split at h
      · cases h
      · next hPart =>
        obtain ⟨b, hBearer, rfl⟩ := Option.map_eq_some_iff.1 h
        exact .inr ⟨b, hBearer, rfl, hPart⟩

/-- Only members of enumerations and images take new attributes though they are no objects. -/
theorem bearer?_cases {b : Bearer} (h : bearer? v = some b) :
    (∃ m, v = .member m) ∨ ∃ width height, v = .image width height := by
  cases v with
  | member m => exact .inl ⟨m, rfl⟩
  | image width height => exact .inr ⟨width, height, rfl⟩
  | _ => cases h

/-- What a cell holds is the attribute. -/
theorem attribute?_of_cell? (hCell : sc.cell? v name = some cell)
    (hValue : sc.store.valueAt? cell = some x) :
    sc.attribute? v (sc.attributeNamed v name) = .ok (some x) := by
  obtain ⟨hClass, ⟨id, rfl, rfl, hComputed⟩ | ⟨b, hBearer, rfl, hPart⟩⟩ := cell?_cases hCell
  · have hField : sc.store.field? id (sc.attributeNamed (.object id) name) = some x := hValue
    simp [attribute?, hComputed, given?, hClass, ownAttribute?, hField]
  · have hBorne : sc.store.borne? b (sc.attributeNamed v name) = some x := hValue
    rcases bearer?_cases hBearer with ⟨m, rfl⟩ | ⟨width, height, rfl⟩ <;>
      simp [attribute?, given?, hClass, hPart, hBearer, hBorne]

/-- Setting the attribute assigns the cell. -/
theorem setAttribute_of_cell? {new : Value} (hCell : sc.cell? v name = some cell)
    (hValue : (sc.store.valueAt? cell).isSome = true) :
    sc.setAttribute v (sc.attributeNamed v name) new = .ok (sc.store.assign cell new) := by
  obtain ⟨hClass, ⟨id, rfl, rfl, hComputed⟩ | ⟨b, hBearer, rfl, hPart⟩⟩ := cell?_cases hCell
  · have hField : (sc.store.field? id (sc.attributeNamed (.object id) name)).isSome = true := hValue
    simp only [setAttribute, if_neg hClass, change, Store.assign]
    cases hType : sc.store.type? id with
    | none =>
      have hGet : sc.store.get? id = none := Option.map_eq_none_iff.1 hType
      simp [Store.field?_eq, hGet] at hField
    | some type =>
      cases type with
      | component cls =>
        have hNone : sc.classes.computed? cls (sc.attributeNamed (.object id) name) = none := by
          simpa [Store.class?, hType] using hComputed
        simp [hNone]
      | host typeName declared referable =>
        simp [Option.isNone_eq_false_iff.2 hField]
  · rcases bearer?_cases hBearer with ⟨m, rfl⟩ | ⟨width, height, rfl⟩ <;>
      simp [setAttribute, hClass, change, hPart, hBearer, Store.assign]

/-- Where segments lead. -/
def route? (sc : Scene) : Value → List String → Option Route
  | _, [] => none
  | v, [last] => (sc.cell? v last).map fun cell => { walked := [], cell }
  | v, name :: rest => do
    let cell ← sc.cell? v name
    let next ← sc.store.valueAt? cell
    let p ← sc.route? next rest
    return { p with walked := cell :: p.walked }

/-- Where a path leads. -/
def routeAt? (sc : Scene) (v : Value) (path : String) : Option Route :=
  (pathSegments path).toOption.bind (sc.route? v)

/-- Reading along segments gives the value of the cell at their end. -/
theorem readSegments_of_route? {names : List String} {p : Route} (h : sc.route? v names = some p)
    (hValue : sc.store.valueAt? p.cell = some x) : sc.readSegments path v names = .ok x := by
  fun_induction route? sc v names generalizing p with
  | case1 => cases h
  | case2 v last =>
    obtain ⟨cell, hCell, rfl⟩ := Option.map_eq_some_iff.1 h
    simp only [readSegments, attribute?_of_cell? hCell hValue]
    rfl
  | case3 v name rest hRest ih =>
    obtain ⟨cell, hCell, h⟩ := Option.bind_eq_some_iff.1 h
    obtain ⟨next, hNext, h⟩ := Option.bind_eq_some_iff.1 h
    obtain ⟨q, hq, h⟩ := Option.bind_eq_some_iff.1 h
    cases h
    simp only [readSegments, attribute?_of_cell? hCell hNext]
    exact ih next hq hValue

/-- Setting along segments assigns the cell at their end. -/
theorem writeSegments_of_route? {new : Value} {names : List String} {p : Route}
    (h : sc.route? v names = some p) (hValue : (sc.store.valueAt? p.cell).isSome = true) :
    sc.writeSegments new v names = .ok (sc.store.assign p.cell new) := by
  fun_induction route? sc v names generalizing p with
  | case1 => cases h
  | case2 v last =>
    obtain ⟨cell, hCell, rfl⟩ := Option.map_eq_some_iff.1 h
    exact setAttribute_of_cell? hCell hValue
  | case3 v name rest hRest ih =>
    obtain ⟨cell, hCell, h⟩ := Option.bind_eq_some_iff.1 h
    obtain ⟨next, hNext, h⟩ := Option.bind_eq_some_iff.1 h
    obtain ⟨q, hq, h⟩ := Option.bind_eq_some_iff.1 h
    cases h
    rw [writeSegments.eq_3 _ _ _ _ _ hRest, attribute?_of_cell? hCell hNext]
    exact ih next (p := q) hq hValue

theorem readPath_of_routeAt? {p : Route} (h : sc.routeAt? v path = some p)
    (hValue : sc.store.valueAt? p.cell = some x) : sc.readPath v path = .ok x := by
  obtain ⟨names, hNames, h⟩ := Option.bind_eq_some_iff.1 h
  have hSegments : pathSegments path = .ok names := eq_ok_of_toOption_eq_some hNames
  simp only [readPath, hSegments]
  exact readSegments_of_route? h hValue

theorem writePath_of_routeAt? {new : Value} {p : Route} (h : sc.routeAt? v path = some p)
    (hValue : (sc.store.valueAt? p.cell).isSome = true) :
    sc.writePath v path new = .ok (sc.store.assign p.cell new) := by
  obtain ⟨names, hNames, h⟩ := Option.bind_eq_some_iff.1 h
  have hSegments : pathSegments path = .ok names := eq_ok_of_toOption_eq_some hNames
  simp only [writePath, hSegments]
  exact writeSegments_of_route? h hValue

private theorem change_assigns {new : Value} {attr : String} {s : Store}
    (h : sc.change v attr new = .ok s) : ∃ cell, s = sc.store.assign cell new := by
  unfold change at h
  split at h
  · split at h
    · split at h <;> cases h
      exact ⟨.field _ attr, rfl⟩
    · split at h <;> cases h
      exact ⟨.field _ attr, rfl⟩
    · cases h
  · split at h <;> cases h
    exact ⟨.borne _ attr, rfl⟩

private theorem setAttribute_assigns {new : Value} {attr : String} {s : Store}
    (h : sc.setAttribute v attr new = .ok s) : ∃ cell, s = sc.store.assign cell new := by
  unfold setAttribute at h
  split at h
  iterate 5 cases h
  split at h
  · cases h
  · exact change_assigns h

private theorem writeSegments_assigns {new : Value} {segments : List String} {s : Store}
    (h : sc.writeSegments new v segments = .ok s) :
    s = sc.store ∨ ∃ cell, s = sc.store.assign cell new := by
  fun_induction writeSegments sc new v segments with
  | case1 v =>
    cases h
    exact .inl rfl
  | case2 v last => exact .inr (setAttribute_assigns h)
  | case3 v segment rest hRest ih =>
    obtain ⟨next?, -, h⟩ := exists_of_bind_eq_ok h
    cases next? with
    | none => cases h
    | some next => exact ih next h

/-- Whatever is set, at most one cell is assigned. -/
theorem writePath_assigns {new : Value} {s : Store} (h : sc.writePath v path new = .ok s) :
    s = sc.store ∨ ∃ cell, s = sc.store.assign cell new := by
  obtain ⟨segments, -, h⟩ := exists_of_bind_eq_ok h
  exact writeSegments_assigns h

/-! ## Paths after assignments -/

section Congr

variable {cells : List Cell} {t : Store} (h : Store.SameBut cells sc.store t)
include h

/-- Which attributes are cells depends on what objects are, and not on what they hold. -/
theorem cell?_congr (v : Value) (name : String) :
    ({ sc with store := t } : Scene).cell? v name = sc.cell? v name := by
  have hName :
      ({ sc with store := t } : Scene).attributeNamed v name = sc.attributeNamed v name := by
    cases v with
    | object id => simp [attributeNamed, propertiesOf, h.type id]
    | _ => rfl
  cases v with
  | object id => simp only [cell?, hName, Store.class?_of_type? (h.type id)]
  | _ => simp only [cell?, hName]

private theorem route?_congr {names : List String} {p : Route} (hp : sc.route? v names = some p)
    (hWalked : ∀ cell ∈ p.walked, cell ∉ cells) :
    ({ sc with store := t } : Scene).route? v names = some p := by
  fun_induction route? sc v names generalizing p with
  | case1 => cases hp
  | case2 v last => simpa only [route?, cell?_congr h v last] using hp
  | case3 v name rest hRest ih =>
    obtain ⟨cell, hCell, hp⟩ := Option.bind_eq_some_iff.1 hp
    obtain ⟨next, hNext, hp⟩ := Option.bind_eq_some_iff.1 hp
    obtain ⟨q, hq, hp⟩ := Option.bind_eq_some_iff.1 hp
    cases hp
    have hSame : t.valueAt? cell = some next :=
      (h.value cell (hWalked cell List.mem_cons_self)).trans hNext
    have hRestPlace := ih next hq fun cell' hMem => hWalked cell' (List.mem_cons_of_mem cell hMem)
    rw [route?.eq_3 _ _ _ _ hRest, cell?_congr h, hCell]
    simp [hSame, hRestPlace]

/-- A path leads to the same cell as long as those on its way stay as they are. -/
theorem routeAt?_congr {p : Route} (hp : sc.routeAt? v path = some p)
    (hWalked : ∀ cell ∈ p.walked, cell ∉ cells) :
    ({ sc with store := t } : Scene).routeAt? v path = some p := by
  obtain ⟨names, hNames, hp⟩ := Option.bind_eq_some_iff.1 hp
  exact Option.bind_eq_some_iff.2 ⟨names, hNames, route?_congr h hp hWalked⟩

end Congr

end Scene
end ViewMarkup
