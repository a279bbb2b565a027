import ViewMarkup.Proofs.Object.Twin

/-!
# What reading and setting depend on

An attribute of a value is read from its cell. One that is read-only follows from others, and is
read from the cells of these, too. As long as the cells that it is read from stay as they are, an
attribute stays as it is, whatever is assigned elsewhere.

Whether an attribute can be set depends on what the object is, and on nothing that setting others
would change.

## Main results

* `Scene.attribute?_congr` — an attribute depends on the cells that it is read from.
* `Scene.toOption_setAttribute`, `Scene.takes_congr` — what setting an attribute does, and when it
  can be done.
* `Scene.readPath_twin`, `Scene.setAttribute_twin` — twins are read and set alike.
-/

namespace ViewMarkup
namespace Scene

variable {sc : Scene} {v new : Value} {attr : String} {s : Store}

/-! ## The cells of attributes -/

/-- The cell of an attribute, if the value has cells. -/
def cellOf : Value → String → Option Cell
  | .object id, attr => some (.field id attr)
  | v, attr => (bearer? v).map (.borne · attr)

/-- Only an object has its attributes in fields, under their own names. -/
theorem eq_of_cellOf {attr' : String} {id : ObjectId}
    (h : cellOf v attr = some (.field id attr')) : v = .object id ∧ attr = attr' := by
  cases v with
  | object x =>
    cases h
    exact ⟨rfl, rfl⟩
  | _ => simp [cellOf, bearer?] at h

theorem attr_of_cellOf {cell : Cell} (h : cellOf v attr = some cell) : cell.attr = attr := by
  unfold cellOf at h
  split at h
  · cases h
    rfl
  · obtain ⟨b, -, rfl⟩ := Option.map_eq_some_iff.1 h
    rfl

/-- The cells that a read-only attribute of an object follows from. -/
def sources (sc : Scene) (id : ObjectId) : Computed → List Cell
  | .controlState => [.field id "enabled", .field id "highlighted", .field id "selected"]
  | .selectedValue =>
    .field id "selected_segment_index" :: .field id "segments" ::
      match sc.elementAt (sc.stored id "segments") (sc.stored id "selected_segment_index") with
      | .ok segment => (cellOf segment "value").toList
      | .error _ => []
  | .imageSize => .field id "image" :: (cellOf (sc.stored id "image") "size").toList
  | .displayText => [.field id "count"]

/-- How an attribute of a value follows from others, if it is read-only. -/
def computedAt? (sc : Scene) : Value → String → Option (ObjectId × Computed)
  | .object id, attr =>
    ((sc.store.class? id).bind (sc.classes.computed? · attr)).map fun c => (id, c)
  | _, _ => none

/-- The cells that an attribute is read from. -/
def reads (sc : Scene) (v : Value) (attr : String) : List Cell :=
  (cellOf v attr).toList ++ ((sc.computedAt? v attr).map fun c => sc.sources c.1 c.2).getD []

/-! ## Reading -/

section Congr

variable {cells : List Cell} {t : Store} (h : Store.SameBut cells sc.store t)
include h

theorem typeName_congr (v : Value) :
    ({ sc with store := t } : Scene).typeName v = sc.typeName v := by
  simp only [typeName, h.type]

theorem propertiesOf_congr (v : Value) :
    ({ sc with store := t } : Scene).propertiesOf v = sc.propertiesOf v := by
  cases v <;> simp only [propertiesOf, h.type]

theorem stored_congr {id : ObjectId} (hCell : .field id attr ∉ cells) :
    ({ sc with store := t } : Scene).stored id attr = sc.stored id attr := by
  have hField : t.field? id attr = sc.store.field? id attr := h.value (.field id attr) hCell
  simp only [stored, hField]

private theorem length_congr (v : Value) :
    ({ sc with store := t } : Scene).length v = sc.length v := by
  cases v <;> simp only [length, typeName_congr h]

theorem elementAt_congr (v place : Value) :
    ({ sc with store := t } : Scene).elementAt v place = sc.elementAt v place := by
  cases v <;> simp only [elementAt, elementOf, selectedAt, typeName_congr h]

/-- What a value has as such is read from its cell. -/
theorem given?_congr (v : Value) (attr : String) (hCell : ∀ cell ∈ cellOf v attr, cell ∉ cells) :
    ({ sc with store := t } : Scene).given? v attr = sc.given? v attr := by
  have hBorne {b : Bearer} (hBearer : cellOf v attr = some (.borne b attr)) :
      t.borne? b attr = sc.store.borne? b attr :=
    h.value (.borne b attr) (hCell _ hBearer)
  unfold given?
  rw [typeName_congr h]
  split
  · rfl
  · cases v with
    | object id =>
      have hField : t.field? id attr = sc.store.field? id attr :=
        h.value (.field id attr) (hCell _ rfl)
      simp only [ownAttribute?, hField, Store.class?_of_type? (h.type id)]
    | member m => simp only [bearer?, Option.bind_some, hBorne (b := .member m) rfl]
    | image w d => simp only [bearer?, Option.bind_some, hBorne (b := .image w d) rfl]
    | _ => rfl

private theorem given_congr (v : Value) (attr : String)
    (hCell : ∀ cell ∈ cellOf v attr, cell ∉ cells) :
    ({ sc with store := t } : Scene).given v attr = sc.given v attr := by
  simp only [given, given?_congr h v attr hCell]

/-- A read-only attribute depends on what it follows from. -/
theorem computed_congr (id : ObjectId) (c : Computed)
    (hCells : ∀ cell ∈ sc.sources id c, cell ∉ cells) :
    ({ sc with store := t } : Scene).computed id c = sc.computed id c := by
  cases c with
  | controlState =>
    have hEnabled := stored_congr h (hCells (.field id "enabled") (by simp [sources]))
    have hHighlighted := stored_congr h (hCells (.field id "highlighted") (by simp [sources]))
    have hSelected := stored_congr h (hCells (.field id "selected") (by simp [sources]))
    simp only [computed, controlState, hEnabled, hHighlighted, hSelected]
  | selectedValue =>
    have hIndex := stored_congr h (hCells (.field id "selected_segment_index") (by simp [sources]))
    have hSegments := stored_congr h (hCells (.field id "segments") (by simp [sources]))
    simp only [computed, selectedValue, hIndex, hSegments, typeName_congr h, length_congr h,
      elementAt_congr h]
    cases hElement : sc.elementAt (sc.stored id "segments")
        (sc.stored id "selected_segment_index") with
    | error e => rfl
    | ok segment =>
      have hGiven := given_congr h segment "value" fun cell hCell =>
        hCells cell (by simp [sources, hElement, Option.mem_def.1 hCell])
      simp only [bind, Except.bind, hGiven]
  | imageSize =>
    have hImage := stored_congr h (hCells (.field id "image") (by simp [sources]))
    have hGiven := given_congr h (sc.stored id "image") "size" fun cell hCell =>
      hCells cell (by simp [sources, Option.mem_def.1 hCell])
    simp only [computed, imageSize, hImage]
    split
    · rfl
    · exact hGiven
  | displayText =>
    have hCount := stored_congr h (hCells (.field id "count") (by simp [sources]))
    simp only [computed, displayText, hCount, typeName_congr h]

/-- So does what it is looked up in. -/
theorem lookedUpIn?_congr (id : ObjectId) (c : Computed)
    (hCells : ∀ cell ∈ sc.sources id c, cell ∉ cells) :
    ({ sc with store := t } : Scene).lookedUpIn? id c = sc.lookedUpIn? id c := by
  cases c with
  | controlState | displayText => rfl
  | selectedValue =>
    have hIndex := stored_congr h (hCells (.field id "selected_segment_index") (by simp [sources]))
    have hSegments := stored_congr h (hCells (.field id "segments") (by simp [sources]))
    simp only [lookedUpIn?, hIndex, hSegments, elementAt_congr h]
  | imageSize =>
    have hImage := stored_congr h (hCells (.field id "image") (by simp [sources]))
    simp only [lookedUpIn?, hImage]

/-- An attribute depends on the cells that it is read from. -/
theorem attribute?_congr (hCells : ∀ cell ∈ sc.reads v attr, cell ∉ cells) :
    ({ sc with store := t } : Scene).attribute? v attr = sc.attribute? v attr := by
  have hGiven := given?_congr h v attr fun cell hCell =>
    hCells cell (List.mem_append_left _ (Option.mem_toList.2 hCell))
  cases v with
  | object id =>
    unfold attribute?
    dsimp only
    rw [Store.class?_of_type? (h.type id)]
    cases hComputed : (sc.store.class? id).bind (sc.classes.computed? · attr) with
    | none => exact congrArg Except.ok hGiven
    | some c =>
      have hFrom := computed_congr h id c fun cell hCell =>
        hCells cell (List.mem_append_right _ (by simpa [computedAt?, hComputed] using hCell))
      dsimp only
      rw [hFrom]
  | _ => exact congrArg Except.ok hGiven

end Congr

/-! ## Setting -/

/-- The value that takes new attributes though it is no object. -/
def bearerValue : Bearer → Value
  | .member m => .member m
  | .image width height => .image width height

/-- Whether a cell can be set: it is no class, it does not follow from others, and a host that takes
no new attributes has it already. -/
def takes (sc : Scene) : Cell → Bool
  | .field id attr =>
    attr ≠ classAttribute &&
      match sc.store.type? id with
      | some (.component cls) => (sc.classes.computed? cls attr).isNone
      | some (.host _ _ referable) => referable || (sc.store.field? id attr).isSome
      | none => false
  | .borne b attr => attr ≠ classAttribute && (partOf? (bearerValue b) attr).isNone

/-- An attribute is set if its cell can be set, which is then assigned. -/
theorem toOption_setAttribute (sc : Scene) (v : Value) (attr : String) (new : Value) :
    (sc.setAttribute v attr new).toOption =
      ((cellOf v attr).filter sc.takes).map (sc.store.assign · new) := by
  by_cases hClass : attr = classAttribute
  · cases v <;> simp [setAttribute, hClass, cellOf, bearer?, takes, Option.filter, Except.toOption]
  · cases v with
    | object id =>
      simp only [setAttribute, if_neg hClass, change, cellOf]
      cases hType : sc.store.type? id with
      | none => simp [Option.filter, takes, hType, Except.toOption]
      | some type =>
        cases type with
        | component cls =>
          cases hComputed : sc.classes.computed? cls attr <;>
            simp [Option.filter, takes, hType, hComputed, hClass, Store.assign, Except.toOption]
        | host name declared referable =>
          cases referable <;> cases hField : sc.store.field? id attr <;>
            simp [Option.filter, takes, hType, hField, hClass, Store.assign, Except.toOption]
    | member m =>
      cases hPart : partOf? (.member m) attr <;>
        simp [setAttribute, hClass, change, bearer?, hPart, cellOf, takes, bearerValue,
          Store.assign, Option.filter, Except.toOption]
    | image w d =>
      cases hPart : partOf? (.image w d) attr <;>
        simp [setAttribute, hClass, change, bearer?, hPart, cellOf, takes, bearerValue,
          Store.assign, Option.filter, Except.toOption]
    | _ => simp [setAttribute, hClass, change, bearer?, cellOf, Except.toOption]

/-- Assigning what can be set makes no difference to what else can be set. -/
theorem takes_congr {cells : List Cell} {t : Store} (h : Store.SameBut cells sc.store t)
    (hCells : ∀ cell ∈ cells, sc.takes cell = true) (cell : Cell) :
    ({ sc with store := t } : Scene).takes cell = sc.takes cell := by
  cases cell with
  | borne b attr => rfl
  | field id attr =>
    by_cases hCell : .field id attr ∈ cells
    · have hTaken := hCells _ hCell
      have hThere := h.there (.field id attr)
      rw [hTaken]
      simp only [takes, h.type, Bool.and_eq_true] at hTaken ⊢
      refine ⟨hTaken.1, ?_⟩
      revert hTaken
      cases sc.store.type? id with
      | none => exact fun hTaken => hTaken.2
      | some type =>
        cases type with
        | component cls => exact fun hTaken => hTaken.2
        | host name declared referable =>
          intro hTaken
          rcases Bool.or_eq_true_iff.1 hTaken.2 with hReferable | hField
          · exact Bool.or_eq_true_iff.2 (.inl hReferable)
          · exact Bool.or_eq_true_iff.2 (.inr (hThere hField))
    · have hField : t.field? id attr = sc.store.field? id attr := h.value (.field id attr) hCell
      simp only [takes, h.type, hField]

/-! ## Twins -/

section Twin

variable {t : Store} (h : sc.store.Twin t)
include h

theorem attribute?_twin (v : Value) (attr : String) :
    ({ sc with store := t } : Scene).attribute? v attr = sc.attribute? v attr :=
  attribute?_congr (h.sameBut []) fun _ _ => List.not_mem_nil

theorem typeName_twin (v : Value) :
    ({ sc with store := t } : Scene).typeName v = sc.typeName v :=
  typeName_congr (h.sameBut []) v

theorem stored_twin (id : ObjectId) (attr : String) :
    ({ sc with store := t } : Scene).stored id attr = sc.stored id attr :=
  stored_congr (h.sameBut []) List.not_mem_nil

theorem elementAt_twin (v place : Value) :
    ({ sc with store := t } : Scene).elementAt v place = sc.elementAt v place :=
  elementAt_congr (h.sameBut []) v place

theorem requireAttribute_twin (v : Value) (attr : String) :
    ({ sc with store := t } : Scene).requireAttribute v attr = sc.requireAttribute v attr := by
  unfold requireAttribute
  rw [attribute?_twin h]

private theorem readSegments_twin (path : String) (names : List String) (v : Value) :
    ({ sc with store := t } : Scene).readSegments path v names = sc.readSegments path v names := by
  induction names generalizing v with
  | nil => rfl
  | cons name rest ih =>
    have hName :
        ({ sc with store := t } : Scene).attributeNamed v name = sc.attributeNamed v name := by
      unfold attributeNamed
      rw [propertiesOf_congr (h.sameBut [])]
    simp only [readSegments, hName, attribute?_twin h, typeName_twin h, ih]

/-- What is read along a path is the same in twins. -/
theorem readPath_twin (v : Value) (path : String) :
    ({ sc with store := t } : Scene).readPath v path = sc.readPath v path := by
  unfold readPath
  simp only [readSegments_twin h]

/-- An attribute is set in both twins, or refused in the same way. -/
theorem setAttribute_twin (v : Value) (attr : String) (new : Value) :
    ∃ cell? : Except Failure Cell,
      sc.setAttribute v attr new = cell?.map (sc.store.assign · new) ∧
        ({ sc with store := t } : Scene).setAttribute v attr new = cell?.map (t.assign · new) := by
  by_cases hClass : attr = classAttribute
  · cases v with
    | color | descriptor | font | segment | pickerRow => exact ⟨.error .frozen, rfl, rfl⟩
    | _ =>
      refine ⟨.error (.mistyped (.notClass (sc.typeName new))), ?_, ?_⟩ <;>
        simp [setAttribute, hClass, typeName_twin h, Except.map]
  · cases v with
    | color | descriptor | font | segment | pickerRow => exact ⟨.error .frozen, rfl, rfl⟩
    | object id =>
      simp only [setAttribute, if_neg hClass, change, h.type, h.field?]
      split
      · split
        · exact ⟨.error .noAttribute, rfl, rfl⟩
        · exact ⟨.ok (.field id attr), rfl, rfl⟩
      · split
        · exact ⟨.error .noAttribute, rfl, rfl⟩
        · exact ⟨.ok (.field id attr), rfl, rfl⟩
      · exact ⟨.error .noAttribute, rfl, rfl⟩
    | _ =>
      simp only [setAttribute, if_neg hClass, change]
      split
      · exact ⟨.ok (.borne _ attr), rfl, rfl⟩
      · exact ⟨.error .noAttribute, rfl, rfl⟩

end Twin

end Scene
end ViewMarkup
