import ViewMarkup.Proofs.View.Containers

/-!
# Selections in pickers

The rows of a picker are declared by raw elements, one after the other, and are selected by their
values in between. What is selected in a component is remembered as the number of a row, so it has
to stay right while components and rows are added.

`Picker` is what a picker shows and what is selected in it, apart from the object that stores it,
and `Scene.Displays` says that an object stores a picker. What one call makes of it, and the answer,
are `PickerCall.Steps`. Components and rows are only ever added behind those that are there
(`Picker.Grows`), so a row that was selected stays where it is.

## Main results

* `Picker.Sound.grows`, `Picker.Sound.put` — a selection refers to rows that are there, whatever is
  added and selected.
* `PickerCall.run_displays`, `PickerCall.displays_after` — what one call makes of a picker that an
  object stores, and what holds of the picker after any calls.
* `PickerCall.run_picker` — what a new picker has selected after any calls, what it answers then,
  and which calls change nothing.
-/

namespace ViewMarkup

open View.Catalog

/-! ## Pickers by themselves -/

namespace Picker

variable {p q : Picker} {c : PickerComponent} {n row : Nat} {value : Option String} {k : Key}
  {cls name : String} {attributes : Table String String}

/-- Whatever is selected is a row that is there, of a component that is there. -/
def Sound (p : Picker) : Prop :=
  ∀ e ∈ p.selected, ∃ (n : Nat) (c : PickerComponent), e.1.number = n ∧
    p.components[n]? = some c ∧ e.2 < c.rows.length

/-- A row is selected in a component, and it has a value. -/
def Shows (p : Picker) (n : Nat) (value : Option String) : Prop :=
  ∃ row c r, p.selected.get? n = some row ∧ p.components[n]? = some c ∧ c.rows[row]? = some r ∧
    r.value = value

/-- The components are still there, with all of their rows at the same places. -/
def Grows (p q : Picker) : Prop :=
  ∀ (n : Nat) (c : PickerComponent), p.components[n]? = some c →
    ∃ rows, q.components[n]? = some { c with rows := c.rows ++ rows }

private theorem addRow_grows (r : PickerRow) {components : List PickerComponent}
    (h : components[n]? = some c) :
    ∃ rows, (addRow r components)[n]? = some { c with rows := c.rows ++ rows } := by
  induction components generalizing n with
  | nil => simp at h
  | cons d rest ih =>
    cases rest with
    | nil =>
      obtain ⟨rfl, rfl⟩ : n = 0 ∧ d = c := by
        cases n with
        | zero => exact ⟨rfl, by simpa using h⟩
        | succ n => simp at h
      exact ⟨[r], rfl⟩
    | cons e rest =>
      cases n with
      | zero =>
        obtain rfl : d = c := by simpa using h
        exact ⟨[], by simp [addRow]⟩
      | succ n => exact ih (by simpa using h)

/-- Raw elements add components and rows, and leave those that are there at their places. -/
theorem addPart_grows (h : p.addPart cls name attributes = .ok q) : p.Grows q := by
  intro n c hc
  unfold addPart at h
  split at h
  · cases h
    refine ⟨[], ?_⟩
    have hBound : n < p.components.length := (List.getElem?_eq_some_iff.1 hc).1
    simp only [List.append_nil]
    rw [List.getElem?_append_left hBound, hc]
  · split at h
    · cases h
    · cases h
      exact addRow_grows _ hc
  · cases h

theorem Sound.grows (h : p.Sound) (hGrows : p.Grows q)
    (hSelected : q.selected = p.selected) : q.Sound := by
  intro e he
  obtain ⟨n, c, hNumber, hc, hRow⟩ := h e (hSelected ▸ he)
  obtain ⟨rows, hc'⟩ := hGrows n c hc
  refine ⟨n, _, hNumber, hc', ?_⟩
  rw [List.length_append]
  omega

private theorem Shows.grows (h : p.Shows n value) (hGrows : p.Grows q)
    (hSelected : q.selected = p.selected) : q.Shows n value := by
  obtain ⟨row, c, r, hRow, hc, hr, hValue⟩ := h
  obtain ⟨rows, hc'⟩ := hGrows n c hc
  have hBound : row < c.rows.length := (List.getElem?_eq_some_iff.1 hr).1
  exact ⟨row, _, r, hSelected ▸ hRow, hc', (List.getElem?_append_left hBound).trans hr, hValue⟩

/-- The first row with a value is there, and it has the value. -/
theorem exists_of_rowWithValue? (h : rowWithValue? c value = some row) :
    ∃ r, c.rows[row]? = some r ∧ r.value = value := by
  obtain ⟨hBound, hValue, -⟩ := List.findIdx?_eq_some_iff_getElem.1 h
  exact ⟨c.rows[row], List.getElem?_eq_getElem hBound, by simpa using hValue⟩

/-- There is no row with a value if and only if none is found. -/
theorem rowWithValue?_eq_none_iff :
    rowWithValue? c value = none ↔ ∀ r ∈ c.rows, r.value ≠ value := by
  simp [rowWithValue?, List.findIdx?_eq_none_iff]

/-- An entry of a selection after a row was selected: the one of the row, or one of before. -/
theorem mem_put {t : Selection} {e : Key × Nat} (h : e ∈ t.put k row) :
    (e.1.number = k.number ∧ e.2 = row) ∨ e ∈ t := by
  induction t with
  | nil =>
    obtain rfl : e = (k, row) := List.mem_singleton.1 h
    exact .inl ⟨rfl, rfl⟩
  | cons d t ih =>
    rw [Selection.put] at h
    split at h
    · next hKey =>
      rcases List.mem_cons.1 h with rfl | h
      · exact .inl ⟨hKey, rfl⟩
      · exact .inr (List.mem_cons_of_mem _ h)
    · rcases List.mem_cons.1 h with rfl | h
      · exact .inr List.mem_cons_self
      · exact (ih h).imp_right (List.mem_cons_of_mem _)

/-- Selecting a row that is there keeps all that is selected there. -/
theorem Sound.put (h : p.Sound) (hNumber : k.number = n) (hc : p.components[n]? = some c)
    (hRow : row < c.rows.length) : Sound { p with selected := p.selected.put k row } := by
  intro e he
  rcases mem_put he with ⟨hKey, rfl⟩ | he
  · exact ⟨n, c, hKey.trans hNumber, hc, hRow⟩
  · exact h e he

/-- What is selected in another component does not matter. -/
theorem Shows.put (h : p.Shows n value) (hNe : k.number ≠ n) (row : Nat) :
    Shows { p with selected := p.selected.put k row } n value := by
  obtain ⟨row', c, r, hRow, hRest⟩ := h
  exact ⟨row', c, r, (Selection.get?_put_ne row (Ne.symm hNe)).trans hRow, hRest⟩

end Picker

/-! ## Pickers as they are stored -/

/-- The attributes that the operations of a picker would be hidden by. -/
def pickerOperations : List String :=
  [Hook.raw.name, "number_of_components", "select_value", "value_for_component"]

/-- An object is a picker, and this is what it stores. -/
structure Scene.Displays (sc : Scene) (id : ObjectId) (p : Picker) : Prop where
  class? : sc.store.class? id = some pickerClass
  free : ∀ operation ∈ pickerOperations, sc.store.field? id operation = none
  components : sc.store.field? id "components" =
    some (.list (p.components.map .pickerComponent))
  selected : sc.store.field? id "selected_rows" = some (.selection p.selected)

namespace Scene

variable {sc : Scene} {id : ObjectId} {p q : Picker} {c : PickerComponent} {k : Key} {n : Nat}
  {value : Option String} {attr : String}

theorem stored_of_field? {v : Value} (h : sc.store.field? id attr = some v) :
    sc.stored id attr = v := by rw [stored, h, Option.getD_some]

namespace Displays

theorem free_setField (h : sc.Displays id p) (hAttr : attr ∉ pickerOperations) (v : Value)
    {operation : String} (hOperation : operation ∈ pickerOperations) :
    (sc.store.setField id attr v).field? id operation = none := by
  have hNe : operation ≠ attr := fun hEq => hAttr (hEq ▸ hOperation)
  rw [Store.field?_setField_ne sc.store id v hNe, h.free operation hOperation]

private theorem putComponents (h : sc.Displays id p) (components : List PickerComponent) :
    Displays
      { sc with
        store := sc.store.setField id "components" (.list (components.map .pickerComponent)) }
      id { p with components } where
  class? := (Store.class?_setField _ _ _ _ _).trans h.class?
  free := fun _ hOperation => h.free_setField (by decide) _ hOperation
  components := Store.field?_setField_self (Store.isSome_get?_of_class? h.class?) _ _
  selected := (Store.field?_setField_ne _ _ _ (by decide)).trans h.selected

private theorem putSelected (h : sc.Displays id p) (selected : Selection) :
    Displays
      { sc with store := sc.store.setField id "selected_rows" (.selection selected) }
      id { p with selected } where
  class? := (Store.class?_setField _ _ _ _ _).trans h.class?
  free := fun _ hOperation => h.free_setField (by decide) _ hOperation
  components := (Store.field?_setField_ne _ _ _ (by decide)).trans h.components
  selected := Store.field?_setField_self (Store.isSome_get?_of_class? h.class?) _ _

end Displays

/-! ### Parts of components -/

theorem key?_ofKey (k : Key) : (Value.ofKey k).key? = some k := by cases k <;> rfl

private theorem elementAt_ofKey (sc : Scene) (hNumber : k.number = n) (items : List Value) :
    sc.elementAt (.list items) (.ofKey k) = (items[n]?).elim (.error .indexOutOfRange) .ok := by
  show sc.elementOf "list" items (.ofKey k) = _
  rw [elementOf, key?_ofKey]
  simp only [hNumber]
  rfl

theorem partAt_rows (sc : Scene) {components : List PickerComponent} (hNumber : k.number = n)
    (hc : components[n]? = some c) :
    sc.partAt (.list (components.map .pickerComponent)) (.ofKey k) "rows" =
      .ok (.list (c.rows.map .pickerRow)) := by
  rw [partAt, elementAt_ofKey sc hNumber, List.getElem?_map, hc]
  rfl

private theorem same_ofText? (v w : Option String) :
    (Value.ofText? v).same (.ofText? w) = (v == w) := by
  cases v <;> cases w <;> rfl

private theorem firstWith_value (sc : Scene) (value : Option String) (rows : List PickerRow)
    (n : Nat) : sc.firstWith "value" (.ofText? value) n (rows.map .pickerRow) =
      .ok ((rows.findIdx? (·.value == value)).map (· + n)) := by
  induction rows generalizing n with
  | nil => rfl
  | cons r rows ih =>
    have hValue : sc.requireAttribute (.pickerRow r) "value" = .ok (.ofText? r.value) := rfl
    rw [List.map_cons, firstWith, hValue, List.findIdx?_cons]
    show (if (Value.ofText? r.value).same (.ofText? value) = true then .ok (some n)
      else sc.firstWith "value" (.ofText? value) (n + 1) (rows.map .pickerRow)) = _
    rw [same_ofText?, ih]
    split
    · simp
    · have hShift (m : Nat) : m + (n + 1) = m + 1 + n := by omega
      simp only [Option.map_map, Function.comp_def, hShift]

/-- Looking for a row of a component by its value. -/
theorem find_value (sc : Scene) (value : Option String) (c : PickerComponent) :
    sc.find (.list (c.rows.map .pickerRow)) "value" (.ofText? value) =
      .ok (Picker.rowWithValue? c value) := by
  show sc.firstWith "value" (.ofText? value) 0 (c.rows.map .pickerRow) = _
  rw [firstWith_value]
  simp [Picker.rowWithValue?]

private theorem selectedAt_ofKey (sc : Scene) (rows : Selection) (hNumber : k.number = n) :
    sc.selectedAt rows (.ofKey k) = .ok (rows.get? n) := by
  rw [← hNumber]
  cases k <;> rfl

/-- The value of a component in which a row is selected is the value of the row. -/
theorem valueForComponent_of_shows (h : sc.Displays id p) (hShows : p.Shows n value)
    (hNumber : k.number = n) : sc.valueForComponent id (.ofKey k) = .ok (.ofText? value) := by
  obtain ⟨row, c, r, hRow, hc, hr, rfl⟩ := hShows
  have hElement : sc.elementAt (.list (c.rows.map .pickerRow)) (.int row) = .ok (.pickerRow r) := by
    rw [elementAt_list, atPosition?_ofNat, List.getElem?_map, hr]
    rfl
  have hPart : sc.partAt (.list (c.rows.map .pickerRow)) (.int row) "value" =
      .ok (.ofText? r.value) := by
    rw [partAt, hElement]
    rfl
  rw [valueForComponent, stored_of_field? h.selected, stored_of_field? h.components]
  simp only [selectedAt_ofKey sc _ hNumber, hRow, partAt_rows sc hNumber hc, bind, Except.bind,
    hPart]

end Scene

/-! ## Calls -/

namespace Acting

variable {sc : Scene} {id : ObjectId} {p q : Picker} {c : PickerComponent} {k : Key} {n : Nat}
  {value : Option String} {name : String} {attributes : Table String String}

private theorem hookFrom?_raw (hcs : sc.classes.Extends classes) :
    sc.classes.hookFrom? pickerClass .raw = some ("PickerView", .addPickerPart) := by
  rw [Classes.hookFrom?, hcs.nearest? View.complete_classes rfl]
  rfl

/-- What is selected plays no role in what raw elements declare. -/
theorem addPart_components (p : Picker) (cls name : String) (attributes : Table String String) :
    ({ components := p.components } : Picker).addPart cls name attributes =
      (p.addPart cls name attributes).map fun q => { components := q.components } := by
  unfold Picker.addPart
  split
  · rfl
  · split <;> rfl
  · rfl

private theorem run_leave (id : ObjectId) (q : Picker) (items : List Value) (sc : Scene) :
    addPickerPart.leave id [] q (.list items) sc =
      (.ok (), { sc with
        store := sc.store.setField id "components" (.list (q.components.map .pickerComponent)) }) :=
  rfl

/-- A picker leaves what a raw element declares, and changes nothing if it declares nothing. -/
theorem run_addPickerPart (h : sc.Displays id p) :
    addPickerPart "PickerView" id name attributes sc =
      match p.addPart "PickerView" name attributes with
      | .ok q =>
        (.ok (), { sc with
          store := sc.store.setField id "components" (.list (q.components.map .pickerComponent)) })
      | .error fault => (.error (.of fault), sc) := by
  have hKnown : knownComponents (p.components.map .pickerComponent) = ([], p.components) :=
    knownComponents_ofComponents p.components
  -- There is nothing in the list but the components of the picker.
  have hOwn : (p.components.isEmpty && (Value.list (p.components.map .pickerComponent)).isTrue) =
      false := by
    cases p.components <;> rfl
  rw [addPickerPart, run_bind_of_eq_ok (run_get sc), Scene.stored_of_field? h.components]
  simp only [hKnown, addPart_components]
  cases hAdd : p.addPart "PickerView" name attributes with
  | error fault => rfl
  | ok q =>
    have hAfter : look (fun _ => Except.mapError Failure.of
        (Except.map (fun q => ({ components := q.components } : Picker)) (.ok q))) sc =
          (.ok { components := q.components }, sc) := rfl
    rw [run_bind_of_eq_ok hAfter]
    simp only [hOwn, Bool.false_eq_true, if_false]
    generalize attributes.get? "title" = title
    split <;> exact run_leave id _ _ sc

/-- Telling a picker of a raw element. -/
theorem tell_picker (platform : String) (hcs : sc.classes.Extends classes)
    (h : sc.Displays id p) (name : String) (attributes : Table String String) :
    match p.addPart "PickerView" name attributes with
    | .ok q => ∃ sc', tell platform id (.raw name attributes) sc = (.ok (), sc') ∧
        sc'.classes = sc.classes ∧ sc'.Displays id q
    | .error fault => tell platform id (.raw name attributes) sc = (.error (.of fault), sc) := by
  have hTell : tell platform id (.raw name attributes) sc =
      addPickerPart "PickerView" id name attributes sc :=
    have hFree : sc.store.field? id (Call.raw name attributes).hook.name = none :=
      h.free _ List.mem_cons_self
    run_tell_of_rule h.class? hFree (hookFrom?_raw hcs) (by decide)
  rw [hTell, run_addPickerPart h]
  split
  · next q hAdd =>
    have hPut := h.putComponents q.components
    rw [← Picker.addPart_selected hAdd] at hPut
    exact ⟨_, rfl, rfl, hPut⟩
  · rfl

/-! ### Asking -/

theorem operation?_picker (hcs : sc.classes.Extends classes) (method : String) :
    sc.classes.operation? pickerClass method = classes.operation? pickerClass method := by
  rw [Classes.operation?, Classes.operation?, hcs.nearest? View.complete_classes rfl]

/-- What a picker answers to an operation that changes nothing. -/
theorem run_ask (platform : String) (cell : ClassId) (hcs : sc.classes.Extends classes)
    (h : sc.Displays id p) {method : String} {args : List Value} {answer : Value}
    (hMethod : (method, args.length) ∈ [("number_of_components", 0), ("value_for_component", 1)])
    (hAnswer : sc.answer cell id "PickerView" method args = .ok answer) :
    ask platform cell id method args sc = (.ok answer, sc) := by
  have hFree : sc.store.field? id method = none := by
    refine h.free method ?_
    simp only [List.mem_cons, Prod.mk.injEq, List.not_mem_nil, or_false] at hMethod
    rcases hMethod with ⟨rfl, -⟩ | ⟨rfl, -⟩ <;> decide
  have hLook : look (fun sc => sc.answer cell id "PickerView" method args) sc =
      (.ok answer, sc) := by
    rw [look, run_bind_of_eq_ok (run_get sc), hAnswer]
    rfl
  rw [ask, run_bind_of_eq_ok (run_refuseReplaced hFree), run_bind_of_eq_ok (run_get sc), h.class?,
    Option.bind_some, operation?_picker hcs]
  simp only [List.mem_cons, Prod.mk.injEq, List.not_mem_nil, or_false] at hMethod
  rcases hMethod with ⟨rfl, hArgs⟩ | ⟨rfl, hArgs⟩
  · obtain rfl := List.length_eq_zero_iff.1 hArgs
    exact hLook
  · obtain ⟨v, rfl⟩ := List.length_eq_one_iff.1 hArgs
    exact hLook

theorem run_number_of_components (platform : String) (cell : ClassId)
    (hcs : sc.classes.Extends classes) (h : sc.Displays id p) :
    ask platform cell id "number_of_components" [] sc = (.ok (.int p.components.length), sc) := by
  refine run_ask platform cell hcs h (by decide) ?_
  show (do return .int (← sc.length (sc.stored id "components")) : Except Failure Value) = _
  rw [Scene.stored_of_field? h.components, Scene.length, List.length_map]
  rfl

private theorem run_value_for_component (platform : String) (cell : ClassId)
    (hcs : sc.classes.Extends classes) (h : sc.Displays id p) (hShows : p.Shows n value)
    (hNumber : k.number = n) :
    ask platform cell id "value_for_component" [.ofKey k] sc = (.ok (.ofText? value), sc) :=
  run_ask platform cell hcs h (by simp) (Scene.valueForComponent_of_shows h hShows hNumber)

/-- Selecting a row of a component that is there. -/
theorem run_select_value (platform : String) (cell : ClassId) (hcs : sc.classes.Extends classes)
    (h : sc.Displays id p) (hNumber : k.number = n) (hc : p.components[n]? = some c)
    (value : Option String) :
    ask platform cell id "select_value" [.ofText? value, .ofKey k] sc =
      match Picker.rowWithValue? c value with
      | none => (.ok (.bool false), sc)
      | some row => (.ok (.bool true), { sc with
          store := sc.store.setField id "selected_rows" (.selection (p.selected.put k row)) }) := by
  have hSelect : ask platform cell id "select_value" [.ofText? value, .ofKey k] sc =
      selectValue id (.ofText? value) (.ofKey k) sc := by
    rw [ask, run_bind_of_eq_ok (run_refuseReplaced (h.free _ (by decide))),
      run_bind_of_eq_ok (run_get sc), h.class?, Option.bind_some, operation?_picker hcs]
    rfl
  have hRows : look (fun sc => sc.partAt (sc.stored id "components") (.ofKey k) "rows") sc =
      (.ok (.list (c.rows.map .pickerRow)), sc) := by
    rw [look, run_bind_of_eq_ok (run_get sc), Scene.stored_of_field? h.components,
      Scene.partAt_rows sc hNumber hc]
    rfl
  have hFind : look (·.find (.list (c.rows.map .pickerRow)) "value" (.ofText? value)) sc =
      (.ok (Picker.rowWithValue? c value), sc) := by
    rw [look, run_bind_of_eq_ok (run_get sc), Scene.find_value]
    rfl
  rw [hSelect, selectValue, run_bind_of_eq_ok hRows, run_bind_of_eq_ok hFind]
  cases Picker.rowWithValue? c value with
  | none => rfl
  | some row =>
    have hSelected : look (fun sc => sc.withSelected (sc.stored id "selected_rows") (.ofKey k) row)
        sc = (.ok (.selection (p.selected.put k row)), sc) := by
      rw [look, run_bind_of_eq_ok (run_get sc), Scene.stored_of_field? h.selected]
      simp only [Scene.withSelected, Scene.key?_ofKey]
      rfl
    exact run_bind_of_eq_ok hSelected

end Acting

/-! ## Histories -/

/-- What a picker is called with: a raw element, or a value to select in a component. -/
inductive PickerCall where
  | raw (name : String) (attributes : Table String String)
  | select (value : Option String) (component : Key)

namespace PickerCall

/-- Calls a picker, where `cell` is the class of table cells. -/
def run (platform : String) (cell : ClassId) (id : ObjectId) : PickerCall → Acting Value
  | .raw name attributes => do
    Acting.tell platform id (.raw name attributes)
    return .none
  | .select value component =>
    Acting.ask platform cell id "select_value" [.ofText? value, .ofKey component]

/-- The objects after some calls, each of which may have been accepted or rejected. -/
def after (platform : String) (cell : ClassId) (id : ObjectId) (calls : List PickerCall)
    (sc : Scene) : Scene :=
  calls.foldl (fun sc call => (call.run platform cell id sc).2) sc

/-- A picker has a component with a number, by what it says on how many it has. -/
def HasComponent (platform : String) (cell : ClassId) (id : ObjectId) (sc : Scene)
    (component : Key) : Prop :=
  ∃ count : Int, (Acting.ask platform cell id "number_of_components" [] sc).1 = .ok (.int count) ∧
    0 ≤ component.number ∧ component.number < count

/-- If the call selects a row, the picker has the component at that moment. -/
def Fits (platform : String) (cell : ClassId) (id : ObjectId) (sc : Scene) : PickerCall → Prop
  | .raw _ _ => True
  | .select _ component => HasComponent platform cell id sc component

/-- All calls select rows only in components that the picker has then. -/
def Proper (platform : String) (cell : ClassId) (id : ObjectId) : List PickerCall → Scene → Prop
  | [], _ => True
  | call :: rest, sc =>
    call.Fits platform cell id sc ∧
      Proper platform cell id rest (call.run platform cell id sc).2

/-- The call does not select a row of a component with success. -/
def Misses (platform : String) (cell : ClassId) (id : ObjectId) (number : Int) (sc : Scene)
    (call : PickerCall) : Prop :=
  ∀ value component, call = .select value component → component.number = number →
    (call.run platform cell id sc).1 ≠ .ok (.bool true)

/-- None of the calls selects a row of a component with success. -/
def Leaves (platform : String) (cell : ClassId) (id : ObjectId) (number : Int) :
    List PickerCall → Scene → Prop
  | [], _ => True
  | call :: rest, sc =>
    call.Misses platform cell id number sc ∧
      Leaves platform cell id number rest (call.run platform cell id sc).2

/-- What a call makes of a picker, and the answer to it. -/
inductive Steps (p : Picker) : PickerCall → Except Failure Value → Picker → Prop
  | declared {q : Picker} {name : String} {attributes : Table String String}
      (hAdd : p.addPart "PickerView" name attributes = .ok q) :
      Steps p (.raw name attributes) (.ok .none) q
  | refused {fault : Fault} {name : String} {attributes : Table String String}
      (hAdd : p.addPart "PickerView" name attributes = .error fault) :
      Steps p (.raw name attributes) (.error (.of fault)) p
  | selected {n row : Nat} {c : PickerComponent} {value : Option String} {k : Key}
      (hNumber : k.number = n) (hc : p.components[n]? = some c)
      (hRow : Picker.rowWithValue? c value = some row) :
      Steps p (.select value k) (.ok (.bool true)) { p with selected := p.selected.put k row }
  | absent {n : Nat} {c : PickerComponent} {value : Option String} {k : Key}
      (hNumber : k.number = n) (hc : p.components[n]? = some c)
      (hNone : Picker.rowWithValue? c value = none) :
      Steps p (.select value k) (.ok (.bool false)) p

variable {platform : String} {cell : ClassId} {id : ObjectId} {sc : Scene} {p q : Picker}
  {call : PickerCall} {calls rest : List PickerCall} {answer : Except Failure Value} {n : Nat}
  {value : Option String} {component : Key}

namespace Steps

theorem sound (h : Steps p call answer q) (hSound : p.Sound) : q.Sound := by
  cases h with
  | declared hAdd => exact hSound.grows (Picker.addPart_grows hAdd) (Picker.addPart_selected hAdd)
  | refused _ => exact hSound
  | selected hNumber hc hRow =>
    obtain ⟨r, hr, -⟩ := Picker.exists_of_rowWithValue? hRow
    exact hSound.put hNumber hc (List.getElem?_eq_some_iff.1 hr).1
  | absent _ _ _ => exact hSound

/-- What is selected in a component lasts until a row of it is selected with success. -/
theorem shows (h : Steps p call answer q) (hShows : p.Shows n value)
    (hMisses : ∀ value component, call = .select value component → component.number = n →
      answer ≠ .ok (.bool true)) : q.Shows n value := by
  cases h with
  | declared hAdd => exact hShows.grows (Picker.addPart_grows hAdd) (Picker.addPart_selected hAdd)
  | refused _ => exact hShows
  | selected _ _ _ => exact hShows.put (fun hNumber => hMisses _ _ rfl hNumber rfl) _
  | absent _ _ _ => exact hShows

/-- A row that is selected with success has the value that was asked for. -/
theorem shows_of_true (h : Steps p (.select value component) (.ok (.bool true)) q)
    (hNumber : component.number = n) : q.Shows n value := by
  cases h with
  | @selected m row c _ _ hNumber' hc hRow =>
    obtain rfl : m = n := Int.ofNat.inj (hNumber'.symm.trans hNumber)
    obtain ⟨r, hr, hValue⟩ := Picker.exists_of_rowWithValue? hRow
    refine ⟨row, c, r, ?_, hc, hr, hValue⟩
    rw [← hNumber]
    exact Selection.get?_put_self p.selected component row

end Steps

theorem HasComponent.exists (h : HasComponent platform cell id sc component)
    (hcs : sc.classes.Extends classes) (hDisplays : sc.Displays id p) :
    ∃ (n : Nat) (c : PickerComponent), component.number = n ∧ p.components[n]? = some c := by
  obtain ⟨count, hCount, hLow, hHigh⟩ := h
  rw [Acting.run_number_of_components platform cell hcs hDisplays] at hCount
  have hLength : (p.components.length : Int) = count := by simpa using hCount
  obtain ⟨n, hNumber⟩ := Int.eq_ofNat_of_zero_le hLow
  have hBound : n < p.components.length := by omega
  exact ⟨n, _, hNumber, List.getElem?_eq_getElem hBound⟩

/-- What one call does to a picker that an object stores. A call that is refused, or that finds no
row, leaves all objects as they were. -/
theorem run_displays (hcs : sc.classes.Extends classes) (h : sc.Displays id p)
    (hFits : call.Fits platform cell id sc) :
    ∃ q, Steps p call (call.run platform cell id sc).1 q ∧
      (call.run platform cell id sc).2.classes = sc.classes ∧
      (call.run platform cell id sc).2.Displays id q ∧
      ((call.run platform cell id sc).2 = sc ∨ (call.run platform cell id sc).1 = .ok .none ∨
        (call.run platform cell id sc).1 = .ok (.bool true)) := by
  cases call with
  | raw name attributes =>
    have hTell := Acting.tell_picker platform hcs h name attributes
    cases hAdd : p.addPart "PickerView" name attributes with
    | ok q =>
      rw [hAdd] at hTell
      obtain ⟨sc', hTell, hClasses, hq⟩ := hTell
      have hRun : run platform cell id (.raw name attributes) sc = (.ok .none, sc') :=
        run_bind_of_eq_ok hTell
      rw [hRun]
      exact ⟨q, .declared hAdd, hClasses, hq, .inr (.inl rfl)⟩
    | error fault =>
      rw [hAdd] at hTell
      have hRun : run platform cell id (.raw name attributes) sc = (.error (.of fault), sc) :=
        run_bind_of_eq_error hTell
      rw [hRun]
      exact ⟨p, .refused hAdd, rfl, h, .inl rfl⟩
  | select value component =>
    obtain ⟨n, c, hNumber, hc⟩ := HasComponent.exists hFits hcs h
    have hSelect := Acting.run_select_value platform cell hcs h hNumber hc value
    rw [run, hSelect]
    cases hRow : Picker.rowWithValue? c value with
    | none => exact ⟨p, .absent hNumber hc hRow, rfl, h, .inl rfl⟩
    | some row => exact ⟨_, .selected hNumber hc hRow, rfl, h.putSelected _, .inr (.inr rfl)⟩

/-- After any calls an object still stores a picker, whose selection refers to rows that are there;
and what was selected in a component before is selected still, if no call has selected a row of it
with success. -/
theorem displays_after (hcs : sc.classes.Extends classes) (h : sc.Displays id p)
    (hSound : p.Sound) (hProper : Proper platform cell id calls sc) :
    ∃ q, (after platform cell id calls sc).classes = sc.classes ∧
      (after platform cell id calls sc).Displays id q ∧ q.Sound ∧
      ∀ n value, p.Shows n value → Leaves platform cell id n calls sc → q.Shows n value := by
  induction calls generalizing sc p with
  | nil => exact ⟨p, rfl, h, hSound, fun _ _ hShows _ => hShows⟩
  | cons call rest ih =>
    obtain ⟨hCall, hRest⟩ := hProper
    obtain ⟨q, hStep, hClasses, hq, -⟩ := run_displays hcs h hCall
    obtain ⟨q', hClasses', hq', hSound', hShows'⟩ :=
      ih (hClasses ▸ hcs) hq (hStep.sound hSound) hRest
    exact ⟨q', hClasses'.trans hClasses, hq', hSound', fun n value hShows hLeaves =>
      hShows' n value (hStep.shows hShows hLeaves.1) hLeaves.2⟩

private theorem proper_append : Proper platform cell id (calls ++ rest) sc ↔
    Proper platform cell id calls sc ∧
      Proper platform cell id rest (after platform cell id calls sc) := by
  induction calls generalizing sc with
  | nil => simp [Proper, after]
  | cons call calls ih =>
    rw [List.cons_append, Proper, Proper, ih, and_assoc]
    rfl

/-- A new picker has no components and nothing selected. -/
theorem displays_fresh {cs : Classes} {style : Option String} {s s' : Store}
    (hcs : cs.Extends View.Catalog.classes)
    (hMade : cs.instantiateStyled pickerClass style s = .ok (id, s')) :
    Scene.Displays ⟨cs, s'⟩ id {} := by
  have hStarts : cs.starts pickerClass [] = View.Catalog.classes.starts pickerClass [] :=
    hcs.starts View.complete_classes rfl []
  have hGiven {name : String} {v : Value}
      (hGet : (View.Catalog.classes.starts pickerClass []).get? name = some (.value v))
      (hName : name ∉ Classes.styleNames) : s'.field? id name = some v :=
    (Classes.instantiateStyled_field? hMade hName).1 _ v (hStarts ▸ hGet) rfl
  have hFree {name : String} (hGet : (View.Catalog.classes.starts pickerClass []).get? name = none)
      (hName : name ∉ Classes.styleNames) : s'.field? id name = none :=
    (Classes.instantiateStyled_field? hMade hName).2 (hStarts ▸ hGet)
  refine ⟨Classes.instantiateStyled_class? hMade, fun operation hOperation => ?_,
    hGiven rfl (by decide), hGiven rfl (by decide)⟩
  simp only [pickerOperations, List.mem_cons, List.not_mem_nil, or_false] at hOperation
  rcases hOperation with rfl | rfl | rfl | rfl <;> exact hFree rfl (by decide)

/-- What was selected with success is the answer for its component after any calls that select no
row of it with success. -/
theorem lasts (hcs : sc.classes.Extends classes) (h : sc.Displays id p) (hSound : p.Sound)
    (hFits : (select value component).Fits platform cell id sc)
    (hProper : Proper platform cell id calls ((select value component).run platform cell id sc).2)
    (hTrue : ((select value component).run platform cell id sc).1 = .ok (.bool true))
    (hLeaves : Leaves platform cell id component.number calls
      ((select value component).run platform cell id sc).2)
    {k : Key} (hk : k.number = component.number) :
    let sc' := after platform cell id calls ((select value component).run platform cell id sc).2
    Acting.ask platform cell id "value_for_component" [.ofKey k] sc' =
      (.ok (.ofText? value), sc') := by
  obtain ⟨n, -, hNumber, -⟩ := HasComponent.exists hFits hcs h
  obtain ⟨q, hStep, hClasses, hq, -⟩ := run_displays hcs h hFits
  rw [hTrue] at hStep
  obtain ⟨r, hClasses', hr, -, hShows⟩ :=
    displays_after (hClasses ▸ hcs) hq (hStep.sound hSound) hProper
  exact Acting.run_value_for_component platform cell (hClasses' ▸ hClasses ▸ hcs) hr
    (hShows n value (hStep.shows_of_true hNumber) (hNumber ▸ hLeaves)) (hk.trans hNumber)

private theorem run_eq_self_of_error {name : String} {attributes : Table String String}
    {failure : Failure} (hcs : sc.classes.Extends classes) (h : sc.Displays id p)
    (hError : ((raw name attributes).run platform cell id sc).1 = .error failure) :
    ((raw name attributes).run platform cell id sc).2 = sc := by
  have hFits : (raw name attributes).Fits platform cell id sc := trivial
  obtain ⟨-, -, -, -, hSame | hDone | hDone⟩ := run_displays hcs h hFits
  · exact hSame
  · rw [hDone] at hError
    cases hError
  · rw [hDone] at hError
    cases hError

/-- After any calls of a new picker, accepted or rejected, everything that is selected is a row that
is there of a component that is there. What was selected in a component with success is what the
picker answers for it, until a row of that component is selected with success again. Selecting says
whether there is a row with the value, and if there is none it changes nothing; nor does a raw
element that is rejected. -/
theorem run_picker {cs : Classes} (hcs : cs.Extends View.Catalog.classes) {style : Option String}
    {s s' : Store} (hMade : cs.instantiateStyled pickerClass style s = .ok (id, s'))
    (platform : String) (cell : ClassId) {calls : List PickerCall}
    (hProper : Proper platform cell id calls ⟨cs, s'⟩) :
    let sc := after platform cell id calls ⟨cs, s'⟩
    (∃ p, sc.Displays id p ∧ p.Sound ∧
      Acting.ask platform cell id "number_of_components" [] sc =
        (.ok (.int p.components.length), sc) ∧
      ∀ value component, HasComponent platform cell id sc component →
        ∃ (n : Nat) (c : PickerComponent) (found : Bool), component.number = n ∧
          p.components[n]? = some c ∧
          ((select value component).run platform cell id sc).1 = .ok (.bool found) ∧
          (found = false ↔ ∀ r ∈ c.rows, r.value ≠ value) ∧
          (found = false → ((select value component).run platform cell id sc).2 = sc)) ∧
      (∀ before value component rest, calls = before ++ select value component :: rest →
        let earlier := after platform cell id before ⟨cs, s'⟩
        ((select value component).run platform cell id earlier).1 = .ok (.bool true) →
          Leaves platform cell id component.number rest
              ((select value component).run platform cell id earlier).2 →
            ∀ k : Key, k.number = component.number →
              Acting.ask platform cell id "value_for_component" [.ofKey k] sc =
                (.ok (.ofText? value), sc)) ∧
      ∀ name attributes failure,
        ((raw name attributes).run platform cell id sc).1 = .error failure →
          ((raw name attributes).run platform cell id sc).2 = sc := by
  intro sc
  have hFresh := displays_fresh hcs hMade
  have hSound : Picker.Sound {} := fun _ he => nomatch he
  obtain ⟨p, hClasses, hp, hpSound, -⟩ := displays_after hcs hFresh hSound hProper
  have hcs' : sc.classes.Extends View.Catalog.classes := by
    rw [hClasses]
    exact hcs
  have hCount := Acting.run_number_of_components platform cell hcs' hp
  refine ⟨⟨p, hp, hpSound, hCount, ?_⟩, ?_, ?_⟩
  · intro value component hHas
    obtain ⟨n, c, hNumber, hc⟩ := hHas.exists hcs' hp
    have hSelect := Acting.run_select_value platform cell hcs' hp hNumber hc value
    have hNone : Picker.rowWithValue? c value = none ↔ ∀ r ∈ c.rows, r.value ≠ value :=
      Picker.rowWithValue?_eq_none_iff
    rw [run, hSelect]
    cases hRow : Picker.rowWithValue? c value with
    | none => exact ⟨n, c, false, hNumber, hc, rfl, by simpa using hNone.1 hRow, fun _ => rfl⟩
    | some row =>
      have hSome : ¬ ∀ r ∈ c.rows, r.value ≠ value := by
        rw [← hNone, hRow]
        simp
      exact ⟨n, c, true, hNumber, hc, rfl, by simpa using hSome, by simp⟩
  · intro before value component rest hCut earlier hTrue hLeaves k hk
    rw [hCut, proper_append] at hProper
    obtain ⟨hBefore, hCall, hRest⟩ := hProper
    obtain ⟨q, hClassesBefore, hq, hqSound, -⟩ := displays_after hcs hFresh hSound hBefore
    have hSame : sc = after platform cell id rest
        ((select value component).run platform cell id earlier).2 := by
      simp only [sc, hCut, after, List.foldl_append, List.foldl_cons]
      rfl
    rw [hSame]
    exact lasts (hClassesBefore ▸ hcs) hq hqSound hCall hRest hTrue hLeaves hk
  · intro name attributes failure hError
    exact run_eq_self_of_error hcs' hp hError

/-! ### Checking histories -/

/-- A number or a truth value can be seen in an answer. -/
theorem bind_key?_eq_some_iff {answer : Except Failure Value} {k : Key} :
    answer.toOption.bind Value.key? = some k ↔ answer = .ok (.ofKey k) := by
  constructor
  · intro h
    obtain ⟨v, hAnswer, hKey⟩ := Option.bind_eq_some_iff.1 h
    rw [eq_ok_of_toOption_eq_some hAnswer]
    cases v <;> cases hKey <;> rfl
  · rintro rfl
    exact Scene.key?_ofKey k

private theorem hasComponent_iff : HasComponent platform cell id sc component ↔
    ∃ k ∈ (Acting.ask platform cell id "number_of_components" [] sc).1.toOption.bind Value.key?,
      k = .int k.number ∧ 0 ≤ component.number ∧ component.number < k.number := by
  constructor
  · rintro ⟨count, hCount, hRange⟩
    exact ⟨.int count, bind_key?_eq_some_iff.2 hCount, rfl, hRange⟩
  · rintro ⟨k, hk, hInt, hRange⟩
    rw [Option.mem_def, bind_key?_eq_some_iff, hInt] at hk
    exact ⟨k.number, hk, hRange⟩

instance : Decidable (HasComponent platform cell id sc component) :=
  decidable_of_iff _ hasComponent_iff.symm

instance : ∀ call : PickerCall, Decidable (call.Fits platform cell id sc)
  | .raw _ _ => instDecidableTrue
  | .select _ component => inferInstanceAs (Decidable (HasComponent platform cell id sc component))

instance decidableProper :
    ∀ (calls : List PickerCall) (sc : Scene), Decidable (Proper platform cell id calls sc)
  | [], _ => instDecidableTrue
  | call :: rest, sc =>
    have := decidableProper rest (call.run platform cell id sc).2
    inferInstanceAs (Decidable (call.Fits platform cell id sc ∧ _))

private theorem misses_select_iff {number : Int} :
    Misses platform cell id number sc (.select value component) ↔
      (component.number = number →
        ((select value component).run platform cell id sc).1.toOption.bind Value.key? ≠
          some (.bool true)) := by
  rw [ne_eq, bind_key?_eq_some_iff]
  constructor
  · exact fun h => h value component rfl
  · rintro h _ _ ⟨⟩
    exact h

instance {number : Int} : ∀ call : PickerCall, Decidable (Misses platform cell id number sc call)
  | .raw _ _ => isTrue fun _ _ h => nomatch h
  | .select _ _ => decidable_of_iff _ misses_select_iff.symm

instance decidableLeaves {number : Int} :
    ∀ (calls : List PickerCall) (sc : Scene), Decidable (Leaves platform cell id number calls sc)
  | [], _ => instDecidableTrue
  | call :: rest, sc =>
    have : Decidable (Leaves platform cell id number rest (call.run platform cell id sc).2) :=
      decidableLeaves rest _
    inferInstanceAs (Decidable (Misses platform cell id number sc call ∧ _))

/-- Rows for sizes, the larger of which is selected, then a component for colors with a row of its
own, which is selected, a raw element that is rejected, another row, and a size that there is
not. -/
def sizesAndColors : List PickerCall := [
  .raw "row" [("title", "Small"), ("value", "s")], .raw "row" [("title", "Large"), ("value", "l")],
  .select (some "l") (.int 0), .raw "component" [("name", "colors")],
  .raw "row" [("title", "Red"), ("value", "r")], .select (some "r") (.int 1), .raw "row" [],
  .raw "row" [("title", "Green"), ("value", "g")], .select (some "m") (.int 0)]

/-- A store with a picker and nothing else, but for its layer. -/
def pickerStore : Store :=
  ((View.Catalog.classes.instantiateStyled pickerClass none {}).toOption.map (·.2)).getD {}

/-- The size is still selected after all that has happened since. -/
theorem run_picker_sizes :
    View.Catalog.classes.instantiateStyled pickerClass none {} = .ok (0, pickerStore) ∧
      Proper "linux" cellClass 0 sizesAndColors ⟨View.Catalog.classes, pickerStore⟩ ∧
      let sc := after "linux" cellClass 0 sizesAndColors ⟨View.Catalog.classes, pickerStore⟩
      Acting.ask "linux" cellClass 0 "value_for_component" [.int 0] sc = (.ok (.text "l"), sc) := by
  have hMade : View.Catalog.classes.instantiateStyled pickerClass none {} = .ok (0, pickerStore) :=
    rfl
  have hProper : Proper "linux" cellClass 0 sizesAndColors ⟨View.Catalog.classes, pickerStore⟩ := by
    decide +kernel
  obtain ⟨-, hSelected, -⟩ := run_picker (.refl _) hMade "linux" cellClass hProper
  refine ⟨hMade, hProper, ?_⟩
  have hTrue : ((select (some "l") (.int 0)).run "linux" cellClass 0 (after "linux" cellClass 0
      (sizesAndColors.take 2) ⟨View.Catalog.classes, pickerStore⟩)).1 =
        .ok (.ofKey (.bool true)) :=
    bind_key?_eq_some_iff.1 (by decide +kernel)
  exact hSelected (sizesAndColors.take 2) (some "l") (.int 0) (sizesAndColors.drop 3) rfl hTrue
    (by decide +kernel) (.int 0) rfl

end PickerCall
end ViewMarkup
