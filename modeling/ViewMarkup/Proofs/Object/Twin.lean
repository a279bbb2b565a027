import ViewMarkup.Binding
import ViewMarkup.Component.Registry
import ViewMarkup.Proofs.Object.Cell

/-!
# Stores that hold the same

Two stores are twins if they have the same objects, and the same values in all cells. They may
differ in the order in which attributes were set for the first time, which nobody sees who asks for
attributes by their names.

Assigning different cells in another order gives a twin. Assigning a cell twice, or making new
objects, keeps twins twins.

## Main results

* `Store.Twin.assign`, `Store.Twin.add` — changing twins in the same way gives twins.
* `Store.twin_assignAll` — different cells can be assigned in any order.
* `Classes.instantiate_twin` — instances are made alike.
-/

namespace ViewMarkup

namespace Store

variable {s t u : Store} {cell cell' : Cell} {v v' : Value}

/-- Two stores with the same objects, and the same values in all cells. -/
structure Twin (s t : Store) : Prop where
  type (id : ObjectId) : t.type? id = s.type? id
  value (cell : Cell) : t.valueAt? cell = s.valueAt? cell

namespace Twin

theorem refl (s : Store) : Twin s s := ⟨fun _ => rfl, fun _ => rfl⟩

theorem symm (h : Twin s t) : Twin t s :=
  ⟨fun id => (h.type id).symm, fun cell => (h.value cell).symm⟩

theorem trans (h : Twin s t) (h' : Twin t u) : Twin s u :=
  ⟨fun id => (h'.type id).trans (h.type id), fun cell => (h'.value cell).trans (h.value cell)⟩

theorem sameBut (h : Twin s t) (cells : List Cell) : SameBut cells s t where
  type := h.type
  value cell _ := h.value cell
  there cell hThere := by rwa [h.value]

theorem class? (h : Twin s t) (id : ObjectId) : t.class? id = s.class? id :=
  class?_of_type? (h.type id)

theorem field? (h : Twin s t) (id : ObjectId) (attr : String) :
    t.field? id attr = s.field? id attr :=
  h.value (.field id attr)

private theorem borne? (h : Twin s t) (b : Bearer) (attr : String) :
    t.borne? b attr = s.borne? b attr :=
  h.value (.borne b attr)

theorem isReferable (h : Twin s t) (id : ObjectId) : t.isReferable id = s.isReferable id := by
  unfold Store.isReferable
  rw [h.type]

private theorem holds (h : Twin s t) (cell : Cell) : t.holds cell = s.holds cell := by
  cases cell with
  | field id attr => exact congrArg Option.isSome (h.type id)
  | borne b attr => rfl

/-- Twins have as many objects. -/
theorem size_eq (h : Twin s t) : t.size = s.size := by
  have hLe {s t : Store} (h : Twin s t) : t.size ≤ s.size := by
    refine Nat.le_of_not_lt fun hLt => ?_
    have hType := h.type s.size
    have hNone : s.type? s.size = none := by simp [type?, get?, size]
    have hSome : (t.type? s.size).isSome = true := by
      simp [type?, get?, Array.getElem?_eq_getElem hLt]
    rw [hType, hNone] at hSome
    cases hSome
  exact Nat.le_antisymm (hLe h) (hLe h.symm)

theorem assign (h : Twin s t) (cell : Cell) (v : Value) :
    Twin (s.assign cell v) (t.assign cell v) where
  type id := by rw [type?_assign, type?_assign, h.type]
  value cell' := by rw [valueAt?_assign, valueAt?_assign, h.holds, h.value]

theorem setField (h : Twin s t) (id : ObjectId) (attr : String) (v : Value) :
    Twin (s.setField id attr v) (t.setField id attr v) :=
  h.assign (.field id attr) v

end Twin

private theorem holds_assign (s : Store) (cell : Cell) (v : Value) (cell' : Cell) :
    (s.assign cell v).holds cell' = s.holds cell' := by
  cases cell' with
  | field id attr => exact congrArg Option.isSome (type?_assign s cell v id)
  | borne b attr => rfl

/-- Two different cells can be assigned in either order. -/
theorem twin_assign_assign (s : Store) (v v' : Value) (hNe : cell ≠ cell') :
    Twin ((s.assign cell v).assign cell' v') ((s.assign cell' v').assign cell v) where
  type id := by simp only [type?_assign]
  value other := by
    simp only [valueAt?_assign, holds_assign]
    by_cases hFirst : other = cell
    · have hOther : other ≠ cell' := hFirst ▸ hNe
      simp only [hFirst, if_true]
      rw [if_neg hNe]
    · simp only [hFirst, if_false]

/-! ## Many assignments -/

/-- The store with some cells assigned in order. -/
def assignAll (s : Store) (changes : List (Cell × Value)) : Store :=
  changes.foldl (fun s change => s.assign change.1 change.2) s

theorem Twin.assignAll (h : Twin s t) (changes : List (Cell × Value)) :
    Twin (s.assignAll changes) (t.assignAll changes) := by
  induction changes generalizing s t with
  | nil => exact h
  | cons change changes ih => exact ih (h.assign change.1 change.2)

/-- Different cells can be assigned in any order. -/
theorem twin_assignAll {changes changes' : List (Cell × Value)} (h : changes.Perm changes')
    (hApart : changes.Pairwise fun x y => x.1 ≠ y.1) (s : Store) :
    Twin (s.assignAll changes) (s.assignAll changes') := by
  induction h generalizing s with
  | nil => exact .refl s
  | cons change _ ih => exact ih (List.pairwise_cons.1 hApart).2 _
  | swap x y changes =>
    have hNe : y.1 ≠ x.1 := (List.pairwise_cons.1 hApart).1 x List.mem_cons_self
    exact (twin_assign_assign s y.2 x.2 hNe).assignAll changes
  | trans hFirst _ ih ih' =>
    have hApart' := (hFirst.pairwise_iff fun h => Ne.symm h).1 hApart
    exact (ih hApart s).trans (ih' hApart' s)

/-! ## New objects -/

private theorem get?_add (s : Store) (o : Object) (id : ObjectId) :
    (s.add o).2.get? id = if id = s.size then some o else s.get? id := by
  simp only [add, get?, size, Array.getElem?_push]
  rfl

theorem Twin.add (h : Twin s t) (o : Object) :
    (t.add o).1 = (s.add o).1 ∧ Twin (s.add o).2 (t.add o).2 := by
  refine ⟨h.size_eq, ⟨fun id => ?_, fun cell => ?_⟩⟩
  · have hType := h.type id
    unfold type? at hType ⊢
    rw [get?_add, get?_add, h.size_eq]
    split
    · rfl
    · exact hType
  · cases cell with
    | borne b attr => exact h.borne? b attr
    | field id attr =>
      have hField := h.field? id attr
      simp only [valueAt?, field?_eq] at hField ⊢
      rw [get?_add, get?_add, h.size_eq]
      split
      · rfl
      · exact hField

end Store

/-! ## Instances -/

namespace Blueprint

variable {lookup : String → Value} {s t : Store}

mutual

/-- A value is made alike. -/
theorem make_twin : ∀ (b : Blueprint) {s t : Store}, s.Twin t →
    (b.make lookup t).1 = (b.make lookup s).1 ∧ (b.make lookup s).2.Twin (b.make lookup t).2
  | .value v, s, t, h => ⟨rfl, h⟩
  | .reference name, s, t, h => ⟨rfl, h⟩
  | .list items, s, t, h => by
    obtain ⟨hItems, hStore⟩ := makeList_twin items h
    exact ⟨congrArg Value.list hItems, hStore⟩
  | .object type fields, s, t, h => by
    obtain ⟨hNew, hAdded⟩ := h.add { type }
    have hFields := makeFields_twin (s.add { type }).1 fields hAdded
    refine ⟨congrArg Value.object hNew, ?_⟩
    unfold make
    dsimp only
    rwa [hNew]

theorem makeList_twin : ∀ (bs : List Blueprint) {s t : Store}, s.Twin t →
    (makeList lookup bs t).1 = (makeList lookup bs s).1 ∧
      (makeList lookup bs s).2.Twin (makeList lookup bs t).2
  | [], s, t, h => ⟨rfl, h⟩
  | b :: bs, s, t, h => by
    obtain ⟨hValue, hStore⟩ := make_twin b h
    obtain ⟨hValues, hStore'⟩ := makeList_twin bs hStore
    exact ⟨by simp only [makeList, hValue, hValues], hStore'⟩

/-- So are the attributes of an object. -/
theorem makeFields_twin (id : ObjectId) : ∀ (fields : List (String × Blueprint)) {s t : Store},
    s.Twin t → (makeFields lookup id fields s).Twin (makeFields lookup id fields t)
  | [], s, t, h => h
  | (name, b) :: rest, s, t, h => by
    obtain ⟨hValue, hStore⟩ := make_twin b h
    unfold makeFields
    dsimp only
    rw [hValue]
    exact makeFields_twin id rest (hStore.setField id name _)

end

end Blueprint

/-- A new instance is made alike. -/
theorem Classes.instantiate_twin (cs : Classes) (cls : ClassId) {s t : Store} (h : s.Twin t)
    (given : List (String × Blueprint)) :
    (cs.instantiate cls t given).1 = (cs.instantiate cls s given).1 ∧
      (cs.instantiate cls s given).2.Twin (cs.instantiate cls t given).2 := by
  obtain ⟨hNew, hAdded⟩ := h.add { type := .component cls }
  unfold instantiate
  dsimp only
  rw [hNew]
  exact ⟨rfl, Blueprint.makeFields_twin _ _ hAdded⟩

end ViewMarkup
