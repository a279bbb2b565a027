import ViewMarkup.Component.Registry
import ViewMarkup.Proofs.Object.Region
import ViewMarkup.Proofs.Outcome
import ViewMarkup.Proofs.Table

/-!
# What a new instance has

Making a value adds objects behind those that are there, and changes none of them. So of the
attributes that a new instance is given one after the other the last one under a name stays, and an
attribute that is none of them is missing.

## Main results

* `Blueprint.make_grows`, `Classes.instantiateStyled_grows` — making a value or an instance leaves
  the objects that are there as they are.
* `Classes.instantiateStyled_class?`, `Classes.instantiateStyled_field?` — what a new instance is,
  and what it has under a name that no style is stored under.
-/

namespace ViewMarkup

/-! ## Stores -/

namespace Store

/-- The objects of a store are among those of another one, as they were, and other values bear the
same in both. -/
structure Grows (s t : Store) : Prop where
  size_le : s.size ≤ t.size
  kept : ∀ id, id < s.size → t.get? id = s.get? id
  borne : t.borne = s.borne

theorem Grows.refl (s : Store) : s.Grows s := ⟨Nat.le_refl _, fun _ _ => rfl, rfl⟩

theorem Grows.trans {s t u : Store} (h : s.Grows t) (h' : t.Grows u) : s.Grows u where
  size_le := Nat.le_trans h.size_le h'.size_le
  kept id hId := (h'.kept id (Nat.lt_of_lt_of_le hId h.size_le)).trans (h.kept id hId)
  borne := h'.borne.trans h.borne

theorem grows_add (s : Store) (o : Object) : s.Grows (s.add o).2 where
  size_le := by simp [add, size]
  kept _ hId := get?_add_of_lt o hId
  borne := rfl

theorem field?_congr {s t : Store} {id : ObjectId} (h : t.get? id = s.get? id) (attr : String) :
    t.field? id attr = s.field? id attr := by
  rw [field?_eq, field?_eq, h]

theorem field?_setField_self {s : Store} {id : ObjectId} (h : (s.get? id).isSome) (attr : String)
    (v : Value) : (s.setField id attr v).field? id attr = some v := by
  obtain ⟨o, ho⟩ := Option.isSome_iff_exists.1 h
  simp [field?_eq, get?_setField_self, ho, Table.get?_put_self]

theorem isSome_get?_iff {s : Store} {id : ObjectId} : (s.get? id).isSome ↔ id < s.size := by
  simp [get?, size]

theorem lt_size_of_class? {s : Store} {id : ObjectId} {cls : ClassId}
    (h : s.class? id = some cls) : id < s.size := by
  refine isSome_get?_iff.1 ?_
  cases hGet : s.get? id with
  | some _ => rfl
  | none => simp [class?, type?, hGet] at h

end Store

/-! ## Blueprints -/

namespace Blueprint

variable {lookup : String → Value}

mutual

/-- Making a value leaves the objects that are there as they are. -/
theorem make_grows : ∀ (b : Blueprint) (s : Store), s.Grows (b.make lookup s).2
  | .value _, s => .refl s
  | .reference _, s => .refl s
  | .list items, s => makeList_grows items s
  | .object type fields, s => by
    have hAdd := s.grows_add { type }
    have hFields := makeFields_grows fields (s.add { type }).2 s.size
    refine ⟨Nat.le_trans hAdd.size_le hFields.1, fun id hId => ?_, hFields.2.2.trans hAdd.borne⟩
    exact (hFields.2.1 id (Nat.lt_of_lt_of_le hId hAdd.size_le) (Nat.ne_of_lt hId)).trans
      (hAdd.kept id hId)

/-- So does making several values. -/
theorem makeList_grows : ∀ (bs : List Blueprint) (s : Store), s.Grows (makeList lookup bs s).2
  | [], s => .refl s
  | b :: bs, s => (make_grows b s).trans (makeList_grows bs (b.make lookup s).2)

/-- Making the attributes of an object leaves the others as they are. -/
theorem makeFields_grows : ∀ (fields : List (String × Blueprint)) (s : Store) (id : ObjectId),
    s.size ≤ (makeFields lookup id fields s).size ∧
      (∀ id', id' < s.size → id' ≠ id → (makeFields lookup id fields s).get? id' = s.get? id') ∧
      (makeFields lookup id fields s).borne = s.borne
  | [], _, _ => ⟨Nat.le_refl _, fun _ _ _ => rfl, rfl⟩
  | (name, b) :: rest, s, id => by
    have hMake := make_grows b s
    have hSize := Store.size_setField (b.make lookup s).2 id name (b.make lookup s).1
    have hRest := makeFields_grows rest
      ((b.make lookup s).2.setField id name (b.make lookup s).1) id
    refine ⟨Nat.le_trans hMake.size_le (hSize ▸ hRest.1), fun id' hId hNe => ?_,
      hRest.2.2.trans hMake.borne⟩
    have hLt := Nat.lt_of_lt_of_le hId hMake.size_le
    rw [makeFields, hRest.2.1 id' (hSize ▸ hLt) hNe, Store.get?_setField_ne _ _ _ hNe,
      hMake.kept id' hId]

end

/-- Making the attributes of an object does not change what kind of object it is. -/
theorem type?_makeFields (fields : List (String × Blueprint)) (s : Store) {id : ObjectId}
    (h : id < s.size) : (makeFields lookup id fields s).type? id = s.type? id := by
  induction fields generalizing s with
  | nil => rfl
  | cons e rest ih =>
    have hMake : s.Grows (e.2.make lookup s).2 := e.2.make_grows s
    have hLt := Nat.lt_of_lt_of_le h hMake.size_le
    rw [makeFields, ih _ (by rwa [Store.size_setField]), Store.type?_setField, Store.type?,
      hMake.kept id h, Store.type?]

/-- An attribute that is not made stays. -/
theorem field?_makeFields_of_not_mem {fields : List (String × Blueprint)} {name : String}
    (hName : name ∉ Table.keys fields) {s : Store} {id : ObjectId} (h : id < s.size) :
    (makeFields lookup id fields s).field? id name = s.field? id name := by
  induction fields generalizing s with
  | nil => rfl
  | cons e rest ih =>
    have hMake : s.Grows (e.2.make lookup s).2 := e.2.make_grows s
    have hLt := Nat.lt_of_lt_of_le h hMake.size_le
    simp only [Table.keys, List.map_cons, List.mem_cons, not_or] at hName
    rw [makeFields, ih hName.2 (by rwa [Store.size_setField]),
      Store.field?_setField_ne _ _ _ hName.1, Store.field?_congr (hMake.kept id h)]

/-- The value that a blueprint stands for wherever it is made. -/
def constant? : Blueprint → Option Value
  | .value v => some v
  | .list [] => some (.list [])
  | _ => none

private theorem make_of_constant? {b : Blueprint} {v : Value} (h : b.constant? = some v)
    (s : Store) : b.make lookup s = (v, s) := by
  unfold constant? at h
  split at h <;> cases h
  · rw [make]
  · rw [make, makeList]

/-- An attribute that is made of a constant has it. -/
theorem field?_makeFields {fields : List (String × Blueprint)} {name : String} {b : Blueprint}
    {v : Value} (hKeys : (Table.keys fields).Nodup) (hGet : Table.get? fields name = some b)
    (hb : b.constant? = some v) {s : Store} {id : ObjectId} (h : id < s.size) :
    (makeFields lookup id fields s).field? id name = some v := by
  induction fields generalizing s with
  | nil => cases hGet
  | cons e rest ih =>
    have hMake : s.Grows (e.2.make lookup s).2 := e.2.make_grows s
    have hLt := Nat.lt_of_lt_of_le h hMake.size_le
    simp only [Table.keys, List.map_cons, List.nodup_cons] at hKeys
    by_cases hName : e.1 = name
    · simp only [Table.get?, hName, if_true, Option.some.injEq] at hGet
      rw [makeFields, field?_makeFields_of_not_mem (hName ▸ hKeys.1) (by rwa [Store.size_setField]),
        hName, hGet, make_of_constant? hb]
      exact Store.field?_setField_self (Store.isSome_get?_iff.2 h) name v
    · rw [makeFields]
      exact ih hKeys.2 (by simpa [Table.get?, hName] using hGet) (by rwa [Store.size_setField])

end Blueprint

/-! ## Instances -/

namespace Classes

variable {cs : Classes} {cls : ClassId} {style : Option String} {s s' : Store} {id : ObjectId}

/-- The names that styles are stored under. -/
def styleNames : List String := ["style", "axis"]

private theorem mem_styleNames {given : String × String}
    (h : cs.styleField cls style = .ok (some given)) : given.1 ∈ styleNames := by
  unfold styleField at h
  split at h <;> (try split at h) <;> cases h <;> simp [styleNames]

/-- How a new instance in a style is made. -/
theorem instantiateStyled_cases (h : cs.instantiateStyled cls style s = .ok (id, s')) :
    ∃ given : List (String × Blueprint), (∀ e ∈ given, e.1 ∈ styleNames) ∧
      (cs.instantiate cls s given = (id, s') ∨
        ∃ t, cs.instantiate cls s given = (id, t) ∧
          s' = t.setField id "style" (.ofText? style)) := by
  obtain ⟨given, hGiven, h⟩ := exists_of_bind_eq_ok h
  refine ⟨given.toList.map fun e => (e.1, .value (.text e.2)), ?_, ?_⟩
  · cases given with
    | none => simp
    | some e =>
      have hField : cs.styleField cls style = .ok (some e) := eq_ok_of_mapError_eq_ok hGiven
      simpa using mem_styleNames hField
  · generalize cs.instantiate cls s (given.toList.map fun e => (e.1, .value (.text e.2))) = made
      at h ⊢
    cases given with
    | none =>
      dsimp only at h
      split at h
      · cases h
        exact .inr ⟨made.2, rfl, rfl⟩
      · cases h
        exact .inl rfl
    | some e =>
      dsimp only at h
      split at h
      · cases h
      · split at h
        · cases h
          exact .inr ⟨made.2, rfl, rfl⟩
        · cases h
          exact .inl rfl

/-- Making an instance leaves the objects that are there as they are. -/
theorem instantiate_grows (cs : Classes) (cls : ClassId) (s : Store)
    (given : List (String × Blueprint)) :
    s.Grows (cs.instantiate cls s given).2 ∧ (cs.instantiate cls s given).1 = s.size := by
  have hAdd := s.grows_add { type := .component cls }
  have hFields := @Blueprint.makeFields_grows (fun _ => .none) (cs.starts cls given)
    (s.add { type := .component cls }).2 s.size
  refine ⟨⟨Nat.le_trans hAdd.size_le hFields.1, fun id hId => ?_, hFields.2.2⟩, rfl⟩
  exact (hFields.2.1 id (Nat.lt_of_lt_of_le hId hAdd.size_le) (Nat.ne_of_lt hId)).trans
    (hAdd.kept id hId)

theorem instantiateStyled_grows (h : cs.instantiateStyled cls style s = .ok (id, s')) :
    s.Grows s' := by
  obtain ⟨given, -, hMade⟩ := instantiateStyled_cases h
  obtain ⟨hGrows, hId⟩ := instantiate_grows cs cls s given
  rcases hMade with hMade | ⟨t, hMade, rfl⟩
  · rwa [hMade] at hGrows
  · rw [hMade] at hGrows hId
    dsimp only at hId
    subst hId
    refine ⟨by rw [Store.size_setField]; exact hGrows.size_le, fun id hOld => ?_, hGrows.borne⟩
    rw [Store.get?_setField_ne _ _ _ (Nat.ne_of_lt hOld)]
    exact hGrows.kept id hOld

/-- A new instance is one of its class. -/
theorem instantiate_class? (cs : Classes) (cls : ClassId) (s : Store)
    (given : List (String × Blueprint)) :
    (cs.instantiate cls s given).2.class? (cs.instantiate cls s given).1 = some cls := by
  have hSize : s.size < (s.add { type := .component cls }).2.size := by simp [Store.add, Store.size]
  have hType : (cs.instantiate cls s given).2.type? s.size = some (.component cls) := by
    rw [instantiate, Store.add]
    refine (Blueprint.type?_makeFields _ _ hSize).trans ?_
    rw [Store.type?, show s.size = (s.add { type := .component cls }).1 from rfl,
      Store.get?_add_self]
    rfl
  show Store.class? _ s.size = _
  rw [Store.class?, hType]

/-- What a new instance has under a name that was not given. -/
theorem instantiate_field? (cs : Classes) (cls : ClassId) (s : Store)
    {given : List (String × Blueprint)} {name : String} (hName : name ∉ Table.keys given) :
    (∀ b v, (cs.starts cls []).get? name = some b → b.constant? = some v →
      (cs.instantiate cls s given).2.field? (cs.instantiate cls s given).1 name = some v) ∧
    ((cs.starts cls []).get? name = none →
      (cs.instantiate cls s given).2.field? (cs.instantiate cls s given).1 name = none) := by
  have hStarts : (cs.starts cls given).get? name = (cs.starts cls []).get? name :=
    Table.get?_putAll_congr (Table.get?_putAll_of_not_mem hName) _
  have hKeys : (cs.starts cls given).keys.Nodup :=
    Table.nodup_keys_putAll (Table.nodup_keys_putAll
      (Table.nodup_keys_putAll (t := []) List.nodup_nil _) _) _
  have hSize : s.size < (s.add { type := .component cls }).2.size := by simp [Store.add, Store.size]
  refine ⟨fun b v hGet hb => ?_, fun hGet => ?_⟩
  · exact Blueprint.field?_makeFields hKeys (hStarts.trans hGet) hb hSize
  · refine (Blueprint.field?_makeFields_of_not_mem
      (Table.get?_eq_none_iff.1 (hStarts.trans hGet)) hSize).trans ?_
    rw [Store.field?_eq, show s.size = (s.add { type := .component cls }).1 from rfl,
      Store.get?_add_self]
    rfl

/-- A new instance in a style is one of its class. -/
theorem instantiateStyled_class? (h : cs.instantiateStyled cls style s = .ok (id, s')) :
    s'.class? id = some cls := by
  obtain ⟨given, -, hMade | ⟨t, hMade, rfl⟩⟩ := instantiateStyled_cases h
  · simpa [hMade] using instantiate_class? cs cls s given
  · rw [Store.class?_of_type? (Store.type?_setField t id id "style" _)]
    simpa [hMade] using instantiate_class? cs cls s given

/-- What a new instance has under a name that no style is stored under: what its class starts it
with, if that is a constant, and nothing if that is nothing. -/
theorem instantiateStyled_field? (h : cs.instantiateStyled cls style s = .ok (id, s'))
    {name : String} (hName : name ∉ styleNames) :
    (∀ b v, (cs.starts cls []).get? name = some b → b.constant? = some v →
      s'.field? id name = some v) ∧
    ((cs.starts cls []).get? name = none → s'.field? id name = none) := by
  obtain ⟨given, hGiven, hMade⟩ := instantiateStyled_cases h
  have hNotGiven : name ∉ Table.keys given := fun hMem => by
    obtain ⟨e, he, rfl⟩ := List.mem_map.1 hMem
    exact hName (hGiven e he)
  have hField := instantiate_field? cs cls s hNotGiven
  rcases hMade with hMade | ⟨t, hMade, rfl⟩
  · simpa [hMade] using hField
  · have hNe : name ≠ "style" := fun h => hName (h ▸ List.mem_cons_self)
    rw [Store.field?_setField_ne t id _ hNe]
    simpa [hMade] using hField

end Classes
end ViewMarkup
