import ViewMarkup.Component.Registry
import ViewMarkup.Object.Assign
import ViewMarkup.Proofs.Fetch
import ViewMarkup.Proofs.Object.Region

/-!
# Reading, setting and making within a region

A region that is closed relative to the store and covers the classes is left neither by reading
attributes nor by setting them, and new instances belong to it as soon as it has their numbers.

## Main results

* `Scene.attribute?_covers`: whatever is read from a region stays in it.
* `Scene.readPath_covers`: so does whatever is read along a path.
* `Scene.setAttribute_writes`: setting an attribute of a value changes the region only.
* `Scene.writePath_writes`: so does setting the attribute at the end of a path.
* `Scene.assign_yields`: so does assigning a property, along its whole dotted name.
* `Classes.instantiateStyled_evolves`: a new instance takes the next number, and everything it
  comes with is new.
-/

namespace ViewMarkup

/-! ## Blueprints and classes -/

namespace Blueprint

mutual

/-- The objects that a blueprint holds as they stand. -/
def objects : Blueprint → List ObjectId
  | .value v => v.objects
  | .reference _ => []
  | .list items => objectsOfList items
  | .object _ fields => objectsOfFields fields

/-- The objects that some blueprints hold as they stand. -/
def objectsOfList : List Blueprint → List ObjectId
  | [] => []
  | b :: bs => objects b ++ objectsOfList bs

/-- The objects that the attributes of an object hold as they stand. -/
def objectsOfFields : List (String × Blueprint) → List ObjectId
  | [] => []
  | (_, b) :: rest => objects b ++ objectsOfFields rest

end

theorem mem_objectsOfFields {fields : List (String × Blueprint)} {id : ObjectId} :
    id ∈ objectsOfFields fields ↔ ∃ e ∈ fields, id ∈ e.2.objects := by
  induction fields with
  | nil => simp [objectsOfFields]
  | cons e es ih => simp [objectsOfFields, ih]

section Make

variable {U : Region} {lookup : String → Value}

mutual

/-- Making a value changes only a region that has all numbers still to be given, and the value
stays in it. -/
theorem make_evolves (hLookup : ∀ name, U.Covers (lookup name)) :
    ∀ (b : Blueprint) (s : Store), (∀ n, s.size ≤ n → U n) → (∀ id ∈ b.objects, U id) →
      Store.Evolves U s (b.make lookup s).2 ∧ U.Covers (b.make lookup s).1
  | .value v, s, _, hb => ⟨.refl U s, hb⟩
  | .reference name, s, _, _ => ⟨.refl U s, hLookup name⟩
  | .list items, s, hNew, hb => by
    have h := makeList_evolves hLookup items s hNew (by simpa only [objects] using hb)
    exact ⟨h.1, Region.covers_list.2 h.2⟩
  | .object type fields, s, hNew, hb => by
    have hAdd := Store.Evolves.add s type (hNew s.size (Nat.le_refl _))
    have h := makeFields_evolves hLookup s.size fields (s.add { type }).2
      (fun n hn => hNew n (Nat.le_trans hAdd.size_le hn)) (hNew s.size (Nat.le_refl _))
      (by simpa only [objects] using hb)
    exact ⟨hAdd.trans h, Region.covers_object.2 (hNew s.size (Nat.le_refl _))⟩

/-- Making several values changes such a region only, and the values stay in it. -/
theorem makeList_evolves (hLookup : ∀ name, U.Covers (lookup name)) :
    ∀ (bs : List Blueprint) (s : Store), (∀ n, s.size ≤ n → U n) →
      (∀ id ∈ objectsOfList bs, U id) →
      Store.Evolves U s (makeList lookup bs s).2 ∧ ∀ v ∈ (makeList lookup bs s).1, U.Covers v
  | [], s, _, _ => ⟨.refl U s, fun _ hv => nomatch hv⟩
  | b :: bs, s, hNew, hb => by
    simp only [objectsOfList, List.mem_append] at hb
    have h := make_evolves hLookup b s hNew fun id hId => hb id (.inl hId)
    have hs := makeList_evolves hLookup bs (make lookup b s).2
      (fun n hn => hNew n (Nat.le_trans h.1.size_le hn)) fun id hId => hb id (.inr hId)
    refine ⟨h.1.trans hs.1, fun v hv => ?_⟩
    rcases List.mem_cons.1 hv with rfl | hv
    · exact h.2
    · exact hs.2 v hv

/-- Making the attributes of an object of such a region changes the region only. -/
theorem makeFields_evolves (hLookup : ∀ name, U.Covers (lookup name)) (id : ObjectId) :
    ∀ (fields : List (String × Blueprint)) (s : Store), (∀ n, s.size ≤ n → U n) → U id →
      (∀ x ∈ objectsOfFields fields, U x) → Store.Evolves U s (makeFields lookup id fields s)
  | [], s, _, _, _ => .refl U s
  | (name, b) :: rest, s, hNew, hId, hb => by
    simp only [objectsOfFields, List.mem_append] at hb
    have h := make_evolves hLookup b s hNew fun x hx => hb x (.inl hx)
    have hSet := Store.Writes.setField (make lookup b s).2 name hId h.2
    have hRest := makeFields_evolves hLookup id rest _
      (fun n hn => hNew n (Nat.le_trans (h.1.trans hSet.toEvolves).size_le hn)) hId
      fun x hx => hb x (.inr hx)
    exact (h.1.trans hSet.toEvolves).trans hRest

end

end Make

end Blueprint

namespace Classes

variable {U : Region} {cs : Classes}

/-- No class starts its instances with objects outside of a region. -/
def Covered (cs : Classes) (U : Region) : Prop :=
  ∀ c ∈ cs.all, ∀ id ∈ Blueprint.objectsOfFields c.starts, U id

/-- All objects cover all classes. -/
theorem covered_univ (cs : Classes) : cs.Covered fun _ => True := fun _ _ _ _ => trivial

theorem mem_all_of_get? {id : ClassId} {c : ComponentClass} (h : cs.get? id = some c) :
    c ∈ cs.all := Array.mem_of_getElem? h

theorem mem_all_of_mem_lineage {id : ClassId} {c : ComponentClass} (h : c ∈ cs.lineage id) :
    c ∈ cs.all := by
  obtain ⟨_, _, hGet⟩ := List.mem_filterMap.1 h
  exact mem_all_of_get? hGet

private theorem mem_all_of_mem_layingDown {id : ClassId} {c : ComponentClass}
    (h : c ∈ cs.layingDown id) : c ∈ cs.all := by
  unfold layingDown at h
  split at h
  · obtain ⟨_, _, hGet⟩ := List.mem_filterMap.1 h
    exact mem_all_of_get? hGet
  · cases h

/-- What all instances of a class share stays in a region that covers the classes. -/
theorem shared?_covers (hcs : cs.Covered U) {id : ClassId} {attr : String} {v : Value}
    (h : cs.shared? id attr = some v) : U.Covers v := by
  obtain ⟨c, hc, hv⟩ := List.exists_of_findSome?_eq_some h
  split at hv
  · cases hv
  · obtain ⟨b, hb, hFixed⟩ := Option.bind_eq_some_iff.1 hv
    have hEq : b.objects = v.objects := by
      unfold Blueprint.fixed? at hFixed
      split at hFixed <;> cases hFixed
      rfl
    intro x hx
    exact hcs c (mem_all_of_mem_lineage hc) x
      (Blueprint.mem_objectsOfFields.2 ⟨_, Table.mem_of_get? hb, hEq ▸ hx⟩)

/-- What an instance starts with stays in a region that covers the classes and what is given. -/
theorem starts_covered (hcs : cs.Covered U) (id : ClassId) {given : List (String × Blueprint)}
    (hGiven : ∀ x ∈ Blueprint.objectsOfFields given, U x) :
    ∀ x ∈ Blueprint.objectsOfFields (cs.starts id given), U x := by
  intro x hx
  obtain ⟨e, he, hx⟩ := Blueprint.mem_objectsOfFields.1 hx
  have hStart {c : ComponentClass} (hc : c ∈ cs.all) (he : e ∈ c.starts) : U x :=
    hcs c hc x (Blueprint.mem_objectsOfFields.2 ⟨e, he, hx⟩)
  rcases Table.mem_or_mem_of_mem_putAll he with he | he
  · rcases Table.mem_or_mem_of_mem_putAll he with he | he
    · rcases Table.mem_or_mem_of_mem_putAll he with he | he
      · cases he
      · obtain ⟨c, hc, he⟩ := List.mem_flatMap.1 he
        exact hStart (mem_all_of_mem_layingDown (List.mem_reverse.1 hc)) he
    · exact hGiven x (Blueprint.mem_objectsOfFields.2 ⟨e, he, hx⟩)
  · obtain ⟨c, hc, he⟩ := List.mem_flatMap.1 he
    exact hStart (mem_all_of_mem_lineage (List.mem_filter.1 (List.mem_reverse.1 hc)).1) he

/-- A new instance, which takes the next number. Everything it comes with is new. -/
theorem instantiate_evolves (hcs : cs.Covered U) (cls : ClassId) {s : Store}
    {given : List (String × Blueprint)} (hNew : ∀ n, s.size ≤ n → U n)
    (hGiven : ∀ x ∈ Blueprint.objectsOfFields given, U x) :
    (cs.instantiate cls s given).1 = s.size ∧ s.size < (cs.instantiate cls s given).2.size ∧
      Store.Evolves U s (cs.instantiate cls s given).2 := by
  have hAdd := Store.Evolves.add s (.component cls) (hNew s.size (Nat.le_refl _))
  have hLt : s.size < (s.add { type := .component cls }).2.size := by
    simp [Store.add, Store.size]
  have hNone (name : String) : U.Covers ((fun _ => .none : String → Value) name) :=
    Region.covers_of_objects_nil rfl
  have hFields := Blueprint.makeFields_evolves hNone s.size (cs.starts cls given)
    (s.add { type := .component cls }).2 (fun n hn => hNew n (Nat.le_trans hAdd.size_le hn))
    (hNew s.size (Nat.le_refl _)) (starts_covered hcs cls hGiven)
  exact ⟨rfl, Nat.lt_of_lt_of_le hLt hFields.size_le, hAdd.trans hFields⟩

/-- A new instance in a style, which takes the next number. Everything it comes with is new. -/
theorem instantiateStyled_evolves (hcs : cs.Covered U) {cls : ClassId} {style : Option String}
    {s s' : Store} {id : ObjectId} (hNew : ∀ n, s.size ≤ n → U n)
    (h : cs.instantiateStyled cls style s = .ok (id, s')) :
    id = s.size ∧ s.size < s'.size ∧ Store.Evolves U s s' := by
  obtain ⟨given, hGiven, h⟩ := exists_of_bind_eq_ok h
  have hText : ∀ x ∈ Blueprint.objectsOfFields
      (given.toList.map fun e => (e.1, .value (.text e.2))), U x := by
    intro x hx
    cases given <;> simp [Blueprint.objectsOfFields, Blueprint.objects, Value.objects] at hx
  have hMade := instantiate_evolves hcs cls hNew hText
  -- A class that only stores styles sets one more attribute, of the new instance.
  have hStyled {made : ObjectId × Store}
      (h : made.1 = s.size ∧ s.size < made.2.size ∧ Store.Evolves U s made.2) :
      made.1 = s.size ∧ s.size < (made.2.setField made.1 "style" (.ofText? style)).size ∧
        Store.Evolves U s (made.2.setField made.1 "style" (.ofText? style)) := by
    obtain ⟨hId, hLt, hEvolves⟩ := h
    have hSet := Store.Writes.setField made.2 "style" (hId ▸ hNew s.size (Nat.le_refl _))
      (Region.covers_ofText? style)
    exact ⟨hId, Nat.lt_of_lt_of_le hLt hSet.size_le, hEvolves.trans hSet.toEvolves⟩
  cases given with
  | none =>
    dsimp only at h
    split at h
    · cases h
      exact hStyled hMade
    · cases h
      exact hMade
  | some e =>
    dsimp only at h
    split at h
    · cases h
    · split at h
      · cases h
        exact hStyled hMade
      · cases h
        exact hMade

end Classes

/-! ## Reading -/

namespace Scene

variable {U : Region} {sc : Scene}

/-- A region that no attribute leads out of. -/
structure Closed (sc : Scene) (U : Region) : Prop where
  store : sc.store.Closed U
  classes : sc.classes.Covered U

theorem closed_univ (sc : Scene) : sc.Closed fun _ => True :=
  ⟨sc.store.closed_univ, sc.classes.covered_univ⟩

private theorem numberPart?_covers {n : Int} {attr : String} {v : Value}
    (h : numberPart? n attr = some v) : U.Covers v := by
  unfold numberPart? at h
  split at h <;> cases h <;> exact Region.covers_of_objects_nil rfl

/-- Only a section has objects among its parts, and they are its own. -/
theorem partOf?_covers {v x : Value} {attr : String} (hv : U.Covers v)
    (h : partOf? v attr = some x) : U.Covers x := by
  cases v with
  | bool _ | int _ => exact numberPart?_covers h
  | member m =>
    simp only [partOf?] at h
    split at h
    · cases h; exact Region.covers_of_objects_nil rfl
    · cases h; exact Region.covers_of_objects_nil rfl
    · exact numberPart?_covers h
  | font f =>
    simp only [partOf?] at h
    split at h <;> cases h
    · exact Region.covers_of_objects_nil rfl
    · cases f.size <;> exact Region.covers_of_objects_nil rfl
    · exact Region.covers_of_objects_nil rfl
  | segment s =>
    simp only [partOf?] at h
    split at h <;> cases h <;> exact Region.covers_ofText? _
  | pickerRow r =>
    simp only [partOf?] at h
    split at h <;> cases h
    · exact Region.covers_of_objects_nil rfl
    · exact Region.covers_ofText? _
  | pickerComponent c =>
    simp only [partOf?] at h
    split at h <;> cases h
    · exact Region.covers_ofText? _
    · refine Region.covers_list.2 fun y hy => ?_
      obtain ⟨r, _, rfl⟩ := List.mem_map.1 hy
      exact Region.covers_of_objects_nil rfl
  | tableSection s =>
    obtain ⟨hHeader, hRows, hFooter⟩ := Region.covers_tableSection.1 hv
    simp only [partOf?] at h
    split at h <;> cases h
    · exact Region.covers_ofText? _
    · exact Region.covers_ofText? _
    · exact Region.covers_ofObject? hHeader
    · exact Region.covers_ofObject? hFooter
    · refine Region.covers_list.2 fun y hy => ?_
      obtain ⟨id, hId, rfl⟩ := List.mem_map.1 hy
      exact Region.covers_object.2 (hRows id hId)
  | float _ | color _ | descriptor _ | image _ _ | type _ =>
    simp only [partOf?] at h
    split at h <;> cases h <;> exact Region.covers_of_objects_nil rfl
  | none | text _ | list _ | tuple _ | selection _ | operation _ | object _ => cases h

/-- What objects have whose attributes lead into a region that covers the classes belongs to it. -/
theorem ownAttribute?_covers {V : Region} (hLeads : sc.store.LeadsInto V U)
    (hcs : sc.classes.Covered U) {id : ObjectId} {attr : String} {x : Value} (hId : V id)
    (h : sc.ownAttribute? id attr = some x) : U.Covers x := by
  unfold ownAttribute? at h
  split at h
  · next hField =>
    cases h
    exact hLeads id attr x hId hField
  · cases h
  · split at h
    · cases h
      exact Region.covers_of_objects_nil rfl
    · exact Classes.shared?_covers hcs h

theorem given?_covers (hsc : sc.Closed U) {v x : Value} {attr : String} (hv : U.Covers v)
    (h : sc.given? v attr = some x) : U.Covers x := by
  unfold given? at h
  split at h
  · cases h
    exact Region.covers_of_objects_nil rfl
  · split at h
    · exact ownAttribute?_covers hsc.store.leadsInto hsc.classes (Region.covers_object.1 hv) h
    · rcases Option.or_eq_some_iff.1 h with h | ⟨-, h⟩
      · exact partOf?_covers hv h
      · obtain ⟨b, _, h⟩ := Option.bind_eq_some_iff.1 h
        exact hsc.store.borne h

theorem given_covers (hsc : sc.Closed U) {v x : Value} {attr : String} (hv : U.Covers v)
    (h : sc.given v attr = .ok x) : U.Covers x := by
  unfold given at h
  cases hGiven : sc.given? v attr with
  | none => simp [hGiven] at h
  | some y =>
    simp only [hGiven, Option.elim, Except.ok.injEq] at h
    exact h ▸ given?_covers hsc hv hGiven

theorem stored_covers {V : Region} (hLeads : sc.store.LeadsInto V U) {id : ObjectId}
    (attr : String) (hId : V id) : U.Covers (sc.stored id attr) := by
  unfold stored
  cases h : sc.store.field? id attr with
  | none => exact Region.covers_of_objects_nil rfl
  | some v => exact hLeads id attr v hId h

private theorem elementOf_covers {container : String} {items : List Value} {place x : Value}
    (hItems : ∀ v ∈ items, U.Covers v) (h : sc.elementOf container items place = .ok x) :
    U.Covers x := by
  unfold elementOf at h
  split at h
  · next k _ =>
    cases hAt : atPosition? items k.number with
    | none => simp [hAt] at h
    | some y =>
      simp only [hAt, Option.elim, Except.ok.injEq] at h
      exact hItems x (h ▸ mem_of_atPosition? hAt)
  · cases h

theorem elementAt_covers {v place x : Value} (hv : U.Covers v)
    (h : sc.elementAt v place = .ok x) : U.Covers x := by
  unfold elementAt at h
  split at h
  · exact elementOf_covers (Region.covers_list.1 hv) h
  · exact elementOf_covers (Region.covers_tuple.1 hv) h
  · split at h
    · split at h <;> cases h
      exact Region.covers_of_objects_nil rfl
    · cases h
  · next rows =>
    cases hRow : sc.selectedAt rows place with
    | error _ => simp [hRow, bind, Except.bind] at h
    | ok row? =>
      simp only [hRow, bind, Except.bind] at h
      split at h <;> cases h
      exact Region.covers_of_objects_nil rfl
  · cases h

/-- The value of the selected segment is that of an element of the segments, or nothing. -/
theorem selectedValue_cases {id : ObjectId} {x : Value} (h : sc.selectedValue id = .ok x) :
    x = .none ∨ ∃ v, sc.elementAt (sc.stored id "segments")
      (sc.stored id "selected_segment_index") = .ok v ∧ sc.given v "value" = .ok x := by
  unfold selectedValue at h
  simp only [bind, Except.bind] at h
  split at h
  · split at h
    · cases h
      exact .inl rfl
    · cases hLength : sc.length (sc.stored id "segments") with
      | error _ => simp [hLength] at h
      | ok n =>
        simp only [hLength] at h
        split at h
        · cases hAt : sc.elementAt (sc.stored id "segments")
              (sc.stored id "selected_segment_index") with
          | error _ => simp [hAt] at h
          | ok v =>
            simp only [hAt] at h
            exact .inr ⟨v, rfl, h⟩
        · cases h
          exact .inl rfl
  · cases h

private theorem selectedValue_covers (hsc : sc.Closed U) {id : ObjectId} {x : Value} (hId : U id)
    (h : sc.selectedValue id = .ok x) : U.Covers x := by
  rcases selectedValue_cases h with rfl | ⟨v, hAt, hValue⟩
  · exact Region.covers_of_objects_nil rfl
  · exact given_covers hsc (elementAt_covers (stored_covers hsc.store.leadsInto _ hId) hAt) hValue

theorem displayText_covers {id : ObjectId} {x : Value} (h : sc.displayText id = .ok x) :
    U.Covers x := by
  unfold displayText at h
  dsimp only at h
  split at h
  · split at h
    · cases h
      exact Region.covers_of_objects_nil rfl
    · split at h <;> cases h <;> exact Region.covers_of_objects_nil rfl
  · cases h

private theorem computed_covers (hsc : sc.Closed U) {id : ObjectId} {c : Computed} {x : Value}
    (hId : U id) (h : sc.computed id c = .ok x) : U.Covers x := by
  cases c with
  | controlState => cases h; exact Region.covers_of_objects_nil rfl
  | selectedValue => exact selectedValue_covers hsc hId h
  | imageSize =>
    simp only [computed, imageSize] at h
    split at h
    · cases h
      exact Region.covers_of_objects_nil rfl
    · exact given_covers hsc (stored_covers hsc.store.leadsInto _ hId) h
  | displayText => exact displayText_covers h

/-- Whatever is read from a region stays in it. -/
theorem attribute?_covers (hsc : sc.Closed U) {v x : Value} {attr : String} (hv : U.Covers v)
    (h : sc.attribute? v attr = .ok (some x)) : U.Covers x := by
  unfold attribute? at h
  split at h
  · split at h
    · split at h <;> cases h
      next hFound => exact computed_covers hsc (Region.covers_object.1 hv) hFound
    · exact given?_covers hsc hv (Except.ok.inj h)
  · exact given?_covers hsc hv (Except.ok.inj h)

/-- So is whatever is read along a path. -/
theorem readPath_covers (hsc : sc.Closed U) {v x : Value} {path : String} (hv : U.Covers v)
    (h : sc.readPath v path = .ok x) : U.Covers x := by
  have hSegments (segments : List String) (v : Value) (hv : U.Covers v)
      (h : sc.readSegments path v segments = .ok x) : U.Covers x := by
    fun_induction readSegments sc path v segments with
    | case1 v =>
      cases h
      exact hv
    | case2 v segment rest ih =>
      obtain ⟨next?, hAttr, h⟩ := exists_of_bind_eq_ok h
      cases next? with
      | none => cases h
      | some next => exact ih next (attribute?_covers hsc hv hAttr) h
  obtain ⟨segments, -, h⟩ := exists_of_bind_eq_ok h
  exact hSegments segments v hv h

/-! ## Setting -/

/-- Setting an attribute of a value of a region changes the region only. -/
theorem setAttribute_writes {v new : Value} {attr : String} {s : Store} (hv : U.Covers v)
    (hNew : U.Covers new) (h : sc.setAttribute v attr new = .ok s) :
    Store.Writes U sc.store s := by
  have hChange (h : sc.change v attr new = .ok s) : Store.Writes U sc.store s := by
    unfold change at h
    split at h
    · next id =>
      have hSet := Store.Writes.setField sc.store attr (Region.covers_object.1 hv) hNew
      split at h
      · split at h <;> cases h
        exact hSet
      · split at h <;> cases h
        exact hSet
      · cases h
    · split at h <;> cases h
      exact Store.Writes.bear sc.store _ attr hNew
  unfold setAttribute at h
  split at h
  iterate 5 cases h
  split at h
  · cases h
  · exact hChange h

/-- Setting the attribute at the end of a path from a value of a region changes the region only. -/
theorem writePath_writes (hsc : sc.Closed U) {v new : Value} {path : String} {s : Store}
    (hv : U.Covers v) (hNew : U.Covers new) (h : sc.writePath v path new = .ok s) :
    Store.Writes U sc.store s := by
  have hSegments (segments : List String) (v : Value) (hv : U.Covers v)
      (h : sc.writeSegments new v segments = .ok s) : Store.Writes U sc.store s := by
    fun_induction writeSegments sc new v segments with
    | case1 v =>
      cases h
      exact .refl U _
    | case2 v last => exact setAttribute_writes hv hNew h
    | case3 v segment rest hRest ih =>
      obtain ⟨next?, hAttr, h⟩ := exists_of_bind_eq_ok h
      cases next? with
      | none => cases h
      | some next => exact ih next (attribute?_covers hsc hv hAttr) h
  obtain ⟨segments, -, h⟩ := exists_of_bind_eq_ok h
  exact hSegments segments v hv h

/-- The object that a dotted name leads to from a region belongs to it. -/
theorem locate_covers (hsc : sc.Closed U) {names : List String} {v owner : Value} {p : Property}
    (hv : U.Covers v) (h : sc.locate v names = .ok (owner, p)) : U.Covers owner := by
  induction names generalizing v with
  | nil => simp [locate] at h
  | cons name rest ih =>
    unfold locate at h
    split at h
    · cases h
    · next q _ =>
      split at h
      · split at h <;> cases h
        exact hv
      · split at h
        · cases h
        · cases hAttr : sc.attribute? v q.target with
          | error _ => simp [hAttr, bind, Except.bind] at h
          | ok inner? =>
            simp only [hAttr, bind, Except.bind] at h
            split at h
            · cases h
            · cases h
            · exact ih (attribute?_covers hsc hv hAttr) h

end Scene

/-! ## Assigning -/

/-- Assigning a property of a value of a region changes the region only, and no answer about
documents. -/
theorem Scene.assign_yields {U : Region} {sc : Scene} (hsc : sc.Closed U) {target : Value}
    (hTarget : U.Covers target) (d : Decoder) (fs : Files) (name raw : String) (l : Loader) :
    Yields (sc.assign d fs target name raw) (some l)
      (fun s l? => Store.Writes U sc.store s ∧ l.KeptBy fs l?) (l.KeptBy fs) := by
  refine .bind (P := fun r l? => U.Covers r.1 ∧ l? = some l) (.ofLift ?_ (.refl l)) ?_
  · intro r h
    exact ⟨locate_covers hsc hTarget h, rfl⟩
  · rintro r _ ⟨hr, rfl⟩
    refine .bind (d.fetchProperty_yields fs r.2 raw l) fun v l? hv => ?_
    refine .ofLift (fun s h => ?_) hv.2
    exact ⟨setAttribute_writes hr (Region.covers_of_objects_nil hv.1) h, hv.2⟩

/-- A property is assigned alike from resources that agree about strings and images. -/
theorem Scene.assign_alike {fs fs' : Files} {R : Loader → Loader → Prop} (sc : Scene) (d : Decoder)
    (h : Loader.SameValues fs fs' R) (target : Value) (name raw : String) :
    Alike (Option.Rel R) (sc.assign d fs target name raw) (sc.assign d fs' target name raw) :=
  .bind (.ofLift _) fun r => .bind (d.fetchProperty_alike h r.2 raw) fun _ => .ofLift _

end ViewMarkup
