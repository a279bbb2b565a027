import Mathlib.Data.List.Basic
import ViewMarkup.Component.Definition
import ViewMarkup.Proofs.Outcome

/-!
# More classes

Classes keep their numbers when others are defined after them. What a class says about its instances
is looked up along its lineage, so it stays what it is as long as the classes of the lineage were
all there (`Classes.Complete`).

## Main results

* `Classes.Extends.lineage` — a lineage is the same among more classes.
* `Classes.Extends.nearest?`, `Classes.Extends.starts` — so is whatever is looked up along it, and
  what new instances start with.
* `Component.mem_merge` — merging lineages loses no class, and adds none.
* `Classes.Complete.define`, `Classes.Transitive.define` — a class that is defined has all in its
  lineage that the classes have which it builds on.
-/

namespace ViewMarkup.Classes

variable {cs ds : Classes} {id : ClassId}

/-- The numbers of the classes of a lineage, the class itself first. -/
def ancestry (cs : Classes) (id : ClassId) : List ClassId :=
  ((cs.get? id).map (·.lineage)).getD []

theorem isA_iff {base : ClassId} : cs.isA id base = true ↔ base ∈ cs.ancestry id :=
  List.contains_iff_mem

theorem lineage_eq_filterMap (cs : Classes) (id : ClassId) :
    cs.lineage id = (cs.ancestry id).filterMap cs.get? := rfl

theorem ancestry_of_get? {c : ComponentClass} (h : cs.get? id = some c) :
    cs.ancestry id = c.lineage := by
  simp [ancestry, h]

theorem isSome_get?_of_mem_ancestry {x : ClassId} (h : x ∈ cs.ancestry id) :
    (cs.get? id).isSome := by
  cases hGet : cs.get? id with
  | none => simp [ancestry, hGet] at h
  | some c => rfl

/-- The classes have all that others have, under the same numbers. -/
def Extends (cs ds : Classes) : Prop := ∀ id c, ds.get? id = some c → cs.get? id = some c

/-- Every class of a lineage is there. -/
def Complete (cs : Classes) : Prop := ∀ id, ∀ x ∈ cs.ancestry id, (cs.get? x).isSome

/-- Whatever a class of a lineage builds on is in the lineage, too. -/
def Transitive (cs : Classes) : Prop :=
  ∀ id, ∀ base ∈ cs.ancestry id, cs.ancestry base ⊆ cs.ancestry id

/-- Whether the classes are complete can be seen from each class on its own. -/
theorem complete_of_forall_mem
    (h : ∀ c ∈ cs.all.toList, ∀ x ∈ c.lineage, (cs.get? x).isSome) : cs.Complete := by
  intro id x hx
  cases hGet : cs.get? id with
  | none => simp [ancestry, hGet] at hx
  | some c =>
    rw [ancestry_of_get? hGet] at hx
    exact h c (Array.mem_toList_iff.2 (Array.mem_of_getElem? hGet)) x hx

/-- So can whether they have what their bases have. -/
theorem transitive_of_forall_mem
    (h : ∀ c ∈ cs.all.toList, ∀ x ∈ c.lineage, cs.ancestry x ⊆ c.lineage) : cs.Transitive := by
  intro id x hx
  cases hGet : cs.get? id with
  | none => simp [ancestry, hGet] at hx
  | some c =>
    rw [ancestry_of_get? hGet] at hx ⊢
    exact h c (Array.mem_toList_iff.2 (Array.mem_of_getElem? hGet)) x hx

namespace Extends

theorem refl (cs : Classes) : cs.Extends cs := fun _ _ h => h

theorem isSome_get? (h : cs.Extends ds) (hId : (ds.get? id).isSome) : (cs.get? id).isSome := by
  obtain ⟨c, hc⟩ := Option.isSome_iff_exists.1 hId
  exact Option.isSome_iff_exists.2 ⟨c, h id c hc⟩

theorem get?_eq (h : cs.Extends ds) (hId : (ds.get? id).isSome) : cs.get? id = ds.get? id := by
  obtain ⟨c, hc⟩ := Option.isSome_iff_exists.1 hId
  rw [hc, h id c hc]

theorem ancestry (h : cs.Extends ds) (hId : (ds.get? id).isSome) :
    cs.ancestry id = ds.ancestry id := by
  rw [Classes.ancestry, Classes.ancestry, h.get?_eq hId]

/-- Classes that were all there are found the same. -/
theorem filterMap_get? (h : cs.Extends ds) {ids : List ClassId}
    (hIds : ∀ x ∈ ids, (ds.get? x).isSome) : ids.filterMap cs.get? = ids.filterMap ds.get? :=
  List.filterMap_congr fun x hx => h.get?_eq (hIds x hx)

theorem lineage (h : cs.Extends ds) (hds : ds.Complete) (hId : (ds.get? id).isSome) :
    cs.lineage id = ds.lineage id := by
  rw [lineage_eq_filterMap, lineage_eq_filterMap, h.ancestry hId, h.filterMap_get? (hds id)]

theorem nearest? (h : cs.Extends ds) (hds : ds.Complete) (hId : (ds.get? id).isSome) {α : Type}
    (f : ComponentClass → Option α) : cs.nearest? id f = ds.nearest? id f := by
  rw [Classes.nearest?, Classes.nearest?, h.lineage hds hId]

theorem properties (h : cs.Extends ds) (hds : ds.Complete) (hId : (ds.get? id).isSome) :
    cs.properties id = ds.properties id := by
  rw [Classes.properties, Classes.properties, h.lineage hds hId]

private theorem layingDown (h : cs.Extends ds) (hds : ds.Complete) (hId : (ds.get? id).isSome) :
    cs.layingDown id = ds.layingDown id := by
  rw [Classes.layingDown, Classes.layingDown, h.lineage hds hId]
  cases hFind : (ds.lineage id).find? (·.role ≠ .component) with
  | none => rfl
  | some c =>
    -- The class that lays attributes down is in the lineage, so its own lineage is complete.
    obtain ⟨x, -, hx⟩ := List.mem_filterMap.1 (List.mem_of_find?_eq_some hFind)
    exact h.filterMap_get? (ancestry_of_get? hx ▸ hds x)

private theorem laidDown (h : cs.Extends ds) (hds : ds.Complete) (hId : (ds.get? id).isSome) :
    cs.laidDown id = ds.laidDown id := by
  rw [Classes.laidDown, Classes.laidDown, h.layingDown hds hId]

theorem starts (h : cs.Extends ds) (hds : ds.Complete) (hId : (ds.get? id).isSome)
    (given : List (String × Blueprint)) : cs.starts id given = ds.starts id given := by
  rw [Classes.starts, Classes.starts, h.laidDown hds hId, h.lineage hds hId]

end Extends

end ViewMarkup.Classes

/-! ## Merging lineages -/

namespace ViewMarkup.Component

variable {α : Type} [DecidableEq α]

private theorem mem_dropFront {x y : α} {lists : List (List α)} :
    (y = x ∨ ∃ l ∈ dropFront x lists, y ∈ l) ↔ (y = x ∨ ∃ l ∈ lists, y ∈ l) := by
  by_cases hEq : y = x
  · simp [hEq]
  · simp only [hEq, false_or, dropFront, List.mem_map, exists_exists_and_eq_and]
    refine exists_congr fun l => and_congr_right fun _ => ?_
    split
    · next hHead =>
      obtain ⟨rest, rfl⟩ := List.head?_eq_some_iff.1 hHead
      simp [hEq]
    · rfl

/-- Lists that are merged give what is in one of them, and nothing else. -/
theorem mem_merge {fuel : Nat} {lists : List (List α)} {merged : List α}
    (h : merge fuel lists = .ok merged) (y : α) : y ∈ merged ↔ ∃ l ∈ lists, y ∈ l := by
  induction fuel generalizing lists merged with
  | zero => cases h
  | succ fuel ih =>
    have hFilter : (∃ l ∈ lists.filter fun l => !l.isEmpty, y ∈ l) ↔ ∃ l ∈ lists, y ∈ l := by
      refine exists_congr fun l => ?_
      rw [List.mem_filter, and_assoc]
      refine and_congr_right fun _ => and_iff_right_of_imp fun hMem => ?_
      simp [List.ne_nil_of_mem hMem]
    rw [← hFilter]
    rw [merge] at h
    generalize lists.filter (fun l => !l.isEmpty) = lists at h
    split at h
    · next hEmpty =>
      cases h
      simp [List.isEmpty_iff.1 hEmpty]
    · split at h
      · next x hNext =>
        obtain ⟨rest, hRest, rfl⟩ := exists_of_map_eq_ok h
        obtain ⟨front, hFront, hHead⟩ := List.mem_filterMap.1 (List.mem_of_find?_eq_some hNext)
        have hThere : ∃ l ∈ lists, x ∈ l := ⟨front, hFront, List.mem_of_mem_head? hHead⟩
        rw [List.mem_cons, ih hRest, mem_dropFront]
        refine or_iff_right_of_imp fun hEq => ?_
        rwa [hEq]
      · cases h

end ViewMarkup.Component

/-! ## Defining a class -/

namespace ViewMarkup.Classes

variable {cs cs' : Classes} {id new : ClassId} {d : ClassDefinition}

theorem getElem?_push_self (cs : Classes) (c : ComponentClass) :
    ({ all := cs.all.push c } : Classes).get? cs.all.size = some c := by
  simp [get?]

private theorem extends_push (cs : Classes) (c : ComponentClass) :
    Extends { all := cs.all.push c } cs := by
  intro id found h
  have hLt : id < cs.all.size := (Array.getElem?_eq_some_iff.1 h).1
  simpa [get?, Array.getElem?_push, Nat.ne_of_lt hLt] using h

/-- What the lineage of a class on some bases has. -/
theorem mem_lineageOn {bases lineage : List ClassId} (h : cs.lineageOn new bases = .ok lineage)
    (hBases : ∀ b ∈ bases, (cs.get? b).isSome) (x : ClassId) :
    x ∈ lineage ↔ x = new ∨ x ∈ bases ∨ ∃ b ∈ bases, x ∈ cs.ancestry b := by
  have hLists : bases.map (fun b =>
      (some b, ((((cs.get? b).map (·.lineage)).getD [b]).map some).concat none)) =
      bases.map fun b => (some b, ((cs.ancestry b).map some).concat none) := by
    refine List.map_congr_left fun b hb => ?_
    obtain ⟨c, hc⟩ := Option.isSome_iff_exists.1 (hBases b hb)
    simp [ancestry, hc]
  unfold lineageOn at h
  rw [hLists] at h
  split at h
  · cases h
  · dsimp only at h
    split at h
    · next merged hMerged =>
      cases h
      obtain ⟨rest, hRest, rfl⟩ := exists_of_map_eq_ok hMerged
      have hMem : some x ∈ rest ↔ (∃ b ∈ bases, x ∈ cs.ancestry b) ∨ x ∈ bases := by
        rw [Component.mem_merge hRest (some x)]
        simp [or_and_right, exists_or]
      simp [hMem, or_comm]
    · cases h

/-- What a definition comes to. -/
theorem define_eq_ok (h : cs.define d = .ok (new, cs')) :
    ∃ c, new = cs.all.size ∧ cs' = { all := cs.all.push c } ∧
      cs.lineageOn new d.bases = .ok c.lineage := by
  obtain ⟨properties, -, h⟩ := exists_of_bind_eq_ok h
  obtain ⟨lineage, hLineage, h⟩ := exists_of_bind_eq_ok h
  cases h
  exact ⟨_, rfl, rfl, eq_ok_of_mapError_eq_ok hLineage⟩

theorem define_extends (h : cs.define d = .ok (new, cs')) : cs'.Extends cs := by
  obtain ⟨c, -, rfl, -⟩ := define_eq_ok h
  exact extends_push cs c

/-- The lineage of a class that is defined. -/
theorem mem_ancestry_define (h : cs.define d = .ok (new, cs'))
    (hBases : ∀ b ∈ d.bases, (cs.get? b).isSome) (x : ClassId) :
    x ∈ cs'.ancestry new ↔ x = new ∨ x ∈ d.bases ∨ ∃ b ∈ d.bases, x ∈ cs.ancestry b := by
  obtain ⟨c, rfl, rfl, hLineage⟩ := define_eq_ok h
  rw [ancestry_of_get? (getElem?_push_self cs c)]
  exact mem_lineageOn hLineage hBases x

theorem get?_define (h : cs.define d = .ok (new, cs')) (hId : (cs'.get? id).isSome) :
    id = new ∨ (cs.get? id).isSome := by
  obtain ⟨c, rfl, rfl, -⟩ := define_eq_ok h
  by_cases hEq : id = cs.all.size
  · exact .inl hEq
  · simp only [get?, Array.getElem?_push, if_neg hEq] at hId
    exact .inr hId

/-- Complete classes stay complete where a class is defined on classes that there are. -/
theorem Complete.define (hcs : cs.Complete) (h : cs.define d = .ok (new, cs'))
    (hBases : ∀ b ∈ d.bases, (cs.get? b).isSome) : cs'.Complete := by
  have hExtends := define_extends h
  have hNew : (cs'.get? new).isSome := by
    obtain ⟨c, rfl, rfl, -⟩ := define_eq_ok h
    simp [getElem?_push_self]
  intro id x hx
  rcases get?_define h (isSome_get?_of_mem_ancestry hx) with rfl | hOld
  · rcases (mem_ancestry_define h hBases x).1 hx with rfl | hBase | ⟨b, -, hBase⟩
    · exact hNew
    · exact hExtends.isSome_get? (hBases x hBase)
    · exact hExtends.isSome_get? (hcs b x hBase)
  · rw [hExtends.ancestry hOld] at hx
    exact hExtends.isSome_get? (hcs id x hx)

/-- The lineage of a class that is defined has the lineages of all that is in it. -/
theorem Transitive.define (hcs : cs.Complete) (hTrans : cs.Transitive)
    (h : cs.define d = .ok (new, cs')) (hBases : ∀ b ∈ d.bases, (cs.get? b).isSome) :
    cs'.Transitive := by
  have hExtends := define_extends h
  intro id base hBase
  rcases get?_define h (isSome_get?_of_mem_ancestry hBase) with rfl | hOld
  · have hUp {b : ClassId} (hb : b ∈ d.bases) : cs.ancestry b ⊆ cs'.ancestry id :=
      fun x hx => (mem_ancestry_define h hBases x).2 (.inr (.inr ⟨b, hb, hx⟩))
    rcases (mem_ancestry_define h hBases base).1 hBase with rfl | hb | ⟨b, hb, hIn⟩
    · exact List.Subset.refl _
    · rw [hExtends.ancestry (hBases base hb)]
      exact hUp hb
    · rw [hExtends.ancestry (hcs b base hIn)]
      exact List.Subset.trans (hTrans b base hIn) (hUp hb)
  · rw [hExtends.ancestry hOld] at hBase ⊢
    rw [hExtends.ancestry (hcs id base hBase)]
    exact hTrans id base hBase

end ViewMarkup.Classes
