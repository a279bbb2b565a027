import Mathlib.Algebra.BigOperators.Group.Finset.Basic
import ViewMarkup.Object.Reach
import ViewMarkup.Object.Scene

/-!
# What marking finds

Marking takes entries off a worklist until its fuel is used up. It finds just what references lead
to from the roots: what is marked is reachable, and with fuel for all roots and references there is
enough, since every entry taken off is a root or stands for one reference of an object that is
marked at that moment and never again.

## Main results

* `Store.Reach.of_mem_mark`: marking finds nothing else.
* `Store.mark_closed`: what marking finds has all its roots and all its references.
* `Store.mem_reachable_iff`, `Store.isAlive_iff`: an object is found if and only if it is reachable.
-/

namespace ViewMarkup.Store

variable {s : Store} {roots work marked : List ObjectId} {id : ObjectId}

/-- What references lead to from some objects, and from what has attributes without being one. -/
inductive Reach (s : Store) (roots : List ObjectId) : ObjectId → Prop where
  | root {id : ObjectId} (hRoot : id ∈ roots) : Reach s roots id
  | borne {id : ObjectId} (hBorne : id ∈ s.borneObjects) : Reach s roots id
  | step {id next : ObjectId} (h : Reach s roots id) (hNext : next ∈ s.references id) :
      Reach s roots next

/-- What is reachable from what is reachable is so, too. -/
theorem Reach.of_roots {roots' : List ObjectId} (h : Reach s roots' id)
    (hRoots : ∀ r ∈ roots', Reach s roots r) : Reach s roots id := by
  induction h with
  | root hRoot => exact hRoots _ hRoot
  | borne hBorne => exact .borne hBorne
  | step _ hNext ih => exact ih.step hNext

theorem mem_references_of_field? {attr : String} {v : Value} {next : ObjectId}
    (h : s.field? id attr = some v) (hNext : next ∈ v.objects) : next ∈ s.references id :=
  List.mem_flatMap.2 ⟨(attr, v), Table.mem_of_get? h, hNext⟩

theorem mem_borneObjects_of_borne? {b : Bearer} {attr : String} {v : Value} {next : ObjectId}
    (h : s.borne? b attr = some v) (hNext : next ∈ v.objects) : next ∈ s.borneObjects := by
  obtain ⟨fields, hFields, hAttr⟩ := Option.bind_eq_some_iff.1 h
  exact List.mem_flatMap.2 ⟨(b, fields), Table.mem_of_get? hFields,
    List.mem_flatMap.2 ⟨(attr, v), Table.mem_of_get? hAttr, hNext⟩⟩

/-! ## Nothing else is found -/

/-- What is marked was marked before, or is reachable from the worklist. -/
theorem Reach.of_mem_mark {fuel : Nat} (hMarked : ∀ r ∈ marked, Reach s roots r)
    (hWork : ∀ r ∈ work, Reach s roots r) (h : id ∈ s.mark fuel marked work) :
    Reach s roots id := by
  fun_induction mark s fuel marked work with
  | case1 work marked => exact hMarked id h
  | case2 fuel marked => exact hMarked id h
  | case3 fuel marked r work hSeen ih =>
    exact ih hMarked (fun r' hr' => hWork r' (List.mem_cons_of_mem r hr')) h
  | case4 fuel marked r work hSeen ih =>
    have hr : Reach s roots r := hWork r List.mem_cons_self
    refine ih (fun r' hr' => ?_) (fun r' hr' => ?_) h
    · rcases List.mem_cons.1 hr' with rfl | hr'
      · exact hr
      · exact hMarked r' hr'
    · rcases List.mem_append.1 hr' with hNext | hr'
      · exact hr.step hNext
      · exact hWork r' (List.mem_cons_of_mem r hr')

/-! ## The fuel is enough -/

/-- How many references objects have that are not marked. -/
def unmarkedCount (s : Store) (marked : List ObjectId) : Nat :=
  ∑ id ∈ Finset.range s.size \ marked.toFinset, (s.references id).length

private theorem references_of_size_le (h : s.size ≤ id) : s.references id = [] := by
  have hNone : s.get? id = none := Array.getElem?_eq_none h
  simp [references, fields, hNone]

/-- Marking an object leaves all but its own references. -/
theorem unmarkedCount_cons (s : Store) (h : id ∉ marked) :
    (s.references id).length + s.unmarkedCount (id :: marked) = s.unmarkedCount marked := by
  unfold unmarkedCount
  rw [List.toFinset_cons, Finset.sdiff_insert]
  by_cases hLt : id < s.size
  · have hMem : id ∈ Finset.range s.size \ marked.toFinset := by
      simp [hLt, h]
    exact Finset.add_sum_erase _ (fun r => (s.references r).length) hMem
  · have hMem : id ∉ Finset.range s.size \ marked.toFinset := by
      simp [hLt]
    rw [Finset.erase_eq_of_notMem hMem, references_of_size_le (Nat.le_of_not_lt hLt),
      List.length_nil, Nat.zero_add]

private theorem foldl_add_eq_sum (w : Object → Nat) (os : List Object) :
    os.foldl (fun n o => n + w o) 0 = ∑ i ∈ Finset.range os.length, (os[i]?.map w).getD 0 := by
  induction os using List.reverseRecOn with
  | nil => rfl
  | append_singleton os o ih =>
    have hFront : ∑ i ∈ Finset.range os.length, ((os ++ [o])[i]?.map w).getD 0 =
        ∑ i ∈ Finset.range os.length, (os[i]?.map w).getD 0 :=
      Finset.sum_congr rfl fun i hi => by
        rw [List.getElem?_append_left (Finset.mem_range.1 hi)]
    rw [List.foldl_append, List.length_append, List.length_singleton, Finset.sum_range_succ,
      hFront, ← ih, List.getElem?_concat_length]
    rfl

/-- At first all references are those of objects that are not marked. -/
theorem unmarkedCount_nil (s : Store) : s.unmarkedCount [] = s.referenceCount := by
  have hReferences (id : ObjectId) :
      (s.references id).length =
        (s.objects.toList[id]?.map fun o => (o.fields.flatMap fun e => e.2.objects).length).getD
          0 := by
    unfold references fields get?
    rw [Array.getElem?_toList]
    cases s.objects[id]? <;> rfl
  rw [referenceCount, ← Array.foldl_toList, foldl_add_eq_sum, Array.length_toList]
  simp only [unmarkedCount, List.toFinset_nil, Finset.sdiff_empty, hReferences]
  rfl

/-- With fuel for the worklist and the references to come, all of the worklist is found, and with
what is newly marked all that it refers to. -/
theorem mark_closed {fuel : Nat} (hFuel : work.length + s.unmarkedCount marked ≤ fuel) :
    (∀ r ∈ work, r ∈ s.mark fuel marked work) ∧
      ∀ r ∈ s.mark fuel marked work, r ∉ marked →
        ∀ next ∈ s.references r, next ∈ s.mark fuel marked work := by
  fun_induction mark s fuel marked work with
  | case1 work marked =>
    have hNil : work = [] := List.length_eq_zero_iff.1 (by omega)
    exact ⟨by simp [hNil], fun r hr hNew => absurd hr hNew⟩
  | case2 fuel marked =>
    exact ⟨fun r hr => absurd hr List.not_mem_nil, fun r hr hNew => absurd hr hNew⟩
  | case3 fuel marked r work hSeen ih =>
    obtain ⟨hWork, hClosed⟩ := ih (by rw [List.length_cons] at hFuel; omega)
    refine ⟨fun r' hr' => ?_, hClosed⟩
    rcases List.mem_cons.1 hr' with rfl | hr'
    · exact s.mem_mark_of_mem fuel marked work (List.contains_iff_mem.1 hSeen)
    · exact hWork r' hr'
  | case4 fuel marked r work hSeen ih =>
    have hNew : r ∉ marked := fun h => hSeen (List.contains_iff_mem.2 h)
    have hCount := unmarkedCount_cons s hNew
    obtain ⟨hWork, hClosed⟩ := ih (by
      rw [List.length_append]
      rw [List.length_cons] at hFuel
      omega)
    have hSelf : r ∈ s.mark fuel (r :: marked) (s.references r ++ work) :=
      s.mem_mark_of_mem fuel _ _ List.mem_cons_self
    refine ⟨fun r' hr' => ?_, fun r' hr' hOld next hNext => ?_⟩
    · rcases List.mem_cons.1 hr' with rfl | hr'
      · exact hSelf
      · exact hWork r' (List.mem_append_right _ hr')
    · by_cases hEq : r' = r
      · subst hEq
        exact hWork next (List.mem_append_left _ hNext)
      · exact hClosed r' hr' (by simp [hEq, hOld]) next hNext

/-- An object is found if and only if references lead to it. -/
theorem mem_reachable_iff : id ∈ s.reachable roots ↔ Reach s roots id := by
  have hRoots {r : ObjectId} (hr : r ∈ roots ++ s.borneObjects) : Reach s roots r :=
    (List.mem_append.1 hr).elim .root .borne
  have hFuel : (roots ++ s.borneObjects).length + s.unmarkedCount [] ≤
      (roots ++ s.borneObjects).length + s.referenceCount := by
    rw [unmarkedCount_nil]
  constructor
  · exact Reach.of_mem_mark (fun r hr => absurd hr List.not_mem_nil) fun r hr => hRoots hr
  · intro h
    obtain ⟨hWork, hClosed⟩ := mark_closed hFuel
    induction h with
    | root hRoot => exact hWork _ (List.mem_append_left _ hRoot)
    | borne hBorne => exact hWork _ (List.mem_append_right _ hBorne)
    | step _ hNext ih => exact hClosed _ ih List.not_mem_nil _ hNext

theorem isAlive_iff : s.isAlive roots id = true ↔ Reach s roots id := by
  rw [isAlive, List.contains_iff_mem, mem_reachable_iff]

end ViewMarkup.Store
