import ViewMarkup.Proofs.Build.Stages
import ViewMarkup.Proofs.Build.Tally

/-!
# View children

A view child of an object is a child element that stands for a component, or an include with a name
under which it can be looked for. Whether the object takes it is asked when it is reached: before
there is an instance of the child, and before the document is looked for.

## Main results

* `Visit.refused` — where a view child is refused, nothing was done but to look its name up.
* `Assembly.start_allows`, `Assembly.findIncluded_allows` — what is started or found was allowed.
-/

namespace ViewMarkup

/-! ## What is allowed -/

/-- Whether a policy allows so many views. -/
def AppendPolicy.Permits : AppendPolicy → Nat → Prop
  | none, n => n = 0
  | single, n => n ≤ 1
  | multi, _ => True

theorem AppendPolicy.permits_zero (policy : AppendPolicy) : policy.Permits 0 := by
  cases policy with
  | none => rfl
  | single => exact Nat.zero_le 1
  | multi => trivial

theorem AppendPolicy.Permits.of_le {policy : AppendPolicy} {m n : Nat} (h : policy.Permits n)
    (hLe : m ≤ n) : policy.Permits m := by
  cases policy with
  | none => exact Nat.le_zero.1 (Nat.le_trans hLe (Nat.le_of_eq h))
  | single => exact Nat.le_trans hLe h
  | multi => trivial

namespace Assembly

variable {a : Assembly} {parent : ObjectId} {caps : Capabilities} {p q : Progress}

/-- A view is refused just if the policy does not allow one more. -/
theorem refusal?_eq_none_iff :
    a.refusal? p parent caps = none ↔ caps.append.Permits (p.count parent + 1) := by
  unfold refusal? AppendPolicy.Permits
  cases caps.append with
  | none => simp
  | multi => simp
  | single =>
    simp only [ite_eq_right_iff, reduceCtorEq, imp_false]
    omega

/-- The component that a child element stands for is looked up, and nothing else is done. -/
theorem run_componentOf (e : Element) : a.componentOf caps e p =
    (((a.library.resolve a.registry e.name).run p.registries).1,
      { p with registries := ((a.library.resolve a.registry e.name).run p.registries).2 }) := by
  rw [componentOf_eq]
  rfl

/-- A child element is refused before there is an instance of its component. -/
theorem start_refused {e : Element} {leading : List Instruction} {c : Component} {fault : Fault}
    (hComponent : (a.componentOf caps e p).1 = .ok (some c))
    (hRefused : a.refusal? p parent caps = some fault) :
    ∃ registries,
      a.start parent caps e leading p = (.error (.of fault), { p with registries }) := by
  let p' : Progress :=
    { p with registries := ((a.library.resolve a.registry e.name).run p.registries).2 }
  have hRun : a.componentOf caps e p = (.ok (some c), p') := by
    rw [run_componentOf] at hComponent ⊢
    exact Prod.ext hComponent rfl
  have hSame : a.refusal? p' parent caps = some fault := hRefused
  have hCheck : a.checkAppend parent caps p' = (.error (.of fault), p') := by
    rw [checkAppend_eq, hSame]
  have hStart : a.start parent caps e leading p = (.error (.of fault), p') := by
    unfold start
    rw [run_bind_of_eq_ok hRun]
    exact run_bind_of_eq_error hCheck
  exact ⟨_, hStart⟩

/-- A child element of which an instance was made had been allowed. -/
theorem start_allows {e : Element} {leading : List Instruction} {made : ObjectId × Capabilities}
    (h : a.start parent caps e leading p = (.ok (some made), q)) :
    (∃ c, (a.componentOf caps e p).1 = .ok (some c)) ∧
      caps.append.Permits (p.count parent + 1) := by
  obtain ⟨c?, p', hComponent, hRest⟩ := exists_of_run_bind_eq_ok h
  have hCount : p'.count parent = p.count parent := by
    have hSame : (a.componentOf caps e p).2.tally = p.tally := componentOf_uncounted e p
    rw [hComponent] at hSame
    exact Progress.count_eq hSame parent
  cases c? with
  | some c =>
    obtain ⟨_, p'', hCheck, -⟩ := exists_of_run_bind_eq_ok hRest
    refine ⟨⟨c, by rw [hComponent]⟩, ?_⟩
    rw [← hCount]
    exact refusal?_eq_none_iff.1 (checkAppend_eq_ok_iff.1 hCheck).1
  | none =>
    exfalso
    have hStarted :=
      (start_yields a.library.classes.covered_univ p.ready_univ trivial e leading).ok h
    cases hStarted with
    | made hResolves _ =>
      have hFirst := congrArg Prod.fst hComponent
      rw [run_componentOf] at hFirst
      have hSome := congrArg Prod.fst hResolves
      rw [hFirst] at hSome
      cases hSome

/-- A child element that was handed over raw stands for no component. -/
theorem start_raw {e : Element} {leading : List Instruction}
    (h : a.start parent caps e leading p = (.ok none, q)) :
    (a.componentOf caps e p).1 = .ok none := by
  have hStarted := (start_yields a.library.classes.covered_univ p.ready_univ trivial e leading).ok h
  cases hStarted with
  | raw hResolves _ _ _ =>
    rw [run_componentOf]
    exact congrArg Prod.fst hResolves

/-- An include is refused before its document is looked for. -/
theorem findIncluded_refused {stack : List String} {name : String} {fault : Fault}
    (hName : name ≠ "" ∧ name ∉ stack) (hRefused : a.refusal? p parent caps = some fault) :
    a.findIncluded stack parent caps name p = (.error (.of fault), p) := by
  rw [findIncluded_eq, if_neg hName.1, if_neg hName.2]
  refine run_bind_of_eq_error ?_
  rw [checkAppend_eq, hRefused]

/-- An include whose document was found had been allowed. -/
theorem findIncluded_allows {stack : List String} {name : String} {d : Document}
    (h : a.findIncluded stack parent caps name p = (.ok d, q)) :
    (name ≠ "" ∧ name ∉ stack) ∧ caps.append.Permits (p.count parent + 1) := by
  have hStack := not_mem_of_findIncluded h
  have hName : name ≠ "" := by
    intro hEmpty
    rw [findIncluded_eq, if_pos hEmpty] at h
    cases h
  rw [findIncluded_eq, if_neg hName, if_neg hStack] at h
  obtain ⟨_, p', hCheck, -⟩ := exists_of_run_bind_eq_ok h
  exact ⟨⟨hName, hStack⟩, refusal?_eq_none_iff.1 (checkAppend_eq_ok_iff.1 hCheck).1⟩

end Assembly

/-! ## What visits reach and give -/

namespace Visit

variable (a : Assembly)

/-- The object that a view child is reached of, with what it may contain. A child element is one if
it stands for a component, an include if its name is not empty and not on the stack. -/
def viewParent? (v : Visit) : Option (ObjectId × Capabilities) :=
  match v.attempt with
  | .child parent caps =>
    match (a.componentOf caps v.spot.element v.before).1 with
    | .ok (some _) => some (parent, caps)
    | _ => none
  | .find parent caps name =>
    if name ≠ "" ∧ name ∉ v.spot.stack then some (parent, caps) else none
  | _ => none

end Visit

/-- The objects that view children are reached of in some visits, in order. -/
def viewParents (a : Assembly) (vs : List Visit) : List ObjectId :=
  vs.filterMap fun v => (v.viewParent? a).map Prod.fst

/-- The instances that visits give, in order, with what they may contain. -/
def instances (a : Assembly) (vs : List Visit) : List (ObjectId × Capabilities) :=
  vs.filterMap (Visit.instance? a)

section

variable {a : Assembly} {vs : List Visit} {v : Visit} {made : ObjectId × Capabilities}

theorem viewParents_of_eq_none (h : v.viewParent? a = none) :
    viewParents a (vs ++ [v]) = viewParents a vs := by
  simp [viewParents, h]

theorem viewParents_of_eq_some (h : v.viewParent? a = some made) :
    viewParents a (vs ++ [v]) = viewParents a vs ++ [made.1] := by
  simp [viewParents, h]

theorem instances_of_eq_none (h : v.instance? a = none) :
    instances a (vs ++ [v]) = instances a vs := by
  simp [instances, h]

theorem instances_of_eq_some (h : v.instance? a = some made) :
    instances a (vs ++ [v]) = instances a vs ++ [made] := by
  simp [instances, h]

/-- A view child that is refused is refused where it is reached. What it is was looked up, and
nothing else has been done about it. -/
theorem Visit.refused {parent : ObjectId} {caps : Capabilities} {fault : Fault}
    (hReached : v.viewParent? a = some (parent, caps))
    (hRefused : a.refusal? v.before parent caps = some fault) :
    ∃ registries, v.run a = (.error (.of fault), { v.before with registries }) := by
  obtain ⟨spot, t, p⟩ := v
  cases t with
  | child other own =>
    unfold viewParent? at hReached
    dsimp only at hReached
    split at hReached
    · next c hComponent =>
      cases hReached
      exact Assembly.start_refused hComponent hRefused
    · cases hReached
  | find other own name =>
    unfold viewParent? at hReached
    dsimp only at hReached
    split at hReached
    · next hName =>
      cases hReached
      exact ⟨p.registries, Assembly.findIncluded_refused hName hRefused⟩
    · cases hReached
  | _ => cases hReached

end

end ViewMarkup
