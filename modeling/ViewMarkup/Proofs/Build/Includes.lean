import ViewMarkup.Build.Element
import ViewMarkup.Proofs.Outcome

/-!
# Includes among instructions

Includes stand among other instructions, in front of a child and after the last one. In front of a
child they are carried out before anything else; after the last child every instruction has its
turn.

## Main results

* `Assembly.takeIncludes_eq` — the includes in front of a child are carried out like trailing ones.
* `includes_append_delivered` — where includes come first, they can be split off.
* `Assembly.processChildren_append` — child elements are built one after the other.
-/

namespace ViewMarkup

/-- The instructions that are no includes. -/
def delivered (is : List Instruction) : List Instruction := is.filter (·.target ≠ includeTarget)

/-- The instructions that are includes. -/
def includes (is : List Instruction) : List Instruction := is.filter (·.target = includeTarget)

/-- No other instruction stands in front of an include. -/
def IncludesFirst (is : List Instruction) : Prop :=
  is.Pairwise fun i j => j.target = includeTarget → i.target = includeTarget

instance (is : List Instruction) : Decidable (IncludesFirst is) :=
  inferInstanceAs (Decidable (List.Pairwise _ is))

theorem target_of_mem_includes {i : Instruction} {is : List Instruction} (h : i ∈ includes is) :
    i.target = includeTarget :=
  of_decide_eq_true (List.mem_filter.1 h).2

theorem target_of_mem_delivered {i : Instruction} {is : List Instruction} (h : i ∈ delivered is) :
    i.target ≠ includeTarget :=
  of_decide_eq_true (List.mem_filter.1 h).2

theorem delivered_eq_self {is : List Instruction} (h : ∀ i ∈ is, i.target ≠ includeTarget) :
    delivered is = is :=
  List.filter_eq_self.2 fun i hi => decide_eq_true (h i hi)

theorem includes_eq_nil {is : List Instruction} (h : ∀ i ∈ is, i.target ≠ includeTarget) :
    includes is = [] :=
  List.filter_eq_nil_iff.2 fun i hi => by simpa using h i hi

/-- Where includes come first, they can be split off. -/
theorem includes_append_delivered {is : List Instruction} (h : IncludesFirst is) :
    includes is ++ delivered is = is := by
  induction is with
  | nil => rfl
  | cons i is ih =>
    obtain ⟨hHead, hTail⟩ := List.pairwise_cons.1 h
    by_cases hTarget : i.target = includeTarget
    · have hIncludes : includes (i :: is) = i :: includes is :=
        List.filter_cons_of_pos (decide_eq_true hTarget)
      have hDelivered : delivered (i :: is) = delivered is :=
        List.filter_cons_of_neg (by simpa using hTarget)
      rw [hIncludes, hDelivered, List.cons_append, ih hTail]
    · have hNone : ∀ j ∈ i :: is, j.target ≠ includeTarget := by
        intro j hj hInclude
        rcases List.mem_cons.1 hj with rfl | hj
        · exact hTarget hInclude
        · exact hTarget (hHead j hj hInclude)
      rw [includes_eq_nil hNone, delivered_eq_self hNone, List.nil_append]

namespace Assembly

variable (a : Assembly) (expand : Expansion) (stack : List String) (parent : ObjectId)
  (caps : Capabilities) (path : String)

/-- Carrying out one of the instructions after the last child. -/
theorem takeTrailing_cons (i : Instruction) (is : List Instruction) :
    a.takeTrailing expand stack parent caps path (i :: is) =
      (if i.target = includeTarget then a.takeInclude expand stack parent caps path i.data
        else Building.within path (a.deliver parent caps i)) >>= fun _ =>
      a.takeTrailing expand stack parent caps path is := rfl

theorem takeTrailing_append (is is' : List Instruction) :
    a.takeTrailing expand stack parent caps path (is ++ is') = (do
      a.takeTrailing expand stack parent caps path is
      a.takeTrailing expand stack parent caps path is') := by
  induction is with
  | nil => rfl
  | cons i is ih =>
    rw [List.cons_append, takeTrailing_cons, ih, takeTrailing_cons, bind_assoc]

/-- The includes in front of a child are carried out like those after the last one. -/
theorem takeIncludes_eq (is : List Instruction) :
    a.takeIncludes expand stack parent caps path is =
      (do a.takeTrailing expand stack parent caps path (includes is); return delivered is) := by
  have hForM : ∀ js : List Instruction, (∀ i ∈ js, i.target = includeTarget) →
      js.forM (fun i => a.takeInclude expand stack parent caps path i.data) =
        a.takeTrailing expand stack parent caps path js := by
    intro js hjs
    induction js with
    | nil => rfl
    | cons i js ih =>
      rw [takeTrailing_cons, if_pos (hjs i List.mem_cons_self)]
      rw [← ih fun j hj => hjs j (List.mem_cons_of_mem i hj)]
      rfl
  unfold takeIncludes
  rw [hForM _ fun i hi => by simpa using (List.mem_filter.1 hi).2]
  rfl

/-- Without includes there is nothing to be carried out in front of a child. -/
theorem takeIncludes_of_delivered (is : List Instruction) :
    a.takeIncludes expand stack parent caps path (delivered is) = pure (delivered is) := by
  have hNone : ∀ i ∈ delivered is, i.target ≠ includeTarget := fun _ => target_of_mem_delivered
  rw [takeIncludes_eq, includes_eq_nil hNone, delivered_eq_self hNone]
  rfl

theorem processChildren_append (es es' : List Element) (index : Nat) :
    a.processChildren expand stack (es ++ es') parent caps path index = (do
      a.processChildren expand stack es parent caps path index
      a.processChildren expand stack es' parent caps path (index + es.length)) := by
  induction es generalizing index with
  | nil =>
    rw [List.nil_append, processChildren]
    exact (pure_bind _ _).symm
  | cons e es ih =>
    rw [List.cons_append, processChildren, ih, processChildren, bind_assoc, List.length_cons]
    rw [Nat.add_assoc, Nat.add_comm 1]

end Assembly
end ViewMarkup
