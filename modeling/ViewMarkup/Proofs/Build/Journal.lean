import ViewMarkup.Build.Progress

/-!
# The journal of a build

A journal lists what has happened to which object, in order. Instances are numbered in the order in
which they are made, so the numbers in a journal ascend (`Ascending`).

The work on an instance is nested: whatever is done to a child view stands between the step that
makes the child and the step that hands it over. `Work` says so of work that is finished and
`Unfinished` of work that may have broken off anywhere. From the nesting alone it follows that a
view which has been handed over is left alone ever after, with everything below it.

## Main results

* `Unfinished.handedOver` — where a step hands a view over, the work on that view is a closed part
  of the journal in front of it, and no other step touches what was made there.
* `HandedOver.below` — what hangs below a view was made in its part of the journal.
-/

namespace ViewMarkup

/-- The instance whose element a step is for. Making an instance is for none that is there. -/
def Step.subject : Step → Option ObjectId
  | .made _ => none
  | .assigned id _ _ => some id
  | .told id _ => some id

/-- The objects that the name of an assigned property leads through. -/
def Step.way : Step → List ObjectId
  | .assigned _ _ way => way
  | _ => []

/-- The object that a step does something to: the one that is told something, or that the name of an
assigned property leads to. -/
def Step.target : Step → Option ObjectId
  | .made _ => none
  | .assigned _ _ way => way.getLast?
  | .told id _ => some id

/-- A step of the work on an object that hands no child view over. -/
def Step.IsOwn (id : ObjectId) : Step → Prop
  | .made _ => False
  | .assigned id' _ _ => id' = id
  | .told _ (.append _) => False
  | .told id' _ => id' = id

/-- What an object is told in some steps, in order. -/
def callsTo (id : ObjectId) (log : List Step) : List Call :=
  log.filterMap fun
    | .told id' call => if id' = id then some call else none
    | _ => none

/-- The objects that are made in some steps, in order. -/
def madeIn (log : List Step) : List ObjectId :=
  log.filterMap fun
    | .made id => some id
    | _ => none

/-! ## Single steps -/

section Steps

variable {id view : ObjectId} {log log' : List Step} {s : Step}

@[simp] theorem callsTo_nil (id : ObjectId) : callsTo id [] = [] := rfl

@[simp] theorem callsTo_append (id : ObjectId) (log log' : List Step) :
    callsTo id (log ++ log') = callsTo id log ++ callsTo id log' := by
  simp [callsTo]

@[simp] theorem callsTo_made (id view : ObjectId) (log : List Step) :
    callsTo id (.made view :: log) = callsTo id log := rfl

theorem callsTo_told_self (id : ObjectId) (call : Call) (log : List Step) :
    callsTo id (.told id call :: log) = call :: callsTo id log := by
  simp [callsTo]

@[simp] theorem madeIn_nil : madeIn [] = [] := rfl

@[simp] theorem madeIn_append (log log' : List Step) :
    madeIn (log ++ log') = madeIn log ++ madeIn log' := by
  simp [madeIn]

@[simp] theorem madeIn_made (view : ObjectId) (log : List Step) :
    madeIn (.made view :: log) = view :: madeIn log := rfl

@[simp] theorem madeIn_told (id : ObjectId) (call : Call) (log : List Step) :
    madeIn (.told id call :: log) = madeIn log := rfl

theorem Step.IsOwn.subject (h : s.IsOwn id) : s.subject = some id := by
  unfold Step.IsOwn at h
  split at h
  · exact h.elim
  · exact congrArg some h
  · exact h.elim
  · exact congrArg some h

private theorem Step.IsOwn.madeIn (h : s.IsOwn id) : madeIn [s] = [] := by
  cases s with
  | made _ => exact h.elim
  | assigned _ _ _ | told _ _ => rfl

/-- What no step is for is told nothing. -/
theorem callsTo_eq_nil (h : ∀ s ∈ log, s.subject ≠ some id) : callsTo id log = [] := by
  unfold callsTo
  rw [List.filterMap_eq_nil_iff]
  intro s hs
  have hNe := h s hs
  cases s with
  | made _ | assigned _ _ _ => rfl
  | told id' call =>
    have hId : id' ≠ id := fun hEq => hNe (congrArg some hEq)
    simp [hId]

/-- Where a joined list is cut at an element, the cut goes through one of the two parts. -/
theorem cut_append {α : Type} {xs ys pre post : List α} {x : α}
    (h : xs ++ ys = pre ++ x :: post) :
    (∃ rest, xs = pre ++ x :: rest ∧ post = rest ++ ys) ∨
      ∃ front, pre = xs ++ front ∧ ys = front ++ x :: post := by
  rcases List.append_eq_append_iff.1 h with ⟨front, hPre, hYs⟩ | ⟨rest, hXs, hRest⟩
  · exact .inr ⟨front, hPre, hYs⟩
  · cases rest with
    | nil => exact .inr ⟨[], by simpa using hXs.symm, by simpa using hRest.symm⟩
    | cons y rest =>
      obtain ⟨rfl, rfl⟩ := List.cons.inj hRest
      exact .inl ⟨rest, hXs, rfl⟩

/-- Where a list is cut at an element that is not its first, the first is in front of the cut. -/
theorem cut_cons {α : Type} {ys pre post : List α} {x y : α} (h : y :: ys = pre ++ x :: post)
    (hNe : y ≠ x) : ∃ front, pre = y :: front ∧ ys = front ++ x :: post := by
  cases pre with
  | nil => exact absurd (List.cons.inj h).1 hNe
  | cons z front =>
    obtain ⟨hHead, hTail⟩ := List.cons.inj h
    exact ⟨front, by rw [hHead], hTail⟩

end Steps

/-! ## Numbers -/

/-- The objects made in some steps have ascending numbers from `lo` on and below `hi`. -/
structure Ascending (lo hi : Nat) (log : List Step) : Prop where
  le : lo ≤ hi
  sorted : (madeIn log).Pairwise (· < ·)
  bounds : ∀ n : Nat, n ∈ madeIn log → lo ≤ n ∧ n < hi

namespace Ascending

variable {lo mid hi : Nat} {log log' : List Step}

theorem of_madeIn_eq_nil (hLe : lo ≤ hi) (h : madeIn log = []) : Ascending lo hi log := by
  refine ⟨hLe, ?_, ?_⟩
  · rw [h]
    exact .nil
  · rw [h]
    intro id hId
    cases hId

theorem append (h : Ascending lo mid log) (h' : Ascending mid hi log') :
    Ascending lo hi (log ++ log') := by
  refine ⟨Nat.le_trans h.le h'.le, ?_, ?_⟩
  · rw [madeIn_append, List.pairwise_append]
    refine ⟨h.sorted, h'.sorted, fun (x : Nat) hx (y : Nat) hy => ?_⟩
    exact Nat.lt_of_lt_of_le (h.bounds x hx).2 (h'.bounds y hy).1
  · intro id hId
    rw [madeIn_append] at hId
    have hLe := h.le
    have hLe' := h'.le
    rcases List.mem_append.1 hId with hId | hId
    · have := h.bounds id hId
      omega
    · have := h'.bounds id hId
      omega

theorem made {id : Nat} (h : Ascending (id + 1) hi log) (hLe : lo ≤ id) :
    Ascending lo hi (.made id :: log) := by
  have hSelf : Ascending lo (id + 1) [.made id] := by
    refine ⟨by omega, by simp, ?_⟩
    intro x hx
    rw [List.mem_singleton.1 hx]
    omega
  exact hSelf.append h

/-- No number is given twice, nor is one that is out of the range. -/
theorem nodup_cons {id : Nat} (h : Ascending lo hi log) (hId : id < lo ∨ hi ≤ id) :
    (id :: madeIn log).Nodup := by
  refine List.nodup_cons.2 ⟨fun hMem => ?_, ?_⟩
  · have := h.bounds id hMem
    omega
  · exact h.sorted.imp fun hLt => Nat.ne_of_lt hLt

end Ascending

/-! ## Nesting -/

/-- Finished work on an instance: its own steps, and child views each of which is made, worked on
and handed over without anything in between. -/
inductive Work : ObjectId → List Step → Prop
  | nil {id : ObjectId} : Work id []
  | own {id : ObjectId} {log : List Step} {s : Step} :
      Work id log → s.IsOwn id → Work id (log ++ [s])
  | child {id view : ObjectId} {log inner : List Step} : Work id log → Work view inner →
      Work id (log ++ .made view :: (inner ++ [.told id (.append view)]))

/-- Work on an instance that may have broken off, perhaps inside of a child view. -/
inductive Unfinished : ObjectId → List Step → Prop
  | here {id : ObjectId} {log : List Step} : Work id log → Unfinished id log
  | inside {id view : ObjectId} {log inner : List Step} : Work id log → Unfinished view inner →
      Unfinished id (log ++ .made view :: inner)

namespace Work

variable {id view : ObjectId} {log log' : List Step}

theorem append (h : Work id log) (h' : Work id log') : Work id (log ++ log') := by
  induction h' with
  | nil => simpa using h
  | own _ hs ih => simpa using (ih h).own hs
  | child _ hInner ih _ => simpa using (ih h).child hInner

theorem of_forall_isOwn (h : ∀ s ∈ log, s.IsOwn id) : Work id log := by
  induction log with
  | nil => exact .nil
  | cons s log ih =>
    have hHead : Work id ([] ++ [s]) := .own .nil (h s List.mem_cons_self)
    exact hHead.append (ih fun t ht => h t (List.mem_cons_of_mem _ ht))

/-- Only the instance itself and what was made meanwhile is worked on. -/
theorem subject_mem (h : Work id log) {s : Step} {x : ObjectId} (hs : s ∈ log)
    (hSubject : s.subject = some x) : x ∈ id :: madeIn log := by
  induction h generalizing s x with
  | nil => cases hs
  | own _ hOwn ih =>
    rcases List.mem_append.1 hs with hs | hs
    · have := ih hs hSubject
      simp only [madeIn_append, List.mem_cons, List.mem_append] at this ⊢
      exact this.imp_right .inl
    · rw [List.mem_singleton.1 hs, hOwn.subject] at hSubject
      cases hSubject
      exact List.mem_cons_self
  | @child id view log inner _ _ ih ihInner =>
    simp only [List.mem_append, List.mem_cons, List.not_mem_nil, or_false] at hs
    simp only [madeIn_append, madeIn_made, madeIn_told, madeIn_nil, List.append_nil,
      List.mem_cons, List.mem_append]
    rcases hs with hs | rfl | hs | rfl
    · exact (List.mem_cons.1 (ih hs hSubject)).imp_right .inl
    · cases hSubject
    · exact .inr (.inr (List.mem_cons.1 (ihInner hs hSubject)))
    · cases hSubject
      exact .inl rfl

/-- A view that is handed over meanwhile was made meanwhile. -/
theorem made_of_append (h : Work id log) {parent : ObjectId}
    (hs : .told parent (.append view) ∈ log) : view ∈ madeIn log := by
  induction h with
  | nil => cases hs
  | own _ hOwn ih =>
    rw [madeIn_append]
    rcases List.mem_append.1 hs with hs | hs
    · exact List.mem_append_left _ (ih hs)
    · rw [← List.mem_singleton.1 hs] at hOwn
      exact hOwn.elim
  | child _ _ ih ihInner =>
    simp only [List.mem_append, List.mem_cons, List.not_mem_nil, or_false, reduceCtorEq,
      false_or, Step.told.injEq, Call.append.injEq] at hs
    simp only [madeIn_append, madeIn_made, madeIn_told, madeIn_nil, List.append_nil,
      List.mem_cons, List.mem_append]
    rcases hs with hs | hs | ⟨-, rfl⟩
    · exact .inl (ih hs)
    · exact .inr (.inr (ihInner hs))
    · exact .inr (.inl rfl)

end Work

theorem Unfinished.after {id : ObjectId} {log log' : List Step} (h : Work id log)
    (h' : Unfinished id log') : Unfinished id (log ++ log') := by
  cases h' with
  | here h' => exact .here (h.append h')
  | inside h' hInner =>
    rw [← List.append_assoc]
    exact .inside (h.append h') hInner

/-- Only the instance itself and what was made meanwhile is worked on. -/
theorem Unfinished.subject_mem {id : ObjectId} {log : List Step} (h : Unfinished id log) {s : Step}
    {x : ObjectId} (hs : s ∈ log) (hSubject : s.subject = some x) : x ∈ id :: madeIn log := by
  induction h generalizing s x with
  | here h => exact h.subject_mem hs hSubject
  | inside h _ ih =>
    simp only [madeIn_append, madeIn_made, List.mem_cons, List.mem_append]
    rcases List.mem_append.1 hs with hs | hs
    · exact (List.mem_cons.1 (h.subject_mem hs hSubject)).imp_right .inl
    · rcases List.mem_cons.1 hs with rfl | hs
      · cases hSubject
      · exact .inr (.inr (List.mem_cons.1 (ih hs hSubject)))

/-! ## Handing views over -/

/-- The step that hands a view to its parent, between what happened `before` the view was made, the
work on the view, and what happened `after`. -/
structure HandedOver (parent view : ObjectId) (before inner after : List Step) : Prop where
  work : Work view inner
  parent_not_mem : parent ∉ view :: madeIn inner
  before_subject : ∀ s ∈ before, ∀ u ∈ view :: madeIn inner, s.subject ≠ some u
  after_subject : ∀ s ∈ after, ∀ u ∈ view :: madeIn inner, s.subject ≠ some u

namespace HandedOver

variable {parent view : ObjectId} {before inner after : List Step}

/-- Steps around a part of a journal that touch nothing made in it change nothing. -/
theorem widen (h : HandedOver parent view before inner after) {part : List Step}
    (front back : List Step)
    (hPart : part = (before ++ .made view :: inner) ++ .told parent (.append view) :: after)
    (hFront : ∀ s ∈ front, ∀ u ∈ madeIn part, s.subject ≠ some u)
    (hBack : ∀ s ∈ back, ∀ u ∈ madeIn part, s.subject ≠ some u) :
    HandedOver parent view (front ++ before) inner (after ++ back) := by
  have hMade : ∀ u ∈ view :: madeIn inner, u ∈ madeIn part := by
    intro u hu
    rw [hPart, madeIn_append, madeIn_append, madeIn_made]
    exact List.mem_append_left _ (List.mem_append_right _ hu)
  refine ⟨h.work, h.parent_not_mem, fun s hs u hu => ?_, fun s hs u hu => ?_⟩
  · rcases List.mem_append.1 hs with hs | hs
    · exact hFront s hs u (hMade u hu)
    · exact h.before_subject s hs u hu
  · rcases List.mem_append.1 hs with hs | hs
    · exact h.after_subject s hs u hu
    · exact hBack s hs u (hMade u hu)

end HandedOver

/-- Where a step of finished work hands a view over, the work on the view is a closed part of what
is in front of it. -/
theorem Work.handedOver {id : ObjectId} {log : List Step} (h : Work id log) :
    (id :: madeIn log).Nodup → ∀ {parent view : ObjectId} {pre after : List Step},
    log = pre ++ .told parent (.append view) :: after →
    ∃ before inner, pre = before ++ .made view :: inner ∧
      HandedOver parent view before inner after := by
  induction h with
  | nil =>
    intro _ parent view pre after hCut
    simp at hCut
  | @own id log s _ hOwn ih =>
    intro hNodup parent view pre after hCut
    rw [madeIn_append, hOwn.madeIn, List.append_nil] at hNodup
    rcases cut_append hCut with ⟨rest, hLeft, rfl⟩ | ⟨front, rfl, hRight⟩
    · obtain ⟨before, inner, rfl, hOver⟩ := ih hNodup hLeft
      refine ⟨before, inner, rfl, hOver.widen [] _ hLeft (by simp) ?_⟩
      intro t ht u hu hSubject
      rw [List.mem_singleton.1 ht, hOwn.subject] at hSubject
      cases hSubject
      exact (List.nodup_cons.1 hNodup).1 hu
    · have hs : s = .told parent (.append view) := by
        cases front <;> simp_all
      rw [hs] at hOwn
      exact hOwn.elim
  | @child id child log inner hLog hInner ih ihInner =>
    intro hNodup parent view pre after hCut
    rw [madeIn_append, madeIn_made, madeIn_append, madeIn_told, madeIn_nil, List.append_nil,
      ← List.cons_append] at hNodup
    obtain ⟨hNodupLog, hNodupInner, hApart⟩ := List.nodup_append.1 hNodup
    rcases cut_append hCut with ⟨rest, hLeft, rfl⟩ | ⟨front, rfl, hRight⟩
    · -- The view is handed over before the child is made.
      obtain ⟨before, inner', rfl, hOver⟩ := ih hNodupLog hLeft
      refine ⟨before, inner', rfl, hOver.widen [] _ hLeft (by simp) ?_⟩
      intro t ht u hu hSubject
      have hu' : u ∈ id :: madeIn log := List.mem_cons_of_mem _ hu
      simp only [List.mem_cons, List.mem_append, List.not_mem_nil, or_false] at ht
      rcases ht with rfl | ht | rfl
      · cases hSubject
      · exact hApart u hu' u (hInner.subject_mem ht hSubject) rfl
      · cases hSubject
        exact (List.nodup_cons.1 hNodupLog).1 hu
    · obtain ⟨front, rfl, hTail⟩ := cut_cons hRight (by simp)
      rcases cut_append hTail with ⟨rest, hLeft, rfl⟩ | ⟨front', rfl, hEnd⟩
      · -- The view is handed over in the work on the child.
        obtain ⟨before, inner', rfl, hOver⟩ := ihInner hNodupInner hLeft
        refine ⟨(log ++ [.made child]) ++ before, inner', by simp, hOver.widen _ _ hLeft ?_ ?_⟩
        · intro t ht u hu hSubject
          rcases List.mem_append.1 ht with ht | ht
          · exact hApart u (hLog.subject_mem ht hSubject) u (List.mem_cons_of_mem _ hu) rfl
          · rw [List.mem_singleton.1 ht] at hSubject
            cases hSubject
        · intro t ht u hu hSubject
          rw [List.mem_singleton.1 ht] at hSubject
          cases hSubject
          exact hApart _ List.mem_cons_self _ (List.mem_cons_of_mem _ hu) rfl
      · -- The view is the child.
        have hFront : front' = [] ∧ .told id (.append child) = Step.told parent (.append view) ∧
            after = [] := by
          cases front' <;> simp_all
        obtain ⟨rfl, hStep, rfl⟩ := hFront
        cases hStep
        refine ⟨log, inner, by simp, hInner, ?_, ?_, by simp⟩
        · intro hMem
          exact hApart id List.mem_cons_self id hMem rfl
        · intro t ht u hu hSubject
          exact hApart u (hLog.subject_mem ht hSubject) u hu rfl

/-- Where a step hands a view over, the work on the view is a closed part of what is in front of
it, even if the work as a whole breaks off. -/
theorem Unfinished.handedOver {id : ObjectId} {log : List Step} (h : Unfinished id log) :
    (id :: madeIn log).Nodup → ∀ {parent view : ObjectId} {pre after : List Step},
    log = pre ++ .told parent (.append view) :: after →
    ∃ before inner, pre = before ++ .made view :: inner ∧
      HandedOver parent view before inner after := by
  induction h with
  | here h => exact h.handedOver
  | @inside id child log inner hLog hInner ih =>
    intro hNodup parent view pre after hCut
    rw [madeIn_append, madeIn_made, ← List.cons_append] at hNodup
    obtain ⟨hNodupLog, hNodupInner, hApart⟩ := List.nodup_append.1 hNodup
    rcases cut_append hCut with ⟨rest, hLeft, rfl⟩ | ⟨front, rfl, hRight⟩
    · obtain ⟨before, inner', rfl, hOver⟩ := hLog.handedOver hNodupLog hLeft
      refine ⟨before, inner', rfl, hOver.widen [] _ hLeft (by simp) ?_⟩
      intro t ht u hu hSubject
      rcases List.mem_cons.1 ht with rfl | ht
      · cases hSubject
      · exact hApart u (List.mem_cons_of_mem _ hu) u (hInner.subject_mem ht hSubject) rfl
    · obtain ⟨front, rfl, hTail⟩ := cut_cons hRight (by simp)
      obtain ⟨before, inner', rfl, hOver⟩ := ih hNodupInner hTail
      refine ⟨(log ++ [.made child]) ++ before, inner', by simp, ?_⟩
      have hWide := hOver.widen (log ++ [.made child]) [] hTail ?_ (by simp)
      · simpa using hWide
      · intro t ht u hu hSubject
        rcases List.mem_append.1 ht with ht | ht
        · exact hApart u (hLog.subject_mem ht hSubject) u (List.mem_cons_of_mem _ hu) rfl
        · rw [List.mem_singleton.1 ht] at hSubject
          cases hSubject

/-- What hangs below a view in a journal: the view itself, and whatever is handed to something that
hangs below it. -/
inductive Below (log : List Step) (view : ObjectId) : ObjectId → Prop
  | self : Below log view view
  | child {parent u : ObjectId} :
      Below log view parent → .told parent (.append u) ∈ log → Below log view u

/-- What hangs below a view that has been handed over was made in the work on the view. -/
theorem HandedOver.below {parent view u : ObjectId} {before inner after : List Step}
    (h : HandedOver parent view before inner after)
    (hu : Below (before ++ .made view :: (inner ++ .told parent (.append view) :: after)) view u) :
    u ∈ view :: madeIn inner := by
  induction hu with
  | self => exact List.mem_cons_self
  | @child x u _ hMem ih =>
    simp only [List.mem_append, List.mem_cons, reduceCtorEq, false_or] at hMem
    rcases hMem with hMem | hMem | hMem | hMem
    · exact absurd rfl (h.before_subject _ hMem x ih)
    · exact List.mem_cons_of_mem _ (h.work.made_of_append hMem)
    · cases hMem
      exact absurd ih h.parent_not_mem
    · exact absurd rfl (h.after_subject _ hMem x ih)

end ViewMarkup
