import ViewMarkup.Proofs.Build.Places
import ViewMarkup.Proofs.Build.ViewChildren

/-!
# How many views are appended

An object that takes no views is given none, and one that takes a single view at most one. A build
that reaches one view child too many fails there, with nothing done about that child. This rests on
the count of a build: it is the number of views that the journal says were given to objects with
one identity number, and so at least that of the views that one object was given. The views of an
object, with those that it still waits for, are as many as its view children that were reached.

While an object waits for a view, no other object that is worked on has its number. So what was
allowed is not refused in the end. But its number may have been that of an object that is gone by
then, and the views which that one was given are counted too.

## Main results

* `NumbersApart` — what there is to know about identity numbers.
* `Held.step` — what is held of a count is held after each attempt.
* `Orderly.held` — and so along all visits of a tour.
* `Builder.outcome_appends` — which view children are refused, and how many views objects are given.
-/

namespace ViewMarkup

/-! ## Instances and their views -/

/-- What a journal says about the instances given: no more views than allowed were given to each of
them, and no views to others. -/
structure Progress.Limited (p : Progress) (given : List (ObjectId × Capabilities)) : Prop where
  permitted : ∀ id caps, (id, caps) ∈ given → caps.append.Permits (viewsTo id p.journal).length
  known : ∀ id, viewsTo id p.journal ≠ [] → id ∈ given.map Prod.fst

/-- The instances given are different objects, whose views are counted. -/
structure Progress.Tallied (p : Progress) (given : List (ObjectId × Capabilities)) : Prop where
  limited : p.Limited given
  distinct : (given.map Prod.fst).Nodup
  exist : ∀ id ∈ given.map Prod.fst, id < p.store.size
  counted : p.Counted

section

variable {p q : Progress} {given : List (ObjectId × Capabilities)} {id : ObjectId}
  {caps : Capabilities}

theorem Progress.Limited.keeps (h : p.Limited given)
    (hViews : ∀ id, viewsTo id q.journal = viewsTo id p.journal) : q.Limited given := by
  constructor
  · intro id caps hMem
    rw [hViews]
    exact h.permitted id caps hMem
  · intro id hGiven
    rw [hViews] at hGiven
    exact h.known id hGiven

/-- A new instance has not been given any views. -/
theorem Progress.Limited.add (h : p.Limited given) (hFresh : id ∉ given.map Prod.fst) :
    p.Limited (given ++ [(id, caps)]) := by
  have hNone : viewsTo id p.journal = [] := by
    by_contra hSome
    exact hFresh (h.known id hSome)
  constructor
  · intro other own hMem
    rcases List.mem_append.1 hMem with hMem | hMem
    · exact h.permitted other own hMem
    · rw [List.mem_singleton] at hMem
      cases hMem
      rw [hNone]
      exact caps.append.permits_zero
  · intro other hGiven
    rw [List.map_append]
    exact List.mem_append_left _ (h.known other hGiven)

theorem viewsTo_told (id parent view : ObjectId) (log : List Step) :
    (viewsTo id (log ++ [.told parent (.append view)])).length =
      (viewsTo id log).length + if id = parent then 1 else 0 := by
  rw [viewsTo, viewsAmong_told]
  by_cases hEq : id = parent
  · simp [hEq]
  · simp [hEq, Ne.symm hEq]

private theorem mem_viewsTo_told {id parent view other : ObjectId} {log : List Step} :
    other ∈ viewsTo id (log ++ [.told parent (.append view)]) ↔
      other ∈ viewsTo id log ∨ parent = id ∧ other = view := by
  rw [viewsTo, viewsAmong_append, List.mem_append]
  by_cases hEq : parent = id
  · simp [viewsAmong, hEq]
  · simp [viewsAmong, hEq]

/-- What an instance may contain is said once. -/
theorem Progress.Tallied.caps_eq (h : p.Tallied given) {own : Capabilities}
    (hMem : (id, caps) ∈ given) (hOwn : (id, own) ∈ given) : own = caps :=
  congrArg Prod.snd (List.inj_on_of_nodup_map h.distinct hOwn hMem rfl)

/-- A view is given to an instance that takes one more. -/
theorem Progress.Tallied.tell (h : p.Tallied given) {view : ObjectId} (hMem : (id, caps) ∈ given)
    (hPermits : caps.append.Permits ((viewsTo id p.journal).length + 1))
    (hJournal : q.journal = p.journal ++ [.told id (.append view)]) : q.Limited given := by
  constructor
  · intro other own hOwn
    rw [hJournal, viewsTo_told]
    by_cases hEq : other = id
    · subst hEq
      rw [if_pos rfl, h.caps_eq hMem hOwn]
      exact hPermits
    · rw [if_neg hEq]
      exact h.limited.permitted other own hOwn
  · intro other hGiven
    by_cases hEq : other = id
    · rw [hEq]
      exact List.mem_map_of_mem hMem
    · refine h.limited.known other fun hNone => hGiven (List.length_eq_zero_iff.1 ?_)
      rw [hJournal, viewsTo_told, if_neg hEq, hNone]
      rfl

namespace Progress.Tallied

private theorem keeps (h : p.Tallied given) (hKeeps : p.Keeps q) : q.Tallied given := by
  constructor
  · exact h.limited.keeps hKeeps.viewsTo
  · exact h.distinct
  · intro id hId
    exact Nat.lt_of_lt_of_le (h.exist id hId) hKeeps.size
  · exact h.counted.keeps hKeeps

private theorem add (h : p.Tallied given) (hFresh : id ∉ given.map Prod.fst)
    (hSize : id < p.store.size) : p.Tallied (given ++ [(id, caps)]) := by
  constructor
  · exact h.limited.add hFresh
  · rw [List.map_append, List.nodup_append]
    refine ⟨h.distinct, List.nodup_singleton id, ?_⟩
    intro other hOther new hNew hEq
    rw [List.map_singleton, List.mem_singleton] at hNew
    rw [hEq, hNew] at hOther
    exact hFresh hOther
  · intro other hOther
    rw [List.map_append, List.mem_append, List.map_singleton, List.mem_singleton] at hOther
    rcases hOther with hOther | rfl
    · exact h.exist other hOther
    · exact hSize
  · exact h.counted

private theorem append {a : Assembly} {view : ObjectId} (h : p.Tallied given)
    (hRun : a.append id caps view p = (.ok (), q)) (hMem : (id, caps) ∈ given) :
    q.Tallied given := by
  obtain ⟨hTaken, -, -⟩ := Assembly.append_counted hRun
  have hExt : p.Extends a.files (fun _ => True) q [.told id (.append view)] :=
    ((Assembly.append_yields a.library.classes.covered_univ p.ready_univ trivial trivial).ok hRun).1
  have hPermits := Assembly.refusal?_eq_none_iff.1 hTaken
  constructor
  · exact h.tell hMem (hPermits.of_le (Nat.succ_le_succ (h.counted.viewsTo_le id))) hExt.journal
  · exact h.distinct
  · intro other hOther
    exact Nat.lt_of_lt_of_le (h.exist other hOther) hExt.ascending.le
  · exact h.counted.append hRun

end Progress.Tallied

end

/-! ## Objects under way -/

/-- Whether an object is under way after some steps: it is the root that was supplied, or it was
made, and it has not been given to another object. -/
def UnderWay (supplied : Option ObjectId) (log : List Step) (id : ObjectId) : Prop :=
  (supplied = some id ∨ .made id ∈ log) ∧ ∀ parent, id ∉ viewsTo parent log

/-- Objects that are under way at the same time have different identity numbers. A build refers to
them, so none of them has left its number to another. -/
def NumbersApart (number : ObjectId → Identity) (supplied : Option ObjectId) (log : List Step) :
    Prop :=
  ∀ pre, pre <+: log → ∀ id other, UnderWay supplied pre id → UnderWay supplied pre other →
    number id = number other → id = other

theorem NumbersApart.of_prefix {number : ObjectId → Identity} {supplied : Option ObjectId}
    {log log' : List Step} (h : NumbersApart number supplied log') (hPrefix : log <+: log') :
    NumbersApart number supplied log :=
  fun pre hPre => h pre (hPre.trans hPrefix)

private theorem NumbersApart.of_injective {number : ObjectId → Identity} (h : Function.Injective number)
    (supplied : Option ObjectId) (log : List Step) : NumbersApart number supplied log :=
  fun _ _ _ _ _ _ hSame => h hSame

theorem UnderWay.keeps {supplied : Option ObjectId} {p q : Progress} {id : ObjectId}
    (h : UnderWay supplied p.journal id) (hKeeps : p.Keeps q) : UnderWay supplied q.journal id := by
  refine ⟨h.1.imp_right fun hMade => hKeeps.journal.subset hMade, fun parent => ?_⟩
  rw [hKeeps.viewsTo]
  exact h.2 parent

/-- What is counted under the number of an object are its own views: no other object with this
number was given any. -/
def CountedAlone (number : ObjectId → Identity) (log : List Step) (id : ObjectId) : Prop :=
  ∀ other, other ≠ id → number other = number id → viewsTo other log = []

theorem CountedAlone.of_injective {number : ObjectId → Identity}
    (h : Function.Injective number) (log : List Step) (id : ObjectId) :
    CountedAlone number log id :=
  fun _ hOther hSame => absurd (h hSame) hOther

theorem viewsUnder_eq_nil_iff {number : ObjectId → Identity} {log : List Step} {id : ObjectId} :
    viewsUnder number (number id) log = [] ↔ viewsTo id log = [] ∧ CountedAlone number log id := by
  rw [viewsUnder, viewsAmong_eq_nil_iff]
  constructor
  · intro hNone
    exact ⟨hNone id (decide_eq_true rfl), fun other _ hSame => hNone other (decide_eq_true hSame)⟩
  · rintro ⟨hOwn, hAlone⟩ other hSame
    by_cases hEq : other = id
    · rw [hEq]
      exact hOwn
    · exact hAlone other hEq (of_decide_eq_true hSame)

/-- Nothing is counted for an object if nothing was given to it, nor to others with its number. -/
theorem Progress.Counted.eq_zero_iff {p : Progress} (h : p.Counted) {id : ObjectId} :
    p.count id = 0 ↔ viewsTo id p.journal = [] ∧ CountedAlone p.number p.journal id := by
  rw [h, List.length_eq_zero_iff, viewsUnder_eq_nil_iff]

/-! ## The count along a tour -/

/-- What is held of the count at a stage of a tour, after some instances were given and view
children were reached of some parents. Each view child that was reached was given to its parent, or
the parent waits for it; and an instance that waits takes one more view. As long as the instances
that are worked on have different numbers, it is still allowed one more, too. -/
structure Held (number : ObjectId → Identity) (supplied : Option ObjectId)
    (given : List (ObjectId × Capabilities)) (parents : List ObjectId) (s : Stage) (p : Progress) :
    Prop where
  numbered : p.number = number
  tallied : p.Tallied given
  opened : s.opened ⊆ given
  distinct : (s.opened.map Prod.fst).Nodup
  views : ∀ parent, viewsTo parent p.journal ⊆ given.map Prod.fst
  underWay : ∀ id ∈ s.opened.map Prod.fst, UnderWay supplied p.journal id
  reached : ∀ id,
    parents.count id = (viewsTo id p.journal).length + (s.waiting.map Prod.fst).count id
  permitted : ∀ id caps, (id, caps) ∈ s.waiting →
    caps.append.Permits ((viewsTo id p.journal).length + 1)
  allowed : NumbersApart number supplied p.journal → ∀ id caps, (id, caps) ∈ s.waiting →
    caps.append.Permits (p.count id + 1)
  begun : s.opened = [] → given = [] ∧ ∀ r : Nat, supplied = some r → r < p.store.size

/-- An instance is there that was not given before, supplied or made. -/
structure Progress.Begins (p : Progress) (supplied : Option ObjectId)
    (given : List (ObjectId × Capabilities)) (id : ObjectId) : Prop where
  fresh : id ∉ given.map Prod.fst
  exist : id < p.store.size
  begun : supplied = some id ∨ .made id ∈ p.journal

namespace Held

section

variable {number : ObjectId → Identity} {supplied : Option ObjectId}
  {given outer : List (ObjectId × Capabilities)} {parents : List ObjectId} {s : Stage}
  {p q : Progress} {id parent view : ObjectId} {own caps : Capabilities}

/-- Before anything is built, nothing is counted. -/
theorem start {w : World} (loader : Loader)
    (hRoot : ∀ r : Nat, supplied = some r → r < w.store.size) :
    Held w.number supplied [] [] { entering := true } { w with loader } := by
  constructor
  · rfl
  · refine ⟨⟨?_, ?_⟩, .nil, ?_, fun id => rfl⟩
    · intro id caps hMem
      cases hMem
    · intro id hGiven
      exact absurd rfl hGiven
    · intro id hMem
      cases hMem
  · exact List.nil_subset []
  · exact .nil
  · exact fun parent => List.nil_subset []
  · intro id hMem
    cases hMem
  · intro id
    rfl
  · intro id caps hMem
    cases hMem
  · intro _ id caps hMem
    cases hMem
  · intro _
    exact ⟨rfl, hRoot⟩

private theorem keeps (h : Held number supplied given parents s p) (hKeeps : p.Keeps q) :
    Held number supplied given parents s q := by
  constructor
  · exact (congrArg Prod.snd hKeeps.tally).trans h.numbered
  · exact h.tallied.keeps hKeeps
  · exact h.opened
  · exact h.distinct
  · intro x
    rw [hKeeps.viewsTo]
    exact h.views x
  · exact fun x hx => (h.underWay x hx).keeps hKeeps
  · intro x
    rw [hKeeps.viewsTo]
    exact h.reached x
  · intro x c hx
    rw [hKeeps.viewsTo]
    exact h.permitted x c hx
  · intro hApart x c hx
    rw [Progress.count_eq hKeeps.tally]
    exact h.allowed (hApart.of_prefix hKeeps.journal) x c hx
  · intro hNone
    obtain ⟨hFirst, hSupplied⟩ := h.begun hNone
    exact ⟨hFirst, fun r hr => Nat.lt_of_lt_of_le (hSupplied r hr) hKeeps.size⟩

/-- Once a view child is reached, its parent waits for it. -/
theorem enters (h : Held number supplied given parents { opened := (parent, caps) :: outer } p)
    (hPermits : caps.append.Permits (p.count parent + 1)) :
    Held number supplied given (parents ++ [parent]) ⟨(parent, caps) :: outer, true⟩ p := by
  constructor
  · exact h.numbered
  · exact h.tallied
  · exact h.opened
  · exact h.distinct
  · exact h.views
  · exact h.underWay
  · intro x
    have hBefore : parents.count x =
        (viewsTo x p.journal).length + (outer.map Prod.fst).count x := h.reached x
    have hWaiting : (Stage.waiting ⟨(parent, caps) :: outer, true⟩).map Prod.fst =
        parent :: outer.map Prod.fst := rfl
    rw [List.count_append, hBefore, hWaiting, List.count_cons, List.count_cons, List.count_nil]
    omega
  · intro x c hx
    rcases List.mem_cons.1 hx with hx | hx
    · cases hx
      exact hPermits.of_le (Nat.succ_le_succ (h.tallied.counted.viewsTo_le parent))
    · exact h.permitted x c hx
  · intro hApart x c hx
    rcases List.mem_cons.1 hx with hx | hx
    · cases hx
      exact hPermits
    · exact h.allowed hApart x c hx
  · intro hNone
    cases hNone

/-- A new instance is worked on, while all others wait. -/
theorem opens (h : Held number supplied given parents s p) (hEntering : s.entering = true)
    (hNew : p.Begins supplied given id) :
    Held number supplied (given ++ [(id, own)]) parents { opened := (id, own) :: s.opened } p := by
  obtain ⟨hFresh, hSize, hBegun⟩ := hNew
  have hWaiting : s.waiting = s.opened := if_pos hEntering
  constructor
  · exact h.numbered
  · exact h.tallied.add hFresh hSize
  · intro made hMade
    rcases List.mem_cons.1 hMade with hMade | hMade
    · rw [hMade]
      exact List.mem_append_right given (List.mem_singleton_self _)
    · exact List.mem_append_left _ (h.opened hMade)
  · rw [List.map_cons, List.nodup_cons]
    refine ⟨fun hMem => ?_, h.distinct⟩
    obtain ⟨made, hMade, hId⟩ := List.mem_map.1 hMem
    exact hFresh (List.mem_map.2 ⟨made, h.opened hMade, hId⟩)
  · intro x view hView
    rw [List.map_append]
    exact List.mem_append_left _ (h.views x hView)
  · intro x hx
    rcases List.mem_cons.1 hx with rfl | hx
    · exact ⟨hBegun, fun parent hView => hFresh (h.views parent hView)⟩
    · exact h.underWay x hx
  · intro x
    rw [h.reached x, hWaiting]
    rfl
  · intro x c hx
    refine h.permitted x c ?_
    rw [hWaiting]
    exact hx
  · intro hApart x c hx
    refine h.allowed hApart x c ?_
    rw [hWaiting]
    exact hx
  · intro hNone
    cases hNone

/-- An instance that is made is new. -/
theorem begins_of_made {fs : Files} {U : ObjectId → Prop}
    (h : Held number supplied given parents s p) (hMade : p.Extends fs U q [.made id]) :
    q.Begins supplied given id := by
  obtain ⟨hOld, hNew⟩ := hMade.ascending.bounds id (List.mem_singleton_self id)
  refine ⟨fun hMem => ?_, hNew, .inr ?_⟩
  · have hOlder : id < p.store.size := h.tallied.exist id hMem
    exact Nat.not_lt.2 hOld hOlder
  · rw [hMade.journal]
    exact List.mem_append_right _ (List.mem_singleton_self _)

/-- A root that is supplied is the first instance, so there is none to tell it from. -/
theorem begins_of_root {a : Assembly} {U : ObjectId → Prop} {e : Element} {root : Option ObjectId}
    (h : Held number supplied given parents s p)
    (hRoot : ∀ r, root = some r → s.opened = [] ∧ supplied = some r)
    (hStarted : a.RootStarted U root e p (id, own) q) : q.Begins supplied given id := by
  cases root with
  | none => exact h.begins_of_made hStarted.of_none
  | some r =>
    obtain ⟨hId, hExt⟩ := hStarted.of_some
    obtain rfl : id = r := hId
    obtain ⟨hOpened, hSupplied⟩ := hRoot id rfl
    obtain ⟨hFirst, hExists⟩ := h.begun hOpened
    refine ⟨?_, Nat.lt_of_lt_of_le (hExists id hSupplied) hExt.ascending.le, .inl hSupplied⟩
    rw [hFirst]
    exact List.not_mem_nil

/-- A view is appended to the instance that waited for it, which is worked on again. -/
theorem appends {a : Assembly}
    (h : Held number supplied given parents { opened := (view, own) :: (parent, caps) :: outer } p)
    (hRun : a.append parent caps view p = (.ok (), q)) :
    Held number supplied given parents { opened := (parent, caps) :: outer } q := by
  have hDistinct := h.distinct
  simp only [List.map_cons, List.nodup_cons] at hDistinct
  obtain ⟨-, hNumber, hCount⟩ := Assembly.append_counted hRun
  have hExt : p.Extends a.files (fun _ => True) q [.told parent (.append view)] :=
    ((Assembly.append_yields a.library.classes.covered_univ p.ready_univ trivial trivial).ok hRun).1
  have hJournal : q.journal = p.journal ++ [.told parent (.append view)] := hExt.journal
  have hOther {x : ObjectId} {c : Capabilities} (hx : (x, c) ∈ outer) : x ≠ parent := by
    intro hEq
    rw [hEq] at hx
    exact hDistinct.2.1 (List.mem_map_of_mem hx)
  constructor
  · exact hNumber.trans h.numbered
  · exact h.tallied.append hRun (h.opened (by simp))
  · exact fun made hMade => h.opened (List.mem_cons_of_mem _ hMade)
  · simp only [List.map_cons, List.nodup_cons]
    exact hDistinct.2
  · intro x other hView
    rw [hJournal, mem_viewsTo_told] at hView
    rcases hView with hView | ⟨-, rfl⟩
    · exact h.views x hView
    · exact List.mem_map_of_mem (h.opened List.mem_cons_self)
  · intro x hx
    obtain ⟨hBegun, hKept⟩ := h.underWay x (List.mem_cons_of_mem _ hx)
    rw [hJournal]
    refine ⟨hBegun.imp_right (List.mem_append_left _), fun other hView => ?_⟩
    rcases mem_viewsTo_told.1 hView with hView | ⟨-, rfl⟩
    · exact hKept other hView
    · exact hDistinct.1 (List.mem_cons.2 (List.mem_cons.1 hx))
  · intro x
    have hBefore : parents.count x = (viewsTo x p.journal).length +
        (((parent, caps) :: outer).map Prod.fst).count x := h.reached x
    have hWaiting : Stage.waiting { opened := (parent, caps) :: outer } = outer := rfl
    rw [hBefore, hJournal, viewsTo_told, hWaiting, List.map_cons, List.count_cons]
    by_cases hEq : x = parent
    · simp [hEq]
      omega
    · simp [hEq, Ne.symm hEq]
  · intro x c hx
    rw [hJournal, viewsTo_told, if_neg (hOther hx)]
    exact h.permitted x c (List.mem_cons_of_mem _ hx)
  · intro hApart x c hx
    have hBefore : NumbersApart number supplied p.journal := hApart.of_prefix ⟨_, hJournal.symm⟩
    -- Both were under way before the view was given, so the count of the one is not that of the
    -- other.
    have hDiffers : p.number x ≠ p.number parent := by
      intro hSame
      rw [h.numbered] at hSame
      refine hOther hx (hBefore p.journal (List.prefix_refl _) x parent ?_ ?_ hSame)
      · exact h.underWay x
          (List.mem_map_of_mem (List.mem_cons_of_mem _ (List.mem_cons_of_mem _ hx)))
      · exact h.underWay parent (by simp)
    rw [hCount, if_neg hDiffers]
    exact h.allowed hBefore x c (List.mem_cons_of_mem _ hx)
  · intro hNone
    cases hNone

end

/-! ## Attempts -/

variable {a : Assembly} {number : ObjectId → Identity} {supplied : Option ObjectId}
  {vs : List Visit} {v : Visit} {s : Stage} {p q : Progress} {parent view : ObjectId}
  {caps : Capabilities}

/-- What is held of the count is held after an attempt that is due and does not fail. -/
theorem step (h : Held number supplied (instances a vs) (viewParents a vs) s v.before)
    (hDue : v.attempt.Due supplied s) {answer : v.attempt.Answer}
    (hRun : v.run a = (.ok answer, q)) :
    Held number supplied (instances a (vs ++ [v])) (viewParents a (vs ++ [v]))
      (v.attempt.next s answer) q := by
  have hInstance := Visit.instance?_of_ok hRun
  obtain ⟨spot, t, p⟩ := v
  have hKeeps (hOther : ∀ parent caps view, t ≠ .append parent caps view) : p.Keeps q := by
    have hAct : t.act a spot p = (.ok answer, q) := hRun
    have hState := t.keeps a spot hOther p
    rwa [hAct] at hState
  cases t with
  | deliver id caps i =>
    rw [instances_of_eq_none hInstance, viewParents_of_eq_none rfl]
    exact h.keeps (hKeeps (by simp))
  | attributes id =>
    rw [instances_of_eq_none hInstance, viewParents_of_eq_none rfl]
    exact h.keeps (hKeeps (by simp))
  | text id caps =>
    rw [instances_of_eq_none hInstance, viewParents_of_eq_none rfl]
    exact h.keeps (hKeeps (by simp))
  | root given =>
    obtain ⟨id, own⟩ := answer
    obtain ⟨hEntering, hGiven⟩ := hDue
    have hStarted := ((Assembly.startRoot_yields a.library.classes.covered_univ p.ready_univ
      spot.element given).ok hRun).1
    rw [instances_of_eq_some hInstance, viewParents_of_eq_none rfl]
    exact (h.keeps (hKeeps (by simp))).opens hEntering (h.begins_of_root hGiven hStarted)
  | child parent caps =>
    obtain ⟨outer, rfl⟩ := hDue
    cases answer with
    | none =>
      have hRaw : (a.componentOf caps spot.element p).1 = .ok none := Assembly.start_raw hRun
      have hView : Visit.viewParent? a ⟨spot, .child parent caps, p⟩ = none := by
        simp only [Visit.viewParent?, hRaw]
      rw [instances_of_eq_none hInstance, viewParents_of_eq_none hView]
      exact h.keeps (hKeeps (by simp))
    | some made =>
      obtain ⟨id, own⟩ := made
      obtain ⟨⟨c, hComponent⟩, hPermits⟩ := Assembly.start_allows hRun
      have hView : Visit.viewParent? a ⟨spot, .child parent caps, p⟩ = some (parent, caps) := by
        simp only [Visit.viewParent?, hComponent]
      have hStarted := (Assembly.start_yields a.library.classes.covered_univ p.ready_univ trivial
        spot.element _).ok hRun
      rw [instances_of_eq_some hInstance, viewParents_of_eq_some hView]
      refine ((h.enters hPermits).keeps (hKeeps (by simp))).opens rfl ?_
      cases hStarted with
      | made _ hMade => exact h.begins_of_made hMade
  | find parent caps name =>
    obtain ⟨outer, rfl⟩ := hDue
    obtain ⟨hName, hPermits⟩ := Assembly.findIncluded_allows hRun
    have hView : Visit.viewParent? a ⟨spot, .find parent caps name, p⟩ = some (parent, caps) :=
      if_pos hName
    rw [instances_of_eq_none hInstance, viewParents_of_eq_some hView]
    exact (h.enters hPermits).keeps (hKeeps (by simp))
  | append parent caps view =>
    obtain ⟨own, outer, rfl⟩ := hDue
    rw [instances_of_eq_none hInstance, viewParents_of_eq_none rfl]
    exact h.appends hRun

/-- A view child is reached of the instance that is worked on. -/
theorem at_of_viewParent? (hDue : v.attempt.Due supplied s)
    (hView : v.viewParent? a = some (parent, caps)) : s.At parent caps := by
  obtain ⟨spot, t, p⟩ := v
  unfold Visit.viewParent? at hView
  cases t with
  | child parent caps =>
    dsimp only at hView
    split at hView
    · cases hView
      exact hDue
    · cases hView
  | find parent caps name =>
    dsimp only at hView
    split at hView
    · cases hView
      exact hDue
    · cases hView
  | _ => cases hView

section

variable {given : List (ObjectId × Capabilities)} {parents : List ObjectId}

/-- All views that the instance worked on waited for were given to it. -/
theorem count_parents (h : Held number supplied given parents s p) (hAt : s.At parent caps) :
    parents.count parent = (viewsTo parent p.journal).length := by
  obtain ⟨outer, rfl⟩ := hAt
  have hDistinct := h.distinct
  simp only [List.map_cons, List.nodup_cons] at hDistinct
  have hReached : parents.count parent =
      (viewsTo parent p.journal).length + (outer.map Prod.fst).count parent := h.reached parent
  rw [hReached, List.count_eq_zero_of_not_mem hDistinct.1, Nat.add_zero]

/-- Another view child of an object that takes a single view is refused. -/
theorem refusal?_of_mem (h : Held number supplied given parents s p) (hAt : s.At parent caps)
    (hSingle : caps.append = .single) (hAnother : parent ∈ parents) :
    a.refusal? p parent caps = some (.child (.single
      (Scene.typeName { classes := a.library.classes, store := p.store } (.object parent)))) := by
  have hCount : 1 ≤ p.count parent := by
    have hReached : 0 < parents.count parent := List.count_pos_iff.2 hAnother
    rw [h.count_parents hAt] at hReached
    exact Nat.le_trans hReached (h.tallied.counted.viewsTo_le parent)
  unfold Assembly.refusal?
  rw [hSingle]
  exact if_pos hCount

/-- The first one is taken, if only views of the object itself are counted. -/
theorem refusal?_of_not_mem (h : Held number supplied given parents s p) (hAt : s.At parent caps)
    (hSingle : caps.append = .single) (hFirst : parent ∉ parents)
    (hAlone : CountedAlone number p.journal parent) : a.refusal? p parent caps = none := by
  have hOwn : viewsTo parent p.journal = [] := by
    rw [← List.length_eq_zero_iff, ← h.count_parents hAt]
    exact List.count_eq_zero_of_not_mem hFirst
  have hCount : ¬ 1 ≤ p.count parent := by
    rw [← h.numbered] at hAlone
    rw [h.tallied.counted.eq_zero_iff.2 ⟨hOwn, hAlone⟩]
    exact Nat.not_succ_le_zero 0
  unfold Assembly.refusal?
  rw [hSingle]
  exact if_neg hCount

/-- The view child that is appended had been allowed, and still is. -/
theorem append_permitted (h : Held number supplied given parents s p)
    (hApart : NumbersApart number supplied p.journal)
    (hDue : (Attempt.append parent caps view).Due supplied s) :
    a.refusal? p parent caps = none := by
  obtain ⟨own, outer, rfl⟩ := hDue
  exact Assembly.refusal?_eq_none_iff.2 (h.allowed hApart parent caps List.mem_cons_self)

end

/-- An attempt that is due and fails gives no views but such as are allowed. -/
theorem fails (h : Held number supplied (instances a vs) (viewParents a vs) s v.before)
    (hDue : v.attempt.Due supplied s) {e : Failure} (hRun : v.run a = (.error e, q)) :
    q.Limited (instances a (vs ++ [v])) := by
  rw [instances_of_eq_none (Visit.instance?_of_error hRun)]
  obtain ⟨spot, t, p⟩ := v
  have hAct : t.act a spot p = (.error e, q) := hRun
  have hState : q = (t.act a spot p).2 := by rw [hAct]
  -- A view that a parent does not take, although it was allowed, stands in the journal.
  by_cases hAppend : ∃ parent caps view, t = .append parent caps view
  · obtain ⟨parent, caps, view, rfl⟩ := hAppend
    have hParent : (parent, caps) ∈ instances a vs := by
      obtain ⟨own, outer, rfl⟩ := hDue
      exact h.opened (by simp)
    rcases a.append_journal parent caps view p with hSame | ⟨hTaken, hTold⟩
    · refine h.tallied.limited.keeps fun id => ?_
      rw [hState]
      exact congrArg (viewsTo id) hSame
    · have hJournal : q.journal = p.journal ++ [.told parent (.append view)] := by
        rw [hState]
        exact hTold
      have hPermits := Assembly.refusal?_eq_none_iff.1 hTaken
      exact h.tallied.tell hParent
        (hPermits.of_le (Nat.succ_le_succ (h.tallied.counted.viewsTo_le parent))) hJournal
  · have hKeeps := t.keeps a spot (fun parent caps view hEq => hAppend ⟨parent, caps, view, hEq⟩) p
    rw [hState]
    exact h.tallied.limited.keeps hKeeps.viewsTo

end Held

/-- What is held of the count at the beginning is held all along a tour, to its end if it does not
fail. However it ends, no object was given more views than allowed. -/
theorem Orderly.held {a : Assembly} {number : ObjectId → Identity} {supplied : Option ObjectId}
    {s : Stage} {vs pre : List Visit} {s? : Option Stage} {f : Option Failure} {p q : Progress}
    (h : Orderly a (.staged supplied) s vs s?) (hLinked : Linked a p vs f q)
    (hHeld : Held number supplied (instances a pre) (viewParents a pre) s p) :
    q.Limited (instances a (pre ++ vs)) ∧
      (∀ front v back, vs = front ++ v :: back → ∃ s', v.attempt.Due supplied s' ∧
        Held number supplied (instances a (pre ++ front)) (viewParents a (pre ++ front)) s'
          v.before) ∧
      (f = none → ∃ s', s? = some s' ∧
        Held number supplied (instances a (pre ++ vs)) (viewParents a (pre ++ vs)) s' q) := by
  obtain ⟨hCuts, hEnd⟩ := h.invariant
    (I := fun pre s p => Held number supplied (instances a pre) (viewParents a pre) s p)
    (fun hHeld hDue hRun => hHeld.step hDue hRun) pre hLinked hHeld
  refine ⟨?_, hCuts, hEnd⟩
  cases f with
  | none =>
    obtain ⟨s', -, hHeld'⟩ := hEnd rfl
    exact hHeld'.tallied.limited
  | some e =>
    obtain ⟨front, v, e', rfl, hRun, -⟩ := hLinked.last
    obtain ⟨s', hDue, hHeld'⟩ := hCuts front v [] rfl
    rw [← List.append_assoc]
    exact hHeld'.fails hDue hRun

/-- A build has come to nothing at the last attempt of a tour, and tells where. Nothing was done in
the attempt, but that a name may have been looked up. -/
def Visit.Stops (v : Visit) (post : List Visit) (fault : Fault)
    (result : Except Failure ObjectId × Progress) : Prop :=
  post = [] ∧ ∃ registries,
    result = (.error (.markup fault (some v.spot.path)), { v.before with registries })

namespace Builder

variable (b : Builder) (owner root : Option ObjectId) (origin : Origin) (w : World)

/-- A build stops at a visit that fails. -/
theorem outcome_stops {pre post : List Visit} {v : Visit} {fault : Fault} {p : Progress}
    {registries : Registries}
    (hLinked : Linked { b with owner } p (pre ++ v :: post)
      (failure? (({ b with owner } : Assembly).buildTree root origin { w with }).1)
      (({ b with owner } : Assembly).buildTree root origin { w with }).2)
    (hRun : v.run { b with owner } = (.error (.of fault), { v.before with registries })) :
    v.Stops post fault (b.outcome owner root origin w) := by
  obtain ⟨hLast, hFailure, hState⟩ := hLinked.stops hRun
  have hTree : ({ b with owner } : Assembly).buildTree root origin { w with } =
      (.error (.markup fault (some v.spot.path)), { v.before with registries }) := by
    generalize ({ b with owner } : Assembly).buildTree root origin { w with } = tree at *
    obtain ⟨answer, q⟩ := tree
    cases answer with
    | ok view => cases hFailure
    | error e =>
      cases hFailure
      exact Prod.ext rfl hState
  exact ⟨hLast, registries, run_bind_of_eq_error hTree⟩

/-- Objects that take no views are given none, those that take a single one at most one, and only
instances of the document are given any. A build stops where a view child is reached of an object
that takes none, or a second one of an object that takes a single one, whatever raw children and
instructions there were; it has not begun with that child. What was allowed is appended unless the
parent itself does not take it, as the objects under way then have different numbers. All other view
children are allowed, the first one of an object that takes a single view if no other object with
its number has been given any. -/
theorem outcome_appends (hRoot : ∀ r : Nat, root = some r → r < w.store.size) :
    let a : Assembly := { b with owner }
    let result := b.outcome owner root origin w
    ∃ visits, a.tourTree root origin ⟨{ w with }, []⟩ =
        ((a.buildTree root origin { w with }).1,
          ⟨(a.buildTree root origin { w with }).2, visits⟩) ∧
      (visits ≠ [] → ∃ loader, Linked a { w with loader } visits
        (failure? (a.buildTree root origin { w with }).1)
        (a.buildTree root origin { w with }).2) ∧
      result.2.Limited (instances a visits) ∧
      ∀ pre v post, visits = pre ++ v :: post →
        (∀ id, v.before.count id =
          (viewsUnder w.number (w.number id) v.before.journal).length) ∧
        (∀ parent caps, v.viewParent? a = some (parent, caps) →
          let name := Scene.typeName { classes := a.library.classes, store := v.before.store }
            (.object parent)
          (parent, caps) ∈ instances a pre ∧
          (caps.append = .none → v.Stops post (.element (.noChildren name)) result) ∧
          (caps.append = .single → parent ∈ viewParents a pre →
            v.Stops post (.child (.single name)) result) ∧
          (caps.append = .multi ∨ caps.append = .single ∧ parent ∉ viewParents a pre ∧
              CountedAlone w.number v.before.journal parent →
            a.checkAppend parent caps v.before = (.ok (), v.before))) ∧
        ∀ parent caps view, v.attempt = .append parent caps view →
          NumbersApart w.number root v.before.journal →
          a.checkAppend parent caps v.before = (.ok (), v.before) := by
  intro a result
  obtain ⟨loader, visits, hTour, hEnd⟩ := a.tourTree_builds root origin { w with }
  have hMoves (depth : Nat) (stack : List String) (e : Element) :
      Touring.Moves a (.staged root) (a.tourRoot depth stack e root) { entering := true }
        (Stage.Holds []) :=
    Assembly.tourRoot_moves depth stack e root [] fun _ hGiven => ⟨rfl, hGiven⟩
  obtain ⟨s?, hOrderly, -⟩ := Assembly.tourTree_orderly hMoves origin { w with }
  rw [hTour] at hOrderly
  have hStart : Held w.number root (instances a []) (viewParents a []) { entering := true }
      { w with loader } := .start loader hRoot
  have hJournal : result.2.journal = (a.buildTree root origin { w with }).2.journal :=
    b.outcome_journal_eq owner root origin w
  refine ⟨visits, hTour, ?_⟩
  rcases hEnd with hLinked | ⟨rfl, hState⟩
  · obtain ⟨hLimited, hCuts, -⟩ := hOrderly.held hLinked hStart
    refine ⟨fun _ => ⟨loader, hLinked⟩, hLimited.keeps fun id => by rw [hJournal], ?_⟩
    intro pre v post hCut
    obtain ⟨s, hDue, hHeld⟩ := hCuts pre v post hCut
    rw [hCut] at hLinked
    refine ⟨fun id => ?_, ?_, ?_⟩
    · rw [← hHeld.numbered]
      exact hHeld.tallied.counted id
    · intro parent caps hView name
      have hAt := Held.at_of_viewParent? hDue hView
      have hStops {fault : Fault} (h : a.refusal? v.before parent caps = some fault) :
          v.Stops post fault result := by
        obtain ⟨registries, hRun⟩ := Visit.refused hView h
        exact b.outcome_stops owner root origin w hLinked hRun
      have hParent : (parent, caps) ∈ instances a pre := by
        obtain ⟨outer, rfl⟩ := hAt
        exact hHeld.opened List.mem_cons_self
      refine ⟨hParent, ?_, ?_, ?_⟩
      · intro hNone
        apply hStops
        unfold Assembly.refusal?
        rw [hNone]
      · intro hSingle hAnother
        exact hStops (hHeld.refusal?_of_mem hAt hSingle hAnother)
      · intro hPolicy
        refine Assembly.checkAppend_eq_ok_iff.2 ⟨?_, rfl⟩
        rcases hPolicy with hMulti | ⟨hSingle, hFirst, hAlone⟩
        · unfold Assembly.refusal?
          rw [hMulti]
        · exact hHeld.refusal?_of_not_mem hAt hSingle hFirst hAlone
    · intro parent caps view hAppend hApart
      rw [hAppend] at hDue
      exact Assembly.checkAppend_eq_ok_iff.2 ⟨hHeld.append_permitted hApart hDue, rfl⟩
  · refine ⟨fun hSome => absurd rfl hSome, ?_, ?_⟩
    · rw [hState] at hJournal
      exact hStart.tallied.limited.keeps fun id => by rw [hJournal]
    · intro pre v post hCut
      simp at hCut

/-- The slot of the crowded document has a panel, which is not refused any more when it is appended.
The raw child after it does not count, but an include in front of another panel is one view child
too many. -/
theorem outcome_appends_crowded :
    let a : Assembly := { Sample.slots with owner := none }
    let visits := (a.tourTree none (.given Sample.crowded) ⟨{ Sample.slotWorld with }, []⟩).2.visits
    (∃ u ∈ visits, ∃ caps, u.attempt = .append 2 caps 3 ∧
      a.checkAppend 2 caps u.before = (.ok (), u.before)) ∧
    ∃ pre v, visits = pre ++ [v] ∧
      v.viewParent? a = some (2, Sample.slotCapabilities) ∧ 2 ∈ viewParents a pre ∧
      v.spot.path = "Slot/Panel[2]" ∧
      ∃ name, v.Stops [] (.child (.single name))
        (Sample.slots.outcome none none (.given Sample.crowded) Sample.slotWorld) := by
  intro a all
  obtain ⟨visits, hTour, -, -, hCuts⟩ := Sample.slots.outcome_appends none none
    (.given Sample.crowded) Sample.slotWorld (by simp)
  have hVisits : visits = all := by
    change visits = (a.tourTree none _ _).2.visits
    rw [hTour]
  have hAppended : ∃ u ∈ visits, ∃ caps, u.attempt = .append 2 caps 3 := by
    have hAny : visits.any (fun u => u.attempt matches .append 2 _ 3) = true := by
      rw [hVisits]
      decide +kernel
    obtain ⟨u, hu, hAttempt⟩ := List.any_eq_true.1 hAny
    split at hAttempt
    · next caps hEq => exact ⟨u, hu, caps, hEq⟩
    · cases hAttempt
  have hLast : (visits.getLast?.map fun v => (v.viewParent? a, v.spot.path)) =
      some (some (2, Sample.slotCapabilities), "Slot/Panel[2]") := by
    rw [hVisits]
    decide +kernel
  have hParents : viewParents a visits = [2, 2] := by
    rw [hVisits]
    decide +kernel
  obtain ⟨v, hv, hView⟩ := Option.map_eq_some_iff.1 hLast
  obtain ⟨hView, hPath⟩ := Prod.mk.inj hView
  obtain ⟨pre, hCut⟩ := List.getLast?_eq_some_iff.1 hv
  have hAnother : 2 ∈ viewParents a pre := by
    rw [hCut, viewParents_of_eq_some hView] at hParents
    have hTwo : viewParents a pre ++ [2] = [2] ++ [2] := hParents
    rw [List.append_cancel_right hTwo]
    exact List.mem_singleton_self 2
  obtain ⟨-, hReached, -⟩ := hCuts pre v [] hCut
  obtain ⟨-, -, hStops, -⟩ := hReached 2 Sample.slotCapabilities hView
  obtain ⟨u, hu, caps, hAppend⟩ := hAppended
  obtain ⟨front, back, hSplit⟩ := List.append_of_mem hu
  obtain ⟨-, -, hTaken⟩ := hCuts front u back hSplit
  refine ⟨⟨u, hVisits ▸ hu, caps, hAppend, ?_⟩, pre, v, hVisits ▸ hCut, hView, hAnother, hPath, _,
    hStops rfl hAnother⟩
  exact hTaken 2 caps 3 hAppend (.of_injective Function.injective_id _ _)

end Builder
end ViewMarkup
