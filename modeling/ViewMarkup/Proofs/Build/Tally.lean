import ViewMarkup.Proofs.Build.Framed
import ViewMarkup.Proofs.Build.Tour

/-!
# The tally of views

A build counts the views that it has given under each identity number. Only appending a view changes
the count. What it says of an object are the views that the journal says were given to this object
and to any others with its number.

## Main results

* `Assembly.checkAppend_eq` — when an object refuses another view, and how.
* `Attempt.keeps` — no attempt but that to append a view changes the count.
* `Assembly.append_counted`, `Assembly.append_journal` — a view that is appended is counted.
* `Attempt.counted`, `Linked.counted` — the count is that of the views given, all along a tour.
* `viewsTo_length_le`, `viewsAmong_eq_nil_iff` — the views of an object are among those that its
  number is counted with; there are none of these if no object with the number was given any.
-/

namespace ViewMarkup

/-! ## Actions that do not count -/

/-- An action that changes nothing about how many views objects have been given. -/
def Uncounted {α : Type} (x : Building α) : Prop := ∀ p : Progress, (x p).2.tally = p.tally

namespace Uncounted

variable {α β : Type} {x : Building α} {f : α → Building β}

theorem ofPure {r : α} : Uncounted (pure r : Building α) := fun _ => rfl

theorem ofThrow {failure : Failure} : Uncounted (throw failure : Building α) := fun _ => rfl

theorem ofGet : Uncounted (get : Building Progress) := fun _ => rfl

theorem ofModify {g : Progress → Progress} (h : ∀ p, (g p).tally = p.tally) :
    Uncounted (modify g : Building Unit) := h

theorem bind (hx : Uncounted x) (hf : ∀ r, Uncounted (f r)) : Uncounted (x >>= f) := by
  intro p
  have hFirst := hx p
  rw [run_bind]
  generalize x p = run at hFirst
  obtain ⟨answer, p'⟩ := run
  cases answer with
  | error failure => exact hFirst
  | ok r => exact (hf r p').trans hFirst

theorem ofExcept {y : Except Failure α} : Uncounted (Building.ofExcept y) := by
  cases y with
  | ok r => exact ofPure
  | error failure => exact ofThrow

theorem registering {act : Registering α} : Uncounted (Building.registering act) := fun _ => rfl

private theorem loading {act : Loading α} : Uncounted (Building.loading act) := fun _ => rfl

private theorem fetching {act : Fetching α} : Uncounted (Building.fetching act) := by
  intro p
  unfold Building.fetching
  split <;> rfl

private theorem acting {a : Assembly} {act : Acting α} : Uncounted (a.acting act) := fun _ => rfl

theorem ite {c : Prop} [Decidable c] {y : Building α} (hx : Uncounted x) (hy : Uncounted y) :
    Uncounted (if c then x else y) := by
  split
  · exact hx
  · exact hy

/-- A check in front of an action. -/
theorem check {c : Prop} [Decidable c] {failure : Failure} (hx : Uncounted x) :
    Uncounted (if c then (do throw failure; x) else x) :=
  ite (ofThrow.bind fun _ => hx) hx

theorem ofCatch {handle : Failure → Building α} (hx : Uncounted x)
    (hHandle : ∀ failure, Uncounted (handle failure)) : Uncounted (tryCatch x handle) := by
  intro p
  have hFirst := hx p
  rw [run_tryCatch]
  generalize x p = run at hFirst
  obtain ⟨answer, p'⟩ := run
  cases answer with
  | ok r => exact hFirst
  | error failure => exact (hHandle failure p').trans hFirst

theorem forM {ι : Type} {g : ι → Building Unit} (h : ∀ i, Uncounted (g i)) (is : List ι) :
    Uncounted (is.forM g) := by
  induction is with
  | nil => exact ofPure
  | cons i is ih => exact (h i).bind fun _ => ih

theorem foldlM {ι : Type} {g : β → ι → Building β} (h : ∀ r i, Uncounted (g r i)) (is : List ι)
    (r : β) : Uncounted (is.foldlM g r) := by
  induction is generalizing r with
  | nil => exact ofPure
  | cons i is ih => exact (h r i).bind fun s => ih s

end Uncounted

namespace Assembly

variable {a : Assembly} {id parent : ObjectId} {caps : Capabilities}

theorem scene_uncounted : Uncounted a.scene := Uncounted.ofGet.bind fun _ => .ofPure

theorem typeName_uncounted : Uncounted (a.typeName id) := scene_uncounted.bind fun _ => .ofPure

theorem tell_uncounted (call : Call) : Uncounted (a.tell id call) :=
  Uncounted.bind (.ofModify fun _ => rfl) fun _ => .acting

theorem deliver_uncounted (i : Instruction) : Uncounted (a.deliver id caps i) := by
  unfold deliver
  dsimp only
  split
  · refine (tell_uncounted _).ofCatch fun failure => ?_
    split
    · exact .ite .ofPure .ofThrow
    · exact .ofThrow
  · exact .ite .ofPure (typeName_uncounted.bind fun _ => .ofThrow)

private theorem assignProperty_uncounted (entry : String × String) :
    Uncounted (a.assignProperty id entry) :=
  scene_uncounted.bind fun _ => Uncounted.bind (.ofModify fun _ => rfl) fun _ =>
    Uncounted.fetching.bind fun _ => .ofModify fun _ => rfl

private theorem takeAttribute_uncounted (rs : Requests) (entry : String × String) :
    Uncounted (a.takeAttribute id rs entry) :=
  .ite .ofPure (.ite .ofPure ((assignProperty_uncounted entry).bind fun _ => .ofPure))

private theorem addOutlet_uncounted (name : String) : Uncounted (a.addOutlet id name) := by
  unfold addOutlet
  split
  · exact .ofPure
  · refine scene_uncounted.bind fun _ => Uncounted.ofExcept.bind fun _ => ?_
    exact .ite (.ofModify fun _ => rfl) (typeName_uncounted.bind fun _ => .ofThrow)

private theorem addLink_uncounted (viewPath ownerPath : String) :
    Uncounted (a.addLink id viewPath ownerPath) := by
  unfold addLink
  split
  · exact .ofThrow
  · refine scene_uncounted.bind fun _ => Uncounted.ofExcept.bind fun _ =>
      Uncounted.ofExcept.bind fun _ => ?_
    split
    · exact typeName_uncounted.bind fun _ => .ofThrow
    · exact .ofModify fun _ => rfl

private theorem takeAttributes_uncounted (attributes : Table String String) :
    Uncounted (a.takeAttributes id attributes) := by
  refine .bind (.foldlM takeAttribute_uncounted attributes {}) fun rs => ?_
  have hLinks : Uncounted (rs.binds.forM fun bind => a.addLink id bind.1 bind.2) :=
    .forM (fun bind => addLink_uncounted bind.1 bind.2) rs.binds
  split
  · exact .ite ((addOutlet_uncounted _).bind fun _ => hLinks) hLinks
  · exact hLinks

private theorem takeText_uncounted (name text : String) :
    Uncounted (a.takeText id caps name text) :=
  .ite .ofPure (.check (tell_uncounted _))

private theorem deliverRaw_uncounted (e : Element) : Uncounted (a.deliverRaw parent e) :=
  .check (.check (.check (tell_uncounted _)))

theorem instantiate_uncounted (c : Component) : Uncounted (a.instantiate c) :=
  Uncounted.ofGet.bind fun _ => Uncounted.ofExcept.bind fun _ =>
    Uncounted.bind (.ofModify fun _ => rfl) fun _ =>
      Uncounted.bind (.ofModify fun _ => rfl) fun _ => .ofPure

theorem componentOf_uncounted (e : Element) : Uncounted (a.componentOf caps e) := by
  rw [componentOf_eq]
  exact .registering

private theorem rootInstance_uncounted (e : Element) (root : Option ObjectId) :
    Uncounted (a.rootInstance e root) := by
  refine .ite ?_ (Uncounted.registering.bind fun c? => ?_)
  · cases root with
    | none => exact .ofThrow
    | some id =>
      refine Uncounted.ofGet.bind fun p => ?_
      split
      · exact Uncounted.ofExcept.bind fun _ => .ofPure
      · exact .ofPure
  · cases c? with
    | none => exact .ofThrow
    | some c =>
      cases root with
      | none => exact (instantiate_uncounted c).bind fun _ => .ofPure
      | some id =>
        exact Uncounted.ofGet.bind fun p =>
          .ite .ofPure (typeName_uncounted.bind fun _ => .ofThrow)

private theorem startRoot_uncounted (e : Element) (root : Option ObjectId) :
    Uncounted (a.startRoot e root) :=
  (rootInstance_uncounted e root).bind fun _ => .check .ofPure

end Assembly

/-! ## Refusing a view -/

namespace Assembly

variable {a : Assembly} {id parent : ObjectId} {caps : Capabilities}

/-- Why an object takes no other view, if it does not. -/
def refusal? (a : Assembly) (p : Progress) (parent : ObjectId) (caps : Capabilities) :
    Option Fault :=
  let name := Scene.typeName { classes := a.library.classes, store := p.store } (.object parent)
  match caps.append with
  | .none => some (.element (.noChildren name))
  | .single => if 1 ≤ p.count parent then some (.child (.single name)) else none
  | .multi => none

/-- An object that takes no other view refuses it, and nothing changes. -/
theorem checkAppend_eq (p : Progress) : a.checkAppend parent caps p =
    match a.refusal? p parent caps with
    | some fault => (.error (.of fault), p)
    | none => (.ok (), p) := by
  unfold checkAppend refusal?
  cases caps.append with
  | none => rfl
  | multi => rfl
  | single =>
    dsimp only
    rw [run_bind, run_get]
    by_cases hCount : 1 ≤ p.count parent
    · rw [if_pos hCount]
      exact congrFun (if_pos hCount) p
    · rw [if_neg hCount]
      exact congrFun (if_neg hCount) p

theorem checkAppend_eq_ok_iff {p q : Progress} :
    a.checkAppend parent caps p = (.ok (), q) ↔ a.refusal? p parent caps = none ∧ q = p := by
  rw [checkAppend_eq]
  constructor
  · intro h
    cases hRefusal : a.refusal? p parent caps with
    | none =>
      rw [hRefusal] at h
      cases h
      exact ⟨rfl, rfl⟩
    | some fault =>
      rw [hRefusal] at h
      cases h
  · rintro ⟨hRefusal, rfl⟩
    rw [hRefusal]

theorem checkAppend_uncounted : Uncounted (a.checkAppend parent caps) := by
  intro p
  rw [checkAppend_eq]
  split <;> rfl

private theorem start_uncounted (e : Element) (leading : List Instruction) :
    Uncounted (a.start parent caps e leading) := by
  refine (componentOf_uncounted e).bind fun c? => ?_
  cases c? with
  | some c =>
    exact checkAppend_uncounted.bind fun _ => (instantiate_uncounted c).bind fun _ => .ofPure
  | none =>
    exact .check (.bind (.forM deliver_uncounted leading) fun _ =>
      (deliverRaw_uncounted e).bind fun _ => .ofPure)

private theorem findIncluded_uncounted (stack : List String) (name : String) :
    Uncounted (a.findIncluded stack parent caps name) :=
  .check (.check (checkAppend_uncounted.bind fun _ => .loading))

/-- A view that is not refused is told to its parent, and then it is counted. -/
theorem append_eq_ok_iff {view : ObjectId} {p q : Progress} :
    a.append parent caps view p = (.ok (), q) ↔ a.refusal? p parent caps = none ∧
      ∃ p', a.tell parent (.append view) p = (.ok (), p') ∧
        q = { p' with appended := p'.appended.put (p'.number parent) (p'.count parent + 1) } := by
  constructor
  · intro h
    obtain ⟨_, p₁, hCheck, hRest⟩ := exists_of_run_bind_eq_ok h
    obtain ⟨hTaken, rfl⟩ := checkAppend_eq_ok_iff.1 hCheck
    obtain ⟨_, p', hTell, hEnd⟩ := exists_of_run_bind_eq_ok hRest
    cases hEnd
    exact ⟨hTaken, p', hTell, rfl⟩
  · rintro ⟨hTaken, p', hTell, rfl⟩
    unfold append
    rw [run_bind_of_eq_ok (checkAppend_eq_ok_iff.2 ⟨hTaken, rfl⟩), run_bind_of_eq_ok hTell]
    rfl

/-- A view that is appended was not refused, and it is counted under the number of its parent. -/
theorem append_counted {view : ObjectId} {p q : Progress}
    (h : a.append parent caps view p = (.ok (), q)) :
    a.refusal? p parent caps = none ∧ q.number = p.number ∧
      ∀ id, q.count id = p.count id + if p.number id = p.number parent then 1 else 0 := by
  obtain ⟨hTaken, p', hTell, rfl⟩ := append_eq_ok_iff.1 h
  have hSame : p'.tally = p.tally := by
    have hTold : (a.tell parent (.append view) p).2.tally = p.tally := tell_uncounted _ p
    rwa [hTell] at hTold
  obtain ⟨hAppended, hNumber⟩ := Prod.mk.inj hSame
  refine ⟨hTaken, hNumber, fun id => ?_⟩
  unfold Progress.count
  dsimp only
  rw [hAppended, hNumber]
  by_cases hId : p.number id = p.number parent
  · rw [if_pos hId, hId, Table.get?_put_self]
    rfl
  · rw [if_neg hId, Table.get?_put_ne _ hId, Nat.add_zero]

end Assembly

/-! ## The journal -/

/-- The views that objects of some kind are given in some steps, in order. -/
def viewsAmong (kind : ObjectId → Bool) (log : List Step) : List ObjectId :=
  log.filterMap fun
    | .told id (.append view) => if kind id then some view else none
    | _ => none

/-- The views that an object is given. -/
abbrev viewsTo (id : ObjectId) : List Step → List ObjectId := viewsAmong (· = id)

/-- The views that are given to objects with an identity number. -/
abbrev viewsUnder (number : ObjectId → Identity) (n : Identity) : List Step → List ObjectId :=
  viewsAmong (number · = n)

section

variable {kind kind' : ObjectId → Bool} {log : List Step}

theorem viewsAmong_append (kind : ObjectId → Bool) (log log' : List Step) :
    viewsAmong kind (log ++ log') = viewsAmong kind log ++ viewsAmong kind log' := by
  simp [viewsAmong]

theorem viewsAmong_eq_nil (h : ∀ s ∈ log, ∀ id view, s ≠ .told id (.append view)) :
    viewsAmong kind log = [] := by
  unfold viewsAmong
  rw [List.filterMap_eq_nil_iff]
  intro s hs
  split
  · next id view => exact absurd rfl (h _ hs id view)
  · rfl

theorem viewsAmong_told (kind : ObjectId → Bool) (parent view : ObjectId) (log : List Step) :
    (viewsAmong kind (log ++ [.told parent (.append view)])).length =
      (viewsAmong kind log).length + if kind parent then 1 else 0 := by
  rw [viewsAmong_append, List.length_append]
  cases h : kind parent <;> simp [viewsAmong, h]

/-- A kind with more objects is given more views. -/
theorem viewsAmong_length_le (h : ∀ id, kind id → kind' id) (log : List Step) :
    (viewsAmong kind log).length ≤ (viewsAmong kind' log).length := by
  induction log with
  | nil => exact Nat.le_refl _
  | cons s log ih =>
    have hFirst : (viewsAmong kind [s]).length ≤ (viewsAmong kind' [s]).length := by
      by_cases hs : ∃ id view, s = .told id (.append view)
      · obtain ⟨id, view, rfl⟩ := hs
        by_cases hId : kind id
        · simp [viewsAmong, hId, h id hId]
        · simp [viewsAmong, hId]
      · rw [viewsAmong_eq_nil fun other hOther id view hTold => hs ⟨id, view, ?_⟩]
        · exact Nat.zero_le _
        · rw [← hTold, List.mem_singleton.1 hOther]
    have hCons (kind : ObjectId → Bool) :
        viewsAmong kind (s :: log) = viewsAmong kind [s] ++ viewsAmong kind log :=
      viewsAmong_append kind [s] log
    rw [hCons, hCons, List.length_append, List.length_append]
    exact Nat.add_le_add hFirst ih

theorem viewsTo_length_le (number : ObjectId → Identity) (id : ObjectId) (log : List Step) :
    (viewsTo id log).length ≤ (viewsUnder number (number id) log).length := by
  refine viewsAmong_length_le (fun other hOther => ?_) log
  rw [of_decide_eq_true hOther]
  exact decide_eq_true rfl

/-- No views are given to objects of some kind just if none is given to any of them. -/
theorem viewsAmong_eq_nil_iff :
    viewsAmong kind log = [] ↔ ∀ id, kind id → viewsTo id log = [] := by
  constructor
  · intro hNone id hId
    have hLe : (viewsTo id log).length ≤ (viewsAmong kind log).length :=
      viewsAmong_length_le (fun other hOther => of_decide_eq_true hOther ▸ hId) log
    rw [hNone] at hLe
    exact List.length_eq_zero_iff.1 (Nat.le_zero.1 hLe)
  · intro hNone
    unfold viewsAmong
    rw [List.filterMap_eq_nil_iff]
    intro s hs
    split
    · next id view =>
      refine if_neg fun hKind => ?_
      have hView := List.filterMap_eq_nil_iff.1 (hNone id hKind) _ hs
      simp at hView
    · rfl

end

private theorem Step.IsOwn.ne_append {s : Step} {id other view : ObjectId} (h : s.IsOwn id) :
    s ≠ .told other (.append view) := by
  rintro rfl
  exact h.elim

/-- What a part of a build leaves alone that appends no view: the count, and the views that the
journal says objects were given. No object and no step is taken away. -/
structure Progress.Keeps (p q : Progress) : Prop where
  size : p.store.size ≤ q.store.size
  tally : q.tally = p.tally
  journal : p.journal <+: q.journal
  views : ∀ kind, viewsAmong kind q.journal = viewsAmong kind p.journal

theorem Progress.Keeps.viewsTo {p q : Progress} (h : p.Keeps q) (id : ObjectId) :
    viewsTo id q.journal = viewsTo id p.journal :=
  h.views _

/-- Some steps may have been taken, none of which gives a view to an object. -/
def Progress.Spares (fs : Files) (p q : Progress) : Prop :=
  ∃ log, p.Extends fs (fun _ => True) q log ∧ ∀ s ∈ log, ∀ id view, s ≠ .told id (.append view)

private theorem Progress.Extends.spares {fs : Files} {p q : Progress}
    (h : p.Extends fs (fun _ => True) q []) : p.Spares fs q :=
  ⟨[], h, by simp⟩

private theorem Progress.Extends.spares_made {fs : Files} {p q : Progress} {view : ObjectId}
    (h : p.Extends fs (fun _ => True) q [.made view]) : p.Spares fs q := by
  refine ⟨_, h, fun s hs id other hEq => ?_⟩
  rw [List.mem_singleton.1 hs] at hEq
  cases hEq

theorem Progress.Touches.spares {fs : Files} {p q : Progress} {id : ObjectId}
    (h : p.Touches fs (fun _ => True) id q) : p.Spares fs q := by
  obtain ⟨log, hExt, hOwn⟩ := h
  exact ⟨log, hExt, fun s hs other view => (hOwn s hs).ne_append⟩

theorem Progress.Spares.keeps {fs : Files} {p q : Progress} (h : p.Spares fs q)
    (hTally : q.tally = p.tally) : p.Keeps q := by
  obtain ⟨log, hExt, hSteps⟩ := h
  constructor
  · exact hExt.ascending.le
  · exact hTally
  · exact ⟨log, hExt.journal.symm⟩
  · intro kind
    rw [hExt.journal, viewsAmong_append, viewsAmong_eq_nil hSteps, List.append_nil]

private theorem Attending.keeps {α : Type} {fs : Files} {id : ObjectId} {calls : List Call}
    {x : Building α} (h : Attending fs (fun _ => True) id calls x) (hx : Uncounted x)
    (p : Progress) : p.Keeps (x p).2 := by
  have hTouches : p.Touches fs (fun _ => True) id (x p).2 := by
    refine Yields.state (R := p.Touches fs (fun _ => True) id)
      ((h p p.store.closed_univ).mono (fun _ q hq => hq.touches) ?_)
    rintro q ⟨told, hq⟩
    exact hq.touches
  exact hTouches.spares.keeps (hx p)

/-- No attempt but that to append a view gives one to an object. -/
theorem Attempt.keeps (a : Assembly) (spot : Place) {t : Attempt}
    (h : ∀ parent caps view, t ≠ .append parent caps view) (p : Progress) :
    p.Keeps (t.act a spot p).2 := by
  have hcs := a.library.classes.covered_univ
  cases t with
  | root given =>
    have hSpares : p.Spares a.files (a.startRoot spot.element given p).2 := by
      refine Yields.state (R := p.Spares a.files)
        ((Assembly.startRoot_yields hcs p.ready_univ spot.element given).mono ?_ ?_)
      · rintro made q ⟨hStarted, -⟩
        cases given with
        | none => exact hStarted.of_none.spares_made
        | some r => exact hStarted.of_some.2.spares
      · rintro q (hExt | ⟨-, view, hExt⟩)
        · exact hExt.spares
        · exact hExt.spares_made
    exact hSpares.keeps (Assembly.startRoot_uncounted _ _ p)
  | deliver id caps i =>
    exact (Assembly.deliver_attending hcs trivial caps i).keeps (Assembly.deliver_uncounted i) p
  | attributes id =>
    exact (Assembly.takeAttributes_attending hcs trivial _).keeps
      (Assembly.takeAttributes_uncounted _) p
  | text id caps =>
    exact (Assembly.takeText_attending hcs trivial _ _).keeps (Assembly.takeText_uncounted _ _) p
  | child parent caps =>
    have hSpares : p.Spares a.files
        (a.start parent caps spot.element (delivered spot.element.leading) p).2 := by
      refine Yields.state (R := p.Spares a.files)
        ((Assembly.start_yields hcs p.ready_univ trivial spot.element _).mono ?_ ?_)
      · intro made q hStarted
        cases hStarted with
        | made _ hExt => exact hExt.spares_made
        | raw _ hExt hOwn _ => exact Progress.Touches.spares ⟨_, hExt, hOwn⟩
      · exact fun q hTouches => hTouches.spares
    exact hSpares.keeps (Assembly.start_uncounted _ _ p)
  | find parent caps name =>
    have hSpares : p.Spares a.files (a.findIncluded spot.stack parent caps name p).2 :=
      Yields.state (R := p.Spares a.files)
        ((Assembly.findIncluded_yields (fun _ => True) spot.stack name).mono
          (fun _ _ hExt => hExt.1.spares) fun _ hExt => hExt.spares)
    exact hSpares.keeps (Assembly.findIncluded_uncounted _ _ p)
  | append parent caps view => exact absurd rfl (h parent caps view)

/-- What the journal says after an attempt to append a view: nothing new if the view is refused, and
else that it was given, whatever came of it. -/
theorem Assembly.append_journal (a : Assembly) (parent : ObjectId) (caps : Capabilities)
    (view : ObjectId) (p : Progress) :
    (a.append parent caps view p).2.journal = p.journal ∨
      a.refusal? p parent caps = none ∧
        (a.append parent caps view p).2.journal = p.journal ++ [.told parent (.append view)] := by
  unfold append
  rw [run_bind, checkAppend_eq]
  cases hRefusal : a.refusal? p parent caps with
  | some fault => exact .inl rfl
  | none =>
    have hTold : (a.tell parent (.append view) p).2.journal =
        p.journal ++ [.told parent (.append view)] := rfl
    refine .inr ⟨rfl, ?_⟩
    dsimp only
    rw [run_bind]
    generalize a.tell parent (.append view) p = told at hTold
    obtain ⟨answer, q⟩ := told
    cases answer with
    | error e => exact hTold
    | ok _ => exact hTold

/-! ## What is counted -/

/-- What is counted for an object are the views that were given under its number. -/
def Progress.Counted (p : Progress) : Prop :=
  ∀ id, p.count id = (viewsUnder p.number (p.number id) p.journal).length

namespace Progress.Counted

variable {p q : Progress}

theorem keeps (h : p.Counted) (hKeeps : p.Keeps q) : q.Counted := by
  intro id
  have hNumber : q.number = p.number := congrArg Prod.snd hKeeps.tally
  rw [Progress.count_eq hKeeps.tally, hNumber, viewsUnder, hKeeps.views, h]

theorem append {a : Assembly} {parent view : ObjectId} {caps : Capabilities} (h : p.Counted)
    (hRun : a.append parent caps view p = (.ok (), q)) : q.Counted := by
  obtain ⟨-, hNumber, hCount⟩ := Assembly.append_counted hRun
  have hExt : p.Extends a.files (fun _ => True) q [.told parent (.append view)] :=
    ((Assembly.append_yields a.library.classes.covered_univ p.ready_univ trivial trivial).ok hRun).1
  intro id
  rw [hCount, hExt.journal, hNumber, viewsUnder, viewsAmong_told, h]
  simp only [decide_eq_true_eq, eq_comm (a := p.number parent)]

/-- At least the views that an object was given are counted. -/
theorem viewsTo_le (h : p.Counted) (id : ObjectId) :
    (viewsTo id p.journal).length ≤ p.count id := by
  rw [h]
  exact viewsTo_length_le p.number id p.journal

end Progress.Counted

/-- An attempt that does not fail keeps the count. -/
theorem Attempt.counted {a : Assembly} {spot : Place} {t : Attempt} {answer : t.Answer}
    {p q : Progress} (h : p.Counted) (hRun : t.act a spot p = (.ok answer, q)) : q.Counted := by
  by_cases hAppend : ∃ parent caps view, t = .append parent caps view
  · obtain ⟨parent, caps, view, rfl⟩ := hAppend
    exact h.append hRun
  · have hKeeps := t.keeps a spot (fun parent caps view hEq => hAppend ⟨parent, caps, view, hEq⟩) p
    rw [hRun] at hKeeps
    exact h.keeps hKeeps

/-- Attempts leave the numbers alone. -/
theorem Attempt.number_eq {a : Assembly} {spot : Place} {t : Attempt} {answer : t.Answer}
    {p q : Progress} (hRun : t.act a spot p = (.ok answer, q)) : q.number = p.number := by
  by_cases hAppend : ∃ parent caps view, t = .append parent caps view
  · obtain ⟨parent, caps, view, rfl⟩ := hAppend
    exact (Assembly.append_counted hRun).2.1
  · have hKeeps := t.keeps a spot (fun parent caps view hEq => hAppend ⟨parent, caps, view, hEq⟩) p
    rw [hRun] at hKeeps
    exact congrArg Prod.snd hKeeps.tally

end ViewMarkup
