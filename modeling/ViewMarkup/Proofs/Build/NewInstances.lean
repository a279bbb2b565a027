import ViewMarkup.Proofs.Build.Moves
import ViewMarkup.Proofs.Object.Fresh
import ViewMarkup.Proofs.Object.Ways
import ViewMarkup.Proofs.View.Puts

/-!
# Properties are assigned for the newest instance

Between the moment when an instance is made and the one when its properties are assigned it is told
instructions at most, which give it nothing to refer to. So then there is no newer instance, and it
refers only to what was made with it and to what was there before the build. What dotted names lead
to from it is as new as itself, or they lead through something old.

## Main results

* `Assembly.Settled.visit`, `Assembly.Settled.next` — what attempts keep, however they end, and if
  they do not fail.
* `Builder.outcome_settled` — properties are assigned for the newest instance all along a build, and
  their ways are as said.
-/

namespace ViewMarkup

/-- The properties of an instance are assigned in a step whose way starts at the instance, and goes
through an old object or stays among what is as new as the instance. -/
def Step.Secluded (old : Nat) : Step → Prop
  | .assigned id _ way => id ∈ way ∧ ((∃ y ∈ way, y < old) ∨ ∀ y ∈ way, id ≤ y)
  | _ => True

/-- Properties are assigned for old objects or for the instance that was made last. -/
def ForNewest (old : Nat) (log : List Step) : Prop :=
  ∀ pre id name way post, log = pre ++ .assigned id name way :: post →
    id < old ∨ ∀ z ∈ madeIn pre, z ≤ id

theorem ForNewest.append {old : Nat} {log log' : List Step} (h : ForNewest old log)
    (hMore : ∀ id name way, .assigned id name way ∈ log' →
      id < old ∨ ∀ z ∈ madeIn (log ++ log'), z ≤ id) : ForNewest old (log ++ log') := by
  intro pre id name way post hCut
  rcases cut_append hCut with ⟨rest, rfl, -⟩ | ⟨front, rfl, rfl⟩
  · exact h pre id name way rest rfl
  · refine (hMore id name way (by simp)).imp_right fun hNew z hz => hNew z ?_
    simp only [madeIn_append, List.mem_append] at hz ⊢
    exact hz.imp_right .inl

theorem madeIn_eq_nil_of_isOwn {id : ObjectId} {log : List Step} (h : ∀ s ∈ log, s.IsOwn id) :
    madeIn log = [] := by
  refine List.filterMap_eq_nil_iff.2 fun s hs => ?_
  have hOwn := h s hs
  cases s with
  | made _ => exact hOwn.elim
  | assigned _ _ _ | told _ _ => rfl

/-! ## What is shared -/

private theorem Store.Shares.assign {s : Store} {U : Region} {v : Value} (h : s.Shares U)
    (cell : Cell) (hv : v.objects = []) : (s.assign cell v).Shares U := by
  cases cell with
  | field id attr => exact h
  | borne b attr =>
    intro b' attr' x hName hBorne
    rcases Store.borne?_bear_cases hBorne with rfl | hOld
    · exact Region.covers_of_objects_nil hv
    · exact h b' attr' x hName hOld

/-- Nothing is put under the names that are looked up. -/
theorem Scene.Puts.shares {id : ObjectId} {call : Call} {sc sc' : Scene} {U : Region}
    (h : sc.Puts id call sc') (hShares : sc.store.Shares U) : sc'.store.Shares U := by
  cases h with
  | own attr v _ | listed x attr items v _ _ _ => exact hShares
  | given cell v hCell _ =>
    intro b attr x hName hBorne
    have hNe : .borne b attr ≠ cell := by
      rintro rfl
      have hApart : ∀ name ∈ lookedUpNames, name ∉ Scene.putNames := by decide
      exact hApart attr hName hCell
    have hSame : (sc.store.assign cell v).valueAt? (.borne b attr) = some x := hBorne
    rw [Store.valueAt?_assign_ne hNe] at hSame
    exact hShares b attr x hName hSame

/-! ## The discipline -/

/-- Properties are only assigned of the instance that has been made last, and only the root that was
supplied is a given one. -/
def Attempt.IsForNewest (supplied new : Option ObjectId) : Attempt → Prop
  | root given => ∀ r, given = some r → supplied = some r
  | attributes id => new = some id
  | _ => True

/-- The instance whose properties may be assigned after an attempt: one that has just been started,
and has got nothing but instructions and properties. -/
def Attempt.newest (new : Option ObjectId) : (t : Attempt) → t.Answer → Option ObjectId
  | root _, made => some made.1
  | child _ _, made? => made?.map (·.1)
  | deliver id _ _, _ => new.filter (· = id)
  | attributes _, _ => new
  | _, _ => none

/-- Attributes are assigned right behind the instructions at the beginning of an element. -/
def Discipline.newest (supplied : Option ObjectId) : Discipline (Option ObjectId) where
  Due new v := v.attempt.IsForNewest supplied new
  next new v := v.attempt.newest new

namespace Assembly

variable {a : Assembly} {supplied new : Option ObjectId} {old : Nat} {p q : Progress}
  {parent id : ObjectId} {caps : Capabilities}

section Tour

variable {tour : List String → Element → Touring ObjectId} (hTour : ∀ stack e new,
  Touring.Moves a (.newest supplied) (tour stack e) new fun _ _ => True)

include hTour

theorem tourInclude_newest (spot : Place) (data : String) (new : Option ObjectId) :
    Touring.Moves a (.newest supplied) (a.tourInclude tour spot parent caps data) new
      fun _ _ => True := by
  unfold tourInclude
  refine (Touring.Moves.visit fun _ => trivial).bind fun d s _ => ?_
  refine (hTour _ d.root s).bind fun view s' _ => ?_
  exact (Touring.Moves.visit fun _ => trivial).mono fun _ _ _ => trivial

private theorem tourChild_newest (spot : Place) {work : ObjectId → Capabilities → Touring Unit}
    (hWork : ∀ id own, Touring.Moves a (.newest supplied) (work id own) (some id)
      fun _ _ => True) (new : Option ObjectId) :
    Touring.Moves a (.newest supplied) (a.tourChild tour spot parent caps work) new
      fun _ _ => True := by
  unfold tourChild
  have hIncludes : Touring.Moves a (.newest supplied) ((includes spot.element.leading).forM fun i =>
      a.tourInclude tour spot parent caps i.data) new fun _ _ => True :=
    .forM (fun i _ s _ => tourInclude_newest hTour spot i.data s) trivial
  refine hIncludes.bind fun _ s _ => ?_
  refine (Touring.Moves.visit fun _ => trivial).bind fun made? s' hNext => ?_
  obtain ⟨_, _, -, rfl⟩ := hNext
  cases made? with
  | none => exact .ofPure trivial
  | some made =>
    refine (hWork made.1 made.2).bind fun _ s'' _ => ?_
    exact (Touring.Moves.visit fun _ => trivial).mono fun _ _ _ => trivial

mutual

/-- The properties of an element are assigned for its instance when that has just been made. -/
theorem tourElement_newest (stack : List String) (root : Element) :
    ∀ (e : Element) (id : ObjectId) (caps : Capabilities) (path : String)
      (leading : List Instruction),
    Touring.Moves a (.newest supplied) (a.tourElement tour stack root e id caps path leading)
      (some id) fun _ _ => True
  | .mk name attributes children before trailing text, id, caps, path, leading => by
    have hDeliver (spot : Place) (i : Instruction) (s : Option ObjectId) :
        Touring.Moves a (.newest supplied) (a.visit spot (.deliver id caps i)) s
          fun _ s' => s' = s.filter (· = id) :=
      (Touring.Moves.visit fun _ => trivial).mono fun _ _ hNext => by
        obtain ⟨_, _, -, rfl⟩ := hNext
        rfl
    unfold tourElement
    refine (Touring.Moves.forM (I := (· = some id)) (fun i _ s hs => ?_) rfl).bind
      fun _ s hs => ?_
    · refine (hDeliver _ i s).mono fun _ s' hs' => ?_
      rw [hs', hs]
      simp
    · rw [hs]
      refine (Touring.Moves.visit fun _ => rfl).bind fun _ s _ => ?_
      refine (Touring.Moves.visit fun _ => trivial).bind fun _ s _ => ?_
      refine (tourChildren_newest stack root children id caps path 0 s).bind fun _ s _ => ?_
      refine Touring.Moves.forM (fun i _ s _ => ?_) trivial
      split
      · exact tourInclude_newest hTour _ i.data s
      · exact (hDeliver _ i s).mono fun _ _ _ => trivial

theorem tourChildren_newest (stack : List String) (root : Element) :
    ∀ (es : List Element) (parent : ObjectId) (caps : Capabilities) (path : String) (index : Nat)
      (new : Option ObjectId),
    Touring.Moves a (.newest supplied) (a.tourChildren tour stack root es parent caps path index)
      new fun _ _ => True
  | [], _, _, _, _, _ => by
    unfold tourChildren
    exact .ofPure trivial
  | e :: es, parent, caps, path, index, new => by
    unfold tourChildren
    refine (tourChild_newest hTour _ (fun id own => ?_) new).bind fun _ s _ => ?_
    · exact tourElement_newest stack root e id own _ (delivered e.leading)
    · exact tourChildren_newest stack root es parent caps path (index + 1) s

end

end Tour

private theorem tourRoot_newest (depth : Nat) (stack : List String) (e : Element)
    (given : Option ObjectId) (hGiven : ∀ r, given = some r → supplied = some r)
    (new : Option ObjectId) :
    Touring.Moves a (.newest supplied) (a.tourRoot depth stack e given) new fun _ _ => True := by
  induction depth generalizing stack e given new with
  | zero => exact .ofThrow
  | succ depth ih =>
    unfold tourRoot
    refine (Touring.Moves.visit fun _ => hGiven).bind fun made s hNext => ?_
    obtain ⟨_, _, -, rfl⟩ := hNext
    have hTour (stack : List String) (e : Element) (new : Option ObjectId) :=
      ih stack e none (by simp) new
    refine (tourElement_newest hTour stack e e made.1 made.2 e.name e.leading).bind fun _ _ _ => ?_
    exact .ofPure trivial

/-! ## What moves keep -/

/-- What is shared refers to objects that were there before the build, and all that it has made is
there. -/
structure Grounded (old : Nat) (p : Progress) : Prop where
  size_le : old ≤ p.store.size
  made : ∀ z : Nat, z ∈ madeIn p.journal → z < p.store.size
  shares : p.store.Shares (· < old)

namespace Grounded

variable {subject? : Option Subject}

theorem tell (h : Grounded old p) (id : ObjectId) (call : Call) :
    Grounded old (a.tell id call p).2 where
  size_le := Nat.le_trans h.size_le (a.tell_evolves id call p).size_le
  made z hz := by
    have hOld : z ∈ madeIn (p.journal ++ [.told id call]) := hz
    simp only [madeIn_append, madeIn_told, madeIn_nil, List.append_nil] at hOld
    exact Nat.lt_of_lt_of_le (h.made z hOld) (a.tell_evolves id call p).size_le
  shares := by
    have hPuts (sc sc' : Scene) (hShares : sc.store.Shares (· < old)) (hPut : sc.Puts id call sc') :
        sc'.store.Shares (· < old) := hPut.shares hShares
    exact Acting.tell_puts.keeps (s := a.sceneAt p) hPuts hPuts h.shares

private theorem assign (h : Grounded old p) (id : ObjectId) (entry : String × String) :
    Grounded old (a.assignProperty id entry p).2 := by
  have hSize := (a.assignProperty_evolves id entry p).size_le
  obtain ⟨store, loader, hState, hStored⟩ := a.assignProperty_state id entry p
  rw [hState] at hSize ⊢
  refine ⟨Nat.le_trans h.size_le hSize, fun z hz => ?_, ?_⟩
  · have hOld : z ∈ madeIn p.journal := by simpa [madeIn] using hz
    exact Nat.lt_of_lt_of_le (h.made z hOld) hSize
  · rcases hStored with rfl | ⟨change, hChange, rfl⟩
    · exact h.shares
    · exact h.shares.assign change.1 (Scene.objects_of_change? hChange)

theorem move (h : Grounded old p) (hMove : a.Move subject? p q) : Grounded old q := by
  cases hMove with
  | resolve _ | load _ | note _ _ _ => exact ⟨h.size_le, h.made, h.shares⟩
  | @make c id store hMake =>
    obtain ⟨rfl, hLt, -⟩ := Classes.instantiateStyled_evolves a.library.classes.covered_univ
      (fun _ _ => trivial) hMake
    have hGrows := Classes.instantiateStyled_grows hMake
    refine ⟨Nat.le_trans h.size_le hGrows.size_le, fun z hz => ?_, ?_⟩
    · simp only [madeIn_append, madeIn_made, madeIn_nil, List.mem_append, List.mem_singleton] at hz
      rcases hz with hz | rfl
      · exact Nat.lt_trans (h.made z hz) hLt
      · exact hLt
    · intro b attr v hName hBorne
      simp only [Store.borne?, hGrows.borne] at hBorne
      exact h.shares b attr v hName hBorne
  | assign entry _ _ => exact h.assign _ entry
  | tell call _ _ _ => exact h.tell _ call

private theorem slip (h : Grounded old p) (hSlip : a.Slip subject? p q) : Grounded old q := by
  cases hSlip with
  | tell call _ _ => exact h.tell _ call

end Grounded

/-- An attempt that assigns no properties notes none. -/
theorem Move.assigned {subject? : Option Subject} (h : a.Move subject? p q)
    (hSubject : ∀ x, subject? = some x → x.assigns = false) :
    ∃ log, q.journal = p.journal ++ log ∧ ∀ id name way, .assigned id name way ∉ log := by
  cases h with
  | resolve _ | load _ | note _ _ _ => exact ⟨[], (List.append_nil _).symm, by simp⟩
  | @make c id store _ => exact ⟨[.made id], rfl, by simp⟩
  | assign entry hSome hAssigns =>
    rw [hSubject _ hSome] at hAssigns
    cases hAssigns
  | @tell x call _ _ _ => exact ⟨[.told x.id call], rfl, by simp⟩

private theorem Slip.assigned {subject? : Option Subject} (h : a.Slip subject? p q) :
    ∃ log, q.journal = p.journal ++ log ∧ ∀ id name way, .assigned id name way ∉ log := by
  cases h with
  | @tell x call _ _ => exact ⟨[.told x.id call], rfl, by simp⟩

/-! ## The instance whose properties are assigned -/

/-- An instance refers only to what was made with it or later, and to old objects. So does all that
is newer. -/
structure Fresh (old : Nat) (m : ObjectId) (s : Store) : Prop where
  le_size : m ≤ s.size
  leads : s.LeadsInto (m ≤ ·) (beside old m)

private theorem Fresh.assign {s : Store} {v : Value} (h : Fresh old id s) (cell : Cell)
    (hv : v.objects = []) : Fresh old id (s.assign cell v) := by
  cases cell with
  | field x attr =>
    refine ⟨?_, h.leads.setField attr fun _ => Region.covers_of_objects_nil hv⟩
    rw [Store.assign, Store.size_setField]
    exact h.le_size
  | borne b attr => exact ⟨h.le_size, h.leads⟩

/-- An instance is fresh when it has just been made. -/
theorem Fresh.of_make {c : Component} {s s' : Store} (hcs : a.library.classes.Covered (· < old))
    (h : a.library.classes.instantiateStyled c.cls c.style s = .ok (id, s')) : Fresh old id s' := by
  have hcs' : a.library.classes.Covered (beside old s.size) :=
    fun c hc y hy => .inl (hcs c hc y hy)
  obtain ⟨rfl, hLt, hStore⟩ := Classes.instantiateStyled_evolves hcs' (fun _ hn => .inr hn) h
  refine ⟨Nat.le_of_lt hLt, hStore.leads _ fun y attr v hy hField => ?_⟩
  -- There is nothing yet from this number on.
  have hNone : s.get? y = none := by
    rw [← Option.not_isSome_iff_eq_none, Store.isSome_get?_iff]
    exact Nat.not_lt.2 hy
  simp [Store.field?_eq, hNone] at hField

/-- The step that assigns a property of an old object or of a fresh instance is secluded. -/
theorem secluded_assigned (hcs : a.library.classes.Covered (· < old)) (h : Grounded old p)
    (hId : id < old ∨ Fresh old id p.store) (name : String) :
    Step.Secluded old (.assigned id name (a.wayAt p id name)) := by
  have hSelf : id ∈ a.wayAt p id name := by
    have hNe := Text.splitOn_ne_nil '.' name
    unfold wayAt
    cases hNames : Text.splitOn '.' name with
    | nil => exact absurd hNames hNe
    | cons first rest => simp [Scene.way]
  refine ⟨hSelf, ?_⟩
  rcases hId with hOld | hFresh
  · exact .inl ⟨id, hSelf, hOld⟩
  · have hScene : (a.sceneAt p).Secluded old id := ⟨hFresh.leads, hcs, h.shares⟩
    exact Scene.way_beside hScene (Region.covers_object.2 (.inr (Nat.le_refl id)))

/-- What holds while the properties of an instance are assigned. -/
structure Assigning (old : Nat) (id : ObjectId) (p : Progress) : Prop extends Grounded old p where
  secluded : ∀ s ∈ p.journal, s.Secluded old
  fresh : id < old ∨ Fresh old id p.store

/-- Assigning properties goes on as said. -/
theorem Assigning.move (hcs : a.library.classes.Covered (· < old)) (h : Assigning old id p)
    (hMove : a.Move (some { id, caps := {}, assigns := true }) p q) : Assigning old id q := by
  have hGrounded : Grounded old q := h.toGrounded.move hMove
  cases hMove with
  | resolve _ | load _ | note _ _ _ => exact ⟨hGrounded, h.secluded, h.fresh⟩
  | make hMake =>
    refine ⟨hGrounded, fun s hs => ?_, h.fresh.imp_right fun hFresh => ?_⟩
    · rcases List.mem_append.1 hs with hs | hs
      · exact h.secluded s hs
      · rw [List.mem_singleton.1 hs]
        trivial
    · have hcs' : a.library.classes.Covered (beside old id) :=
        fun c hc y hy => .inl (hcs c hc y hy)
      obtain ⟨-, -, hStore⟩ := Classes.instantiateStyled_evolves hcs'
        (fun n hn => .inr (Nat.le_trans hFresh.le_size hn)) hMake
      exact ⟨Nat.le_trans hFresh.le_size hStore.size_le, hStore.leads _ hFresh.leads⟩
  | assign entry hSome _ =>
    cases hSome
    have hStep := secluded_assigned hcs h.toGrounded h.fresh entry.1
    obtain ⟨store, loader, hState, hStored⟩ := a.assignProperty_state id entry p
    rw [hState] at hGrounded ⊢
    refine ⟨hGrounded, fun s hs => ?_, h.fresh.imp_right fun hFresh => ?_⟩
    · rcases List.mem_append.1 hs with hs | hs
      · exact h.secluded s hs
      · rw [List.mem_singleton.1 hs]
        exact hStep
    · rcases hStored with rfl | ⟨change, hChange, rfl⟩
      · exact hFresh
      · exact hFresh.assign change.1 (Scene.objects_of_change? hChange)
  | tell call hSome hExpects _ =>
    cases hSome
    cases call <;> cases hExpects.1

/-- An instruction leaves an instance fresh. -/
theorem Fresh.deliver (h : Fresh old id p.store) (i : Instruction) :
    Fresh old id (a.deliver id caps i p).2.store := by
  have hTell : Fresh old id (a.tell id (.instruction i.target i.data) p).2.store := by
    refine ⟨Nat.le_trans h.le_size (a.tell_evolves id _ p).size_le, ?_⟩
    exact Acting.tell_unreferring.keeps (s := a.sceneAt p)
      (I := fun sc => sc.store.LeadsInto (id ≤ ·) (beside old id))
      (fun _ _ hLeads hMove => hMove _ _ hLeads) (fun _ _ _ hSlip => hSlip.elim) h.leads
  unfold Assembly.deliver
  split
  · rw [run_tryCatch]
    generalize a.tell id (.instruction i.target i.data) p = told at hTell
    obtain ⟨answer, q⟩ := told
    cases answer with
    | ok _ => exact hTell
    | error e =>
      dsimp only
      split
      · split <;> exact hTell
      · exact hTell
  · split <;> exact h

/-! ## How instances are started -/

theorem instantiate_makes (c : Component) (p : Progress) :
    Yields (a.instantiate c) p
      (fun id q => a.library.classes.instantiateStyled c.cls c.style p.store = .ok (id, q.store))
      fun _ => True := by
  unfold instantiate
  refine .ofGetBind (.bind (P := fun r q => q = p ∧
    a.library.classes.instantiateStyled c.cls c.style p.store = .ok r)
    (ofExcept_yields (fun _ hMake => ⟨rfl, hMake⟩) trivial) ?_)
  rintro ⟨id, store⟩ _ ⟨rfl, hMake⟩
  exact .ofModifyBind (.ofModifyBind (.ofPure hMake))

/-- Looking a name up changes no object. -/
theorem resolve_yields (name : String) (p : Progress) :
    Yields (Building.registering (a.library.resolve a.registry name)) p
      (fun _ q => q.store = p.store) fun _ => True :=
  ⟨fun hRun => (congrArg (fun run => run.2.store) hRun).symm, fun _ => trivial⟩

/-- A child that is started is made of its component, and nothing else is done to any object. -/
theorem start_makes (e : Element) (leading : List Instruction) (p : Progress) :
    Yields (a.start parent caps e leading) p
      (fun made? q => ∀ made ∈ made?, ∃ c : Component,
        a.library.classes.instantiateStyled c.cls c.style p.store = .ok (made.1, q.store))
      fun _ => True := by
  unfold start
  rw [componentOf_eq]
  refine .bind (resolve_yields e.name p) fun c? q hStore => ?_
  rw [← hStore]
  cases c? with
  | some c =>
    refine .bind (checkAppend_yields.weaken fun _ _ => trivial) fun _ q' hq => ?_
    rw [hq]
    refine .bind (instantiate_makes c q) fun view r hMake => .ofPure fun made hMade => ?_
    cases hMade
    exact ⟨c, hMake⟩
  | none =>
    refine .check trivial (.bind (.always _ q) fun _ q' _ => .bind (.always _ q') fun _ r _ => ?_)
    exact .ofPure fun made hMade => nomatch hMade

/-- So is a root, unless one was given. -/
theorem startRoot_makes (e : Element) (p : Progress) :
    Yields (a.startRoot e none) p
      (fun made q => ∃ c : Component,
        a.library.classes.instantiateStyled c.cls c.style p.store = .ok (made.1, q.store))
      fun _ => True := by
  have hInstance : Yields (a.rootInstance e none) p
      (fun made q => ∃ c : Component,
        a.library.classes.instantiateStyled c.cls c.style p.store = .ok (made.1, q.store))
      fun _ => True := by
    unfold rootInstance
    dsimp only
    split
    · exact .ofThrow trivial
    · refine .bind (resolve_yields e.name p) fun c? q hStore => ?_
      rw [← hStore]
      cases c? with
      | none => exact .ofThrow trivial
      | some c => exact .bind (instantiate_makes c q) fun view r hMake => .ofPure ⟨c, hMake⟩
  exact .bind hInstance fun made q hMade => .check trivial (.ofPure hMade)

/-! ## Along a build -/

/-- A build has come to a point where all properties have been assigned for old objects or for what
was the newest instance then, in steps that are secluded, and where one instance may be given whose
properties are to be assigned: it is an old object, or it is the newest and fresh. -/
structure Settled (old : Nat) (new : Option ObjectId) (p : Progress) : Prop
    extends Grounded old p where
  secluded : ∀ s ∈ p.journal, s.Secluded old
  newest : ForNewest old p.journal
  fresh : ∀ m : Nat, new = some m → m < old ∨
    Fresh old m p.store ∧ ∀ z : Nat, z ∈ madeIn p.journal → z ≤ m

namespace Settled

variable {v : Visit}

theorem none (h : Settled old new p) : Settled old none p :=
  ⟨h.toGrounded, h.secluded, h.newest, fun _ hNone => nomatch hNone⟩

/-- Steps that assign nothing keep to this. -/
theorem steps (h : Settled old new p) (hGrounded : Grounded old q)
    (hSteps : ∃ log, q.journal = p.journal ++ log ∧ ∀ id name way, .assigned id name way ∉ log) :
    Settled old Option.none q := by
  obtain ⟨log, hJournal, hNone⟩ := hSteps
  refine ⟨hGrounded, fun s hs => ?_, ?_, fun _ hNew => nomatch hNew⟩
  · rw [hJournal] at hs
    rcases List.mem_append.1 hs with hs | hs
    · exact h.secluded s hs
    · cases s with
      | assigned id name way => exact absurd hs (hNone id name way)
      | made _ | told _ _ => trivial
  · rw [hJournal]
    exact h.newest.append fun id name way hMem => absurd hMem (hNone id name way)

/-- An attempt that assigns no properties keeps to this, however it ends. -/
theorem quiet (h : Settled old new v.before)
    (hSubject : ∀ x, v.attempt.subject? = some x → x.assigns = false) :
    Settled old Option.none (v.run a).2 :=
  v.keeps (fun _ _ hp hMove => hp.steps (hp.toGrounded.move hMove) (hMove.assigned hSubject))
    (fun _ _ hp hSlip => hp.steps (hp.toGrounded.slip hSlip) hSlip.assigned) h.none

/-- Assigning the properties of the instance that they are to be assigned of keeps to this, however
it ends. -/
theorem attributes (hcs : a.library.classes.Covered (· < old)) (h : Settled old (some id) p)
    (spot : Place) : Settled old (some id) (Visit.run a ⟨spot, .attributes id, p⟩).2 := by
  let v : Visit := ⟨spot, .attributes id, p⟩
  have hAssigning : Assigning old id (v.run a).2 := by
    refine v.keeps (fun _ _ hp hMove => hp.move hcs hMove) (fun _ _ hp hSlip => ?_)
      ⟨h.toGrounded, h.secluded, (h.fresh id rfl).imp_right And.left⟩
    cases hSlip with
    | tell call hSome hExpects =>
      cases hSome
      cases call <;> cases hExpects.1
  have hOwn : ∃ log, (v.run a).2.journal = p.journal ++ log ∧ ∀ s ∈ log, s.IsOwn id := by
    refine Yields.state (R := fun q : Progress => ∃ log, q.journal = p.journal ++ log ∧
      ∀ s ∈ log, s.IsOwn id) ?_
    refine (takeAttributes_attending a.library.classes.covered_univ trivial
      spot.element.attributes p p.store.closed_univ).mono ?_ ?_
    · rintro _ q ⟨log, hExt, -, hOwn, -⟩
      exact ⟨log, hExt.journal, hOwn⟩
    · rintro q ⟨_, log, hExt, -, hOwn, -⟩
      exact ⟨log, hExt.journal, hOwn⟩
  obtain ⟨log, hJournal, hOwn⟩ := hOwn
  have hMade : madeIn (p.journal ++ log) = madeIn p.journal := by
    rw [madeIn_append, madeIn_eq_nil_of_isOwn hOwn, List.append_nil]
  have hFresh := h.fresh id rfl
  show Settled old (some id) (v.run a).2
  refine ⟨hAssigning.toGrounded, hAssigning.secluded, ?_, fun m hm => ?_⟩
  · rw [hJournal]
    refine h.newest.append fun id' name way hMem => ?_
    cases hOwn _ hMem
    rw [hMade]
    exact hFresh.imp_right And.right
  · cases hm
    rcases hAssigning.fresh with hOld | hFresh'
    · exact .inl hOld
    · refine hFresh.imp_right fun hNew => ⟨hFresh', fun z hz => hNew.2 z ?_⟩
      rwa [hJournal, hMade] at hz

/-- An attempt that is due keeps to this, however it ends. -/
theorem visit (hcs : a.library.classes.Covered (· < old)) (h : Settled old new v.before)
    (hDue : v.attempt.IsForNewest supplied new) : Settled old Option.none (v.run a).2 := by
  obtain ⟨spot, t, p⟩ := v
  cases t with
  | attributes id =>
    cases hDue
    exact (h.attributes hcs spot).none
  | root _ => exact h.quiet fun _ hSome => nomatch hSome
  | deliver _ _ _ | text _ _ | child _ _ | find _ _ _ | append _ _ _ =>
    refine h.quiet fun x hSome => ?_
    cases hSome
    rfl

/-- An instance that has just been made is the newest one, and fresh. -/
theorem ofMake (hcs : a.library.classes.Covered (· < old)) (h : Settled old new p)
    (hAfter : Settled old Option.none q) {c : Component}
    (hMake : a.library.classes.instantiateStyled c.cls c.style p.store = .ok (id, q.store))
    (hJournal : q.journal = p.journal ++ [.made id]) : Settled old (some id) q := by
  refine ⟨hAfter.toGrounded, hAfter.secluded, hAfter.newest, fun m hm => .inr ?_⟩
  cases hm
  refine ⟨.of_make hcs hMake, fun z hz => ?_⟩
  have hId := (Classes.instantiateStyled_evolves a.library.classes.covered_univ
    (fun _ _ => trivial) hMake).1
  rw [hJournal, madeIn_append, madeIn_made, madeIn_nil] at hz
  rcases List.mem_append.1 hz with hOld | hNew
  · exact hId ▸ Nat.le_of_lt (h.made z hOld)
  · exact Nat.le_of_eq (List.mem_singleton.1 hNew)

/-- An attempt that does not fail leads on as the discipline says. -/
theorem next (hcs : a.library.classes.Covered (· < old))
    (hSupplied : ∀ r : Nat, supplied = some r → r < old) (h : Settled old new v.before)
    (hDue : v.attempt.IsForNewest supplied new) {answer : v.attempt.Answer}
    (hRun : v.run a = (.ok answer, q)) : Settled old (v.attempt.newest new answer) q := by
  have hVisit : Settled old Option.none q := by
    have hAfter := h.visit hcs hDue
    rwa [hRun] at hAfter
  have hUniv := a.library.classes.covered_univ
  obtain ⟨spot, t, p⟩ := v
  cases t with
  | text _ _ | find _ _ _ | append _ _ _ => exact hVisit
  | attributes id =>
    cases hDue
    have hAfter := h.attributes hcs spot
    rwa [hRun] at hAfter
  | deliver id caps i =>
    refine ⟨hVisit.toGrounded, hVisit.secluded, hVisit.newest, fun m hm => ?_⟩
    obtain ⟨hNew, hSame⟩ := Option.filter_eq_some_iff.1 hm
    have hId : m = id := of_decide_eq_true hSame
    subst hId
    refine (h.fresh m hNew).imp_right fun hFresh => ?_
    have hDelivered : (a.deliver m caps i p).2 = q := congrArg Prod.snd hRun
    refine ⟨hDelivered ▸ hFresh.1.deliver i, fun z hz => hFresh.2 z ?_⟩
    obtain ⟨log, hExt, -, hOwn, -⟩ := (deliver_attending hUniv trivial caps i p
      p.store.closed_univ).ok hRun
    rwa [hExt.journal, madeIn_append, madeIn_eq_nil_of_isOwn hOwn, List.append_nil] at hz
  | child parent caps =>
    have hStarted := (start_yields hUniv p.ready_univ trivial spot.element _).ok hRun
    cases hStarted with
    | raw _ _ _ _ => exact hVisit
    | made _ hExt =>
      obtain ⟨c, hMake⟩ := (start_makes spot.element _ p).ok hRun _ rfl
      exact h.ofMake hcs hVisit hMake hExt.journal
  | root given =>
    have hStarted := ((startRoot_yields hUniv p.ready_univ spot.element given).ok hRun).1
    cases given with
    | none =>
      obtain ⟨c, hMake⟩ := (startRoot_makes spot.element p).ok hRun
      exact h.ofMake hcs hVisit hMake hStarted.of_none.journal
    | some r =>
      refine ⟨hVisit.toGrounded, hVisit.secluded, hVisit.newest, fun m hm => .inl ?_⟩
      cases hm
      rw [hStarted.of_some.1]
      exact hSupplied r (hDue r rfl)

end Settled

/-- Along a build properties are assigned as said. -/
theorem buildTree_settled (hcs : a.library.classes.Covered (· < p.store.size))
    (hShares : p.store.Shares (· < p.store.size)) (hJournal : p.journal = [])
    (hSupplied : ∀ r : Nat, supplied = some r → r < p.store.size) (origin : Origin) :
    Settled p.store.size none (a.buildTree supplied origin p).2 := by
  have hStart (loader : Loader) : Settled p.store.size none { p with loader } := by
    refine ⟨⟨Nat.le_refl _, ?_, hShares⟩, ?_, ?_, fun _ hNew => nomatch hNew⟩
    · rw [hJournal]
      exact fun _ hz => nomatch hz
    · rw [hJournal]
      exact fun _ hs => nomatch hs
    · rw [hJournal]
      intro pre id name way post hCut
      simp at hCut
  rcases a.buildTree_orderly supplied origin (d := .newest supplied) (I := Settled p.store.size)
    (fun depth stack e => tourRoot_newest depth stack e supplied (fun _ => id) none)
    hStart (fun h hDue hRun => h.next hcs hSupplied hDue hRun) with
    ⟨s, h⟩ | ⟨-, s, v, e, h, hDue, hRun⟩
  · exact h.none
  · have hAfter := h.visit hcs hDue
    rwa [hRun] at hAfter

end Assembly

/-- Along a build, successful or not, properties are assigned for old objects or for the instance
made last, and the ways of their names go through old objects or stay among what is as new as their
instance. -/
theorem Builder.outcome_settled (b : Builder) (owner root : Option ObjectId) (origin : Origin)
    (w : World) (hcs : b.library.classes.Covered (· < w.store.size))
    (hShares : w.store.Shares (· < w.store.size))
    (hRoot : ∀ r : Nat, root = some r → r < w.store.size) :
    (∀ s ∈ (b.outcome owner root origin w).2.journal, s.Secluded w.store.size) ∧
      ForNewest w.store.size (b.outcome owner root origin w).2.journal := by
  have hTree := Assembly.buildTree_settled (a := { b with owner }) (p := { w with }) hcs hShares rfl
    hRoot origin
  rw [b.outcome_journal_eq]
  exact ⟨hTree.secluded, hTree.newest⟩

end ViewMarkup
