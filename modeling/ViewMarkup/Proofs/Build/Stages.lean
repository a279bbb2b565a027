import ViewMarkup.Proofs.Build.Discipline

/-!
# The stages of a tour

The elements that a tour is working on are inside of one another. A stage says what their instances
are, innermost first, and whether the root of an included document is to be started inside of them.
Every attempt is due at the stage that the ones before it have led to: it is for the innermost
instance, and a view is appended to the instance right outside of it.

## Main results

* `Assembly.tourElement_stays`, `Assembly.tourRoot_moves` — working on an element leads back to the
  stage that it started at, building a root to the stage where it is innermost.
-/

namespace ViewMarkup

open Text

/-- The instances that are being worked on, innermost first, with what they may contain, and whether
a root is to be started next. -/
structure Stage where
  opened : List (ObjectId × Capabilities) := []
  entering : Bool := false

namespace Stage

/-- The instances that wait for a view. -/
def waiting (s : Stage) : List (ObjectId × Capabilities) :=
  if s.entering then s.opened else s.opened.tail

/-- The instance that is worked on. -/
def At (s : Stage) (id : ObjectId) (caps : Capabilities) : Prop :=
  ∃ rest, s = { opened := (id, caps) :: rest }

/-- The stage where the root of a document is innermost. -/
def Holds (outer : List (ObjectId × Capabilities)) (view : ObjectId) (s : Stage) : Prop :=
  ∃ own, s = { opened := (view, own) :: outer }

end Stage

namespace Attempt

/-- Whether an attempt is due at a stage. Only the outermost root may be the one supplied. -/
def Due (supplied : Option ObjectId) (s : Stage) : Attempt → Prop
  | root given => s.entering = true ∧ ∀ r, given = some r → s.opened = [] ∧ supplied = some r
  | attributes id => ∃ caps, s.At id caps
  | deliver id caps _ | text id caps | child id caps | find id caps _ => s.At id caps
  | append parent caps view =>
    ∃ own rest, s = { opened := (view, own) :: (parent, caps) :: rest }

/-- The stage that an attempt leads to. -/
def next (s : Stage) : (t : Attempt) → t.Answer → Stage
  | root _, made => { opened := made :: s.opened }
  | child _ _, made? => { opened := made?.toList ++ s.opened }
  | find _ _ _, _ => { s with entering := true }
  | append _ _ _, _ => { s with opened := s.opened.tail }
  | _, _ => s

end Attempt

/-- The attempts that are due at a stage, and the stages that they lead to. -/
def Discipline.staged (supplied : Option ObjectId) : Discipline Stage where
  Due s v := v.attempt.Due supplied s
  next s v := v.attempt.next s

/-- A visit leads to the next stage. -/
theorem Touring.Moves.stage {a : Assembly} {supplied : Option ObjectId} {s : Stage} {spot : Place}
    {t : Attempt} (h : t.Due supplied s) :
    Moves a (.staged supplied) (a.visit spot t) s fun answer s' => s' = t.next s answer := by
  refine (visit fun _ => h).mono fun answer s' hNext => ?_
  obtain ⟨p, q, -, hs⟩ := hNext
  exact hs

/-- Touring something leads back to the stage that it started at. -/
def Touring.Stays {α : Type} (a : Assembly) (supplied : Option ObjectId) (x : Touring α)
    (s : Stage) : Prop :=
  Moves a (.staged supplied) x s fun _ s' => s' = s

namespace Touring.Stays

variable {α β : Type} {a : Assembly} {supplied : Option ObjectId} {x : Touring α}
  {f : α → Touring β} {s : Stage} {G : β → Stage → Prop}

theorem bind (hx : Stays a supplied x s)
    (hf : ∀ r, Moves a (.staged supplied) (f r) s G) :
    Moves a (.staged supplied) (x >>= f) s G := by
  refine Moves.bind hx fun r s' hs => ?_
  rw [hs]
  exact hf r

theorem forM {ι : Type} {g : ι → Touring Unit} {is : List ι}
    (h : ∀ i ∈ is, Stays a supplied (g i) s) : Stays a supplied (is.forM g) s := by
  refine Moves.forM (fun i hi s' hs => ?_) rfl
  rw [hs]
  exact h i hi

/-- A visit that leads nowhere else. -/
theorem visit {spot : Place} {t : Attempt} (h : t.Due supplied s)
    (hSame : ∀ answer, t.next s answer = s) : Stays a supplied (a.visit spot t) s :=
  (Moves.stage h).mono fun answer _ hNext => hNext.trans (hSame answer)

end Touring.Stays

/-! ## Tours -/

namespace Assembly

variable {a : Assembly} {supplied : Option ObjectId}
  {tour : List String → Element → Touring ObjectId} {outer : List (ObjectId × Capabilities)}

section

variable (hTour : ∀ stack e outer,
  Touring.Moves a (.staged supplied) (tour stack e) ⟨outer, true⟩ (Stage.Holds outer))

include hTour

/-- An include leads back to the stage that it started at. -/
theorem tourInclude_stays (spot : Place) (parent : ObjectId) (caps : Capabilities) (data : String) :
    Touring.Stays a supplied (a.tourInclude tour spot parent caps data)
      { opened := (parent, caps) :: outer } := by
  have hFind : Touring.Moves a (.staged supplied) (a.visit spot (.find parent caps (trim data)))
      { opened := (parent, caps) :: outer } fun _ s => s = ⟨(parent, caps) :: outer, true⟩ :=
    .stage (t := .find parent caps (trim data)) ⟨outer, rfl⟩
  have hAppend (view : ObjectId) (own : Capabilities) :
      Touring.Moves a (.staged supplied) (a.visit spot (.append parent caps view))
        { opened := (view, own) :: (parent, caps) :: outer }
        fun _ s => s = { opened := (parent, caps) :: outer } :=
    .stage (t := .append parent caps view) ⟨own, outer, rfl⟩
  unfold tourInclude
  refine hFind.bind fun d s hs => ?_
  rw [hs]
  refine (hTour _ d.root ((parent, caps) :: outer)).bind fun view s' hs' => ?_
  obtain ⟨own, rfl⟩ := hs'
  exact hAppend view own

/-- A child element leads back to the stage that it started at, if working on its instance does. -/
theorem tourChild_stays (spot : Place) (parent : ObjectId) (caps : Capabilities)
    {work : ObjectId → Capabilities → Touring Unit}
    (hWork : ∀ id own outer,
      Touring.Stays a supplied (work id own) { opened := (id, own) :: outer }) :
    Touring.Stays a supplied (a.tourChild tour spot parent caps work)
      { opened := (parent, caps) :: outer } := by
  have hStart : Touring.Moves a (.staged supplied) (a.visit spot (.child parent caps))
      { opened := (parent, caps) :: outer }
      fun made? s => s = { opened := made?.toList ++ (parent, caps) :: outer } :=
    .stage (t := .child parent caps) ⟨outer, rfl⟩
  have hAppend (view : ObjectId) (own : Capabilities) :
      Touring.Moves a (.staged supplied) (a.visit spot (.append parent caps view))
        { opened := (view, own) :: (parent, caps) :: outer }
        fun _ s => s = { opened := (parent, caps) :: outer } :=
    .stage (t := .append parent caps view) ⟨own, outer, rfl⟩
  unfold tourChild
  have hIncludes : Touring.Stays a supplied ((includes spot.element.leading).forM fun i =>
      a.tourInclude tour spot parent caps i.data) { opened := (parent, caps) :: outer } :=
    .forM fun i _ => tourInclude_stays hTour spot parent caps i.data
  refine hIncludes.bind fun _ => hStart.bind fun made? s hs => ?_
  rw [hs]
  cases made? with
  | none => exact .ofPure rfl
  | some made =>
    obtain ⟨id, own⟩ := made
    exact (hWork id own ((parent, caps) :: outer)).bind fun _ => hAppend id own

mutual

/-- Working on an element leads back to the stage that it started at. -/
theorem tourElement_stays (stack : List String) (root : Element) :
    ∀ (e : Element) (id : ObjectId) (caps : Capabilities) (path : String)
      (leading : List Instruction) (outer : List (ObjectId × Capabilities)),
    Touring.Stays a supplied (a.tourElement tour stack root e id caps path leading)
      { opened := (id, caps) :: outer }
  | .mk name attributes children before trailing text, id, caps, path, leading, outer => by
    have hDeliver (spot : Place) (i : Instruction) :
        Touring.Stays a supplied (a.visit spot (.deliver id caps i))
          { opened := (id, caps) :: outer } :=
      .visit (t := .deliver id caps i) ⟨outer, rfl⟩ fun _ => rfl
    have hAttributes (spot : Place) : Touring.Stays a supplied (a.visit spot (.attributes id))
        { opened := (id, caps) :: outer } :=
      .visit (t := .attributes id) ⟨caps, outer, rfl⟩ fun _ => rfl
    have hText (spot : Place) : Touring.Stays a supplied (a.visit spot (.text id caps))
        { opened := (id, caps) :: outer } :=
      .visit (t := .text id caps) ⟨outer, rfl⟩ fun _ => rfl
    unfold tourElement
    refine Touring.Stays.bind (.forM fun i _ => hDeliver _ i) fun _ => ?_
    refine (hAttributes _).bind fun _ => (hText _).bind fun _ => ?_
    refine (tourChildren_stays stack root children id caps path 0 outer).bind fun _ => ?_
    refine Touring.Stays.forM fun i _ => ?_
    split
    · exact tourInclude_stays hTour _ id caps i.data
    · exact hDeliver _ i

/-- Child elements lead back to the stage that they started at. -/
theorem tourChildren_stays (stack : List String) (root : Element) :
    ∀ (es : List Element) (parent : ObjectId) (caps : Capabilities) (path : String) (index : Nat)
      (outer : List (ObjectId × Capabilities)),
    Touring.Stays a supplied (a.tourChildren tour stack root es parent caps path index)
      { opened := (parent, caps) :: outer }
  | [], parent, caps, path, index, outer => by
    unfold tourChildren
    exact .ofPure rfl
  | e :: es, parent, caps, path, index, outer => by
    unfold tourChildren
    refine (tourChild_stays hTour _ parent caps fun id own inner => ?_).bind fun _ => ?_
    · exact tourElement_stays stack root e id own _ (delivered e.leading) inner
    · exact tourChildren_stays stack root es parent caps path (index + 1) outer

end

end

/-- Building a root leads to the stage where it is innermost. -/
theorem tourRoot_moves (depth : Nat) (stack : List String) (e : Element) (given : Option ObjectId)
    (outer : List (ObjectId × Capabilities))
    (hGiven : ∀ r, given = some r → outer = [] ∧ supplied = some r) :
    Touring.Moves a (.staged supplied) (a.tourRoot depth stack e given) ⟨outer, true⟩
      (Stage.Holds outer) := by
  induction depth generalizing stack e given outer with
  | zero => exact .ofThrow
  | succ depth ih =>
    have hStart : Touring.Moves a (.staged supplied) (a.visit ⟨stack, e, e, e.name⟩ (.root given))
        ⟨outer, true⟩ fun made s => s = { opened := made :: outer } :=
      .stage (t := .root given) ⟨rfl, hGiven⟩
    have hTour (stack : List String) (e : Element) (outer : List (ObjectId × Capabilities)) :
        Touring.Moves a (.staged supplied) (a.tourRoot depth stack e none) ⟨outer, true⟩
          (Stage.Holds outer) :=
      ih stack e none outer fun r hr => by cases hr
    unfold tourRoot
    refine hStart.bind fun made s hs => ?_
    rw [hs]
    obtain ⟨id, caps⟩ := made
    refine (tourElement_stays hTour stack e e id caps e.name e.leading outer).bind fun _ => ?_
    exact .ofPure ⟨caps, rfl⟩

end Assembly
end ViewMarkup
