import ViewMarkup.Proofs.Build.Discipline

/-!
# Where views are brought from

A view is appended at the place where it was brought from: that of the child element that it is the
instance of, or that of the include whose document it is the root of. So a failure to append a view
is told with the element that has brought it.

## Main results

* `Assembly.tourTree_accounted` — where the views come from that a tour attempts to append.
-/

namespace ViewMarkup

open Text

/-- A view was the instance that the root of a document was started with, which is reached through
the names given. -/
def Raised (a : Assembly) (visits : List Visit) (given : Option ObjectId) (stack : List String)
    (view : ObjectId) : Prop :=
  ∃ u ∈ visits, u.attempt = .root given ∧ u.spot.stack = stack ∧
    ∃ own, u.instance? a = some (view, own)

theorem Raised.mono {a : Assembly} {visits vs : List Visit} {given : Option ObjectId}
    {stack : List String} {view : ObjectId} (h : Raised a visits given stack view)
    (hPrefix : visits <+: vs) : Raised a vs given stack view := by
  obtain ⟨u, hu, hRest⟩ := h
  exact ⟨u, hPrefix.subset hu, hRest⟩

/-- A view was brought to an object from a place: the element there was started with it, or the
document that is included there. -/
def Brought (a : Assembly) (visits : List Visit) (spot : Place) (parent : ObjectId)
    (caps : Capabilities) (view : ObjectId) : Prop :=
  ∃ u ∈ visits, u.spot = spot ∧
    ((u.attempt = .child parent caps ∧ ∃ own, u.instance? a = some (view, own)) ∨
      ∃ name, u.attempt = .find parent caps name ∧
        Raised a visits none (spot.stack ++ [name]) view)

/-- A visit that appends a view does so at the place that the view was brought from. -/
def Visit.Accounted (a : Assembly) (before : List Visit) (v : Visit) : Prop :=
  ∀ parent caps view, v.attempt = .append parent caps view →
    Brought a before v.spot parent caps view

/-- All visits so far are remembered, and the next one is accounted for by them. -/
def Discipline.bringing (a : Assembly) : Discipline (List Visit) where
  Due visits v := v.Accounted a visits
  next visits v _ := visits ++ [v]

/-- Touring something makes visits that are accounted for, and in the end something is said of all
of them. -/
def Touring.Brings {α : Type} (a : Assembly) (visits : List Visit) (x : Touring α)
    (R : α → List Visit → Prop) : Prop :=
  Moves a (.bringing a) x visits fun r vs => visits <+: vs ∧ R r vs

namespace Touring.Brings

variable {α β : Type} {a : Assembly} {visits : List Visit} {x : Touring α} {f : α → Touring β}
  {R : α → List Visit → Prop} {S : β → List Visit → Prop}

theorem ofPure {r : α} (h : R r visits) : Brings a visits (pure r) R :=
  Moves.ofPure ⟨List.prefix_refl visits, h⟩

theorem bind (hx : Brings a visits x R)
    (hf : ∀ r vs, visits <+: vs → R r vs → Brings a vs (f r) S) :
    Brings a visits (x >>= f) S := by
  refine Moves.bind hx fun r vs hFirst => ?_
  obtain ⟨hPrefix, hR⟩ := hFirst
  refine (hf r vs hPrefix hR).mono fun r' vs' hSecond => ?_
  exact ⟨hPrefix.trans hSecond.1, hSecond.2⟩

theorem forM {ι : Type} {g : ι → Touring Unit} {is : List ι}
    (h : ∀ i ∈ is, ∀ visits, Brings a visits (g i) fun _ _ => True) :
    Brings a visits (is.forM g) fun _ _ => True := by
  have hAll : Moves a (.bringing a) (is.forM g) visits fun _ vs => visits <+: vs := by
    refine Moves.forM (fun i hi vs hPrefix => ?_) (List.prefix_refl visits)
    exact (h i hi vs).mono fun _ _ hEnd => hPrefix.trans hEnd.1
  exact hAll.mono fun _ _ hPrefix => ⟨hPrefix, trivial⟩

/-- A visit that succeeds is one of the visits then. -/
theorem visit (visits : List Visit) (spot : Place) (t : Attempt)
    (h : ∀ parent caps view, t = .append parent caps view →
      Brought a visits spot parent caps view) :
    Brings a visits (a.visit spot t) fun answer vs =>
      ∃ u ∈ vs, u.spot = spot ∧ u.attempt = t ∧ u.instance? a = t.instance? answer := by
  refine (Moves.visit fun _ => h).mono fun answer vs hNext => ?_
  obtain ⟨p, q, hRun, rfl⟩ := hNext
  refine ⟨List.prefix_append visits _, ⟨spot, t, p⟩, ?_, rfl, rfl, Visit.instance?_of_ok hRun⟩
  exact List.mem_append_right visits (List.mem_singleton_self _)

private theorem visit_other (visits : List Visit) (spot : Place) {t : Attempt}
    (h : ∀ parent caps view, t ≠ .append parent caps view) :
    Brings a visits (a.visit spot t) fun _ _ => True :=
  (visit visits spot t fun parent caps view hAppend =>
    absurd hAppend (h parent caps view)).mono fun _ _ hEnd => ⟨hEnd.1, trivial⟩

theorem visit_append {spot : Place} {parent : ObjectId} {caps : Capabilities} {view : ObjectId}
    (h : Brought a visits spot parent caps view) :
    Brings a visits (a.visit spot (.append parent caps view)) fun _ _ => True := by
  refine (visit visits spot (.append parent caps view) ?_).mono fun _ _ hEnd => ⟨hEnd.1, trivial⟩
  intro parent' caps' view' hAppend
  cases hAppend
  exact h

end Touring.Brings

/-! ## Tours -/

namespace Assembly

variable {a : Assembly} {visits : List Visit} {tour : List String → Element → Touring ObjectId}

section

variable (hTour : ∀ stack e visits,
  Touring.Brings a visits (tour stack e) fun view vs => Raised a vs none stack view)

include hTour

/-- The root of a document is appended at the place of the include. -/
theorem tourInclude_brings (spot : Place) (parent : ObjectId) (caps : Capabilities)
    (data : String) :
    Touring.Brings a visits (a.tourInclude tour spot parent caps data) fun _ _ => True := by
  have hFind : Touring.Brings a visits (a.visit spot (.find parent caps (trim data)))
      fun _ vs => ∃ u ∈ vs, u.spot = spot ∧ u.attempt = .find parent caps (trim data) ∧
        u.instance? a = none :=
    .visit visits spot (.find parent caps (trim data)) (by simp)
  unfold tourInclude
  refine hFind.bind fun d vs _ hFound => ?_
  obtain ⟨u, hu, hSpot, hAttempt, -⟩ := hFound
  refine (hTour (spot.stack ++ [trim data]) d.root vs).bind fun view vs' hPrefix hRaised => ?_
  refine Touring.Brings.visit_append ⟨u, hPrefix.subset hu, hSpot, ?_⟩
  exact .inr ⟨trim data, hAttempt, hRaised⟩

/-- The instance of a child element is appended at the place of the element. -/
theorem tourChild_brings (spot : Place) (parent : ObjectId) (caps : Capabilities)
    {work : ObjectId → Capabilities → Touring Unit}
    (hWork : ∀ id own visits, Touring.Brings a visits (work id own) fun _ _ => True) :
    Touring.Brings a visits (a.tourChild tour spot parent caps work) fun _ _ => True := by
  have hIncludes : Touring.Brings a visits ((includes spot.element.leading).forM fun i =>
      a.tourInclude tour spot parent caps i.data) fun _ _ => True :=
    .forM fun i _ visits => tourInclude_brings hTour spot parent caps i.data
  have hStart (visits : List Visit) : Touring.Brings a visits (a.visit spot (.child parent caps))
      fun made? vs => ∃ u ∈ vs, u.spot = spot ∧ u.attempt = .child parent caps ∧
        u.instance? a = made? :=
    .visit visits spot (.child parent caps) (by simp)
  unfold tourChild
  refine hIncludes.bind fun _ vs _ _ => (hStart vs).bind fun made? vs' _ hMade => ?_
  obtain ⟨u, hu, hSpot, hAttempt, hInstance⟩ := hMade
  cases made? with
  | none => exact .ofPure trivial
  | some made =>
    obtain ⟨id, own⟩ := made
    refine (hWork id own vs').bind fun _ vs'' hPrefix _ => ?_
    refine Touring.Brings.visit_append ⟨u, hPrefix.subset hu, hSpot, ?_⟩
    exact .inl ⟨hAttempt, own, hInstance⟩

mutual

theorem tourElement_brings (stack : List String) (root : Element) :
    ∀ (e : Element) (id : ObjectId) (caps : Capabilities) (path : String)
      (leading : List Instruction) (visits : List Visit),
    Touring.Brings a visits (a.tourElement tour stack root e id caps path leading)
      fun _ _ => True
  | .mk name attributes children before trailing text, id, caps, path, leading, visits => by
    have hDeliver (spot : Place) (i : Instruction) (visits : List Visit) :
        Touring.Brings a visits (a.visit spot (.deliver id caps i)) fun _ _ => True :=
      .visit_other visits spot (by simp)
    have hAttributes (spot : Place) (visits : List Visit) :
        Touring.Brings a visits (a.visit spot (.attributes id)) fun _ _ => True :=
      .visit_other visits spot (by simp)
    have hText (spot : Place) (visits : List Visit) :
        Touring.Brings a visits (a.visit spot (.text id caps)) fun _ _ => True :=
      .visit_other visits spot (by simp)
    unfold tourElement
    refine (Touring.Brings.forM fun i _ visits => hDeliver _ i visits).bind fun _ _ _ _ => ?_
    refine (hAttributes _ _).bind fun _ _ _ _ => (hText _ _).bind fun _ _ _ _ => ?_
    refine (tourChildren_brings stack root children id caps path 0 _).bind fun _ _ _ _ => ?_
    refine .forM fun i _ visits => ?_
    split
    · exact tourInclude_brings hTour _ id caps i.data
    · exact hDeliver _ i visits

theorem tourChildren_brings (stack : List String) (root : Element) :
    ∀ (es : List Element) (parent : ObjectId) (caps : Capabilities) (path : String) (index : Nat)
      (visits : List Visit),
    Touring.Brings a visits (a.tourChildren tour stack root es parent caps path index)
      fun _ _ => True
  | [], parent, caps, path, index, visits => by
    unfold tourChildren
    exact .ofPure trivial
  | e :: es, parent, caps, path, index, visits => by
    unfold tourChildren
    refine (tourChild_brings hTour _ parent caps fun id own visits => ?_).bind fun _ _ _ _ => ?_
    · exact tourElement_brings stack root e id own _ (delivered e.leading) visits
    · exact tourChildren_brings stack root es parent caps path (index + 1) _

end

end

/-- Building a root raises the instance that the root was started with. -/
theorem tourRoot_brings (depth : Nat) (stack : List String) (e : Element)
    (given : Option ObjectId) (visits : List Visit) :
    Touring.Brings a visits (a.tourRoot depth stack e given)
      fun view vs => Raised a vs given stack view := by
  induction depth generalizing stack e given visits with
  | zero => exact Touring.Moves.ofThrow
  | succ depth ih =>
    have hStart : Touring.Brings a visits (a.visit ⟨stack, e, e, e.name⟩ (.root given))
        fun made vs => ∃ u ∈ vs, u.spot = ⟨stack, e, e, e.name⟩ ∧ u.attempt = .root given ∧
          u.instance? a = some made :=
      .visit visits _ (.root given) (by simp)
    unfold tourRoot
    refine hStart.bind fun made vs _ hMade => ?_
    obtain ⟨id, caps⟩ := made
    obtain ⟨u, hu, hSpot, hAttempt, hInstance⟩ := hMade
    have hRaised : Raised a vs given stack id := ⟨u, hu, hAttempt, by rw [hSpot], caps, hInstance⟩
    refine (tourElement_brings (fun stack e => ih stack e none) stack e e id caps e.name e.leading
      vs).bind fun _ vs' hPrefix _ => ?_
    exact .ofPure (hRaised.mono hPrefix)

end Assembly

/-- Visits in their order are all accounted for by those in front of them. -/
theorem Orderly.accounted {a : Assembly} {visits front back : List Visit} {v : Visit}
    {end? : Option (List Visit)} (h : Orderly a (.bringing a) visits (front ++ v :: back) end?) :
    v.Accounted a (visits ++ front) := by
  induction front generalizing visits with
  | nil =>
    rw [List.append_nil]
    cases h with
    | failed hDue _ => exact hDue
    | passed hDue _ _ => exact hDue
  | cons u front ih =>
    rw [List.cons_append] at h
    generalize hRest : front ++ v :: back = rest at h
    cases h with
    | failed _ _ => simp at hRest
    | passed _ _ h =>
      subst hRest
      have hLater : v.Accounted a ((visits ++ [u]) ++ front) := ih h
      rwa [List.append_assoc] at hLater

/-- Every view that a tour attempts to append was brought from the place where that is attempted. -/
theorem Assembly.tourTree_accounted (a : Assembly) (given : Option ObjectId) (origin : Origin)
    (p : Progress) {front back : List Visit} {v : Visit}
    (h : (a.tourTree given origin ⟨p, []⟩).2.visits = front ++ v :: back) :
    v.Accounted a front := by
  have hRoot (depth : Nat) (stack : List String) (e : Element) :
      Touring.Moves a (.bringing a) (a.tourRoot depth stack e given) [] fun _ _ => True :=
    (tourRoot_brings depth stack e given []).mono fun _ _ _ => trivial
  obtain ⟨end?, hOrderly, -⟩ := tourTree_orderly hRoot origin p
  rw [h] at hOrderly
  exact hOrderly.accounted

end ViewMarkup
