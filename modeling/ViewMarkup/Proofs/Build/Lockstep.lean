import ViewMarkup.Proofs.Build.AppendSites
import ViewMarkup.Proofs.Build.Places

/-!
# Building in lockstep

Two builds whose documents differ in attributes only, or whose include stacks differ, make the same
attempts one after the other. A comparison says how their states are to correspond, and what has to
become of the second build when the first one fails: nothing in particular, a failure as well, or
the very same one. If single attempts go on as compared, whole builds do.

The first build is toured, so that a comparison may rest on what its visits are like.

## Main results

* `Touring.Mirrors.bind`, `Touring.Mirrors.visit` — tours are compared part by part.
* `Lockstep.tourRoot` — root elements are toured in lockstep, as deep as the includes go.
* `Lockstep.buildTree_given` — so the trees of documents are built in lockstep.
-/

namespace ViewMarkup

open Text

variable {α β γ δ : Type}

/-! ## Comparisons -/

/-- A way of comparing two builds: how the states correspond, and what the second build may end with
where the first one fails. -/
structure Comparison where
  state : Progress → Progress → Prop
  failed : Failure → Progress → Option Failure → Progress → Prop
  /-- The second build may fail in the same way. -/
  same {e : Failure} {p q : Progress} : state p q → failed e p (some e) q
  /-- Failures are compared whether they are placed or not. -/
  placed {e : Failure} {f : Option Failure} {p q : Progress} (path : String) : failed e p f q →
    failed (e.withPath path) p (f.map (Failure.withPath path)) q
  /-- If the second build may go on where the first one fails, it may end in any way. -/
  unbound {e : Failure} {f : Option Failure} {p q q' : Progress} : failed e p none q →
    failed e p f q'

namespace Comparison

variable (c : Comparison)

/-- Two outcomes that are as compared, with answers that correspond. -/
inductive Meets (A : α → β → Prop) :
    Except Failure α × Progress → Except Failure β × Progress → Prop
  | ok {x : α} {y : β} {p q : Progress} : A x y → c.state p q → Meets A (.ok x, p) (.ok y, q)
  | failed {e : Failure} {r : Except Failure β} {p q : Progress} : c.failed e p (failure? r) q →
      Meets A (.error e, p) (r, q)

variable {c} {A A' : α → β → Prop} {B : γ → δ → Prop} {o : Except Failure α × Progress}
  {o' : Except Failure β × Progress}

theorem Meets.mono (h : c.Meets A o o') (hA : ∀ x y, o.1 = .ok x → o'.1 = .ok y → A x y → A' x y) :
    c.Meets A' o o' := by
  cases h with
  | ok hAnswers hState => exact .ok (hA _ _ rfl rfl hAnswers) hState
  | failed hFailed => exact .failed hFailed

theorem Meets.exists_of_ok {x : α} {p : Progress} (h : c.Meets A (.ok x, p) o') :
    ∃ y q, o' = (.ok y, q) ∧ A x y ∧ c.state p q := by
  cases h with
  | ok hAnswers hState => exact ⟨_, _, rfl, hAnswers, hState⟩

/-- Placing the failures on both sides makes no difference. -/
theorem Meets.within (path : String) {x : Building α} {y : Building β} {p q : Progress}
    (h : c.Meets A (x p) (y q)) :
    c.Meets A (Building.within path x p) (Building.within path y q) := by
  rw [Building.run_within, Building.run_within]
  cases hx : x p with
  | mk r p' =>
    cases hy : y q with
    | mk r' q' =>
      rw [hx, hy] at h
      cases h with
      | ok hAnswers hState => exact .ok hAnswers hState
      | failed hFailed =>
        refine .failed ?_
        have hPlaced := c.placed path hFailed
        cases r' <;> exact hPlaced

variable (c) in
/-- Two parts of builds that end as compared from all states that correspond. -/
def Agrees (A : α → β → Prop) (x : Building α) (y : Building β) : Prop :=
  ∀ p q, c.state p q → c.Meets A (x p) (y q)

theorem Agrees.mono {x : Building α} {y : Building β} (h : c.Agrees A x y)
    (hA : ∀ r r', A r r' → A' r r') : c.Agrees A' x y :=
  fun p q hState => (h p q hState).mono fun r r' _ _ => hA r r'

theorem Meets.bind {x : Building α} {y : Building β} {f : α → Building γ} {g : β → Building δ}
    {p q : Progress} (hx : c.Meets A (x p) (y q))
    (hf : ∀ r r', A r r' → c.Agrees B (f r) (g r')) : c.Meets B ((x >>= f) p) ((y >>= g) q) := by
  rw [run_bind, run_bind]
  generalize x p = first at hx ⊢
  generalize y q = second at hx ⊢
  cases hx with
  | ok hAnswers hNext => exact hf _ _ hAnswers _ _ hNext
  | @failed e r p q hFailed =>
    cases r with
    | error e' => exact .failed hFailed
    | ok r' => exact .failed (c.unbound hFailed)

theorem Agrees.bind {x : Building α} {y : Building β} {f : α → Building γ} {g : β → Building δ}
    (hx : c.Agrees A x y) (hf : ∀ r r', A r r' → c.Agrees B (f r) (g r')) :
    c.Agrees B (x >>= f) (y >>= g) :=
  fun p q hState => (hx p q hState).bind hf

theorem Agrees.ofPure {x : α} {y : β} (h : A x y) : c.Agrees A (pure x) (pure y) :=
  fun _ _ hState => .ok h hState

theorem Agrees.forM {ι : Type} {f g : ι → Building Unit} {is : List ι}
    (h : ∀ i ∈ is, c.Agrees Eq (f i) (g i)) : c.Agrees Eq (is.forM f) (is.forM g) := by
  induction is with
  | nil => exact .ofPure rfl
  | cons i is ih =>
    refine (h i List.mem_cons_self).bind fun _ _ _ => ?_
    exact ih fun j hj => h j (List.mem_cons_of_mem i hj)

theorem Agrees.within {x : Building α} {y : Building β} (path : String) (h : c.Agrees A x y) :
    c.Agrees A (Building.within path x) (Building.within path y) :=
  fun p q hState => (h p q hState).within path

/-- A check in front of both parts. -/
theorem Agrees.check {x : Building α} {y : Building β} {b : Prop} [Decidable b] {e : Failure}
    (h : c.Agrees A x y) :
    c.Agrees A (if b then (do throw e; x) else x) (if b then (do throw e; y) else y) := by
  split
  · exact fun p q hState => .failed (c.same hState)
  · exact h

/-- Parts that go on alike end as compared. -/
theorem Agrees.ofAlike {x y : Building α} (h : Alike c.state x y) : c.Agrees Eq x y := by
  intro p q hState
  obtain ⟨hAnswer, hNext⟩ := h p q hState
  revert hAnswer hNext
  cases x p with
  | mk r p' =>
    cases y q with
    | mk r' q' =>
      rintro ⟨⟩ hNext
      cases r with
      | ok _ => exact .ok rfl hNext
      | error _ => exact .failed (c.same hNext)

end Comparison

/-- Two builds whose states correspond as long as the first one succeeds. -/
def Comparison.ofSuccess (R : Progress → Progress → Prop) : Comparison where
  state := R
  failed _ _ _ _ := True
  same _ := trivial
  placed _ _ := trivial
  unbound _ := trivial

/-- Two builds whose states correspond as long as one of them succeeds. -/
def Comparison.ofBoth (R : Progress → Progress → Prop) : Comparison where
  state := R
  failed _ _ f _ := f.isSome = true
  same _ := rfl
  placed _ h := by rwa [Option.isSome_map]
  unbound h := nomatch h

/-- If the second one succeeds, so does the first. -/
theorem Comparison.Meets.exists_of_second {R : Progress → Progress → Prop} {A : α → β → Prop}
    {o : Except Failure α × Progress} {y : β} {q : Progress}
    (h : (Comparison.ofBoth R).Meets A o (.ok y, q)) : ∃ x p, o = (.ok x, p) ∧ A x y ∧ R p q := by
  cases h with
  | ok hAnswers hState => exact ⟨_, _, rfl, hAnswers, hState⟩
  | failed hFailed => cases hFailed

theorem Comparison.Meets.weaken {R S : Progress → Progress → Prop} {A : α → β → Prop}
    {o : Except Failure α × Progress} {o' : Except Failure β × Progress}
    (h : (Comparison.ofBoth R).Meets A o o') (hState : ∀ p q, R p q → S p q) :
    (Comparison.ofBoth S).Meets A o o' := by
  cases h with
  | ok hAnswers hNext => exact .ok hAnswers (hState _ _ hNext)
  | failed hFailed => exact .failed hFailed

/-- Two parts of builds that succeed together end as compared, if they do when both succeed. -/
theorem Comparison.Meets.ofYields {R : Progress → Progress → Prop} {A : α → β → Prop}
    {x : Building α} {y : Building β} {p q : Progress} {P : α → Progress → Prop}
    {Q : β → Progress → Prop} {B B' : Progress → Prop} (hx : Yields x p P B) (hy : Yields y q Q B')
    (hBoth : ∀ r p' r' q', P r p' → Q r' q' → A r r' ∧ R p' q')
    (hFirst : ∀ r p' q', P r p' → ¬ B' q') (hSecond : ∀ p' r' q', B p' → ¬ Q r' q') :
    (Comparison.ofBoth R).Meets A (x p) (y q) := by
  cases hRun : x p with
  | mk r p' =>
    cases hRun' : y q with
    | mk r' q' =>
      cases r with
      | ok r =>
        cases r' with
        | ok r' =>
          obtain ⟨hAnswers, hState⟩ := hBoth r p' r' q' (hx.ok hRun) (hy.ok hRun')
          exact .ok hAnswers hState
        | error e' => exact absurd (hy.error hRun') (hFirst r p' q' (hx.ok hRun))
      | error e =>
        cases r' with
        | ok r' => exact absurd (hy.ok hRun') (hSecond p' r' q' (hx.error hRun))
        | error e' => exact .failed rfl

/-! ## Tours -/

/-- A tour only ever adds visits. -/
def Touring.Grows (x : Touring α) : Prop := ∀ t : Tour, t.visits <+: (x t).2.visits

namespace Touring.Grows

variable {x : Touring α} {f : α → Touring β}

theorem ofPure {r : α} : Grows (pure r) := fun _ => List.prefix_refl _

theorem ofMoves {σ : Type} {a : Assembly} {d : Discipline σ} {s : σ} {F : α → σ → Prop}
    (h : Moves a d x s F) : Grows x := by
  intro t
  obtain ⟨vs, _, hVisits, -⟩ := h t
  exact ⟨vs, hVisits.symm⟩

theorem visit {a : Assembly} {spot : Place} {t : Attempt} : Grows (a.visit spot t) :=
  fun tour => List.prefix_append tour.visits _

theorem bind (hx : Grows x) (hf : ∀ r, Grows (f r)) : Grows (x >>= f) := by
  intro t
  have hFirst := hx t
  rw [run_bind]
  generalize x t = first at hFirst ⊢
  obtain ⟨answer, t'⟩ := first
  cases answer with
  | error e => exact hFirst
  | ok r => exact hFirst.trans (hf r t')

theorem forM {ι : Type} {g : ι → Touring Unit} (h : ∀ i, Grows (g i)) (is : List ι) :
    Grows (is.forM g) := by
  induction is with
  | nil => exact ofPure
  | cons i is ih => exact (h i).bind fun _ => ih

end Touring.Grows

/-- Two tours that end as compared, if all visits of the first one are of some kind. -/
def Touring.Mirrors (c : Comparison) (P : Visit → Prop) (A : α → β → Prop) (x : Touring α)
    (y : Touring β) : Prop :=
  ∀ t u : Tour, c.state t.toProgress u.toProgress → (∀ v ∈ (x t).2.visits, P v) →
    c.Meets A ((x t).1, (x t).2.toProgress) ((y u).1, (y u).2.toProgress)

namespace Touring.Mirrors

variable {c : Comparison} {P : Visit → Prop} {A : α → β → Prop} {B : γ → δ → Prop} {x : Touring α}
  {y : Touring β} {f : α → Touring γ} {g : β → Touring δ}

theorem ofPure {r : α} {r' : β} (h : A r r') : Mirrors c P A (pure r) (pure r') :=
  fun _ _ hState _ => .ok h hState

theorem bind (hx : Mirrors c P A x y) (hGrows : ∀ r, Grows (f r))
    (hf : ∀ r r', A r r' → Mirrors c P B (f r) (g r')) : Mirrors c P B (x >>= f) (y >>= g) := by
  intro t u hState hAll
  have hMeets := hx t u hState
  rw [run_bind] at hAll ⊢
  rw [run_bind]
  generalize x t = first at hAll hMeets ⊢
  generalize y u = second at hMeets ⊢
  obtain ⟨answer, t'⟩ := first
  obtain ⟨answer', u'⟩ := second
  cases answer with
  | error e =>
    cases hMeets hAll with
    | failed hFailed =>
      cases answer' with
      | error e' => exact .failed hFailed
      | ok r' => exact .failed (c.unbound hFailed)
  | ok r =>
    cases hMeets fun v hv => hAll v ((hGrows r t').subset hv) with
    | ok hAnswers hNext => exact hf r _ hAnswers t' u' hNext hAll

theorem forM {ι : Type} {f g : ι → Touring Unit} (hGrows : ∀ i, Grows (f i)) {is : List ι}
    (h : ∀ i ∈ is, Mirrors c P Eq (f i) (g i)) : Mirrors c P Eq (is.forM f) (is.forM g) := by
  induction is with
  | nil => exact ofPure rfl
  | cons i is ih =>
    refine (h i List.mem_cons_self).bind (fun _ => .forM hGrows is) fun _ _ _ => ?_
    exact ih fun j hj => h j (List.mem_cons_of_mem i hj)

/-- Two visits go on as compared if their attempts do. -/
theorem visit {a : Assembly} {spot spot' : Place} (t : Attempt) {A : t.Answer → t.Answer → Prop}
    (hPath : spot'.path = spot.path)
    (h : ∀ p q, c.state p q → P ⟨spot, t, p⟩ → c.Meets A (t.act a spot p) (t.act a spot' q)) :
    Mirrors c P A (a.visit spot t) (a.visit spot' t) := by
  intro tour tour' hState hAll
  have hVisit : P ⟨spot, t, tour.toProgress⟩ :=
    hAll _ (List.mem_append_right tour.visits (List.mem_singleton_self _))
  have hMeets := (h _ _ hState hVisit).within spot.path
  have hRun : ((a.visit spot' t tour').1, (a.visit spot' t tour').2.toProgress) =
      Building.within spot'.path (t.act a spot') tour'.toProgress := rfl
  rw [hRun, hPath]
  exact hMeets

end Touring.Mirrors

/-! ## Lockstep -/

/-- Where an element is met: as the root of a document, as a child, or with its own instance. -/
inductive Seat where
  | root
  | child
  | own

/-- The documents that the resources of a build have. -/
def Progress.Has (p : Progress) (fs : Files) (docs : String → Option Document) : Prop :=
  ∀ name, p.loader.document? fs name = docs name

/-- What is the same and holds the documents is read alike, and stays so. -/
theorem Loader.SameValues.ofEq (fs : Files) (docs : String → Option Document) :
    SameValues fs fs fun l l' => l' = l ∧ ∀ name, l.document? fs name = docs name where
  strings h := by rw [h.1]
  image _ h := by rw [h.1]
  read {l _} h :=
    ⟨by rw [h.1], fun name => (document?_run_loadStrings fs name l).trans (h.2 name)⟩

/-- Single attempts go on as compared, for elements that are related. Elements are related with the
names of the documents that they are reached through, and they differ in attributes only. -/
structure Lockstep (a : Assembly) (c : Comparison) (P : Visit → Prop)
    (docs docs' : String → Option Document)
    (Rel : Seat → List String → List String → Element → Element → Prop) : Prop where
  documents {p q : Progress} : c.state p q → p.Has a.files docs ∧ q.Has a.files docs'
  shape {k : Seat} {s s' : List String} {e e' : Element} : Rel k s s' e e' →
    e'.name = e.name ∧ e'.leading = e.leading ∧ e'.trailing = e.trailing ∧ e'.text = e.text ∧
      List.Forall₂ (Rel .child s s') e.children e'.children
  root {s s' : List String} {e e' : Element} (given : Option ObjectId) : Rel .root s s' e e' →
    c.Agrees (fun m m' => m = m' ∧ Rel .own s s' e e') (a.startRoot e given) (a.startRoot e' given)
  child {s s' : List String} {root e e' : Element} {path : String} {parent : ObjectId}
    {caps : Capabilities} {p q : Progress} : Rel .child s s' e e' → c.state p q →
    P ⟨⟨s, root, e, path⟩, .child parent caps, p⟩ →
    c.Meets (fun m m' => m = m' ∧ (m.isSome → Rel .own s s' e e'))
      (a.start parent caps e (delivered e.leading) p)
      (a.start parent caps e' (delivered e'.leading) q)
  attributes {s s' : List String} {root e e' : Element} {path : String} {id : ObjectId}
    {p q : Progress} : Rel .own s s' e e' → c.state p q →
    P ⟨⟨s, root, e, path⟩, .attributes id, p⟩ →
    c.Meets Eq (a.takeAttributes id e.attributes p) (a.takeAttributes id e'.attributes q)
  find {k : Seat} {s s' : List String} {root e e' : Element} {path name : String}
    {parent : ObjectId} {caps : Capabilities} {p q : Progress} : Rel k s s' e e' →
    name ∈ e.included → c.state p q → P ⟨⟨s, root, e, path⟩, .find parent caps name, p⟩ →
    c.Meets (fun d d' => Rel .root (s ++ [name]) (s' ++ [name]) d.root d'.root)
      (a.findIncluded s parent caps name p) (a.findIncluded s' parent caps name q)
  deliver (id : ObjectId) (caps : Capabilities) (i : Instruction) :
    c.Agrees Eq (a.deliver id caps i) (a.deliver id caps i)
  text (id : ObjectId) (caps : Capabilities) (name text : String) :
    c.Agrees Eq (a.takeText id caps name text) (a.takeText id caps name text)
  append {spot : Place} {parent view : ObjectId} {caps : Capabilities} {p q : Progress} :
    c.state p q → P ⟨spot, .append parent caps view, p⟩ →
    c.Meets Eq (a.append parent caps view p) (a.append parent caps view q)

/-- Includes only add visits. -/
theorem Assembly.tourInclude_grows (a : Assembly) {tour : List String → Element → Touring ObjectId}
    (hBrings : ∀ stack e visits, Touring.Brings a visits (tour stack e)
      fun view vs => Raised a vs none stack view)
    (spot : Place) (parent : ObjectId) (caps : Capabilities) (data : String) :
    Touring.Grows (a.tourInclude tour spot parent caps data) := by
  have hMoves : Touring.Brings a [] (a.tourInclude tour spot parent caps data) fun _ _ => True :=
    a.tourInclude_brings hBrings spot parent caps data
  exact .ofMoves hMoves

namespace Lockstep

variable {a : Assembly} {c : Comparison} {P : Visit → Prop} {docs docs' : String → Option Document}
  {Rel : Seat → List String → List String → Element → Element → Prop} {k : Seat}
  {s s' : List String} {names names' : List String}
  {tour tour' : List String → Element → Touring ObjectId}

mutual

/-- Related elements include the same documents. -/
theorem included_eq (h : Lockstep a c P docs docs' Rel) : ∀ (e : Element) {k : Seat}
    {e' : Element}, Rel k s s' e e' → ∀ n, n ∈ e'.included ↔ n ∈ e.included
  | .mk name attributes children leading trailing text, k, e', hRel => by
    obtain ⟨-, hLeading, hTrailing, -, hChildren⟩ := h.shape hRel
    intro n
    rw [Element.mem_included, Element.mem_included, hLeading, hTrailing]
    exact or_congr_right (h.included_eq_of_children children hChildren n)

theorem included_eq_of_children (h : Lockstep a c P docs docs' Rel) : ∀ (es : List Element)
    {es' : List Element}, List.Forall₂ (Rel .child s s') es es' →
    ∀ n, (∃ e' ∈ es', n ∈ e'.included) ↔ ∃ e ∈ es, n ∈ e.included
  | [], _, .nil, n => by simp
  | e :: es, e' :: es', .cons hHead hTail, n => by
    rw [List.exists_mem_cons_iff, List.exists_mem_cons_iff, h.included_eq e hHead n,
      h.included_eq_of_children es hTail n]

end

section

variable (h : Lockstep a c P docs docs' Rel)
  (hBrings : ∀ stack e visits,
    Touring.Brings a visits (tour stack e) fun view vs => Raised a vs none stack view)
  (hTour : ∀ n d d', n ∈ names → n ∈ names' → n ∉ s → n ∉ s' → docs n = some d →
    docs' n = some d' → Rel .root (s ++ [n]) (s' ++ [n]) d.root d'.root →
    Touring.Mirrors c P Eq (tour (s ++ [n]) d.root) (tour' (s' ++ [n]) d'.root))

include h hBrings hTour

/-- Includes are carried out in lockstep. -/
theorem tourInclude {root root' e e' : Element} {path : String} (hRel : Rel k s s' e e')
    (hNames : e.included ⊆ names) (hNames' : e.included ⊆ names') (parent : ObjectId)
    (caps : Capabilities) {data : String} (hData : trim data ∈ e.included) :
    Touring.Mirrors c P Eq (a.tourInclude tour ⟨s, root, e, path⟩ parent caps data)
      (a.tourInclude tour' ⟨s', root', e', path⟩ parent caps data) := by
  have hFind : Touring.Mirrors c P
      (fun d d' => Rel .root (s ++ [trim data]) (s' ++ [trim data]) d.root d'.root ∧
        trim data ∉ s ∧ trim data ∉ s' ∧ docs (trim data) = some d ∧ docs' (trim data) = some d')
      (a.visit ⟨s, root, e, path⟩ (.find parent caps (trim data)))
      (a.visit ⟨s', root', e', path⟩ (.find parent caps (trim data))) := by
    refine .visit (.find parent caps (trim data)) rfl fun p q hState hVisit => ?_
    refine (h.find hRel hData hState hVisit).mono fun d d' hFound hFound' hRoot => ?_
    have hRun : a.findIncluded s parent caps (trim data) p = (.ok d, _) := Prod.ext hFound rfl
    have hRun' : a.findIncluded s' parent caps (trim data) q = (.ok d', _) := Prod.ext hFound' rfl
    have hStored := ((Assembly.findIncluded_yields (fun _ => True) s (trim data)).ok hRun).2.2
    have hStored' := ((Assembly.findIncluded_yields (fun _ => True) s' (trim data)).ok hRun').2.2
    obtain ⟨hDocs, hDocs'⟩ := h.documents hState
    exact ⟨hRoot, Assembly.not_mem_of_findIncluded hRun, Assembly.not_mem_of_findIncluded hRun',
      (hDocs _).symm.trans hStored, (hDocs' _).symm.trans hStored'⟩
  have hAppend (view : ObjectId) : Touring.Mirrors c P Eq
      (a.visit ⟨s, root, e, path⟩ (.append parent caps view))
      (a.visit ⟨s', root', e', path⟩ (.append parent caps view)) :=
    .visit (.append parent caps view) rfl fun p q hState hVisit => h.append hState hVisit
  unfold Assembly.tourInclude
  refine hFind.bind (fun d => ?_) fun d d' hFound => ?_
  · exact .bind (.ofMoves (hBrings _ _ [])) fun _ => .visit
  · obtain ⟨hRoot, hFresh, hFresh', hStored, hStored'⟩ := hFound
    refine (hTour _ d d' (hNames hData) (hNames' hData) hFresh hFresh' hStored hStored' hRoot).bind
      (fun _ => .visit) fun view _ hView => ?_
    exact hView ▸ hAppend view

/-- Child elements are started in lockstep. -/
theorem tourChild {root root' e e' : Element} {path : String} (hRel : Rel .child s s' e e')
    (hNames : e.included ⊆ names) (hNames' : e.included ⊆ names') (parent : ObjectId)
    (caps : Capabilities) {work work' : ObjectId → Capabilities → Touring Unit}
    (hGrows : ∀ id own, Touring.Grows (work id own))
    (hWork : ∀ id own, Rel .own s s' e e' → Touring.Mirrors c P Eq (work id own) (work' id own)) :
    Touring.Mirrors c P Eq (a.tourChild tour ⟨s, root, e, path⟩ parent caps work)
      (a.tourChild tour' ⟨s', root', e', path⟩ parent caps work') := by
  have hInclude (i : Instruction) :
      Touring.Grows (a.tourInclude tour ⟨s, root, e, path⟩ parent caps i.data) :=
    a.tourInclude_grows hBrings _ parent caps i.data
  have hIncludes : Touring.Mirrors c P Eq
      ((includes e.leading).forM fun i => a.tourInclude tour ⟨s, root, e, path⟩ parent caps i.data)
      ((includes e.leading).forM fun i =>
        a.tourInclude tour' ⟨s', root', e', path⟩ parent caps i.data) := by
    refine .forM hInclude fun i hi => h.tourInclude hBrings hTour hRel hNames hNames' parent caps ?_
    refine Element.mem_included.2 (.inl ⟨i, ?_, target_of_mem_includes hi, rfl⟩)
    exact List.mem_append_left e.trailing (List.mem_filter.1 hi).1
  have hStart : Touring.Mirrors c P (fun m m' => m = m' ∧ (m.isSome → Rel .own s s' e e'))
      (a.visit ⟨s, root, e, path⟩ (.child parent caps))
      (a.visit ⟨s', root', e', path⟩ (.child parent caps)) :=
    .visit (.child parent caps) rfl fun p q hState hVisit => h.child hRel hState hVisit
  unfold Assembly.tourChild
  dsimp only
  rw [(h.shape hRel).2.1]
  refine hIncludes.bind (fun _ => .bind .visit ?_) fun _ _ _ =>
    hStart.bind ?_ fun made? made?' hMade => ?_
  · rintro (_ | made)
    · exact .ofPure
    · exact (hGrows made.1 made.2).bind fun _ => .visit
  · rintro (_ | made)
    · exact .ofPure
    · exact (hGrows made.1 made.2).bind fun _ => .visit
  · obtain ⟨rfl, hOwn⟩ := hMade
    cases made? with
    | none => exact .ofPure rfl
    | some made =>
      refine (hWork made.1 made.2 (hOwn rfl)).bind (fun _ => .visit) fun _ _ _ => ?_
      exact .visit (.append parent caps made.1) rfl fun p q hState hVisit =>
        h.append hState hVisit

mutual

/-- Elements are toured in lockstep. -/
theorem tourElement (root root' : Element) : ∀ (e : Element) {e' : Element} {id : ObjectId}
    {caps : Capabilities} {path : String} {leading : List Instruction}, Rel .own s s' e e' →
    e.included ⊆ names → e.included ⊆ names' →
    Touring.Mirrors c P Eq (a.tourElement tour s root e id caps path leading)
      (a.tourElement tour' s' root' e' id caps path leading)
  | .mk name attributes children before trailing text, .mk name' attributes' children' before'
      trailing' text', id, caps, path, leading, hRel, hNames, hNames' => by
    obtain ⟨hName, hBefore, hTrailing, hText, hChildren⟩ := h.shape hRel
    obtain rfl : name' = name := hName
    obtain rfl : before' = before := hBefore
    obtain rfl : trailing' = trailing := hTrailing
    obtain rfl : text' = text := hText
    have hDeliver (i : Instruction) : Touring.Mirrors c P Eq
        (a.visit ⟨s, root, .mk name' attributes children before' trailing' text', path⟩
          (.deliver id caps i))
        (a.visit ⟨s', root', .mk name' attributes' children' before' trailing' text', path⟩
          (.deliver id caps i)) :=
      .visit (.deliver id caps i) rfl fun p q hState _ => h.deliver id caps i p q hState
    have hAttributes : Touring.Mirrors c P Eq
        (a.visit ⟨s, root, .mk name' attributes children before' trailing' text', path⟩
          (.attributes id))
        (a.visit ⟨s', root', .mk name' attributes' children' before' trailing' text', path⟩
          (.attributes id)) :=
      .visit (.attributes id) rfl fun p q hState hVisit => h.attributes hRel hState hVisit
    have hText : Touring.Mirrors c P Eq
        (a.visit ⟨s, root, .mk name' attributes children before' trailing' text', path⟩
          (.text id caps))
        (a.visit ⟨s', root', .mk name' attributes' children' before' trailing' text', path⟩
          (.text id caps)) :=
      .visit (.text id caps) rfl fun p q hState _ => h.text id caps name' text' p q hState
    have hTrailer (i : Instruction) : Touring.Grows (if i.target = includeTarget then
          a.tourInclude tour ⟨s, root, .mk name' attributes children before' trailing' text', path⟩
            id caps i.data
        else
          a.visit ⟨s, root, .mk name' attributes children before' trailing' text', path⟩
            (.deliver id caps i)) := by
      split
      · exact a.tourInclude_grows hBrings _ id caps i.data
      · exact .visit
    have hChildrenGrow : Touring.Grows (a.tourChildren tour s root children id caps path 0) :=
      .ofMoves (a.tourChildren_brings hBrings s root children id caps path 0 [])
    unfold Assembly.tourElement
    refine .bind (A := Eq) (.forM (fun _ => .visit) fun i _ => hDeliver i) (fun _ => ?_)
      fun _ _ _ => ?_
    · exact .bind .visit fun _ => .bind .visit fun _ => .bind hChildrenGrow fun _ =>
        .forM hTrailer trailing'
    refine hAttributes.bind (fun _ => ?_) fun _ _ _ => hText.bind (fun _ => ?_) fun _ _ _ => ?_
    · exact .bind .visit fun _ => .bind hChildrenGrow fun _ => .forM hTrailer trailing'
    · exact .bind hChildrenGrow fun _ => .forM hTrailer trailing'
    have hMember (d : Element) (hd : d ∈ children) : d.included ⊆
        (Element.mk name' attributes children before' trailing' text').included :=
      fun n hn => Element.mem_included.2 (.inr ⟨d, hd, hn⟩)
    refine .bind (A := Eq) (tourChildren root root' children hChildren
      (fun d hd => List.Subset.trans (hMember d hd) hNames)
      fun d hd => List.Subset.trans (hMember d hd) hNames')
      (fun _ => .forM hTrailer trailing') fun _ _ _ => .forM hTrailer fun i hi => ?_
    split
    · next hTarget =>
      refine h.tourInclude hBrings hTour hRel hNames hNames' id caps ?_
      exact Element.mem_included.2 (.inl ⟨i, List.mem_append_right before' hi, hTarget, rfl⟩)
    · exact hDeliver i

/-- Child elements are toured in lockstep. -/
theorem tourChildren (root root' : Element) : ∀ (es : List Element) {es' : List Element}
    {parent : ObjectId} {caps : Capabilities} {path : String} {index : Nat},
    List.Forall₂ (Rel .child s s') es es' → (∀ e ∈ es, e.included ⊆ names) →
    (∀ e ∈ es, e.included ⊆ names') →
    Touring.Mirrors c P Eq (a.tourChildren tour s root es parent caps path index)
      (a.tourChildren tour' s' root' es' parent caps path index)
  | [], _, parent, caps, path, index, .nil, _, _ => by
    unfold Assembly.tourChildren
    exact .ofPure rfl
  | e :: es, e' :: es', parent, caps, path, index, .cons hHead hTail, hNames, hNames' => by
    have hOwn := hNames e List.mem_cons_self
    have hOwn' := hNames' e List.mem_cons_self
    unfold Assembly.tourChildren
    dsimp only
    rw [(h.shape hHead).1, (h.shape hHead).2.1]
    refine .bind (A := Eq) ?_ (fun _ => .ofMoves
      (a.tourChildren_brings hBrings s root es parent caps path (index + 1) [])) fun _ _ _ => ?_
    · refine h.tourChild hBrings hTour hHead hOwn hOwn' parent caps (fun id own => ?_)
        fun id own hRel => ?_
      · exact .ofMoves (a.tourElement_brings hBrings s root e id own _ _ [])
      · exact tourElement root root' e hRel hOwn hOwn'
    · exact tourChildren root root' es hTail
        (fun d hd => hNames d (List.mem_cons_of_mem e hd))
        fun d hd => hNames' d (List.mem_cons_of_mem e hd)

end

end

/-- Root elements are toured in lockstep, if on both sides there is enough depth for the names that
are mentioned. -/
theorem tourRoot (h : Lockstep a c P docs docs' Rel)
    (hDocs : ∀ n d, docs n = some d → d.root.included ⊆ names)
    (hDocs' : ∀ n d, docs' n = some d → d.root.included ⊆ names') {depth depth' : Nat}
    {e e' : Element} (given : Option ObjectId) (hRel : Rel .root s s' e e')
    (hNames : e.included ⊆ names) (hNames' : e'.included ⊆ names')
    (hFits : Assembly.Fits names depth s) (hFits' : Assembly.Fits names' depth' s') :
    Touring.Mirrors c P Eq (a.tourRoot depth s e given) (a.tourRoot depth' s' e' given) := by
  induction depth generalizing depth' s s' e e' given with
  | zero => exact absurd hFits.depth_pos (Nat.lt_irrefl 0)
  | succ depth ih =>
    obtain ⟨depth', rfl⟩ : ∃ n, depth' = n + 1 := ⟨depth' - 1, by have := hFits'.depth_pos; omega⟩
    have hOwnNames' : e.included ⊆ names' :=
      fun n hn => hNames' ((h.included_eq e hRel n).2 hn)
    have hTour (n : String) (d d' : Document) (hn : n ∈ names) (hn' : n ∈ names') (hFresh : n ∉ s)
        (hFresh' : n ∉ s') (hStored : docs n = some d) (hStored' : docs' n = some d')
        (hRoot : Rel .root (s ++ [n]) (s' ++ [n]) d.root d'.root) :
        Touring.Mirrors c P Eq (a.tourRoot depth (s ++ [n]) d.root none)
          (a.tourRoot depth' (s' ++ [n]) d'.root none) :=
      ih none hRoot (hDocs n d hStored) (hDocs' n d' hStored') (hFits.push hn hFresh)
        (hFits'.push hn' hFresh')
    have hStart : Touring.Mirrors c P (fun m m' => m = m' ∧ Rel .own s s' e e')
        (a.visit ⟨s, e, e, e.name⟩ (.root given)) (a.visit ⟨s', e', e', e'.name⟩ (.root given)) :=
      .visit (.root given) (h.shape hRel).1 fun p q hState _ => h.root given hRel p q hState
    have hBrings (stack : List String) (e : Element) (visits : List Visit) :=
      a.tourRoot_brings depth stack e none visits
    have hGrows (made : ObjectId × Capabilities) : Touring.Grows (do
        a.tourElement (fun stack e => a.tourRoot depth stack e none) s e e made.1 made.2 e.name
          e.leading
        return made.1) :=
      .bind (.ofMoves (a.tourElement_brings hBrings s e e made.1 made.2 e.name e.leading []))
        fun _ => .ofPure
    unfold Assembly.tourRoot
    refine hStart.bind hGrows fun made made' hMade => ?_
    obtain ⟨rfl, hOwn⟩ := hMade
    dsimp only
    rw [(h.shape hRel).1, (h.shape hRel).2.1]
    exact (h.tourElement hBrings hTour e e' e hOwn hNames hOwnNames').bind (fun _ => .ofPure)
      fun _ _ _ => .ofPure rfl

/-! ## Documents -/

/-- The trees of documents are built in lockstep. -/
theorem buildDocument (h : Lockstep a c P docs docs' Rel) (origin origin' : Origin)
    {d d' : Document} (hOrigin : origin.Means docs d) (hOrigin' : origin'.Means docs' d')
    (given : Option ObjectId) (hRel : Rel .root origin.names origin'.names d.root d'.root)
    {p q : Progress} (hState : c.state p q)
    (hVisits : ∀ v ∈ (a.tourDocument origin.names d given ⟨p, []⟩).2.visits, P v) :
    c.Meets Eq (a.buildDocument origin.names d given p)
      (a.buildDocument origin'.names d' given q) := by
  have hRun (stack : List String) (d : Document) (p : Progress) :
      a.tourDocument stack d given ⟨p, []⟩ =
        a.tourRoot (includeDepth a.files p.loader d.root) stack d.root given ⟨p, []⟩ := by
    unfold Assembly.tourDocument
    rw [run_bind, run_get]
  have hMentioned {docs : String → Option Document} {p : Progress} (d : Document)
      (hDocs : ∀ name, p.loader.document? a.files name = docs name) (name : String)
      (other : Document) (hFound : docs name = some other) :
      other.root.included ⊆ (d.root.included ++ p.loader.included a.files).eraseDups := by
    intro n hn
    rw [← hDocs name] at hFound
    exact List.mem_eraseDups.2 (List.mem_append_right _ (Loader.mem_included hFound hn))
  have hOwn (d : Document) (p : Progress) : d.root.included ⊆
      (d.root.included ++ p.loader.included a.files).eraseDups :=
    fun n hn => List.mem_eraseDups.2 (List.mem_append_left _ hn)
  obtain ⟨hDocs, hDocs'⟩ := h.documents hState
  obtain ⟨vs, hFollows⟩ := Assembly.tourDocument_follows given hOrigin ⟨p, []⟩ hDocs
  obtain ⟨vs', hFollows'⟩ := Assembly.tourDocument_follows given hOrigin' ⟨q, []⟩ hDocs'
  have hMirrors : Touring.Mirrors c P Eq
      (a.tourRoot (includeDepth a.files p.loader d.root) origin.names d.root given)
      (a.tourRoot (includeDepth a.files q.loader d'.root) origin'.names d'.root given) :=
    h.tourRoot (hMentioned d hDocs) (hMentioned d' hDocs') given hRel (hOwn d p) (hOwn d' q)
      (.start _) (.start _)
  have hMeets := hMirrors ⟨p, []⟩ ⟨q, []⟩ hState (by rwa [← hRun])
  rw [← hRun, ← hRun, hFollows.run, hFollows'.run] at hMeets
  exact hMeets

/-- So are those of documents that are given. -/
theorem buildTree_given (h : Lockstep a c P docs docs' Rel) {d d' : Document}
    (given : Option ObjectId) (hRel : Rel .root [] [] d.root d'.root) {p q : Progress}
    (hState : c.state p q) (hVisits : ∀ v ∈ (a.tourTree given (.given d) ⟨p, []⟩).2.visits, P v) :
    c.Meets Eq (a.buildTree given (.given d) p) (a.buildTree given (.given d') q) :=
  h.buildDocument (.given d) (.given d') rfl rfl given hRel hState hVisits

end Lockstep

/-- A build that succeeds has built its tree and then given the owner what is its own. -/
theorem Assembly.run_build_eq_ok_iff {a : Assembly} {root : Option ObjectId} {origin : Origin}
    {view : ObjectId} {p q : Progress} : a.build root origin p = (.ok view, q) ↔
      ∃ p', a.buildTree root origin p = (.ok view, p') ∧ a.commit p' = (.ok (), q) := by
  constructor
  · intro h
    obtain ⟨view', p', hTree, hRest⟩ := exists_of_run_bind_eq_ok h
    obtain ⟨_, q', hCommit, hEnd⟩ := exists_of_run_bind_eq_ok hRest
    cases hEnd
    exact ⟨p', hTree, hCommit⟩
  · rintro ⟨p', hTree, hCommit⟩
    exact (run_bind_of_eq_ok hTree).trans (run_bind_of_eq_ok hCommit)

end ViewMarkup
