import ViewMarkup.Proofs.Build.DocumentsAtHand
import ViewMarkup.Proofs.Build.Lockstep
import ViewMarkup.Proofs.Build.Thinned
import ViewMarkup.Proofs.Component.Ahead

/-!
# Building thinned documents

What is left of a document, when idle instructions are deleted, is built in lockstep with it, from
resources with documents that may be thinned out as well. The states of the two builds differ in
their resources only. As long as no look-up fails, names stand for what they stood for before the
build, so what is idle was settled then.

## Main results

* `Assembly.start_paired`, `Assembly.startRoot_paired` — elements are started alike, and the rest of
  each is thinned out for its own instance.
* `Assembly.process_paired`, `Assembly.buildRoot_paired` — thinned elements are built in lockstep.
* `Assembly.build_paired` — so are thinned documents.
-/

namespace ViewMarkup

open Text

/-! ## Resources -/

/-- Resources in different files, with the same strings and images, and with the documents that are
given. -/
structure Loader.Offers (fs fs' : Files) (docs docs' : String → Except Failure Document)
    (l l' : Loader) : Prop where
  strings : ((loadStrings fs').run l').1 = ((loadStrings fs).run l).1
  image (name : String) : l'.image fs' name = l.image fs name
  document (name : String) : ((loadDocument fs name).run l).1 = docs name
  document' (name : String) : ((loadDocument fs' name).run l').1 = docs' name

namespace Loader.Offers

variable {fs fs' : Files} {docs docs' : String → Except Failure Document} {l l' : Loader}

/-- Nothing changes about what resources offer if their answers stay the same. -/
theorem keep {m m' : Loader} (h : Offers fs fs' docs docs' l l') (hAgrees : l.Agrees fs m)
    (hAgrees' : l'.Agrees fs' m')
    (hKept : ∀ name, ((loadDocument fs name).run m).1 = ((loadDocument fs name).run l).1)
    (hKept' : ∀ name, ((loadDocument fs' name).run m').1 = ((loadDocument fs' name).run l').1) :
    Offers fs fs' docs docs' m m' where
  strings := hAgrees'.strings.trans (h.strings.trans hAgrees.strings.symm)
  image name := (hAgrees'.image name).trans ((h.image name).trans (hAgrees.image name).symm)
  document name := (hKept name).trans (h.document name)
  document' name := (hKept' name).trans (h.document' name)

private theorem sameValues : SameValues fs fs' (Offers fs fs' docs docs') where
  strings h := h.strings
  image name h := h.image name
  read {l l'} h := h.keep (.loadStrings fs l) (.loadStrings fs' l')
    (fun name => answer_run_loadStrings fs name l) fun name => answer_run_loadStrings fs' name l'

private theorem load (h : Offers fs fs' docs docs' l l') (name : String) :
    Offers fs fs' docs docs' ((loadDocument fs name).run l).2 ((loadDocument fs' name).run l').2 :=
  h.keep (.loadDocument fs name l) (.loadDocument fs' name l')
    (fun other => answer_run_loadDocument fs name other l)
    fun other => answer_run_loadDocument fs' name other l'

end Loader.Offers

/-! ## Pairs of builds -/

/-- Two builds that have come equally far with different resources. Names still stand for what they
stood for with some registries. -/
inductive Progress.Paired (b : Builder) (files : Files) (rs : Registries)
    (docs docs' : String → Except Failure Document) : Progress → Progress → Prop
  | mk {p : Progress} {l : Loader} : Loader.Offers b.files files docs docs' p.loader l →
      (∀ name, b.settled p.registries name = b.settled rs name) →
      Paired b files rs docs docs' p (p.withLoader l)

namespace Progress.Paired

variable {b : Builder} {files : Files} {rs : Registries}
  {docs docs' : String → Except Failure Document} {p q : Progress}

theorem exists_eq (h : Paired b files rs docs docs' p q) : ∃ l, q = p.withLoader l := by
  cases h with
  | mk _ _ => exact ⟨_, rfl⟩

theorem offers (h : Paired b files rs docs docs' p q) :
    Loader.Offers b.files files docs docs' p.loader q.loader := by
  cases h with
  | mk hOffers _ => exact hOffers

/-- The resources are all that differs. -/
theorem outlying : Outlying (Paired b files rs docs docs') := by
  refine ⟨fun h => ?_, fun {p q} p' h hRegistries hLoader => ?_⟩
  · cases h with
    | mk _ _ => exact ⟨_, _, rfl⟩
  · cases h with
    | @mk l hOffers hSettled =>
      rw [← hLoader] at hOffers
      rw [← hRegistries] at hSettled
      show Paired b files rs docs docs' p' { p' with registries := p.registries, loader := l }
      rw [← hRegistries]
      exact .mk hOffers hSettled

/-- A value is fetched alike. -/
theorem assign (sc : Scene) (target : Value) (name raw : String) :
    Alike (Paired b files rs docs docs')
      (Building.fetching (sc.assign b.decoder b.files target name raw))
      (Building.fetching (sc.assign b.decoder files target name raw)) := by
  refine .ofFetching (sc.assign_alike _ Loader.Offers.sameValues _ _ _) offers
    fun {p q l l'} h hOffers => ?_
  cases h with
  | mk _ hSettled => exact .mk (p := p.withLoader l) hOffers hSettled

end Progress.Paired

/-- Two builds whose resources are all that differs, and which fail with the same failure. -/
def Comparison.paired (b : Builder) (files : Files) (rs : Registries)
    (docs docs' : String → Except Failure Document) : Comparison where
  state := Progress.Paired b files rs docs docs'
  failed e p f q := f = some e ∧ ∃ l, q = p.withLoader l
  same hState := ⟨rfl, hState.exists_eq⟩
  placed _ hFailed := ⟨by rw [hFailed.1]; rfl, hFailed.2⟩
  unbound hFailed := nomatch hFailed.1

/-- The second build ends like the first one, with other resources. -/
theorem Comparison.Meets.exists_withLoader {α : Type} {b : Builder} {files : Files}
    {rs : Registries} {docs docs' : String → Except Failure Document}
    {o o' : Except Failure α × Progress}
    (h : (Comparison.paired b files rs docs docs').Meets Eq o o') :
    ∃ l, o' = (o.1, o.2.withLoader l) := by
  cases h with
  | ok hAnswers hState =>
    obtain ⟨l, rfl⟩ := Progress.Paired.exists_eq hState
    exact ⟨l, by rw [hAnswers]⟩
  | @failed e answer p q hFailed =>
    obtain ⟨hSame, l, rfl⟩ := hFailed
    cases answer with
    | ok _ => cases hSame
    | error e' =>
      cases hSame
      exact ⟨l, rfl⟩

/-! ## Attempts -/

namespace Assembly

variable {a : Assembly} {files : Files} {w : World}
  {docs docs' : String → Except Failure Document} {id parent : ObjectId} {caps : Capabilities}

/-- A name is looked up with the answer that is settled. -/
theorem resolve_paired (name : String) :
    (Comparison.paired a.toBuilder files w.registries docs docs').Agrees
      (fun c? c?' => c? = c?' ∧ a.settled w.registries name = .ok c?)
      (Building.registering (a.library.resolve a.registry name))
      (Building.registering (a.library.resolve a.registry name)) := by
  intro p q h
  cases h with
  | @mk l hOffers hSettled =>
    cases hRun : (a.library.resolve a.registry name).run p.registries with
    | mk answer rs =>
      rw [run_registering hRun, run_registering (p := p.withLoader l) hRun]
      cases answer with
      | error e => exact .failed ⟨rfl, l, rfl⟩
      | ok c? =>
        have hAnswer : ((a.library.resolve a.registry name).run p.registries).1 = .ok c? := by
          rw [hRun]
        refine .ok ⟨rfl, (hSettled name).symm.trans hAnswer⟩
          (.mk (p := { p with registries := rs }) hOffers fun other => ?_)
        have hKept := Registries.answer_resolve hAnswer other
        rw [hRun] at hKept
        exact hKept.trans (hSettled other)

/-- A document is asked for, of which the second one is what is left. -/
theorem load_paired {root : Option ObjectId} {name : String}
    (h : Document.Thinned a.toBuilder w root (docs name) (docs' name)) :
    (Comparison.paired a.toBuilder files w.registries docs docs').Agrees
      (fun d d' => docs name = .ok d ∧ docs' name = .ok d')
      (Building.loading (loadDocument a.files name))
      (Building.loading (loadDocument files name)) := by
  intro p q hState
  cases hState with
  | @mk l hOffers hSettled =>
    have hNext := hOffers.load name
    have hAnswer := hOffers.document name
    have hAnswer' := hOffers.document' name
    cases hRun : (loadDocument a.files name).run p.loader with
    | mk answer l₁ =>
      cases hRun' : (loadDocument files name).run l with
      | mk answer' l₂ =>
        rw [hRun, hRun'] at hNext
        rw [hRun] at hAnswer
        rw [hRun'] at hAnswer'
        rw [run_loading hRun, run_loading (p := p.withLoader l) hRun']
        rw [← hAnswer, ← hAnswer'] at h
        cases h with
        | found _ =>
          exact .ok ⟨hAnswer.symm, hAnswer'.symm⟩ (.mk (p := p.withLoader l₁) hNext hSettled)
        | failed e => exact .failed ⟨rfl, l₂, rfl⟩

private theorem findIncluded_paired {stack : List String}
    (hDocs : ∀ n, n ∉ stack → Document.Thinned a.toBuilder w none (docs n) (docs' n))
    (name : String) : (Comparison.paired a.toBuilder files w.registries docs docs').Agrees
      (fun d d' => name ∉ stack ∧ docs name = .ok d ∧ docs' name = .ok d')
      (a.findIncluded stack parent caps name)
      ({ a with files }.findIncluded stack parent caps name) := by
  rw [findIncluded_eq, findIncluded_eq]
  split
  · exact fun p q hState => .failed ⟨rfl, hState.exists_eq⟩
  · split
    · exact fun p q hState => .failed ⟨rfl, hState.exists_eq⟩
    · next hFresh =>
      refine .bind (.ofAlike (Progress.Paired.outlying.counting.checkAppend (Store.unseen_eq _)))
        fun _ _ _ => ?_
      exact (load_paired (hDocs name hFresh)).mono fun _ _ h => ⟨hFresh, h⟩

/-- What the children of an instance stand for is started, and the rest of each is thinned out for
the instance that it then has. -/
theorem start_paired {e e' : Element}
    (h : Element.ThinnedChild a.toBuilder w.registries caps e e') :
    (Comparison.paired a.toBuilder files w.registries docs docs').Agrees
      (fun m m' => m = m' ∧ ∀ made, m = some made →
        Element.Thinned a.toBuilder w.registries made.2 e e')
      (a.start parent caps e (delivered e.leading))
      ({ a with files }.start parent caps e' (delivered e'.leading)) := by
  have hOutlying : Outlying (Progress.Paired a.toBuilder files w.registries docs docs') :=
    Progress.Paired.outlying
  unfold start
  rw [componentOf_eq, componentOf_eq, h.name_eq]
  refine (resolve_paired e.name).bind ?_
  rintro c? _ ⟨rfl, hSettled⟩
  cases c? with
  | some c =>
    refine .bind (.ofAlike (hOutlying.counting.checkAppend (Store.unseen_eq _))) fun _ _ _ => ?_
    refine .bind (.ofAlike (hOutlying.framed.instantiate (Store.unseen_eq _) c)) ?_
    rintro id _ rfl
    refine .ofPure ⟨rfl, ?_⟩
    rintro _ ⟨⟩
    exact h.of_made hSettled
  | none =>
    obtain ⟨leading', rfl, hLeading⟩ := h.of_raw hSettled
    have hSame : a.deliverAll parent caps (delivered leading') =
        a.deliverAll parent caps (delivered e.leading) :=
      (deliverAll_thinned hLeading.delivered).symm
    refine .check <| .bind (A := Eq) ?_ fun _ _ _ => .bind (A := Eq) ?_ fun _ _ _ => ?_
    · refine .ofAlike ?_
      show Alike _ _ (a.deliverAll parent caps (delivered leading'))
      rw [hSame]
      exact hOutlying.framed.deliverAll (Store.unseen_eq _) _
    · exact .ofAlike (hOutlying.framed.deliverRaw (Store.unseen_eq _) rfl rfl rfl rfl rfl)
    · exact .ofPure ⟨rfl, fun _ hMade => nomatch hMade⟩

/-- The object that a root element describes may contain what is settled. -/
theorem rootInstance_paired {root : Option ObjectId} {e e' : Element} (hName : e'.name = e.name)
    {p q : Progress} (hState : Progress.Paired a.toBuilder files w.registries docs docs' p q)
    (hClass : ∀ r, root = some r → p.store.class? r = w.store.class? r) :
    (Comparison.paired a.toBuilder files w.registries docs docs').Meets
      (fun m m' => m = m' ∧ a.rootCapabilities? w root e.name = some m.2)
      (a.rootInstance e root p) ({ a with files }.rootInstance e' root q) := by
  have hOutlying : Outlying (Progress.Paired a.toBuilder files w.registries docs docs') :=
    Progress.Paired.outlying
  unfold rootInstance Builder.rootCapabilities?
  rw [hName]
  dsimp only
  split
  · cases root with
    | none => exact .failed ⟨rfl, hState.exists_eq⟩
    | some r =>
      obtain ⟨l, rfl⟩ := hState.exists_eq
      dsimp only
      rw [run_bind, run_bind, run_get, run_get, Option.bind_some]
      dsimp only [Progress.withLoader]
      rw [hClass r rfl]
      cases w.store.class? r with
      | none => exact .ok ⟨rfl, rfl⟩ hState
      | some cls =>
        dsimp only
        cases a.library.classes.capabilities cls with
        | error e => exact .failed (e := .mistyped e) (r := .error (.mistyped e)) ⟨rfl, l, rfl⟩
        | ok own => exact .ok (x := (r, own)) (y := (r, own)) ⟨rfl, rfl⟩ hState
  · refine Comparison.Meets.bind (resolve_paired e.name p q hState) ?_
    rintro c? _ ⟨rfl, hSettled⟩ p q hState
    cases c? with
    | none => exact .failed ⟨rfl, hState.exists_eq⟩
    | some c =>
      rw [hSettled]
      cases root with
      | none =>
        refine Comparison.Agrees.bind
          (.ofAlike (hOutlying.framed.instantiate (Store.unseen_eq _) c)) ?_
          p q hState
        rintro id _ rfl
        exact .ofPure ⟨rfl, rfl⟩
      | some r =>
        obtain ⟨l, rfl⟩ := hState.exists_eq
        dsimp only
        rw [run_bind, run_bind, run_get, run_get]
        dsimp only [Progress.withLoader]
        split
        · exact .ok ⟨rfl, rfl⟩ hState
        · exact .failed ⟨rfl, l, rfl⟩

/-- What is left of a root element is started like it. -/
theorem startRoot_paired {root : Option ObjectId} {e e' : Element}
    (h : Element.ThinnedRoot a.toBuilder w root e e') {p q : Progress}
    (hState : Progress.Paired a.toBuilder files w.registries docs docs' p q)
    (hClass : ∀ r, root = some r → p.store.class? r = w.store.class? r) :
    (Comparison.paired a.toBuilder files w.registries docs docs').Meets
      (fun m m' => m = m' ∧ Element.Thinned a.toBuilder w.registries m.2 e e')
      (a.startRoot e root p) ({ a with files }.startRoot e' root q) := by
  have hAny : e'.leading.any (·.target = includeTarget) =
      e.leading.any (·.target = includeTarget) := by
    have hIncludes (is : List Instruction) : is.any (·.target = includeTarget) =
        (includes is).any fun _ => true := by
      simp [includes]
    rw [hIncludes, h.includes_eq, ← hIncludes]
  unfold startRoot
  rw [hAny]
  refine (rootInstance_paired h.name_eq hState hClass).bind ?_
  rintro made _ ⟨rfl, hMade⟩
  exact .check (.ofPure ⟨rfl, h.of_made hMade⟩)

/-! ## Elements -/

section

variable {names stack : List String} {expand expand' : Expansion}
  (hDocs : ∀ n, n ∉ stack → Document.Thinned a.toBuilder w none (docs n) (docs' n))
  (hExpand : ∀ n ∈ names, n ∉ stack → ∀ d d', docs n = .ok d → docs' n = .ok d' →
    Element.ThinnedRoot a.toBuilder w none d.root d'.root →
    (Comparison.paired a.toBuilder files w.registries docs docs').Agrees Eq
      (expand (stack ++ [n]) d.root) (expand' (stack ++ [n]) d'.root))

include hDocs hExpand

/-- Includes are carried out in lockstep. -/
theorem takeInclude_paired (path : String) {data : String} (hName : trim data ∈ names) :
    (Comparison.paired a.toBuilder files w.registries docs docs').Agrees Eq
      (a.takeInclude expand stack parent caps path data)
      ({ a with files }.takeInclude expand' stack parent caps path data) := by
  unfold takeInclude
  refine ((findIncluded_paired hDocs (trim data)).within path).bind ?_
  rintro d d' ⟨hFresh, hFound, hFound'⟩
  have hRoot : Element.ThinnedRoot a.toBuilder w none d.root d'.root := by
    have hThinned := hDocs _ hFresh
    rw [hFound, hFound'] at hThinned
    cases hThinned with
    | found hRoot => exact hRoot
  refine (hExpand _ hName hFresh d d' hFound hFound' hRoot).bind ?_
  rintro view _ rfl
  exact (Comparison.Agrees.ofAlike
    (Progress.Paired.outlying.counting.append (Store.unseen_eq _))).within path

/-- So are the instructions after the last child. -/
theorem takeTrailing_paired (path : String) {is is' : List Instruction}
    (h : Instruction.Thinned a.settings caps is is')
    (hNames : ∀ i ∈ is, i.target = includeTarget → trim i.data ∈ names) :
    (Comparison.paired a.toBuilder files w.registries docs docs').Agrees Eq
      (a.takeTrailing expand stack id caps path is)
      ({ a with files }.takeTrailing expand' stack id caps path is') := by
  have hSame : Assembly.takeTrailing { a with files } expand' stack id caps path is' =
      Assembly.takeTrailing { a with files } expand' stack id caps path is :=
    (takeTrailing_thinned (a := { a with files }) h expand' stack path).symm
  rw [hSame]
  refine .forM fun i hi => ?_
  split
  · next hTarget => exact takeInclude_paired hDocs hExpand path (hNames i hi hTarget)
  · exact (Comparison.Agrees.ofAlike
      (Progress.Paired.outlying.framed.deliver (Store.unseen_eq _) i)).within path

/-- Child elements are built in lockstep, if their instances are worked on like that. -/
theorem takeChild_paired (path : String) {e e' : Element}
    (h : Element.ThinnedChild a.toBuilder w.registries caps e e')
    (hNames : e.included ⊆ names)
    {work work' : ObjectId → Capabilities → List Instruction → Building Unit}
    (hWork : ∀ id own, Element.Thinned a.toBuilder w.registries own e e' →
      (Comparison.paired a.toBuilder files w.registries docs docs').Agrees Eq
        (work id own (delivered e.leading)) (work' id own (delivered e'.leading))) :
    (Comparison.paired a.toBuilder files w.registries docs docs').Agrees Eq
      (a.takeChild expand stack parent caps path e work)
      ({ a with files }.takeChild expand' stack parent caps path e' work') := by
  have hIncludes : (Comparison.paired a.toBuilder files w.registries docs docs').Agrees
      (fun is is' => is = delivered e.leading ∧ is' = delivered e'.leading)
      (a.takeIncludes expand stack parent caps path e.leading)
      ({ a with files }.takeIncludes expand' stack parent caps path e'.leading) := by
    rw [takeIncludes_eq, takeIncludes_eq, h.includes_eq]
    refine .bind (takeTrailing_paired hDocs hExpand path (.refl _) fun i hi hTarget => ?_)
      fun _ _ _ => .ofPure ⟨rfl, rfl⟩
    refine hNames (Element.mem_included.2 (.inl ⟨i, ?_, hTarget, rfl⟩))
    exact List.mem_append_left e.trailing (List.mem_filter.1 hi).1
  unfold takeChild
  refine hIncludes.bind ?_
  rintro _ _ ⟨rfl, rfl⟩
  refine ((start_paired h).within path).bind ?_
  rintro made? _ ⟨rfl, hMade⟩
  cases made? with
  | none => exact .ofPure rfl
  | some made =>
    refine (hWork made.1 made.2 (hMade made rfl)).bind fun _ _ _ => ?_
    exact (Comparison.Agrees.ofAlike
      (Progress.Paired.outlying.counting.append (Store.unseen_eq _))).within path

mutual

/-- What is left of an element is built in lockstep with it. -/
theorem process_paired : ∀ (e : Element) {e' : Element} {id : ObjectId} {own : Capabilities}
    {path : String} {leading leading' : List Instruction},
    Element.Thinned a.toBuilder w.registries own e e' →
    Instruction.Thinned a.settings own leading leading' → e.included ⊆ names →
    (Comparison.paired a.toBuilder files w.registries docs docs').Agrees Eq
      (a.process expand stack e id own path leading)
      ({ a with files }.process expand' stack e' id own path leading')
  | .mk name attributes children before trailing text, _, id, own, path, leading, leading',
      .mk _ hChildren hTrailing, hLeading, hNames => by
    have hOutlying : Outlying (Progress.Paired a.toBuilder files w.registries docs docs') :=
      Progress.Paired.outlying
    have hDeliver : Assembly.deliverAll { a with files } id own leading' =
        a.deliverAll id own leading :=
      (deliverAll_thinned (a := { a with files }) hLeading).symm
    unfold process
    rw [hDeliver]
    refine .bind (A := Eq) (.within path ?_) fun _ _ _ => .bind (A := Eq) ?_ fun _ _ _ => ?_
    · refine .bind (.ofAlike (hOutlying.framed.deliverAll (Store.unseen_eq _) _)) fun _ _ _ => ?_
      refine .bind (.ofAlike (hOutlying.owing.takeAttributes Progress.Paired.assign _))
        fun _ _ _ => ?_
      exact .ofAlike (hOutlying.framed.takeText (Store.unseen_eq _) _ _)
    · refine processChildren_paired children hChildren fun c hc n hn => hNames ?_
      exact Element.mem_included.2 (.inr ⟨c, hc, hn⟩)
    · refine takeTrailing_paired hDocs hExpand path hTrailing fun i hi hTarget => hNames ?_
      exact Element.mem_included.2
        (.inl ⟨i, List.mem_append_right before hi, hTarget, rfl⟩)

/-- So is what is left of child elements. -/
theorem processChildren_paired : ∀ (es : List Element) {es' : List Element} {parent : ObjectId}
    {caps : Capabilities} {path : String} {index : Nat},
    Element.ThinnedAll a.toBuilder w.registries caps es es' →
    (∀ e ∈ es, e.included ⊆ names) →
    (Comparison.paired a.toBuilder files w.registries docs docs').Agrees Eq
      (a.processChildren expand stack es parent caps path index)
      ({ a with files }.processChildren expand' stack es' parent caps path index)
  | [], _, parent, caps, path, index, .nil, _ => by
    unfold processChildren
    exact .ofPure rfl
  | e :: es, _, parent, caps, path, index, .cons hHead hTail, hNames => by
    have hOwn := hNames e List.mem_cons_self
    unfold processChildren
    rw [hHead.name_eq]
    refine .bind (takeChild_paired hDocs hExpand _ hHead hOwn fun id own hThinned => ?_)
      fun _ _ _ => ?_
    · exact process_paired e hThinned hThinned.leading.delivered hOwn
    · exact processChildren_paired es hTail fun d hd => hNames d (List.mem_cons_of_mem e hd)

end

end

/-! ## Roots -/

/-- What is left of a root element is built in lockstep with it, if on both sides there is enough
depth for the names that are mentioned. -/
theorem buildRoot_paired {names names' : List String}
    (hMentioned : ∀ n d, docs n = .ok d → d.root.included ⊆ names)
    (hMentioned' : ∀ n d, docs' n = .ok d → d.root.included ⊆ names') {depth depth' : Nat}
    {stack : List String}
    (hDocs : ∀ n, n ∉ stack → Document.Thinned a.toBuilder w none (docs n) (docs' n))
    {root : Option ObjectId} {e e' : Element} (h : Element.ThinnedRoot a.toBuilder w root e e')
    (hNames : e.included ⊆ names) (hNames' : e'.included ⊆ names')
    (hFits : Fits names depth stack) (hFits' : Fits names' depth' stack) {p q : Progress}
    (hState : Progress.Paired a.toBuilder files w.registries docs docs' p q)
    (hClass : ∀ r, root = some r → p.store.class? r = w.store.class? r) :
    (Comparison.paired a.toBuilder files w.registries docs docs').Meets Eq
      (a.buildRoot depth stack e root p)
      ({ a with files }.buildRoot depth' stack e' root q) := by
  induction depth generalizing depth' stack root e e' p q with
  | zero => exact absurd hFits.depth_pos (Nat.lt_irrefl 0)
  | succ depth ih =>
    obtain ⟨depth', rfl⟩ : ∃ n, depth' = n + 1 := ⟨depth' - 1, by have := hFits'.depth_pos; omega⟩
    have hExpand : ∀ n ∈ e.included, n ∉ stack → ∀ d d', docs n = .ok d → docs' n = .ok d' →
        Element.ThinnedRoot a.toBuilder w none d.root d'.root →
        (Comparison.paired a.toBuilder files w.registries docs docs').Agrees Eq
          (a.buildRoot depth (stack ++ [n]) d.root none)
          ({ a with files }.buildRoot depth' (stack ++ [n]) d'.root none) := by
      intro n hn hFresh d d' hFound hFound' hRoot p q hState
      have hn' : n ∈ e'.included := (h.included_iff n).2 hn
      refine ih (fun m hm => hDocs m fun hOld => hm (List.mem_append_left _ hOld)) hRoot
        (hMentioned n d hFound) (hMentioned' n d' hFound') (hFits.push (hNames hn) hFresh)
        (hFits'.push (hNames' hn') hFresh) hState fun r hr => nomatch hr
    unfold buildRoot
    rw [h.name_eq]
    refine ((startRoot_paired h hState hClass).within e.name).bind ?_
    rintro made _ ⟨rfl, hOwn⟩
    exact .bind (process_paired hDocs hExpand e hOwn hOwn.leading (List.Subset.refl _))
      fun _ _ _ => .ofPure rfl

/-! ## Documents -/

/-- What is left of a document is built in lockstep with it. -/
theorem buildDocument_paired {stack : List String} {root : Option ObjectId} {d d' : Document}
    (hDocs : ∀ n, n ∉ stack → Document.Thinned a.toBuilder w none (docs n) (docs' n))
    (h : Element.ThinnedRoot a.toBuilder w root d.root d'.root) {p q : Progress}
    (hState : Progress.Paired a.toBuilder files w.registries docs docs' p q)
    (hClass : ∀ r, root = some r → p.store.class? r = w.store.class? r) :
    (Comparison.paired a.toBuilder files w.registries docs docs').Meets Eq
      (a.buildDocument stack d root p) ({ a with files }.buildDocument stack d' root q) := by
  have hMentioned {fs : Files} {docs : String → Except Failure Document} {l : Loader}
      (hLoads : ∀ name, ((loadDocument fs name).run l).1 = docs name) (d : Document) (n : String)
      (other : Document) (hFound : docs n = .ok other) :
      other.root.included ⊆ (d.root.included ++ l.included fs).eraseDups := by
    intro m hm
    have hHas : l.document? fs n = some other := by
      rw [Loader.document?, hLoads, hFound]
      rfl
    exact List.mem_eraseDups.2 (List.mem_append_right _ (Loader.mem_included hHas hm))
  have hOwn (fs : Files) (l : Loader) (d : Document) :
      d.root.included ⊆ (d.root.included ++ l.included fs).eraseDups :=
    fun n hn => List.mem_eraseDups.2 (List.mem_append_left _ hn)
  rw [run_buildDocument, run_buildDocument]
  exact buildRoot_paired (hMentioned hState.offers.document d)
    (hMentioned hState.offers.document' d') hDocs h (hOwn a.files p.loader d)
    (hOwn files q.loader d') (.start stack) (.start stack) hState hClass

/-- A thinned document is built in lockstep with what it was, and so is what the owner gets. -/
theorem build_paired {root : Option ObjectId} {origin origin' : Origin}
    (hDocs : ∀ n, n ∉ origin.names → Document.Thinned a.toBuilder w none (docs n) (docs' n))
    (h : origin.Thinned a.toBuilder w root docs docs' origin') {p q : Progress}
    (hState : Progress.Paired a.toBuilder files w.registries docs docs' p q)
    (hStore : p.store = w.store) :
    (Comparison.paired a.toBuilder files w.registries docs docs').Meets Eq
      (a.build root origin p) ({ a with files }.build root origin' q) := by
  have hTree : (Comparison.paired a.toBuilder files w.registries docs docs').Meets Eq
      (a.buildTree root origin p) ({ a with files }.buildTree root origin' q) := by
    cases h with
    | given hRoot =>
      exact buildDocument_paired hDocs hRoot hState fun r _ => by rw [hStore]
    | @named name hDoc =>
      have hLoaded := load_paired hDoc p q hState
      have hKept : (Building.loading (loadDocument a.files name) p).2.store = p.store := rfl
      dsimp only [buildTree]
      rw [run_bind, run_bind]
      generalize Building.loading (loadDocument a.files name) p = first at hLoaded hKept ⊢
      generalize Building.loading (loadDocument files name) q = second at hLoaded ⊢
      cases hLoaded with
      | @ok d d' p' q' hFound hNext =>
        obtain ⟨hFound, hFound'⟩ := hFound
        rw [hFound, hFound'] at hDoc
        cases hDoc with
        | found hRoot =>
          exact buildDocument_paired hDocs hRoot hNext fun r _ => by rw [hKept, hStore]
      | @failed e answer p' q' hFailed =>
        cases answer with
        | ok _ => cases hFailed.1
        | error e' => exact .failed hFailed
  refine hTree.bind ?_
  rintro view _ rfl
  exact .bind (.ofAlike Progress.Paired.outlying.owing.commit) fun _ _ _ => .ofPure rfl

end Assembly
end ViewMarkup
