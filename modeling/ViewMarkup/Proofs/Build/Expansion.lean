import ViewMarkup.Proofs.Build.DocumentsAtHand
import ViewMarkup.Proofs.Build.Child
import ViewMarkup.Proofs.Build.Includes

/-!
# Expanding includes

An include stands for the root element of another document. `Element.expanded` puts that element in
its place, as a child in front of the one that it was found before, or after the last child. An
expanded document has no includes, and building it does the same, step by step, provided that
includes come first wherever instructions stand after the last child.

The root of a document and a child element are started in different ways, so the proof compares the
two runs. They are `Progress.Apart`: the second one has no need to read the documents that are
included.

## Main results

* `Element.included_expanded` — an expanded element has no includes.
* `Assembly.process_refines` — an element is built like the one in which its includes are expanded.
* `Assembly.inlines_buildRoot` — an include is carried out like the child that it stands for.
-/

namespace ViewMarkup

open Text

/-! ## Expansion -/

namespace Element

/-- The elements that the includes among instructions stand for. An include of a document that is
not there stands for nothing. -/
def inlinedRoots (f : String → Option Element) (is : List Instruction) : List Element :=
  (includes is).flatMap fun i => (f (trim i.data)).toList

mutual

/-- An element with other elements in place of the includes inside of it. -/
def inlined (f : String → Option Element) : Element → Element
  | .mk name attributes children leading trailing text =>
    .mk name attributes (inlinedAll f children ++ inlinedRoots f trailing) (delivered leading)
      (delivered trailing) text

/-- Some elements with other elements in place of the includes in front of and inside of them. -/
def inlinedAll (f : String → Option Element) : List Element → List Element
  | [] => []
  | e :: es => inlinedRoots f e.leading ++ inlined f e :: inlinedAll f es

end

/-- An element with the expanded root elements of the included documents in place of the includes,
as deep as is given. -/
def expanded (docs : String → Option Document) : Nat → Element → Element
  | 0, e => e.inlined fun _ => none
  | depth + 1, e => e.inlined fun name => (docs name).map fun d => expanded docs depth d.root

/-- The elements that are met when an element is built: itself, those inside of it, and those of the
documents that are included on the way. -/
inductive Met (docs : String → Option Document) : Element → Element → Prop
  | self {e : Element} : Met docs e e
  | child {e c x : Element} : c ∈ e.children → Met docs c x → Met docs e x
  | included {e x : Element} {i : Instruction} {d : Document} : i ∈ e.leading ++ e.trailing →
      i.target = includeTarget → docs (trim i.data) = some d → Met docs d.root x → Met docs e x

/-- Wherever instructions after a last child are met, includes come first. -/
def Orderly (docs : String → Option Document) (e : Element) : Prop :=
  ∀ x, Met docs e x → IncludesFirst x.trailing

variable {docs : String → Option Document} {f : String → Option Element} {e : Element}

private theorem Orderly.child (h : Orderly docs e) {c : Element} (hc : c ∈ e.children) :
    Orderly docs c :=
  fun x hx => h x (.child hc hx)

theorem Orderly.included (h : Orderly docs e) {i : Instruction} (hi : i ∈ e.leading ++ e.trailing)
    (hTarget : i.target = includeTarget) {d : Document} (hd : docs (trim i.data) = some d) :
    Orderly docs d.root :=
  fun x hx => h x (.included hi hTarget hd hx)

private theorem mem_preorderOfList {x : Element} {es : List Element} :
    x ∈ preorderOfList es ↔ ∃ c ∈ es, x ∈ c.preorder := by
  induction es with
  | nil => simp [preorderOfList]
  | cons c es ih => simp [preorderOfList, ih]

theorem mem_preorder {x : Element} : x ∈ e.preorder ↔ x = e ∨ ∃ c ∈ e.children, x ∈ c.preorder := by
  cases e with
  | mk name attributes children leading trailing text =>
    rw [preorder, List.mem_cons, mem_preorderOfList]
    rfl

/-- It is enough that all documents are orderly. -/
theorem Orderly.of_forall (he : ∀ x ∈ e.preorder, IncludesFirst x.trailing)
    (hDocs : ∀ name d, docs name = some d → ∀ x ∈ d.root.preorder, IncludesFirst x.trailing) :
    Orderly docs e := by
  intro x hMet
  induction hMet with
  | @self e => exact he e (mem_preorder.2 (.inl rfl))
  | child hc _ ih => exact ih fun y hy => he y (mem_preorder.2 (.inr ⟨_, hc, hy⟩))
  | included _ _ hFound _ ih => exact ih (hDocs _ _ hFound)

@[simp] theorem name_inlined : (e.inlined f).name = e.name := by
  cases e
  rfl

@[simp] theorem attributes_inlined : (e.inlined f).attributes = e.attributes := by
  cases e
  rfl

@[simp] theorem leading_inlined : (e.inlined f).leading = delivered e.leading := by
  cases e
  rfl

@[simp] theorem text_inlined : (e.inlined f).text = e.text := by
  cases e
  rfl

@[simp] theorem trailing_inlined : (e.inlined f).trailing = delivered e.trailing := by
  cases e
  rfl

/-- Where there is nothing inside, nothing is put there. -/
theorem children_inlined_of_nil (hChildren : e.children = []) (hTrailing : e.trailing = []) :
    (e.inlined f).children = [] := by
  cases e with
  | mk name attributes children leading trailing text =>
    obtain rfl : children = [] := hChildren
    obtain rfl : trailing = [] := hTrailing
    rfl

private theorem included_eq_nil_iff : e.included = [] ↔
    (∀ i ∈ e.leading ++ e.trailing, i.target ≠ includeTarget) ∧
      ∀ c ∈ e.children, c.included = [] := by
  have hNil (e : Element) : e.included = [] ↔
      ∀ x ∈ e.preorder, ∀ i ∈ x.leading ++ x.trailing, i.target ≠ includeTarget := by
    simp only [included, List.flatMap_eq_nil_iff, List.map_eq_nil_iff, List.filter_eq_nil_iff,
      decide_eq_true_eq, ne_eq]
  rw [hNil]
  constructor
  · intro h
    refine ⟨h e (mem_preorder.2 (.inl rfl)), fun c hc => (hNil c).2 fun x hx => ?_⟩
    exact h x (mem_preorder.2 (.inr ⟨c, hc, hx⟩))
  · rintro ⟨hSelf, hChildren⟩ x hx
    rcases mem_preorder.1 hx with rfl | ⟨c, hc, hx⟩
    · exact hSelf
    · exact (hNil c).1 (hChildren c hc) x hx

theorem included_inlinedRoots (hf : ∀ name r, f name = some r → r.included = [])
    (is : List Instruction) : ∀ c ∈ inlinedRoots f is, c.included = [] := by
  intro c hc
  obtain ⟨i, -, hi⟩ := List.mem_flatMap.1 hc
  exact hf _ c (Option.mem_toList.1 hi)

mutual

/-- No includes are left if there are none in what takes their place. -/
theorem included_inlined (hf : ∀ name r, f name = some r → r.included = []) :
    ∀ e : Element, (e.inlined f).included = []
  | .mk name attributes children leading trailing text => by
    unfold inlined
    refine included_eq_nil_iff.2 ⟨fun i hi => ?_, fun c hc => ?_⟩
    · rcases List.mem_append.1 hi with hi | hi
      · exact target_of_mem_delivered hi
      · exact target_of_mem_delivered hi
    · rcases List.mem_append.1 hc with hc | hc
      · exact included_inlinedAll hf children c hc
      · exact included_inlinedRoots hf trailing c hc

theorem included_inlinedAll (hf : ∀ name r, f name = some r → r.included = []) :
    ∀ es : List Element, ∀ c ∈ inlinedAll f es, c.included = []
  | [], c, hc => by
    unfold inlinedAll at hc
    cases hc
  | e :: es, c, hc => by
    unfold inlinedAll at hc
    rcases List.mem_append.1 hc with hc | hc
    · exact included_inlinedRoots hf e.leading c hc
    · rcases List.mem_cons.1 hc with rfl | hc
      · exact included_inlined hf e
      · exact included_inlinedAll hf es c hc

end

/-- An expanded element has no includes. -/
theorem included_expanded (depth : Nat) (e : Element) : (expanded docs depth e).included = [] := by
  induction depth generalizing e with
  | zero => exact included_inlined (fun _ _ h => by cases h) e
  | succ depth ih =>
    refine included_inlined (fun name r h => ?_) e
    obtain ⟨d, -, rfl⟩ := Option.map_eq_some_iff.1 h
    exact ih d.root

end Element

open Element

/-! ## Starting a child -/

namespace Assembly

variable {a : Assembly} {docs : String → Option Document} {f : String → Option Element}
  {expand expand' : Expansion} {stack stack' : List String} {parent : ObjectId}
  {caps : Capabilities} {path path' : String}

private theorem componentOf_alike (e : Element) : Alike (Progress.Apart a.files docs)
    (a.componentOf caps e) (a.componentOf caps e) := by
  rw [componentOf_eq]
  exact .ofRegistering _

private theorem componentOf_inlined (e : Element) :
    a.componentOf caps (e.inlined f) = a.componentOf caps e := by
  rw [componentOf_eq, componentOf_eq, name_inlined]

private theorem deliverRaw_eq {e : Element} (hChildren : e.children = [])
    (hText : isBlankText e.text = true) (hTrailing : e.trailing = []) :
    a.deliverRaw parent e = a.tell parent (.raw e.name e.attributes) := by
  unfold deliverRaw
  rw [hChildren, hText, hTrailing]
  rfl

/-- A raw element that is handed over has nothing inside. -/
theorem inside_of_run_deliverRaw {e : Element} {p p' : Progress}
    (h : a.deliverRaw parent e p = (.ok (), p')) :
    e.children = [] ∧ isBlankText e.text = true ∧ e.trailing = [] := by
  unfold deliverRaw at h
  cases hChildren : e.children with
  | cons c cs =>
    rw [hChildren] at h
    cases h
  | nil =>
    cases hText : isBlankText e.text with
    | false =>
      rw [hChildren, hText] at h
      cases h
    | true =>
      cases hTrailing : e.trailing with
      | cons i is =>
        rw [hChildren, hText, hTrailing] at h
        cases h
      | nil => exact ⟨rfl, rfl, rfl⟩

/-- So there is nothing to be expanded in a raw element. -/
theorem deliverRaw_refines (e : Element) : Refines (Progress.Apart a.files docs)
    (a.deliverRaw parent e) (a.deliverRaw parent (e.inlined f)) := by
  intro p q u p' hR hRun
  obtain ⟨hChildren, hText, hTrailing⟩ := inside_of_run_deliverRaw hRun
  rw [deliverRaw_eq hChildren hText hTrailing] at hRun
  rw [deliverRaw_eq (children_inlined_of_nil hChildren hTrailing) (by rw [text_inlined, hText])
    (by rw [trailing_inlined, hTrailing]; rfl)]
  rw [name_inlined, attributes_inlined]
  exact (tell_alike _).refines p q u p' hR hRun

private theorem start_refines (e : Element) (leading : List Instruction) :
    Refines (Progress.Apart a.files docs) (a.start parent caps e leading)
      (a.start parent caps (e.inlined f) leading) := by
  unfold start
  rw [componentOf_inlined, name_inlined]
  refine .bind (componentOf_alike e).refines fun c? => ?_
  cases c? with
  | some c =>
    exact (Alike.bind checkAppend_alike fun _ => .bind (instantiate_alike c) fun _ =>
      .ofPure _).refines
  | none =>
    have hRaw : Refines (Progress.Apart a.files docs)
        (do
          a.deliverAll parent caps leading
          a.deliverRaw parent e
          return (none : Option (ObjectId × Capabilities)))
        (do
          a.deliverAll parent caps leading
          a.deliverRaw parent (e.inlined f)
          return none) :=
      .bind (deliverAll_alike leading).refines fun _ => .bind (deliverRaw_refines e) fun _ =>
        (Alike.ofPure _).refines
    dsimp only
    split
    · exact .bind (Alike.ofThrow _).refines fun _ => hRaw
    · exact hRaw

/-! ## Elements -/

/-- Carrying out an include does what building the child does that it stands for, if any. -/
def Inlines (a : Assembly) (docs : String → Option Document) (f : String → Option Element)
    (expand expand' : Expansion) (stack' : List String) : Prop :=
  ∀ stack parent caps path path' index name,
    (∀ d, docs (trim name) = some d → Orderly docs d.root) →
    Refines (Progress.Apart a.files docs) (a.takeInclude expand stack parent caps path name)
      (a.processChildren expand' stack' (f (trim name)).toList parent caps path' index)

theorem takeTrailing_includes_refines (hInlines : a.Inlines docs f expand expand' stack')
    (is : List Instruction) (index : Nat)
    (hOrderly : ∀ i ∈ includes is, ∀ d, docs (trim i.data) = some d → Orderly docs d.root) :
    Refines (Progress.Apart a.files docs)
      (a.takeTrailing expand stack parent caps path (includes is))
      (a.processChildren expand' stack' (inlinedRoots f is) parent caps path' index) := by
  unfold inlinedRoots
  have hTargets : ∀ i ∈ includes is, i.target = includeTarget := fun _ => target_of_mem_includes
  revert hOrderly hTargets
  induction includes is generalizing index with
  | nil =>
    intro _ _
    rw [List.flatMap_nil, processChildren]
    exact (Alike.ofPure ()).refines
  | cons i is ih =>
    intro hOrderly hTargets
    rw [takeTrailing_cons, if_pos (hTargets i List.mem_cons_self), List.flatMap_cons,
      processChildren_append]
    refine .bind (hInlines _ _ _ _ _ _ _ (hOrderly i List.mem_cons_self)) fun _ => ?_
    exact ih _ (fun j hj => hOrderly j (List.mem_cons_of_mem i hj)) fun j hj =>
      hTargets j (List.mem_cons_of_mem i hj)

private theorem takeTrailing_delivered_refines (is : List Instruction) :
    Refines (Progress.Apart a.files docs)
      (a.takeTrailing expand stack parent caps path (delivered is))
      (a.takeTrailing expand' stack' parent caps path' (delivered is)) := by
  have hTargets : ∀ i ∈ delivered is, i.target ≠ includeTarget := fun _ => target_of_mem_delivered
  revert hTargets
  induction delivered is with
  | nil => exact fun _ => (Alike.ofPure ()).refines
  | cons i is ih =>
    intro hTargets
    have hTarget := hTargets i List.mem_cons_self
    rw [takeTrailing_cons, takeTrailing_cons, if_neg hTarget, if_neg hTarget]
    refine .bind (deliver_alike i).refines.adapt fun _ => ?_
    exact ih fun j hj => hTargets j (List.mem_cons_of_mem i hj)

/-- A child that is built where the includes in front of it have been carried out. -/
theorem takeChild_refines (hInlines : a.Inlines docs f expand expand' stack') {e : Element}
    (hOrderly : Orderly docs e) (index : Nat)
    {work work' : ObjectId → Capabilities → List Instruction → Building Unit}
    (hWork : ∀ view own, Refines (Progress.Apart a.files docs) (work view own (delivered e.leading))
      (work' view own (delivered e.leading))) (here : String) :
    Refines (Progress.Apart a.files docs) (a.takeChild expand stack parent caps path e work)
      (do
        a.processChildren expand' stack' (inlinedRoots f e.leading) parent caps path' index
        a.takeChild expand' stack' parent caps here (e.inlined f) work') := by
  unfold takeChild
  rw [takeIncludes_eq, leading_inlined, takeIncludes_of_delivered, pure_bind, bind_assoc]
  refine .bind (takeTrailing_includes_refines hInlines e.leading index fun i hi d hd => ?_)
    fun _ => ?_
  · have hLeading : i ∈ e.leading ++ e.trailing :=
      List.mem_append_left _ (List.mem_filter.1 hi).1
    exact hOrderly.included hLeading (target_of_mem_includes hi) hd
  · rw [pure_bind]
    refine .bind (start_refines e _).adapt fun made => ?_
    cases made with
    | none => exact (Alike.ofPure ()).refines
    | some made => exact .bind (hWork made.1 made.2) fun _ => append_alike.refines.adapt

mutual

/-- An element is built like the one in which its includes are expanded. -/
theorem process_refines (hInlines : a.Inlines docs f expand expand' stack') :
    ∀ (e : Element) (path path' : String) {id : ObjectId} {caps : Capabilities}
      {leading : List Instruction}, Orderly docs e →
      Refines (Progress.Apart a.files docs) (a.process expand stack e id caps path leading)
        (a.process expand' stack' (e.inlined f) id caps path' leading)
  | .mk name attributes children leading₀ trailing text, path, path', id, caps, leading,
      hOrderly => by
    unfold inlined process
    have hTrailing : includes trailing ++ delivered trailing = trailing :=
      includes_append_delivered (hOrderly _ .self)
    have hOpening : Alike (Progress.Apart a.files docs)
        (do
          a.deliverAll id caps leading
          a.takeAttributes id attributes
          a.takeText id caps name text)
        (do
          a.deliverAll id caps leading
          a.takeAttributes id attributes
          a.takeText id caps name text) :=
      .bind (deliverAll_alike leading) fun _ => .bind (takeAttributes_alike attributes) fun _ =>
        takeText_alike name text
    refine .bind hOpening.refines.adapt fun _ => ?_
    rw [processChildren_append, bind_assoc]
    refine .bind (processChildren_refines hInlines children fun c hc => hOrderly.child hc)
      fun _ => ?_
    have hSplit := a.takeTrailing_append expand stack id caps path (includes trailing)
      (delivered trailing)
    rw [hTrailing] at hSplit
    rw [hSplit]
    refine .bind (takeTrailing_includes_refines hInlines trailing _ fun i hi d hd => ?_) fun _ =>
      takeTrailing_delivered_refines trailing
    have hMem : i ∈ leading₀ ++ trailing := List.mem_append_right _ (List.mem_filter.1 hi).1
    exact hOrderly.included hMem (target_of_mem_includes hi) hd

/-- Child elements are built like those in which their includes are expanded. -/
theorem processChildren_refines (hInlines : a.Inlines docs f expand expand' stack') :
    ∀ (es : List Element) {parent : ObjectId} {caps : Capabilities} {path path' : String}
      {index index' : Nat}, (∀ e ∈ es, Orderly docs e) →
      Refines (Progress.Apart a.files docs)
        (a.processChildren expand stack es parent caps path index)
        (a.processChildren expand' stack' (inlinedAll f es) parent caps path' index')
  | [], parent, caps, path, path', index, index', _ => by
    unfold inlinedAll processChildren
    exact (Alike.ofPure ()).refines
  | e :: es, parent, caps, path, path', index, index', hOrderly => by
    have hHead := hOrderly e List.mem_cons_self
    unfold inlinedAll
    rw [processChildren_append, processChildren, processChildren, ← bind_assoc]
    refine .bind (takeChild_refines hInlines hHead index' (fun view own => ?_) _) fun _ => ?_
    · exact process_refines hInlines e _ _ hHead
    · exact processChildren_refines hInlines es fun c hc => hOrderly c (List.mem_cons_of_mem e hc)

end

/-! ## Included roots -/

/-- Whether another view may be appended depends only on how many are counted. -/
theorem run_checkAppend_of_eq_ok {p p' q : Progress} (hTally : q.tally = p.tally)
    (h : a.checkAppend parent caps p = (.ok (), p')) :
    a.checkAppend parent caps q = (.ok (), q) := by
  unfold checkAppend at h ⊢
  cases hCaps : caps.append with
  | none =>
    rw [hCaps] at h
    cases h
  | multi => rfl
  | single =>
    rw [hCaps] at h
    dsimp only at h ⊢
    rw [run_bind, run_get] at h ⊢
    dsimp only at h ⊢
    rw [Progress.count_eq hTally]
    split at h
    · cases h
    · next hNone =>
      rw [if_neg hNone]
      rfl

theorem of_run_findIncluded {name : String} {d : Document} {p p' : Progress}
    (h : a.findIncluded stack parent caps name p = (.ok d, p')) :
    a.checkAppend parent caps p = (.ok (), p) ∧
      (loadDocument a.files name).run p.loader = (.ok d, p'.loader) ∧
      p' = p.withLoader p'.loader := by
  unfold findIncluded at h
  dsimp only at h
  split at h
  · cases h
  · split at h
    · cases h
    · obtain ⟨_, q, hCheck, hLoad⟩ := exists_of_run_bind_eq_ok h
      obtain rfl : q = p := checkAppend_yields.ok hCheck
      cases hDocument : (loadDocument a.files name).run q.loader with
      | mk r l =>
        rw [run_loading hDocument] at hLoad
        cases hLoad
        exact ⟨hCheck, rfl, rfl⟩

/-- A root that is not supplied is an instance of the component that its name resolves to. -/
theorem of_run_startRoot_none {e : Element} {p p' : Progress} {id : ObjectId} {own : Capabilities}
    (h : a.startRoot e none p = (.ok (id, own), p')) :
    ∃ c rs, a.Resolves p.registries e.name (some c) rs ∧ own = c.capabilities ∧
      a.instantiate c { p with registries := rs } = (.ok id, p') ∧
      ∀ i ∈ e.leading, i.target ≠ includeTarget := by
  have hLeading := ((startRoot_yields a.library.classes.covered_univ p.ready_univ e none).ok h).2
  obtain ⟨made, q, hInstance, hRest⟩ := exists_of_run_bind_eq_ok h
  obtain ⟨rfl, rfl⟩ : made = (id, own) ∧ q = p' := by
    dsimp only at hRest
    split at hRest
    · cases hRest
    · cases hRest
      exact ⟨rfl, rfl⟩
  unfold rootInstance at hInstance
  dsimp only at hInstance
  split at hInstance
  · cases hInstance
  · obtain ⟨c?, r, hResolve, hMake⟩ := exists_of_run_bind_eq_ok hInstance
    cases hAct : (a.library.resolve a.registry e.name).run p.registries with
    | mk answer rs =>
      rw [run_registering hAct] at hResolve
      cases hResolve
      cases c? with
      | none => cases hMake
      | some c =>
        obtain ⟨view, r, hView, hEnd⟩ := exists_of_run_bind_eq_ok hMake
        cases hEnd
        exact ⟨c, rs, hAct, rfl, hView, hLeading⟩

/-- A child whose name resolves to a component is an instance of it. -/
theorem run_start_of_resolves {e : Element} {leading : List Instruction} {p p' q q' : Progress}
    {c : Component} {rs : Registries} {id : ObjectId}
    (hResolves : a.Resolves q.registries e.name (some c) rs)
    (hCheck : a.checkAppend parent caps p = (.ok (), p')) (hTally : q.tally = p.tally)
    (hMake : a.instantiate c { q with registries := rs } = (.ok id, q')) :
    a.start parent caps e leading q = (.ok (some (id, c.capabilities)), q') := by
  have hRegistered : a.checkAppend parent caps { q with registries := rs } =
      (.ok (), { q with registries := rs }) := run_checkAppend_of_eq_ok hTally hCheck
  unfold start
  rw [componentOf_eq, run_bind_of_eq_ok (run_registering hResolves)]
  dsimp only
  rw [run_bind_of_eq_ok hRegistered, run_bind_of_eq_ok hMake]
  rfl

/-- A child is built in four parts. -/
theorem run_takeChild {e : Element}
    {work : ObjectId → Capabilities → List Instruction → Building Unit}
    {leading : List Instruction} {id : ObjectId} {own : Capabilities} {q q₁ q₂ q₃ q₄ : Progress}
    (hIncludes : a.takeIncludes expand stack parent caps path e.leading q = (.ok leading, q₁))
    (hStart : a.start parent caps e leading q₁ = (.ok (some (id, own)), q₂))
    (hWork : work id own leading q₂ = (.ok (), q₃))
    (hAppend : a.append parent caps id q₃ = (.ok (), q₄)) :
    a.takeChild expand stack parent caps path e work q = (.ok (), q₄) := by
  unfold takeChild
  rw [run_bind_of_eq_ok hIncludes]
  unfold Building.within
  rw [run_bind_of_eq_ok (run_adapt_eq_ok_iff.2 hStart)]
  dsimp only
  rw [run_bind_of_eq_ok hWork]
  exact run_adapt_eq_ok_iff.2 hAppend

/-- The root of an included document is built like a child of the object that it is appended to. -/
theorem takeChild_of_included (hInlines : a.Inlines docs f expand expand' stack')
    {name here : String} {through : List String} {d : Document} (hOrderly : Orderly docs d.root)
    {id : ObjectId} {own : Capabilities}
    {p p₁ p₂ p₃ p' q : Progress} (hApart : p.Apart a.files docs q)
    (hFind : a.findIncluded stack parent caps name p = (.ok d, p₁))
    (hStart : a.startRoot d.root none p₁ = (.ok (id, own), p₂))
    (hProcess : a.process expand through d.root id own path d.root.leading p₂ = (.ok (), p₃))
    (hAppend : a.append parent caps id p₃ = (.ok (), p')) :
    ∃ q', a.takeChild expand' stack' parent caps here (d.root.inlined f) (fun id own leading =>
        a.process expand' stack' (d.root.inlined f) id own here leading) q = (.ok (), q') ∧
      p'.Apart a.files docs q' := by
  obtain ⟨hCheck, hLoad, hLoaded⟩ := of_run_findIncluded hFind
  obtain ⟨c, rs, hResolves, rfl, hMake, hLeading⟩ := of_run_startRoot_none hStart
  -- The second run goes on from where the first one has read the document.
  have hApart₁ : p₁.Apart a.files docs q := hLoaded ▸ hApart.load hLoad
  obtain ⟨q₂, hMake', hApart₂⟩ :=
    (instantiate_alike c).refines _ _ _ _ (hApart₁.register rs) hMake
  obtain ⟨q₃, hProcess', hApart₃⟩ :=
    process_refines hInlines d.root path here hOrderly _ _ _ _ hApart₂ hProcess
  obtain ⟨q', hAppend', hApart'⟩ := append_alike.refines _ _ _ _ hApart₃ hAppend
  refine ⟨q', run_takeChild ?_ (run_start_of_resolves ?_ hCheck hApart.tally hMake') hProcess'
    hAppend', hApart'⟩
  · rw [leading_inlined, takeIncludes_of_delivered, delivered_eq_self hLeading]
    rfl
  · rw [name_inlined, hApart₁.registries]
    exact hResolves

/-- An include is carried out like the child that it stands for, if its document is expanded as deep
as includes may go. -/
theorem inlines_buildRoot (expand' : Expansion) (stack' : List String) {depth depth' : Nat}
    (hDepth : depth ≤ depth') :
    a.Inlines docs (fun name => (docs name).map fun d => Element.expanded docs depth' d.root)
      (fun stack e => a.buildRoot depth stack e none) expand' stack' := by
  induction depth generalizing depth' with
  | zero =>
    intro stack parent caps path path' index name _ p q u p' _ hRun
    unfold takeInclude at hRun
    obtain ⟨d, p₁, -, hRun⟩ := exists_of_run_bind_eq_ok hRun
    obtain ⟨view, p₂, hRoot, -⟩ := exists_of_run_bind_eq_ok hRun
    unfold buildRoot at hRoot
    cases hRoot
  | succ depth ih =>
    intro stack parent caps path path' index name hOrderly p q u p' hApart hRun
    obtain ⟨depth', rfl⟩ : ∃ n, depth' = n + 1 := ⟨depth' - 1, by omega⟩
    unfold takeInclude at hRun
    obtain ⟨d, p₁, hFind, hRun⟩ := exists_of_run_bind_eq_ok hRun
    obtain ⟨view, p₃, hRoot, hAppend⟩ := exists_of_run_bind_eq_ok hRun
    unfold buildRoot at hRoot
    obtain ⟨⟨id, own⟩, p₂, hStart, hRoot⟩ := exists_of_run_bind_eq_ok hRoot
    obtain ⟨_, _, hProcess, hEnd⟩ := exists_of_run_bind_eq_ok hRoot
    cases hEnd
    have hFind := run_adapt_eq_ok_iff.1 hFind
    have hFound : docs (trim name) = some d :=
      (hApart.document? _).symm.trans (document?_eq_some_of_run (of_run_findIncluded hFind).2.1)
    obtain ⟨q', hChild, hApart'⟩ := takeChild_of_included (ih (Nat.le_of_succ_le_succ hDepth))
      (hOrderly d hFound) hApart hFind (run_adapt_eq_ok_iff.1 hStart) hProcess
      (run_adapt_eq_ok_iff.1 hAppend)
    refine ⟨q', ?_, hApart'⟩
    dsimp only
    rw [hFound]
    show a.processChildren expand' stack' [expanded docs (depth' + 1) d.root] parent caps path'
      index q = _
    unfold expanded
    rw [processChildren, processChildren, run_bind_of_eq_ok hChild]
    rfl

end Assembly
end ViewMarkup
