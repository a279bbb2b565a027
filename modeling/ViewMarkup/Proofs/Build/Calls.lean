import ViewMarkup.Proofs.Build.Child
import ViewMarkup.Proofs.Build.Commit
import ViewMarkup.Proofs.Build.Includes
import ViewMarkup.Proofs.Build.Requests
import ViewMarkup.Proofs.Build.Sample

/-!
# What each instance is told

A document says what every instance is told: the instructions in front of its element, its text,
then for each child the includes in front of it and either the finished view or the raw element, and
finally the instructions after the last child. `Prescribed` derives these calls along the document
and the documents that it includes. Registries are threaded through, since a namespace is registered
when a name in it is first met.

`Tells` compares such a derivation with a journal, and is closed under going on. A build that
succeeds follows a derivation, and so tells each instance what the derivation says, in that order,
and nothing else. What it notes down for the owner is what the elements of the sites ask for, in the
same order.

## Main results

* `Tells.append`, `Tells.raised` — journals of parts make up the journal of the whole.
* `Assembly.process_prescribed`, `Assembly.buildRoot_prescribed` — building follows the derivation.
* `Assembly.buildTree_noted` — building a document follows the derivation and notes down its
  requests.
* `Builder.outcome_calls` — what each instance is told by a build that succeeds.
-/

namespace ViewMarkup

open Text

/-! ## Calls along a document -/

/-- The document at an origin. -/
def Origin.Means (docs : String → Option Document) (d : Document) : Origin → Prop
  | .given d' => d' = d
  | .named name => docs name = some d

/-- An instance with the element that it was built for, what that may contain, and what the instance
is told, in order. -/
structure Site where
  element : Element
  id : ObjectId
  caps : Capabilities
  calls : List Call

section Derivation

variable (a : Assembly) (docs : String → Option Document)

mutual

/-- The sites of an element whose instance is given: its own, then those of what is inside of it and
of what is included there, in the order in which their instances are made. -/
inductive Prescribed : Element → ObjectId → Capabilities → Registries → Registries → List Site →
    Prop
  | mk {name : String} {attributes : Table String String} {children : List Element}
      {leading trailing : List Instruction} {text : String} {id : ObjectId} {caps : Capabilities}
      {rs rs₁ rs₂ : Registries} {calls calls' : List Call} {below below' : List Site} :
      PrescribedChildren children caps rs rs₁ calls below →
      PrescribedTrailing trailing caps rs₁ rs₂ calls' below' →
      Prescribed (.mk name attributes children leading trailing text) id caps rs rs₂
        (⟨.mk name attributes children leading trailing text, id, caps,
          instructionCalls caps (delivered leading) ++ textCalls text ++ (calls ++ calls')⟩ ::
          (below ++ below'))

/-- What the parent is told of its child elements, and the sites that these have. -/
inductive PrescribedChildren : List Element → Capabilities → Registries → Registries → List Call →
    List Site → Prop
  | nil {caps : Capabilities} {rs : Registries} : PrescribedChildren [] caps rs rs [] []
  | view {e : Element} {es : List Element} {caps : Capabilities}
      {rs rs₁ rs₂ rs₃ rs₄ : Registries} {c : Component} {view : ObjectId}
      {calls calls' : List Call} {below inner below' : List Site} :
      PrescribedTrailing (includes e.leading) caps rs rs₁ calls below →
      a.Resolves rs₁ e.name (some c) rs₂ →
      Prescribed e view c.capabilities rs₂ rs₃ inner →
      PrescribedChildren es caps rs₃ rs₄ calls' below' →
      PrescribedChildren (e :: es) caps rs rs₄ (calls ++ [.append view] ++ calls')
        (below ++ inner ++ below')
  | raw {e : Element} {es : List Element} {caps : Capabilities} {rs rs₁ rs₂ rs₃ : Registries}
      {calls calls' : List Call} {below below' : List Site} :
      PrescribedTrailing (includes e.leading) caps rs rs₁ calls below →
      a.Resolves rs₁ e.name none rs₂ →
      PrescribedChildren es caps rs₂ rs₃ calls' below' →
      PrescribedChildren (e :: es) caps rs rs₃
        (calls ++ (instructionCalls caps (delivered e.leading) ++ [.raw e.name e.attributes]) ++
          calls')
        (below ++ below')

/-- What an instance is told of instructions some of which may be includes, and the sites of the
documents that these stand for. -/
inductive PrescribedTrailing : List Instruction → Capabilities → Registries → Registries →
    List Call → List Site → Prop
  | nil {caps : Capabilities} {rs : Registries} : PrescribedTrailing [] caps rs rs [] []
  | instruction {i : Instruction} {is : List Instruction} {caps : Capabilities}
      {rs rs₁ : Registries} {calls : List Call} {below : List Site} :
      i.target ≠ includeTarget → PrescribedTrailing is caps rs rs₁ calls below →
      PrescribedTrailing (i :: is) caps rs rs₁ (instructionCalls caps [i] ++ calls) below
  | view {i : Instruction} {is : List Instruction} {caps : Capabilities}
      {rs rs₁ rs₂ rs₃ : Registries} {d : Document} {c : Component} {view : ObjectId}
      {calls : List Call} {inner below : List Site} :
      i.target = includeTarget → docs (trim i.data) = some d → d.root.name ≠ rootName →
      a.Resolves rs d.root.name (some c) rs₁ →
      Prescribed d.root view c.capabilities rs₁ rs₂ inner →
      PrescribedTrailing is caps rs₂ rs₃ calls below →
      PrescribedTrailing (i :: is) caps rs rs₃ ([.append view] ++ calls) (inner ++ below)

end

end Derivation

/-! ## Calls in a journal -/

/-- What some sites say that an object is told. -/
def callsAt (sites : List Site) (x : ObjectId) : List Call :=
  sites.flatMap fun s => if s.id = x then s.calls else []

@[simp] theorem callsAt_append (sites sites' : List Site) (x : ObjectId) :
    callsAt (sites ++ sites') x = callsAt sites x ++ callsAt sites' x := by
  simp [callsAt]

theorem callsAt_cons (s : Site) (sites : List Site) (x : ObjectId) :
    callsAt (s :: sites) x = (if s.id = x then s.calls else []) ++ callsAt sites x := by
  simp [callsAt]

theorem callsAt_eq_nil {sites : List Site} {x : ObjectId} (h : x ∉ sites.map (·.id)) :
    callsAt sites x = [] := by
  refine List.flatMap_eq_nil_iff.2 fun s hs => if_neg fun hId => h ?_
  exact hId ▸ List.mem_map_of_mem hs

/-- Where no object has two sites, an object is told what its site says. -/
theorem callsAt_of_mem {sites : List Site} (hNodup : (sites.map (·.id)).Nodup) {s : Site}
    (hs : s ∈ sites) : callsAt sites s.id = s.calls := by
  induction sites with
  | nil => cases hs
  | cons t sites ih =>
    rw [List.map_cons, List.nodup_cons] at hNodup
    rw [callsAt_cons]
    rcases List.mem_cons.1 hs with rfl | hs
    · rw [if_pos rfl, callsAt_eq_nil hNodup.1, List.append_nil]
    · have hNe : t.id ≠ s.id := by
        intro hEq
        exact hNodup.1 (hEq ▸ List.mem_map_of_mem hs)
      rw [if_neg hNe, List.nil_append]
      exact ih hNodup.2 hs

/-- In some steps an object is told the calls given, and those objects that are made are told what
their sites say. -/
structure Tells (id : ObjectId) (calls : List Call) (sites : List Site) (log : List Step) :
    Prop where
  made : madeIn log = sites.map (·.id)
  told : ∀ x, callsTo x log = (if id = x then calls else []) ++ callsAt sites x

namespace Tells

variable {id view : ObjectId} {calls calls' : List Call} {sites sites' : List Site}
  {log log' : List Step}

/-- What was made in the first part must not be the object itself. -/
theorem append (h : Tells id calls sites log) (h' : Tells id calls' sites' log')
    (hId : id ∉ madeIn log) : Tells id (calls ++ calls') (sites ++ sites') (log ++ log') where
  made := by rw [madeIn_append, List.map_append, h.made, h'.made]
  told x := by
    rw [callsTo_append, callsAt_append, h.told, h'.told]
    by_cases hx : id = x
    · have hNone : callsAt sites x = [] := callsAt_eq_nil (by rwa [← h.made, ← hx])
      rw [if_pos hx, if_pos hx, if_pos hx, hNone, List.append_nil, List.nil_append,
        List.append_assoc]
    · rw [if_neg hx, if_neg hx, if_neg hx, List.nil_append, List.nil_append, List.nil_append]

/-- Steps of an object's own. -/
theorem of_own (hOwn : ∀ s ∈ log, s.IsOwn id) (hCalls : callsTo id log = calls) :
    Tells id calls [] log where
  made := by
    refine List.filterMap_eq_nil_iff.2 fun s hs => ?_
    cases s with
    | made _ => exact (hOwn _ hs).elim
    | assigned _ _ _ | told _ _ => rfl
  told x := by
    by_cases hx : id = x
    · rw [if_pos hx, ← hx, hCalls]
      simp [callsAt]
    · rw [if_neg hx]
      refine callsTo_eq_nil fun s hs hSubject => hx ?_
      rw [(hOwn s hs).subject] at hSubject
      exact Option.some.inj hSubject

private theorem nil (id : ObjectId) : Tells id [] [] [] :=
  of_own (by simp) rfl

/-- What a view is told becomes a site when the view is made for an element. -/
theorem raised (h : Tells view calls sites log) (e : Element) (caps : Capabilities)
    (id : ObjectId) : Tells id [] (⟨e, view, caps, calls⟩ :: sites) (.made view :: log) where
  made := by rw [madeIn_made, List.map_cons, h.made]
  told x := by rw [callsTo_made, h.told, callsAt_cons, ite_self, List.nil_append]

/-- The step that appends a view. -/
theorem appended (id view : ObjectId) : Tells id [.append view] [] [.told id (.append view)] where
  made := rfl
  told x := by
    by_cases hx : id = x
    · rw [if_pos hx, ← hx, callsTo_told_self]
      rfl
    · rw [if_neg hx]
      simp [callsTo, callsAt, hx]

end Tells

/-- The instances of some sites are the root that was supplied, if any, and those that are made in
some steps, which are told what their sites say. -/
structure Recounts (root : Option ObjectId) (sites : List Site) (log : List Step) : Prop where
  made : root.toList ++ madeIn log = sites.map (·.id)
  told : ∀ x, callsTo x log = callsAt sites x

namespace Recounts

variable {root : Option ObjectId} {id : ObjectId} {calls : List Call} {sites : List Site}
  {opening log : List Step}

/-- With a root that is made, other objects are told nothing. -/
theorem tells (h : Recounts none sites log) (id : ObjectId) : Tells id [] sites log where
  made := h.made
  told x := by rw [ite_self, List.nil_append, h.told]

/-- The sites below a root complete those of the whole. -/
theorem of_tells (hMade : root.toList ++ madeIn opening = [id])
    (hTold : ∀ x, callsTo x opening = []) (h : Tells id calls sites log) (e : Element)
    (caps : Capabilities) : Recounts root (⟨e, id, caps, calls⟩ :: sites) (opening ++ log) where
  made := by
    rw [madeIn_append, ← List.append_assoc, hMade, h.made]
    rfl
  told x := by rw [callsTo_append, hTold, h.told, callsAt_cons, List.nil_append]

end Recounts

/-! ## Building follows the derivation -/

/-- The outlets that the elements of some sites ask for, in order. -/
def Assembly.outlets (a : Assembly) (sites : List Site) : List (String × ObjectId) :=
  sites.flatMap fun s => a.outletsAt s.element s.id

/-- The bindings that the elements of some sites ask for, in order. -/
def Assembly.links (a : Assembly) (sites : List Site) : List Binding :=
  sites.flatMap fun s => a.linksAt s.element s.id

/-- What part of a build has told an object and those that it has made, when it went on from `p` to
`p'`. What was noted down is what the elements of the sites ask for, after what an element of the
object itself asks for, if that was taken in, too. -/
def Progress.Gives (a : Assembly) (id : ObjectId) (own : Option Element) (calls : List Call)
    (sites : List Site) (p p' : Progress) : Prop :=
  ∃ log, p.Extends a.files (fun _ => True) p' log ∧ Tells id calls sites log ∧
    p.Notes (own.toList.flatMap (a.outletsAt · id) ++ a.outlets sites)
      (own.toList.flatMap (a.linksAt · id) ++ a.links sites) p'

namespace Progress.Gives

variable {a : Assembly} {id : ObjectId} {own : Option Element} {calls calls' : List Call}
  {sites sites' : List Site} {p p' p'' : Progress}

theorem of_extends (h : p.Extends a.files (fun _ => True) p' []) (hNotes : p.Notes [] [] p') :
    p.Gives a id none [] [] p' :=
  ⟨[], h, .nil id, hNotes⟩

theorem trans (h : p.Gives a id own calls sites p') (h' : p'.Gives a id none calls' sites' p'')
    (hId : (id : Nat) < p.store.size) :
    p.Gives a id own (calls ++ calls') (sites ++ sites') p'' := by
  obtain ⟨log, hExt, hTells, hNotes⟩ := h
  obtain ⟨log', hExt', hTells', hNotes'⟩ := h'
  refine ⟨log ++ log', hExt.trans hExt', hTells.append hTells' fun hMem => ?_, ?_⟩
  · exact Nat.lt_irrefl _ (Nat.lt_of_lt_of_le hId (hExt.ascending.bounds id hMem).1)
  · have hAll := hNotes.trans hNotes'
    simpa [Assembly.outlets, Assembly.links] using hAll

private theorem size_le (h : p.Gives a id own calls sites p') : p.store.size ≤ p'.store.size := by
  obtain ⟨log, hExt, -⟩ := h
  exact hExt.store.size_le

private theorem documents (h : p.Gives a id own calls sites p') (name : String) :
    p'.loader.document? a.files name = p.loader.document? a.files name := by
  obtain ⟨log, hExt, -⟩ := h
  exact hExt.documents name

end Progress.Gives

theorem Attending.gives {α : Type} {a : Assembly} {id : ObjectId} {calls : List Call}
    {x : Building α} (h : Attending a.files (fun _ => True) id calls x) (own : Option Element)
    (hNotes : Noting (own.toList.flatMap (a.outletsAt · id))
      (own.toList.flatMap (a.linksAt · id)) x) (p : Progress) :
    Yields x p (fun _ p' => p.Gives a id own calls [] p' ∧ p'.registries = p.registries)
      fun _ => True := by
  refine ((h p p.store.closed_univ).and (hNotes p)).mono ?_ fun _ _ => trivial
  rintro _ p' ⟨⟨log, hExt, hRegistries, hOwn, hCalls⟩, hNotes⟩
  refine ⟨⟨log, hExt, .of_own hOwn hCalls, ?_⟩, hRegistries⟩
  simpa [Assembly.outlets, Assembly.links] using hNotes

namespace Assembly

section

variable {a : Assembly} {docs : String → Option Document} {expand : Expansion}
  {stack : List String} {id parent view : ObjectId} {caps : Capabilities} {path : String}

/-- What it takes to follow a derivation: the resources have the documents that are meant, and the
object in question is there. -/
structure Follows (a : Assembly) (docs : String → Option Document) (id : ObjectId)
    (p : Progress) : Prop where
  documents : ∀ name, p.loader.document? a.files name = docs name
  present : (id : Nat) < p.store.size

theorem Follows.gives {own : Option Element} {calls : List Call} {sites : List Site}
    {p p' : Progress} (hp : a.Follows docs id p) (h : p.Gives a id own calls sites p') :
    a.Follows docs id p' :=
  ⟨fun name => (h.documents name).trans (hp.documents name),
    Nat.lt_of_lt_of_le hp.present h.size_le⟩

/-- What a root element stands for: what was supplied, or what its name resolves to. -/
inductive RootMeans (a : Assembly) (s : Store) (rs : Registries) (e : Element) :
    Option ObjectId → Capabilities → Registries → Prop
  | reserved {r : ObjectId} {own : Capabilities} : e.name = rootName →
      a.suppliedCapabilities s r = .ok own → RootMeans a s rs e (some r) own rs
  | component {root : Option ObjectId} {c : Component} {rs' : Registries} : e.name ≠ rootName →
      a.Resolves rs e.name (some c) rs' → RootMeans a s rs e root c.capabilities rs'

/-- What was built for a root element, by a build that went on from `p` to `p'`. -/
def RootPrescribed (a : Assembly) (docs : String → Option Document) (root : Option ObjectId)
    (e : Element) (p : Progress) (view : ObjectId) (p' : Progress) : Prop :=
  ∃ own rs sites log, a.RootMeans p.store p.registries e root own rs ∧
    Prescribed a docs e view own rs p'.registries sites ∧
    p.Extends a.files (fun _ => True) p' log ∧ Recounts root sites log

/-- What was built for a root element, and what was noted down for the elements of its sites. -/
def RootNoted (a : Assembly) (docs : String → Option Document) (root : Option ObjectId)
    (e : Element) (p : Progress) (view : ObjectId) (p' : Progress) : Prop :=
  ∃ own rs sites log, a.RootMeans p.store p.registries e root own rs ∧
    Prescribed a docs e view own rs p'.registries sites ∧
    p.Extends a.files (fun _ => True) p' log ∧ Recounts root sites log ∧
    p.Notes (a.outlets sites) (a.links sites) p'

/-- A way to build the roots of included documents that follows the derivation. -/
def Expands (a : Assembly) (docs : String → Option Document) (expand : Expansion) : Prop :=
  ∀ stack e p, (∀ name, p.loader.document? a.files name = docs name) →
    Yields (expand stack e) p (a.RootNoted docs none e p) fun _ => True

theorem append_gives (p : Progress) :
    Yields (Building.within path (a.append parent caps view)) p
      (fun _ p' => p.Gives a parent none [.append view] [] p' ∧ p'.registries = p.registries)
      fun _ => True := by
  have hAppend : Yields (a.append parent caps view) p _ _ :=
    append_yields a.library.classes.covered_univ p.ready_univ trivial trivial
  refine .adapt ((hAppend.and ((append_silent view).noting p)).mono ?_ fun _ _ => trivial)
  rintro _ p' ⟨⟨hExt, hRegistries⟩, hNotes⟩
  exact ⟨⟨_, hExt, .appended parent view, hNotes⟩, hRegistries⟩

/-- An include tells the parent of one view. -/
theorem takeInclude_prescribed (hExpand : a.Expands docs expand) {p : Progress}
    (hp : a.Follows docs parent p) (name : String) :
    Yields (a.takeInclude expand stack parent caps path name) p
      (fun _ p' => ∃ d c rs view sites, docs (trim name) = some d ∧ d.root.name ≠ rootName ∧
        a.Resolves p.registries d.root.name (some c) rs ∧
        Prescribed a docs d.root view c.capabilities rs p'.registries sites ∧
        p.Gives a parent none [.append view] sites p')
      fun _ => True := by
  unfold takeInclude
  have hFind : Yields (a.findIncluded stack parent caps (trim name)) p _ _ :=
    findIncluded_yields (fun _ => True) stack (trim name)
  have hBoth := hFind.and ((findIncluded_silent stack (trim name)).noting p)
  refine .bind (.adapt (hBoth.weaken fun _ _ => trivial)) ?_
  rintro d q ⟨⟨hExt, hRegistries, hFound⟩, hNotes⟩
  have hGives : p.Gives a parent none [] [] q := .of_extends hExt hNotes
  have hq := hp.gives hGives
  refine .bind (hExpand _ d.root q hq.documents) ?_
  rintro view r ⟨own, rs, sites, log, hMeans, hBuilt, hLog, hRecounts, hNotes⟩
  have hRoot : q.Gives a parent none [] sites r := ⟨log, hLog, hRecounts.tells parent, hNotes⟩
  refine (append_gives r).mono ?_ fun _ _ => trivial
  rintro _ s ⟨hAppend, hSame⟩
  cases hMeans with
  | component hName hResolves =>
    rw [hRegistries] at hResolves
    refine ⟨d, _, rs, view, sites, (hp.documents _).symm.trans hFound, hName, hResolves,
      hSame ▸ hBuilt, ?_⟩
    have hAll := hGives.trans (hRoot.trans hAppend hq.present) hp.present
    rw [List.append_nil] at hAll
    exact hAll

theorem takeTrailing_prescribed (hExpand : a.Expands docs expand) (is : List Instruction)
    {p : Progress} (hp : a.Follows docs id p) :
    Yields (a.takeTrailing expand stack id caps path is) p
      (fun _ p' => ∃ calls sites,
        PrescribedTrailing a docs is caps p.registries p'.registries calls sites ∧
        p.Gives a id none calls sites p')
      fun _ => True := by
  induction is generalizing p with
  | nil => exact .ofPure ⟨[], [], .nil, .of_extends (.refl ..) (.ofSame rfl rfl)⟩
  | cons i is ih =>
    rw [takeTrailing_cons]
    by_cases hTarget : i.target = includeTarget
    · rw [if_pos hTarget]
      refine .bind (takeInclude_prescribed hExpand hp i.data) ?_
      rintro _ q ⟨d, c, rs, view, sites, hFound, hName, hResolves, hBuilt, hGives⟩
      refine (ih (hp.gives hGives)).mono ?_ fun _ _ => trivial
      rintro _ r ⟨calls, sites', hTrailing, hGives'⟩
      exact ⟨_, _, .view hTarget hFound hName hResolves hBuilt hTrailing,
        hGives.trans hGives' hp.present⟩
    · rw [if_neg hTarget]
      have hDeliver : Attending a.files (fun _ => True) id (instructionCalls caps [i])
          (a.deliver id caps i) := deliver_attending a.library.classes.covered_univ trivial caps i
      refine .bind (.adapt (hDeliver.gives none (deliver_silent i).noting p)) ?_
      rintro _ q ⟨hGives, hSame⟩
      refine (ih (hp.gives hGives)).mono ?_ fun _ _ => trivial
      rintro _ r ⟨calls, sites, hTrailing, hGives'⟩
      exact ⟨_, _, .instruction hTarget (hSame ▸ hTrailing), hGives.trans hGives' hp.present⟩

private theorem takeIncludes_prescribed (hExpand : a.Expands docs expand) (is : List Instruction)
    {p : Progress} (hp : a.Follows docs parent p) :
    Yields (a.takeIncludes expand stack parent caps path is) p
      (fun leading p' => leading = delivered is ∧ ∃ calls sites,
        PrescribedTrailing a docs (includes is) caps p.registries p'.registries calls sites ∧
        p.Gives a parent none calls sites p')
      fun _ => True := by
  rw [takeIncludes_eq]
  refine .bind (takeTrailing_prescribed hExpand (includes is) hp) ?_
  exact fun _ _ h => .ofPure ⟨rfl, h⟩

/-- What is done before the children of an element are built. -/
theorem opening_gives (e : Element) (leading : List Instruction) (name text : String)
    (p : Progress) :
    Yields (Building.within path do
        a.deliverAll id caps leading
        a.takeAttributes id e.attributes
        a.takeText id caps name text) p
      (fun _ p' =>
        p.Gives a id (some e) (instructionCalls caps leading ++ textCalls text) [] p' ∧
          p'.registries = p.registries)
      fun _ => True := by
  have hcs := a.library.classes.covered_univ
  have hAll : Attending a.files (fun _ => True) id (instructionCalls caps leading ++ textCalls text)
      (do
        a.deliverAll id caps leading
        a.takeAttributes id e.attributes
        a.takeText id caps name text) :=
    (deliverAll_attending hcs trivial caps leading).bind fun _ =>
      (takeAttributes_attending hcs trivial e.attributes).andThen fun _ =>
        takeText_attending hcs trivial name text
  have hNotes : Noting (a.outletsAt e id) (a.linksAt e id) (do
      a.deliverAll id caps leading
      a.takeAttributes id e.attributes
      a.takeText id caps name text) := by
    refine .andThen (deliverAll_silent leading) fun _ => ?_
    have hText : Silent (a.takeText id caps name text) := takeText_silent name text
    have hAttributes : Noting (a.outletsAt e id) (a.linksAt e id)
        (a.takeAttributes id e.attributes) := takeAttributes_noting e
    have hBoth := hAttributes.bind fun _ => hText.noting
    rwa [List.append_nil, List.append_nil] at hBoth
  exact .adapt (hAll.gives (some e) (by simpa using hNotes) p)

/-- A child is told to its parent as a view or as a raw element. -/
theorem takeChild_prescribed (hExpand : a.Expands docs expand) (e : Element)
    {work : ObjectId → Capabilities → List Instruction → Building Unit}
    (hWork : ∀ {view own p}, a.Follows docs view p →
      Yields (work view own (delivered e.leading)) p
        (fun _ p' => ∃ calls sites,
          Prescribed a docs e view own p.registries p'.registries (⟨e, view, own, calls⟩ :: sites) ∧
          p.Gives a view (some e) calls sites p')
        fun _ => True)
    (es : List Element) {p : Progress} (hp : a.Follows docs parent p) :
    Yields (a.takeChild expand stack parent caps path e work) p
      (fun _ p' => ∃ calls sites, p.Gives a parent none calls sites p' ∧
        ∀ {rs calls' sites'}, PrescribedChildren a docs es caps p'.registries rs calls' sites' →
          PrescribedChildren a docs (e :: es) caps p.registries rs (calls ++ calls')
            (sites ++ sites'))
      fun _ => True := by
  unfold takeChild
  refine .bind (takeIncludes_prescribed hExpand e.leading hp) ?_
  rintro _ q ⟨rfl, calls, sites, hIncludes, hGives⟩
  have hq := hp.gives hGives
  have hStart : Yields (a.start parent caps e (delivered e.leading)) q
      (a.Started (fun _ => True) parent caps e (delivered e.leading) q)
      (q.Touches a.files (fun _ => True) parent) :=
    start_yields a.library.classes.covered_univ q.ready_univ trivial e _
  have hBoth := hStart.and ((start_silent e (delivered e.leading)).noting q)
  refine .bind (.adapt (hBoth.weaken fun _ _ => trivial)) ?_
  rintro made r ⟨hStarted, hNotes⟩
  cases hStarted with
  | raw hResolves hExt hOwn hCalls =>
    have hRaw : q.Gives a parent none _ [] r := ⟨_, hExt, .of_own hOwn hCalls, hNotes⟩
    refine .ofPure ⟨_, _, hGives.trans hRaw hp.present, fun hRest => ?_⟩
    rw [List.append_nil]
    exact .raw hIncludes hResolves hRest
  | @made c view _ hResolves hExt =>
    have hView : a.Follows docs view r := by
      refine ⟨fun name => (hExt.documents name).trans (hq.documents name), ?_⟩
      exact (hExt.ascending.bounds view List.mem_cons_self).2
    refine .bind (hWork hView) ?_
    rintro _ s ⟨inside, sites', hBuilt, log, hLog, hTells, hNotes'⟩
    refine (append_gives s).mono ?_ fun _ _ => trivial
    rintro _ t ⟨hAppend, hSame⟩
    have hRaised : q.Gives a parent none [] (⟨e, view, c.capabilities, inside⟩ :: sites') s := by
      refine ⟨_, hExt.trans hLog, hTells.raised e c.capabilities parent, ?_⟩
      simpa [outlets, links] using hNotes.trans hNotes'
    have hAll := hGives.trans (hRaised.trans hAppend hq.present) hp.present
    refine ⟨_, _, hAll, fun hRest => ?_⟩
    rw [hSame] at hRest
    rw [List.append_nil, List.nil_append]
    exact .view hIncludes hResolves hBuilt hRest

mutual

/-- Building an element follows the derivation of its sites. -/
theorem process_prescribed (hExpand : a.Expands docs expand) :
    ∀ (e : Element) {id : ObjectId} {caps : Capabilities} {path : String}
      {leading : List Instruction} {p : Progress}, leading = delivered e.leading →
      a.Follows docs id p →
      Yields (a.process expand stack e id caps path leading) p
        (fun _ p' => ∃ calls sites,
          Prescribed a docs e id caps p.registries p'.registries (⟨e, id, caps, calls⟩ :: sites) ∧
          p.Gives a id (some e) calls sites p')
        fun _ => True
  | .mk name attributes children inFront trailing text, id, caps, path, leading, p, hLeading,
      hp => by
    unfold process
    refine .bind (opening_gives (.mk name attributes children inFront trailing text) leading name
      text p) ?_
    rintro _ q ⟨hGives, hSame⟩
    have hq := hp.gives hGives
    refine .bind (processChildren_prescribed hExpand children hq) ?_
    rintro _ r ⟨calls, sites, hChildren, hGives'⟩
    refine (takeTrailing_prescribed hExpand trailing (hq.gives hGives')).mono ?_ fun _ _ => trivial
    rintro _ s ⟨calls', sites', hTrailing, hGives''⟩
    rw [hSame] at hChildren
    refine ⟨_, _, .mk hChildren hTrailing, ?_⟩
    have hAll := hGives.trans (hGives'.trans hGives'' hq.present) hp.present
    rw [hLeading] at hAll
    exact hAll

/-- Building the children of an element follows the derivation of their sites. -/
theorem processChildren_prescribed (hExpand : a.Expands docs expand) :
    ∀ (es : List Element) {parent : ObjectId} {caps : Capabilities} {path : String} {index : Nat}
      {p : Progress}, a.Follows docs parent p →
      Yields (a.processChildren expand stack es parent caps path index) p
        (fun _ p' => ∃ calls sites,
          PrescribedChildren a docs es caps p.registries p'.registries calls sites ∧
          p.Gives a parent none calls sites p')
        fun _ => True
  | [], parent, caps, path, index, p, _ => by
    unfold processChildren
    exact .ofPure ⟨[], [], .nil, .of_extends (.refl ..) (.ofSame rfl rfl)⟩
  | e :: es, parent, caps, path, index, p, hp => by
    unfold processChildren
    refine .bind (takeChild_prescribed hExpand e (fun hView => ?_) es hp) ?_
    · exact process_prescribed hExpand e rfl hView
    · rintro _ q ⟨calls, sites, hGives, hChildren⟩
      refine (processChildren_prescribed hExpand es (hp.gives hGives)).mono ?_ fun _ _ => trivial
      rintro _ r ⟨calls', sites', hBuilt, hGives'⟩
      exact ⟨_, _, hChildren hBuilt, hGives.trans hGives' hp.present⟩

end

/-! ## Roots -/

/-- Starting a root tells no object anything. -/
theorem RootStarted.opening {root : Option ObjectId} {e : Element} {p p' : Progress}
    {made : ObjectId × Capabilities} (h : a.RootStarted (fun _ => True) root e p made p') :
    ∃ log, p.Extends a.files (fun _ => True) p' log ∧ root.toList ++ madeIn log = [made.1] ∧
      ∀ x, callsTo x log = [] := by
  cases root with
  | some r =>
    obtain ⟨rfl, hExt⟩ := h.of_some
    exact ⟨[], hExt, rfl, callsTo_nil⟩
  | none => exact ⟨_, h.of_none, rfl, fun x => callsTo_made x made.1 []⟩

private theorem RootStarted.means {U : Region} {root : Option ObjectId} {e : Element}
    {p p' : Progress} {made : ObjectId × Capabilities} (h : a.RootStarted U root e p made p') :
    a.RootMeans p.store p.registries e root made.2 p'.registries := by
  cases h with
  | reserved hName hRoot hCaps => exact hRoot ▸ .reserved hName hCaps
  | supplied hName _ hResolves _ | made hName _ hResolves _ => exact .component hName hResolves

/-- The object that a root element describes is there once it is started. -/
theorem RootStarted.present {U : Region} {root : Option ObjectId} {e : Element} {p p' : Progress}
    {made : ObjectId × Capabilities} (h : a.RootStarted U root e p made p')
    (hRoot : ∀ r : Nat, root = some r → r < p.store.size) : (made.1 : Nat) < p'.store.size := by
  cases root with
  | some r =>
    obtain ⟨rfl, hExt⟩ := h.of_some
    exact Nat.lt_of_lt_of_le (hRoot _ rfl) hExt.store.size_le
  | none => exact (h.of_none.ascending.bounds _ List.mem_cons_self).2

/-- Building a root element follows the derivation, however deep includes may go. -/
theorem buildRoot_prescribed (depth : Nat) (stack : List String) (e : Element)
    (root : Option ObjectId) {p : Progress}
    (hDocs : ∀ name, p.loader.document? a.files name = docs name)
    (hRoot : ∀ r : Nat, root = some r → r < p.store.size) :
    Yields (a.buildRoot depth stack e root) p (a.RootNoted docs root e p) fun _ => True := by
  induction depth generalizing stack e root p with
  | zero =>
    unfold buildRoot
    exact .ofThrow trivial
  | succ depth ih =>
    have hExpand : a.Expands docs fun stack e => a.buildRoot depth stack e none :=
      fun stack e p hDocs => ih stack e none hDocs fun _ h => nomatch h
    unfold buildRoot
    have hStart := (startRoot_yields a.library.classes.covered_univ p.ready_univ e root).and
      ((startRoot_silent e root).noting p)
    refine .bind (.adapt (hStart.weaken fun _ _ => trivial)) ?_
    rintro ⟨id, own⟩ q ⟨⟨hStarted, hLeading⟩, hNotes⟩
    obtain ⟨opening, hOpening, hMade, hTold⟩ := hStarted.opening
    have hq : a.Follows docs id q :=
      ⟨fun name => (hOpening.documents name).trans (hDocs name), hStarted.present hRoot⟩
    have hNone : delivered e.leading = e.leading := delivered_eq_self hLeading
    refine .bind (process_prescribed hExpand e hNone.symm hq) ?_
    rintro _ r ⟨calls, sites, hBuilt, log, hLog, hTells, hNotes'⟩
    refine .ofPure ⟨own, _, _, _, hStarted.means, hBuilt, hOpening.trans hLog,
      .of_tells hMade hTold hTells e own, ?_⟩
    simpa [outlets, links] using hNotes.trans hNotes'

/-- The class of the root that is supplied does not change. -/
theorem RootMeans.of_evolves {U : Region} {s t : Store} {rs rs' : Registries} {e : Element}
    {root : Option ObjectId} {own : Capabilities} (h : a.RootMeans t rs e root own rs')
    (hStore : Store.Evolves U s t) (hRoot : ∀ r : Nat, root = some r → r < s.size) :
    a.RootMeans s rs e root own rs' := by
  cases h with
  | component hName hResolves => exact .component hName hResolves
  | reserved hName hCaps =>
    refine .reserved hName ?_
    unfold suppliedCapabilities at hCaps ⊢
    rwa [Store.class?_of_type? (hStore.type _ (hRoot _ rfl))] at hCaps

/-- Building the tree of a document follows the derivation for that document. -/
theorem buildTree_noted (root : Option ObjectId) (origin : Origin) {p : Progress}
    (hRoot : ∀ r : Nat, root = some r → r < p.store.size) :
    Yields (a.buildTree root origin) p
      (fun view p' => ∃ d, origin.Means (p.loader.document? a.files) d ∧
        a.RootNoted (p.loader.document? a.files) root d.root p view p')
      fun _ => True := by
  have hDocument (stack : List String) (d : Document) {q : Progress}
      (hDocs : ∀ name, q.loader.document? a.files name = p.loader.document? a.files name)
      (hRoot : ∀ r : Nat, root = some r → r < q.store.size) :
      Yields (a.buildDocument stack d root) q
        (a.RootNoted (p.loader.document? a.files) root d.root q) fun _ => True := by
    unfold buildDocument
    refine .ofGetBind ?_
    exact buildRoot_prescribed _ stack d.root root hDocs hRoot
  cases origin with
  | given d =>
    refine (hDocument [] d (fun _ => rfl) hRoot).mono ?_ fun _ _ => trivial
    exact fun _ _ h => ⟨d, rfl, h⟩
  | named name =>
    unfold buildTree
    have hLoad : Yields (Building.loading (loadDocument a.files name)) p _ _ :=
      loadDocument_yields (fun _ => True) name
    refine .bind ((hLoad.and (Silent.loading.noting p)).weaken fun _ _ => trivial) ?_
    rintro d q ⟨⟨hExt, hRegistries, hFound⟩, hSilent⟩
    have hSize := hExt.store.size_le
    refine (hDocument [name] d hExt.documents fun r hr =>
      Nat.lt_of_lt_of_le (hRoot r hr) hSize).mono ?_ fun _ _ => trivial
    rintro view r ⟨own, rs, sites, log, hMeans, hBuilt, hLog, hRecounts, hNotes⟩
    rw [hRegistries] at hMeans
    exact ⟨d, hFound, own, rs, sites, log, hMeans.of_evolves hExt.store hRoot, hBuilt,
      hExt.trans hLog, hRecounts, hSilent.trans hNotes⟩

/-- What was built for a document, without what was noted down. -/
theorem buildTree_prescribed (root : Option ObjectId) (origin : Origin) {p : Progress}
    (hRoot : ∀ r : Nat, root = some r → r < p.store.size) :
    Yields (a.buildTree root origin) p
      (fun view p' => ∃ d, origin.Means (p.loader.document? a.files) d ∧
        a.RootPrescribed (p.loader.document? a.files) root d.root p view p')
      fun _ => True := by
  refine (buildTree_noted root origin hRoot).mono ?_ fun _ h => h
  rintro view p' ⟨d, hOrigin, own, rs, sites, log, hMeans, hBuilt, hExt, hRecounts, -⟩
  exact ⟨d, hOrigin, own, rs, sites, log, hMeans, hBuilt, hExt, hRecounts⟩

end

end Assembly

namespace Builder

/-- What a build that succeeds has told every instance. The sites are those that the document at the
origin calls for; their instances are the root that was supplied, if any, and all the instances that
were made, in this order. Each of them has been told what its site says, and no other object has
been told anything. -/
theorem outcome_calls (b : Builder) (owner root : Option ObjectId) (origin : Origin) (w : World)
    (hRoot : ∀ r : Nat, root = some r → r < w.store.size) {view : ObjectId} {p : Progress}
    (hDone : b.outcome owner root origin w = (.ok view, p)) :
    ∃ d own rs rs' sites, origin.Means (w.loader.document? b.files) d ∧
      ({ b with owner } : Assembly).RootMeans w.store w.registries d.root root own rs ∧
      Prescribed { b with owner } (w.loader.document? b.files) d.root view own rs rs' sites ∧
      sites.map (·.id) = root.toList ++ madeIn p.journal ∧ (sites.map (·.id)).Nodup ∧
      (∀ site ∈ sites, callsTo site.id p.journal = site.calls) ∧
      ∀ id ∉ sites.map (·.id), callsTo id p.journal = [] := by
  obtain ⟨view', q, hTree, hCommit⟩ := exists_of_run_bind_eq_ok hDone
  have hBuilt : Yields (({ b with owner } : Assembly).buildTree root origin) { w with }
      (fun view' q => ∃ d, origin.Means (w.loader.document? b.files) d ∧
        ({ b with owner } : Assembly).RootPrescribed (w.loader.document? b.files) root d.root
          { w with } view' q) fun _ => True :=
    Assembly.buildTree_prescribed root origin hRoot
  obtain ⟨d, hMeans, own, rs, sites, log, hRootMeans, hBuilt, hExt, hRecounts⟩ := hBuilt.ok hTree
  have hEnd : view = view' ∧ p.journal = log := by
    have hYields : Yields (do ({ b with owner } : Assembly).commit; return view') q
        (fun answer p => answer = view' ∧ p.journal = q.journal) fun _ => True :=
      .bind ((Assembly.commit_keeps_journal _ q).weaken fun _ _ => trivial) fun _ _ h =>
        .ofPure ⟨rfl, h⟩
    obtain ⟨hView, hJournal⟩ := hYields.ok hCommit
    exact ⟨hView, hJournal.trans hExt.journal⟩
  obtain ⟨rfl, rfl⟩ := hEnd
  have hNodup : (sites.map (·.id)).Nodup := by
    rw [← hRecounts.made]
    cases root with
    | some r => exact hExt.ascending.nodup_cons (.inl (hRoot r rfl))
    | none => exact hExt.ascending.sorted.imp fun hLt => Nat.ne_of_lt hLt
  refine ⟨d, own, rs, _, sites, hMeans, hRootMeans, hBuilt, hRecounts.made.symm, hNodup, ?_, ?_⟩
  · intro site hSite
    rw [hRecounts.told, callsAt_of_mem hNodup hSite]
  · intro id hId
    rw [hRecounts.told, callsAt_eq_nil hId]

/-- The sample page makes four panels, two of them for the document that it includes twice. -/
theorem outcome_calls_page :
    ∃ p, Sample.builder.outcome (some 0) none (.given Sample.page) Sample.world = (.ok 2, p) ∧
      madeIn p.journal = [2, 3, 4, 5] ∧
      ∃ d own rs rs' sites,
        (Origin.given Sample.page).Means
          (Sample.world.loader.document? Sample.builder.files) d ∧
        ({ Sample.builder with owner := some 0 } : Assembly).RootMeans Sample.world.store
          Sample.world.registries d.root none own rs ∧
        Prescribed { Sample.builder with owner := some 0 }
          (Sample.world.loader.document? Sample.builder.files) d.root 2 own rs rs' sites ∧
        sites.map (·.id) = (none : Option ObjectId).toList ++ madeIn p.journal ∧
        (sites.map (·.id)).Nodup ∧
        (∀ site ∈ sites, callsTo site.id p.journal = site.calls) ∧
        ∀ id ∉ sites.map (·.id), callsTo id p.journal = [] := by
  have hView : (Sample.builder.outcome (some 0) none (.given Sample.page) Sample.world).1.toOption =
      some 2 := by decide +kernel
  have hMade : madeIn
      (Sample.builder.outcome (some 0) none (.given Sample.page) Sample.world).2.journal =
      [2, 3, 4, 5] := by decide +kernel
  cases h : Sample.builder.outcome (some 0) none (.given Sample.page) Sample.world with
  | mk answer p =>
    rw [h] at hView hMade
    obtain rfl : answer = .ok 2 := eq_ok_of_toOption_eq_some hView
    exact ⟨p, rfl, hMade, outcome_calls Sample.builder (some 0) none (.given Sample.page)
      Sample.world (by simp) h⟩

end Builder

end ViewMarkup
