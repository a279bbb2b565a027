import ViewMarkup.Proofs.Build.Child
import ViewMarkup.Proofs.Build.IncludeStack
import ViewMarkup.Proofs.Build.Includes
import ViewMarkup.Proofs.Build.Plain

/-!
# Walking through documents

A build is given a depth and the include stack. A walk is the same recursion without a depth and
with the stack as a part of what it changes: the name of an included document is pushed, its root
element is built, and whatever comes of that the name is popped again. Nothing bounds a walk, so it
may as well never come to an end, and `none` stands for that.

`Follows` says that a walk does come to an end, namely like a build, with turns that make a course.

## Main results

* `Walking.Follows.bind`, `Walking.Follows.ofBuilding` — walks are followed part by part.
* `Assembly.findIncluded_cycles` — why an include is refused.
* `Assembly.walkInclude_follows` — carrying out an include, if its document is walked through.
-/

namespace ViewMarkup

open Text

/-! ## Walks -/

/-- How far a walk has come: as far as a build, with the names of the documents that are being
included and the turns taken at includes so far. -/
structure Walk extends Progress where
  stack : List String := []
  turns : List Turn := []

/-- Walking may fail, keeps what was done before it failed, and may never come to an end. -/
abbrev Walking := ExceptT Failure (StateT Walk Option)

namespace Walk

/-- The walk on reaching an include. -/
def reach (name : String) (t : Walk) : Walk :=
  { t with turns := t.turns ++ [.reached name t.stack] }

/-- The walk on entering a document. -/
def enter (name : String) (t : Walk) : Walk :=
  { t with
    stack := t.stack ++ [name]
    turns := t.turns ++ [.entered name (t.stack ++ [name])] }

/-- The walk on leaving the document that was entered last. -/
def leave (name : String) (t : Walk) : Walk :=
  { t with
    stack := t.stack.dropLast
    turns := t.turns ++ [.left name t.stack.dropLast] }

end Walk

/-- A part of a build that has nothing to do with includes. -/
def Walking.building {α : Type} (act : Building α) : Walking α := fun t =>
  let (answer, progress) := act.run t.toProgress
  some (answer, { t with toProgress := progress })

namespace Assembly

/-- The document that an include names, when it is reached. -/
def findReached (a : Assembly) (parent : ObjectId) (caps : Capabilities) (path name : String) :
    Walking Document := do
  let stack := (← get).stack
  modify (·.reach name)
  .building (Building.within path (a.findIncluded stack parent caps name))

mutual

/-- Walks through a root element. -/
def walkRoot (a : Assembly) (e : Element) (root : Option ObjectId) : Walking ObjectId := do
  let (id, caps) ← .building (Building.within e.name (a.startRoot e root))
  a |>.walkElement e id caps e.name e.leading
  return id
partial_fixpoint

/-- Walks through an element: everything that it says about its instance, after the instructions
given. -/
def walkElement (a : Assembly) (e : Element) (id : ObjectId) (caps : Capabilities) (path : String)
    (leading : List Instruction) : Walking Unit := do
  .building <| Building.within path do
    a.deliverAll id caps leading
    a.takeAttributes id e.attributes
    a.takeText id caps e.name e.text
  a |>.walkChildren e.children id caps path 0
  e.trailing.forM fun i =>
    if i.target = includeTarget then a |>.walkInclude id caps path i.data
    else .building (Building.within path (a.deliver id caps i))
partial_fixpoint

/-- Walks through child elements in order, the first of which has the index given. -/
def walkChildren (a : Assembly) (es : List Element) (parent : ObjectId) (caps : Capabilities)
    (path : String) (index : Nat) : Walking Unit :=
  match es with
  | [] => pure ()
  | e :: es => do
    a |>.walkChild e parent caps (path ++ "/" ++ e.name ++ "[" ++ toString index ++ "]")
    a |>.walkChildren es parent caps path (index + 1)
partial_fixpoint

/-- Walks through the includes in front of a child element and then through the child itself. -/
def walkChild (a : Assembly) (e : Element) (parent : ObjectId) (caps : Capabilities)
    (path : String) : Walking Unit := do
  (includes e.leading).forM fun i => a |>.walkInclude parent caps path i.data
  match ← Walking.building (Building.within path (a.start parent caps e (delivered e.leading))) with
  | none => pure ()
  | some (id, own) => do
    a |>.walkElement e id own path (delivered e.leading)
    .building (Building.within path (a.append parent caps id))
partial_fixpoint

/-- Walks through the document that an include names and appends its root. -/
def walkInclude (a : Assembly) (parent : ObjectId) (caps : Capabilities) (path data : String) :
    Walking Unit := do
  let name := trim data
  let d ← a.findReached parent caps path name
  let view ← (a |>.walkDocument name d : Walking ObjectId)
  .building (Building.within path (a.append parent caps view))
partial_fixpoint

/-- Walks through a document with its name on the stack, which is taken off again even after a
failure. -/
def walkDocument (a : Assembly) (name : String) (d : Document) :
    StateT Walk Option (Except Failure ObjectId) := do
  modify (·.enter name)
  let answer ← (a |>.walkRoot d.root none).run
  modify (·.leave name)
  return answer
partial_fixpoint

end

/-- Walks through the document at an origin. -/
def walkTree (a : Assembly) (root : Option ObjectId) : Origin → Walking ObjectId
  | .given d => a.walkRoot d.root root
  | .named name => do
    let d ← Walking.building (Building.loading (loadDocument a.files name))
    a.walkRoot d.root root

end Assembly

/-- The names that the include stack begins with: the name that a document was asked for by. -/
def Origin.names : Origin → List String
  | .given _ => []
  | .named name => [name]

/-- The walk of a build, which gives the owner what is its own in the end: its answer, and how far
it has come. -/
def Builder.walk (b : Builder) (owner root : Option ObjectId) (origin : Origin) (w : World) :
    Option (Except Failure ObjectId × Walk) :=
  let a : Assembly := { b with owner }
  (do
    let view ← a.walkTree root origin
    Walking.building a.commit
    return view : Walking ObjectId).run { w with stack := origin.names }

/-! ## Failures of including -/

/-- Whether an answer is that a document is included through itself: through the documents named, in
this order. -/
def Cycles {α : Type} (names : List String) (answer : Except Failure α) : Prop :=
  ∃ path, answer = .error (.markup (.includeCycle names) path)

/-- Whether an include was reached whose name, which is not empty, was on the stack. `names` is the
stack with this name. -/
def Recurs (names : List String) (turns : List Turn) : Prop :=
  ∃ name stack, .reached name stack ∈ turns ∧ name ≠ "" ∧ name ∈ stack ∧ names = stack ++ [name]

section Cycles

variable {α : Type} {names : List String}

theorem not_cycles_ok {x : α} : ¬Cycles names (.ok x : Except Failure α) := by
  rintro ⟨path, h⟩
  cases h

theorem cycles_error {e : Failure} :
    Cycles names (.error e : Except Failure α) ↔ ∃ path, e = .markup (.includeCycle names) path :=
  exists_congr fun _ => ⟨Except.error.inj, congrArg Except.error⟩

theorem FailsPlainly.not_cycles {answer : Except Failure α} (h : FailsPlainly answer) :
    ¬Cycles names answer := by
  rintro ⟨path, rfl⟩
  exact h _ rfl

/-- Where a failure is placed makes no difference. -/
theorem cycles_within {path : String} {act : Building α} {p : Progress} :
    Cycles names (Building.within path act p).1 ↔ Cycles names (act p).1 := by
  simp only [Building.run_within]
  cases (act p).1 with
  | ok x => exact iff_of_false not_cycles_ok not_cycles_ok
  | error e =>
    constructor
    · rintro ⟨place, h⟩
      have hPlaced : e.withPath path = .markup (.includeCycle names) place := Except.error.inj h
      unfold Failure.withPath at hPlaced
      split at hPlaced
      · cases hPlaced
        exact ⟨none, rfl⟩
      · exact ⟨place, congrArg Except.error hPlaced⟩
    · rintro ⟨place, h⟩
      cases h
      cases place with
      | none => exact ⟨some path, rfl⟩
      | some place => exact ⟨some place, rfl⟩

theorem not_recurs_nil : ¬Recurs names [] := by
  rintro ⟨name, stack, h, -⟩
  cases h

private theorem recurs_reached {name : String} {stack : List String} {turns : List Turn} :
    Recurs names (.reached name stack :: turns) ↔
      (name ≠ "" ∧ name ∈ stack ∧ names = stack ++ [name]) ∨ Recurs names turns := by
  constructor
  · rintro ⟨other, old, h, hRest⟩
    rcases List.mem_cons.1 h with h | h
    · cases h
      exact .inl hRest
    · exact .inr ⟨other, old, h, hRest⟩
  · rintro (hRest | ⟨other, old, h, hRest⟩)
    · exact ⟨name, stack, List.mem_cons_self, hRest⟩
    · exact ⟨other, old, List.mem_cons_of_mem _ h, hRest⟩

private theorem recurs_entered {name : String} {stack : List String} {turns : List Turn} :
    Recurs names (.entered name stack :: turns) ↔ Recurs names turns := by
  simp [Recurs]

private theorem recurs_left {name : String} {stack : List String} {turns : List Turn} :
    Recurs names (.left name stack :: turns) ↔ Recurs names turns := by
  simp [Recurs]

theorem recurs_append {turns turns' : List Turn} :
    Recurs names (turns ++ turns') ↔ Recurs names turns ∨ Recurs names turns' := by
  constructor
  · rintro ⟨name, stack, h, hRest⟩
    rcases List.mem_append.1 h with h | h
    · exact .inl ⟨name, stack, h, hRest⟩
    · exact .inr ⟨name, stack, h, hRest⟩
  · rintro (⟨name, stack, h, hRest⟩ | ⟨name, stack, h, hRest⟩)
    · exact ⟨name, stack, List.mem_append_left _ h, hRest⟩
    · exact ⟨name, stack, List.mem_append_right _ h, hRest⟩

end Cycles

/-! ## Following a build -/

/-- A part of a build that changes nothing about the documents and does not fail because of an
include. -/
structure Quiet {α : Type} (fs : Files) (act : Building α) : Prop where
  documents : ∀ p name, (act p).2.loader.document? fs name = p.loader.document? fs name
  acyclic : ∀ p names, ¬Cycles names (act p).1

/-- A walk that comes to an end like a build, from the same state, while a root element is built and
`docs` are the documents that there are. The turns that are taken make a course, and the answer is
that a document is included through itself just if an include is reached that recurs. -/
structure Walking.EndsLike {α : Type} (fs : Files) (docs : String → Option Document)
    (root : Element) (x : Walking α) (y : Building α) (t : Walk) (turns : List Turn) : Prop where
  run : x t = some ((y t.toProgress).1, ⟨(y t.toProgress).2, t.stack, t.turns ++ turns⟩)
  documents : ∀ name, (y t.toProgress).2.loader.document? fs name = docs name
  course : Course docs root t.stack turns
  cycles : ∀ names, Cycles names (y t.toProgress).1 ↔ Recurs names turns

/-- A walk that comes to an end like a build from every state with the stack and the documents
given. -/
def Walking.Follows {α : Type} (fs : Files) (docs : String → Option Document) (root : Element)
    (stack : List String) (x : Walking α) (y : Building α) : Prop :=
  ∀ t : Walk, t.stack = stack → (∀ name, t.loader.document? fs name = docs name) →
    ∃ turns, EndsLike fs docs root x y t turns

namespace Walking

variable {α β : Type} {fs : Files} {docs : String → Option Document} {root : Element}
  {stack : List String} {x : Walking α} {y : Building α} {f : α → Walking β}
  {g : α → Building β}

/-- A walk in two halves, the second of which starts where the first one ends. -/
theorem run_bind (x : Walking α) (f : α → Walking β) (t : Walk) :
    (x >>= f) t =
      match x t with
      | some (.ok a, t') => f a t'
      | some (.error e, t') => some (.error e, t')
      | none => none := by
  have hRun : (x >>= f) t = (x t).bind fun r => ExceptT.bindCont f r.1 r.2 := rfl
  rw [hRun]
  cases x t with
  | none => rfl
  | some r =>
    obtain ⟨answer, t'⟩ := r
    cases answer <;> rfl

/-- What follows a walk goes on where it has ended. -/
theorem EndsLike.bind {t : Walk} {turns : List Turn} (hx : EndsLike fs docs root x y t turns)
    (hf : ∀ a p, y t.toProgress = (.ok a, p) → Follows fs docs root t.stack (f a) (g a)) :
    ∃ turns', EndsLike fs docs root (x >>= f) (y >>= g) t turns' := by
  obtain ⟨hRun, hDocs, hCourse, hCycles⟩ := hx
  have hWalk := run_bind x f t
  have hBuild := ViewMarkup.run_bind y g t.toProgress
  rw [hRun] at hWalk
  generalize y t.toProgress = first at hf hWalk hBuild hDocs hCycles
  obtain ⟨answer, p⟩ := first
  cases answer with
  | error e =>
    refine ⟨turns, by rw [hWalk, hBuild], by rwa [hBuild], hCourse, fun names => ?_⟩
    rw [hBuild, ← hCycles names, cycles_error, cycles_error]
  | ok a =>
    obtain ⟨turns', hRest⟩ := hf a p rfl ⟨p, t.stack, t.turns ++ turns⟩ rfl hDocs
    refine ⟨turns ++ turns', ?_, ?_, hCourse.append hRest.course, fun names => ?_⟩
    · rw [hWalk, hBuild, ← List.append_assoc]
      exact hRest.run
    · rw [hBuild]
      exact hRest.documents
    · rw [hBuild, recurs_append, ← hCycles names, ← hRest.cycles names,
        or_iff_right not_cycles_ok]

namespace Follows

theorem ofBuilding (h : Quiet fs y) : Follows fs docs root stack (.building y) y := by
  intro t _ hDocs
  refine ⟨[], ?_, fun name => (h.documents _ name).trans (hDocs name), .done, fun names => ?_⟩
  · rw [List.append_nil]
    rfl
  · exact iff_of_false (h.acyclic _ names) not_recurs_nil

theorem ofPure {a : α} : Follows fs docs root stack (pure a) (pure a) := by
  intro t _ hDocs
  refine ⟨[], ?_, hDocs, .done, fun names => iff_of_false not_cycles_ok not_recurs_nil⟩
  rw [List.append_nil]
  rfl

theorem bind (hx : Follows fs docs root stack x y)
    (hf : ∀ a, Follows fs docs root stack (f a) (g a)) :
    Follows fs docs root stack (x >>= f) (y >>= g) := by
  rintro t rfl hDocs
  obtain ⟨turns, h⟩ := hx t rfl hDocs
  exact h.bind fun a _ _ => hf a

theorem forM {ι : Type} {f : ι → Walking Unit} {g : ι → Building Unit} {is : List ι}
    (h : ∀ i ∈ is, Follows fs docs root stack (f i) (g i)) :
    Follows fs docs root stack (is.forM f) (is.forM g) := by
  induction is with
  | nil => exact ofPure
  | cons i is ih =>
    exact (h i List.mem_cons_self).bind fun _ => ih fun j hj => h j (List.mem_cons_of_mem i hj)

end Follows
end Walking

/-! ## Quiet parts -/

/-- A part of a build that fails plainly, at its place, and has to do with objects only. -/
theorem Quiet.within {α : Type} {fs : Files} {act : Building α} {path : String}
    (hPlain : ActsPlainly act)
    (hYields : ∀ p, Yields act p (fun _ p' => ∃ log, p.Extends fs (fun _ => True) p' log)
      fun p' => ∃ log, p.Extends fs (fun _ => True) p' log) :
    Quiet fs (Building.within path act) where
  documents p := by
    obtain ⟨log, hExt⟩ := (hYields p).state
    exact hExt.documents
  acyclic p _ h := (hPlain p).not_cycles (cycles_within.1 h)

/-- So it is with one that attends to a single object. -/
theorem Attending.quiet {α : Type} {fs : Files} {id : ObjectId} {calls : List Call}
    {act : Building α} {path : String} (h : Attending fs (fun _ => True) id calls act)
    (hPlain : ActsPlainly act) : Quiet fs (Building.within path act) := by
  refine .within hPlain fun p => (h p p.store.closed_univ).mono ?_ ?_
  · rintro _ p' ⟨log, hExt, -⟩
    exact ⟨log, hExt⟩
  · rintro p' ⟨_, log, hExt, -⟩
    exact ⟨log, hExt⟩

namespace Assembly

variable {a : Assembly} {docs : String → Option Document} {root : Element} {stack : List String}
  {id parent : ObjectId} {caps : Capabilities} {path : String}

theorem startRoot_quiet (e : Element) (given : Option ObjectId) :
    Quiet a.files (Building.within path (a.startRoot e given)) := by
  have hcs := a.library.classes.covered_univ
  refine .within (startRoot_plain e given) fun p =>
    (startRoot_yields hcs p.ready_univ e given).mono ?_ ?_
  · rintro made p' ⟨hStarted, -⟩
    cases given with
    | none => exact ⟨_, hStarted.of_none⟩
    | some r => exact ⟨_, hStarted.of_some.2⟩
  · rintro p' (hExt | ⟨-, view, hExt⟩)
    · exact ⟨_, hExt⟩
    · exact ⟨_, hExt⟩

theorem deliver_quiet (i : Instruction) :
    Quiet a.files (Building.within path (a.deliver id caps i)) :=
  (deliver_attending a.library.classes.covered_univ trivial caps i).quiet (deliver_plain i)

/-- What is done to the instance of an element before its children are built. -/
theorem opening_quiet (leading : List Instruction) (attributes : Table String String)
    (name text : String) :
    Quiet a.files (Building.within path do
      a.deliverAll id caps leading
      a.takeAttributes id attributes
      a.takeText id caps name text) := by
  have hcs := a.library.classes.covered_univ
  have hAttributes : Attending a.files (fun _ => True) id (textCalls text) (do
      a.takeAttributes id attributes
      a.takeText id caps name text) :=
    (takeAttributes_attending hcs trivial attributes).andThen fun _ =>
      takeText_attending hcs trivial name text
  exact ((deliverAll_attending hcs trivial caps leading).bind fun _ => hAttributes).quiet
    (.bind (deliverAll_plain leading) fun _ =>
      .bind (takeAttributes_plain attributes) fun _ => takeText_plain name text)

theorem start_quiet (e : Element) (leading : List Instruction) :
    Quiet a.files (Building.within path (a.start parent caps e leading)) := by
  have hcs := a.library.classes.covered_univ
  refine .within (start_plain e leading) fun p =>
    (start_yields hcs p.ready_univ trivial e leading).mono ?_ ?_
  · intro made p' hStarted
    cases hStarted with
    | made _ hExt => exact ⟨_, hExt⟩
    | raw _ hExt _ _ => exact ⟨_, hExt⟩
  · rintro p' ⟨log, hExt, -⟩
    exact ⟨log, hExt⟩

theorem append_quiet (view : ObjectId) :
    Quiet a.files (Building.within path (a.append parent caps view)) := by
  have hcs := a.library.classes.covered_univ
  refine .within append_plain fun p =>
    (append_yields hcs p.ready_univ trivial trivial).mono (fun _ p' h => ⟨_, h.1⟩) ?_
  rintro p' (rfl | hExt)
  · exact ⟨_, .refl a.files _ _⟩
  · exact ⟨_, hExt⟩

/-! ## Includes -/

theorem findIncluded_eq (name : String) :
    a.findIncluded stack parent caps name =
      if name = "" then throw (.of (.malformed .includeUnnamed))
      else if name ∈ stack then throw (.of (.includeCycle (stack ++ [name])))
      else (do
        a.checkAppend parent caps
        Building.loading (loadDocument a.files name)) := by
  unfold findIncluded
  by_cases hEmpty : name = ""
  · rw [if_pos hEmpty, if_pos (String.isEmpty_iff.2 hEmpty)]
    rfl
  · rw [if_neg hEmpty, if_neg fun h => hEmpty (String.isEmpty_iff.1 h)]
    by_cases hStack : name ∈ stack
    · rw [if_pos hStack, if_pos (List.contains_iff_mem.2 hStack)]
      rfl
    · rw [if_neg hStack, if_neg fun h => hStack (List.contains_iff_mem.1 h)]

/-- An include is refused because its document is included through itself just if its name, which is
not empty, is on the stack. -/
theorem findIncluded_cycles {name : String} {names : List String} {p : Progress} :
    Cycles names (a.findIncluded stack parent caps name p).1 ↔
      name ≠ "" ∧ name ∈ stack ∧ names = stack ++ [name] := by
  have hThrow (e : Failure) : Cycles names ((throw e : Building Document) p).1 ↔
      ∃ path, e = .markup (.includeCycle names) path := cycles_error
  rw [findIncluded_eq]
  split
  · next hEmpty =>
    rw [hThrow]
    exact iff_of_false (fun ⟨_, h⟩ => by cases h) fun h => h.1 hEmpty
  · next hEmpty =>
    split
    · next hStack =>
      rw [hThrow]
      constructor
      · rintro ⟨_, h⟩
        cases h
        exact ⟨hEmpty, hStack, rfl⟩
      · rintro ⟨-, -, rfl⟩
        exact ⟨none, rfl⟩
    · next hStack =>
      have hRest : ActsPlainly (do
          a.checkAppend parent caps
          Building.loading (loadDocument a.files name)) :=
        .bind checkAppend_plain fun _ => .loading (loadDocument_plain a.files name)
      exact iff_of_false (hRest p).not_cycles fun h => hStack h.2.1

/-- The name of an include that is not refused is not on the stack. -/
theorem not_mem_of_findIncluded {name : String} {d : Document} {p p' : Progress}
    (h : a.findIncluded stack parent caps name p = (.ok d, p')) : name ∉ stack := by
  rw [findIncluded_eq] at h
  split at h
  · cases h
  · split at h
    · cases h
    · assumption

/-- The name of a document is taken off the stack however the walk through it has ended. -/
theorem run_walkDocument (a : Assembly) (name : String) (d : Document) (t : Walk) :
    a.walkDocument name d t =
      (a.walkRoot d.root none (t.enter name)).map fun (answer, t') => (answer, t'.leave name) := by
  rw [walkDocument]
  show (a.walkRoot d.root none (t.enter name)).bind _ = _
  cases a.walkRoot d.root none (t.enter name) with
  | none => rfl
  | some r => rfl

/-- Finding the document that an include names and walking through it, if that can be done with its
name on the stack. -/
theorem findAndWalk_follows {expand : Expansion} {name : String} (hName : name ∈ root.included)
    (hExpand : ∀ d, docs name = some d → name ∉ stack →
      Walking.Follows a.files docs d.root (stack ++ [name]) (a.walkRoot d.root none)
        (expand (stack ++ [name]) d.root)) :
    Walking.Follows a.files docs root stack
      (do let d ← a.findReached parent caps path name; a.walkDocument name d)
      (do
        let d ← Building.within path (a.findIncluded stack parent caps name)
        expand (stack ++ [name]) d.root) := by
  rintro t rfl hDocs
  have hReached : a.findReached parent caps path name t =
      some ((Building.within path (a.findIncluded t.stack parent caps name) t.toProgress).1,
        ⟨(Building.within path (a.findIncluded t.stack parent caps name) t.toProgress).2, t.stack,
          t.turns ++ [.reached name t.stack]⟩) := rfl
  have hCycles (names : List String) : Cycles names
      (Building.within path (a.findIncluded t.stack parent caps name) t.toProgress).1 ↔
        name ≠ "" ∧ name ∈ t.stack ∧ names = t.stack ++ [name] :=
    cycles_within.trans findIncluded_cycles
  have hYields : Yields (Building.within path (a.findIncluded t.stack parent caps name))
      t.toProgress
      (fun d p' => t.Extends a.files (fun _ => True) p' [] ∧ p'.registries = t.registries ∧
        t.loader.document? a.files name = some d)
      (fun p' => t.Extends a.files (fun _ => True) p' []) :=
    (findIncluded_yields (fun _ => True) t.stack name).adapt
  have hWalk := Walking.run_bind (a.findReached parent caps path name)
    (fun d => (a.walkDocument name d : Walking ObjectId)) t
  have hBuild := run_bind (Building.within path (a.findIncluded t.stack parent caps name))
    (fun d => expand (t.stack ++ [name]) d.root) t.toProgress
  rw [hReached] at hWalk
  cases hFind : Building.within path (a.findIncluded t.stack parent caps name) t.toProgress with
  | mk answer p =>
    rw [hFind] at hCycles hWalk hBuild
    cases answer with
    | error e =>
      have hKept := (hYields.error hFind).documents
      refine ⟨[.reached name t.stack], by rw [hWalk, hBuild],
        fun other => by rw [hBuild, ← hDocs other, hKept other], .refused hName .done,
        fun names => ?_⟩
      rw [hBuild, recurs_reached, or_iff_left not_recurs_nil, ← hCycles names, cycles_error,
        cycles_error]
    | ok d =>
      obtain ⟨hExt, -, hStored⟩ := hYields.ok hFind
      have hFound : docs name = some d := (hDocs name).symm.trans hStored
      have hFresh := not_mem_of_findIncluded (run_adapt_eq_ok_iff.1 hFind)
      obtain ⟨inner, hInner⟩ := hExpand d hFound hFresh
        ⟨p, t.stack ++ [name],
          t.turns ++ [.reached name t.stack] ++ [.entered name (t.stack ++ [name])]⟩ rfl
        fun other => (hExt.documents other).trans (hDocs other)
      refine ⟨.reached name t.stack :: .entered name (t.stack ++ [name]) ::
        (inner ++ [.left name t.stack]), ?_, ?_, .expanded hName hFresh hFound hInner.course .done,
        fun names => ?_⟩
      · have hEntered := run_walkDocument a name d ⟨p, t.stack, t.turns ++ [.reached name t.stack]⟩
        have hEnter : Walk.enter name ⟨p, t.stack, t.turns ++ [.reached name t.stack]⟩ =
            ⟨p, t.stack ++ [name],
              t.turns ++ [.reached name t.stack] ++ [.entered name (t.stack ++ [name])]⟩ := rfl
        rw [hEnter, hInner.run] at hEntered
        rw [hWalk, hBuild]
        exact hEntered.trans (by simp [Walk.leave])
      · rw [hBuild]
        exact hInner.documents
      · rw [hBuild, recurs_reached, or_iff_right fun h => hFresh h.2.1, recurs_entered,
          recurs_append, recurs_left, or_iff_left not_recurs_nil]
        exact hInner.cycles names

/-- Carrying out an include. -/
theorem walkInclude_follows {expand : Expansion} {data : String} (hName : trim data ∈ root.included)
    (hExpand : ∀ d, docs (trim data) = some d → trim data ∉ stack →
      Walking.Follows a.files docs d.root (stack ++ [trim data]) (a.walkRoot d.root none)
        (expand (stack ++ [trim data]) d.root)) :
    Walking.Follows a.files docs root stack (a.walkInclude parent caps path data)
      (a.takeInclude expand stack parent caps path data) := by
  have hAppend (view : ObjectId) : Walking.Follows a.files docs root stack
      (.building (Building.within path (a.append parent caps view)))
      (Building.within path (a.append parent caps view)) := .ofBuilding (append_quiet view)
  rw [walkInclude]
  unfold takeInclude
  simpa only [bind_assoc] using (findAndWalk_follows hName hExpand).bind hAppend

end Assembly
end ViewMarkup
