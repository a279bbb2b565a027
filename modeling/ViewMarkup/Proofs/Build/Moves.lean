import ViewMarkup.Proofs.Build.Assigned
import ViewMarkup.Proofs.Build.Places
import ViewMarkup.Proofs.Build.Stages
import ViewMarkup.Proofs.Treads

/-!
# What an attempt is made of

An attempt looks up names, reads documents, notes down what the owner is to get, makes instances,
assigns properties of the object that it is made for, and tells it things, if what the object may
contain calls for them. `Assembly.Move` lists these. However an attempt ends, it has made some moves
one after the other, and if it fails it may have told its object something at the end that the
object has not taken, which is `Assembly.Slip`. An instruction that the object has refused may be
passed over, so telling it that is a move. What every move keeps is kept by the attempts that
succeed, and what all attempts of a tour keep by the tour.

## Main results

* `Attempt.moves` — an attempt is made of moves.
* `Assembly.buildTree_invariant` — what attempts that are due keep holds all along a build.
* `Assembly.buildTree_keeps` — what moves keep is kept by a tree that is finished.
-/

namespace ViewMarkup

/-! ## Moves -/

/-- A failure of an instruction. -/
def Failure.IsInstruction : Failure → Prop
  | .markup (.instruction _) _ => True
  | _ => False

/-- The object that an attempt is made for, what it may contain, the view that it is to be given, if
there is one, and whether its properties are assigned. -/
structure Subject where
  id : ObjectId
  caps : Capabilities
  view? : Option ObjectId := none
  assigns : Bool := false

/-- What an object may contain calls for telling it something; a view is the one that it is to be
given. -/
def Subject.Expects (x : Subject) (call : Call) : Prop :=
  x.caps.uses call.hook = true ∧ ∀ view, call = .append view → x.view? = some view

namespace Assembly

/-- One thing that an attempt does, given the object that it is made for, if there is one. -/
inductive Move (a : Assembly) (subject? : Option Subject) :
    Progress → Progress → Prop
  | resolve {p : Progress} (name : String) : Move a subject? p
      { p with registries := ((a.library.resolve a.registry name).run p.registries).2 }
  | load {p : Progress} (loader : Loader) : Move a subject? p { p with loader }
  | note {p : Progress} (outlets : List (String × ObjectId)) (links : List Binding)
      (appended : Table Identity Nat) : Move a subject? p { p with outlets, links, appended }
  | make {p : Progress} {c : Component} {id : ObjectId} {store : Store} :
      a.library.classes.instantiateStyled c.cls c.style p.store = .ok (id, store) →
      Move a subject? p { p with store, journal := p.journal ++ [.made id] }
  | assign {p : Progress} {x : Subject} (entry : String × String) :
      subject? = some x → x.assigns = true → Move a subject? p (a.assignProperty x.id entry p).2
  | tell {p : Progress} {x : Subject} (call : Call) : subject? = some x → x.Expects call →
      (∀ e, (a.tell x.id call p).1 = .error e → e.IsInstruction) →
      Move a subject? p (a.tell x.id call p).2

/-- What an attempt that fails may do at its end: its object is told something. -/
inductive Slip (a : Assembly) (subject? : Option Subject) : Progress → Progress → Prop
  | tell {p : Progress} {x : Subject} (call : Call) : subject? = some x → x.Expects call →
      Slip a subject? p (a.tell x.id call p).2

variable {a : Assembly} {subject? : Option Subject} {id view : ObjectId} {caps : Capabilities}

/-! ## What moves leave alone -/

variable {p q : Progress}

/-- Fetching changes the resources at most. -/
theorem fetching_state {α : Type} (act : Fetching α) (p : Progress) :
    ∃ loader, (Building.fetching act p).2 = { p with loader } := by
  unfold Building.fetching
  split
  · next loader _ => exact ⟨loader, rfl⟩
  · exact ⟨p.loader, rfl⟩

/-- Assigning a property is one step, whether the property can be assigned or not. If it is, it
changes one cell. -/
theorem assignProperty_state (id : ObjectId) (entry : String × String) (p : Progress) :
    ∃ store loader, (a.assignProperty id entry p).2 =
        { p with
          store
          loader
          journal := p.journal ++ [.assigned id entry.1 (a.wayAt p id entry.1)] } ∧
      (store = p.store ∨
        ∃ change, a.change? id p entry = some change ∧
          store = p.store.assign change.1 change.2) := by
  let noted : Progress :=
    { p with journal := p.journal ++ [.assigned id entry.1 (a.wayAt p id entry.1)] }
  let act := (a.sceneAt p).assign a.decoder a.files (.object id) entry.1 entry.2
  obtain ⟨loader, hFetch⟩ := fetching_state act noted
  have hRun : a.assignProperty id entry p =
      (Building.fetching act >>= fun store => modify fun p => { p with store }) noted := rfl
  cases hFetched : Building.fetching act noted with
  | mk answer q =>
    rw [hFetched] at hFetch
    cases hFetch
    rw [run_bind, hFetched] at hRun
    cases answer with
    | error e =>
      rw [hRun]
      exact ⟨p.store, loader, rfl, .inl rfl⟩
    | ok store =>
      obtain ⟨change, loader', hChange, -, hEnd⟩ := (a.assignProperty_yields id entry p).ok hRun
      rw [hRun]
      exact ⟨_, loader', hEnd, .inr ⟨change, hChange, rfl⟩⟩

theorem tell_evolves (a : Assembly) (id : ObjectId) (call : Call) (p : Progress) :
    Store.Evolves (fun _ => True) p.store (a.tell id call p).2.store := by
  refine Yields.state (R := fun q : Progress => Store.Evolves _ p.store q.store) ?_
  exact (tell_yields a.library.classes.covered_univ p.store.closed_univ trivial call
    fun _ _ => trivial).mono (fun _ q h => h.1.store) fun q h => h.1.store

theorem assignProperty_evolves (a : Assembly) (id : ObjectId) (entry : String × String)
    (p : Progress) :
    Store.Evolves (fun _ => True) p.store (a.assignProperty id entry p).2.store := by
  refine Yields.state (R := fun q : Progress => Store.Evolves _ p.store q.store) ?_
  refine (assignProperty_attending a.library.classes.covered_univ trivial entry p
    p.store.closed_univ).mono ?_ ?_
  · rintro _ q ⟨log, hExt, -⟩
    exact hExt.store
  · rintro q ⟨told, log, hExt, -⟩
    exact hExt.store

/-- Objects stay what they are, whatever happens to them. -/
theorem Move.evolves (h : a.Move subject? p q) :
    Store.Evolves (fun _ => True) p.store q.store := by
  cases h with
  | resolve _ | load _ | note _ _ _ => exact .refl _ _
  | make hMake =>
    have hcs := a.library.classes.covered_univ
    exact (Classes.instantiateStyled_evolves hcs (fun _ _ => trivial) hMake).2.2
  | assign entry _ _ => exact a.assignProperty_evolves _ entry p
  | tell call _ _ _ => exact a.tell_evolves _ call p

theorem Slip.evolves (h : a.Slip subject? p q) :
    Store.Evolves (fun _ => True) p.store q.store := by
  cases h with
  | tell call _ _ => exact a.tell_evolves _ call p

theorem told_of_tell {x : Subject} {call told : Call} (hSubject : subject? = some x)
    (hExpects : x.Expects told) (hTold : .told id call ∈ (a.tell x.id told p).2.journal) :
    .told id call ∈ p.journal ∨ ∃ x, subject? = some x ∧ x.id = id ∧ x.Expects call := by
  have hNoted : .told id call ∈ p.journal ++ [.told x.id told] := hTold
  rcases List.mem_append.1 hNoted with hOld | hNew
  · exact .inl hOld
  · cases List.mem_singleton.1 hNew
    exact .inr ⟨x, hSubject, rfl, hExpects⟩

/-- Nothing is told to any other object than the one that an attempt is made for. -/
theorem Move.told {call : Call} (h : a.Move subject? p q) (hTold : .told id call ∈ q.journal) :
    .told id call ∈ p.journal ∨ ∃ x, subject? = some x ∧ x.id = id ∧ x.Expects call := by
  cases h with
  | resolve _ | load _ | note _ _ _ => exact .inl hTold
  | make _ => exact .inl (by simpa using hTold)
  | assign entry _ _ =>
    obtain ⟨store, loader, hState, -⟩ := a.assignProperty_state _ entry p
    rw [hState] at hTold
    exact .inl (by simpa using hTold)
  | tell told hSubject hExpects _ => exact told_of_tell hSubject hExpects hTold

theorem Slip.told {call : Call} (h : a.Slip subject? p q) (hTold : .told id call ∈ q.journal) :
    .told id call ∈ p.journal ∨ ∃ x, subject? = some x ∧ x.id = id ∧ x.Expects call := by
  cases h with
  | tell told hSubject hExpects => exact told_of_tell hSubject hExpects hTold

/-! ## Actions that are made of moves -/

theorem scene_treads : Treads (a.Move subject?) (a.Slip subject?) a.scene :=
  Treads.ofGet.bind fun _ => .ofPure

theorem typeName_treads : Treads (a.Move subject?) (a.Slip subject?) (a.typeName id) :=
  scene_treads.bind fun _ => .ofPure

theorem ofExcept_treads {α : Type} {y : Except Failure α} :
    Treads (a.Move subject?) (a.Slip subject?) (Building.ofExcept y) := by
  cases y with
  | ok r => exact .ofPure
  | error failure => exact .ofThrow

theorem resolve_treads (name : String) :
    Treads (a.Move subject?) (a.Slip subject?)
      (Building.registering (a.library.resolve a.registry name)) :=
  .single fun _ => .resolve name

private theorem loading_treads {α : Type} {act : Loading α} :
    Treads (a.Move subject?) (a.Slip subject?) (Building.loading act) :=
  .single fun _ => .load _

/-- What an object is told of is taken, or the attempt fails. -/
theorem tell_treads {x : Subject} {call : Call} (hExpects : x.Expects call) :
    Treads (a.Move (some x)) (a.Slip (some x)) (a.tell x.id call) := by
  intro p
  cases hTell : (a.tell x.id call p).1 with
  | error e => exact ⟨p, .refl, .inr ⟨⟨e, rfl⟩, .tell call rfl hExpects⟩⟩
  | ok u =>
    refine ⟨_, .single (.tell call rfl hExpects fun e he => ?_), .inl rfl⟩
    rw [hTell] at he
    cases he

/-- An instruction that is refused may be passed over. -/
theorem deliver_treads (i : Instruction) :
    Treads (a.Move (some { id, caps })) (a.Slip (some { id, caps }))
      (a.deliver id caps i) := by
  unfold deliver
  dsimp only
  split
  · next hTaken =>
    intro p
    have hExpects : Subject.Expects { id, caps } (.instruction i.target i.data) :=
      ⟨hTaken, fun _ h => nomatch h⟩
    have hTreads : Treads (a.Move (some { id, caps })) (a.Slip (some { id, caps }))
        (a.tell id (.instruction i.target i.data)) := tell_treads hExpects
    have hTells := hTreads p
    rw [run_tryCatch]
    cases hTell : a.tell id (.instruction i.target i.data) p with
    | mk answer q =>
      rw [hTell] at hTells
      cases answer with
      | ok u => exact hTells
      | error e =>
        have hEnd : q = (a.tell id (.instruction i.target i.data) p).2 := by rw [hTell]
        dsimp only
        split
        · next why path =>
          have hMove : a.Move (some { id, caps }) p q := by
            rw [hEnd]
            refine .tell (x := { id, caps }) _ rfl hExpects fun e he => ?_
            rw [hTell] at he
            cases he
            trivial
          refine ⟨q, .single hMove, .inl ?_⟩
          split <;> rfl
        · exact hTells
  · exact .ite .ofPure (typeName_treads.bind fun _ => .ofThrow)

private theorem addOutlet_treads (name : String) :
    Treads (a.Move subject?) (a.Slip subject?) (a.addOutlet id name) := by
  unfold addOutlet
  split
  · exact .ofPure
  · refine scene_treads.bind fun _ => ofExcept_treads.bind fun _ => ?_
    refine .ite (.single fun p => ?_) (typeName_treads.bind fun _ => .ofThrow)
    exact .note _ p.links p.appended

private theorem addLink_treads (viewPath ownerPath : String) :
    Treads (a.Move subject?) (a.Slip subject?) (a.addLink id viewPath ownerPath) := by
  unfold addLink
  split
  · exact .ofThrow
  · refine scene_treads.bind fun _ => ofExcept_treads.bind fun _ => ofExcept_treads.bind fun _ => ?_
    split
    · exact typeName_treads.bind fun _ => .ofThrow
    · exact .single fun p => .note p.outlets _ p.appended

private theorem takeAttributes_treads (attributes : Table String String) :
    Treads (a.Move (some { id, caps, assigns := true }))
      (a.Slip (some { id, caps, assigns := true }))
      (a.takeAttributes id attributes) := by
  rw [takeAttributes_eq]
  refine .bind (.forM fun entry _ => .single fun _ =>
    .assign (x := { id, caps, assigns := true }) entry rfl rfl) fun _ => ?_
  exact .bind (.forM fun name _ => addOutlet_treads name) fun _ =>
    .forM fun bind _ => addLink_treads bind.1 bind.2

private theorem takeText_treads (name text : String) :
    Treads (a.Move (some { id, caps })) (a.Slip (some { id, caps }))
      (a.takeText id caps name text) := by
  unfold takeText
  dsimp only
  split
  · exact .ofPure
  · by_cases hText : caps.text = true
    · simp only [hText, Bool.not_true, Bool.false_eq_true, if_false]
      exact tell_treads (x := { id, caps }) ⟨hText, fun _ h => nomatch h⟩
    · simp only [hText, Bool.not_false, if_true]
      exact .ofThrowBind

theorem checkAppend_treads :
    Treads (a.Move subject?) (a.Slip subject?) (a.checkAppend id caps) := by
  unfold checkAppend
  split
  · exact typeName_treads.bind fun _ => .ofThrow
  · exact Treads.ofGet.bind fun _ => .ite (typeName_treads.bind fun _ => .ofThrow) .ofPure
  · exact .ofPure

private theorem append_treads :
    Treads (a.Move (some { id, caps, view? := view })) (a.Slip (some { id, caps, view? := view }))
      (a.append id caps view) := by
  unfold append
  by_cases hAppend : caps.uses .append = true
  · have hTell : Treads (a.Move (some { id, caps, view? := view }))
        (a.Slip (some { id, caps, view? := view }))
        (a.tell id (.append view)) :=
      tell_treads (x := { id, caps, view? := view }) ⟨hAppend, fun _ h => by cases h; rfl⟩
    refine checkAppend_treads.bind fun _ => hTell.bind fun _ => ?_
    exact .single fun p => .note p.outlets p.links _
  · have hNone : caps.append = .none := by simpa [Capabilities.uses] using hAppend
    unfold checkAppend
    rw [hNone]
    dsimp only
    rw [bind_assoc]
    exact typeName_treads.bind fun _ => .ofThrowBind

/-- A raw element is handed over to what takes raw elements. -/
theorem deliverRaw_treads (hRaw : caps.raw = true) (e : Element) :
    Treads (a.Move (some { id, caps })) (a.Slip (some { id, caps }))
      (a.deliverRaw id e) := by
  have hExpects : Subject.Expects { id, caps } (.raw e.name e.attributes) :=
    ⟨hRaw, fun _ h => nomatch h⟩
  exact .check (.check (.check (tell_treads hExpects)))

theorem instantiate_treads (c : Component) :
    Treads (a.Move subject?) (a.Slip subject?) (a.instantiate c) := by
  intro p
  unfold instantiate
  rw [run_bind_of_eq_ok (run_get p)]
  cases hMake : a.library.classes.instantiateStyled c.cls c.style p.store with
  | error failure => exact ⟨p, .refl, .inl rfl⟩
  | ok made => exact ⟨_, .single (.make hMake), .inl rfl⟩

private theorem start_treads (e : Element) (leading : List Instruction) :
    Treads (a.Move (some { id, caps })) (a.Slip (some { id, caps }))
      (a.start id caps e leading) := by
  unfold start
  rw [componentOf_eq]
  refine (resolve_treads e.name).bind fun c? => ?_
  split
  · exact checkAppend_treads.bind fun _ => (instantiate_treads _).bind fun _ => .ofPure
  · by_cases hRaw : caps.raw = true
    · simp only [hRaw, Bool.not_true, Bool.false_eq_true, if_false]
      refine .bind (.forM fun i _ => deliver_treads i) fun _ => ?_
      exact (deliverRaw_treads hRaw e).bind fun _ => .ofPure
    · simp only [hRaw, Bool.not_false, if_true]
      exact .ofThrowBind

private theorem findIncluded_treads (stack : List String) (name : String) :
    Treads (a.Move subject?) (a.Slip subject?) (a.findIncluded stack id caps name) := by
  unfold findIncluded
  exact .check (.check (checkAppend_treads.bind fun _ => loading_treads))

private theorem rootInstance_treads (e : Element) (root : Option ObjectId) :
    Treads (a.Move subject?) (a.Slip subject?) (a.rootInstance e root) := by
  unfold rootInstance
  dsimp only
  split
  · cases root with
    | none => exact .ofThrow
    | some id =>
      refine Treads.ofGet.bind fun _ => ?_
      split
      · exact ofExcept_treads.bind fun _ => .ofPure
      · exact .ofPure
  · refine (resolve_treads e.name).bind fun c? => ?_
    cases c? with
    | none => exact .ofThrow
    | some c =>
      cases root with
      | none => exact (instantiate_treads c).bind fun _ => .ofPure
      | some id =>
        exact Treads.ofGet.bind fun _ => .ite .ofPure (typeName_treads.bind fun _ => .ofThrow)

private theorem startRoot_treads (e : Element) (root : Option ObjectId) :
    Treads (a.Move subject?) (a.Slip subject?) (a.startRoot e root) := by
  unfold startRoot
  exact (rootInstance_treads e root).bind fun _ => .check .ofPure

end Assembly

/-! ## Attempts -/

/-- The object that an attempt is made for. A root is started for none, and attributes are assigned
whatever their object may contain. -/
def Attempt.subject? : Attempt → Option Subject
  | root _ => none
  | attributes id => some { id, caps := {}, assigns := true }
  | deliver id caps _ | text id caps | child id caps | find id caps _ => some { id, caps }
  | append id caps view => some { id, caps, view? := view }

/-- An attempt is made of moves. -/
theorem Attempt.moves (a : Assembly) (spot : Place) (t : Attempt) :
    Treads (a.Move t.subject?) (a.Slip t.subject?) (t.act a spot) := by
  cases t with
  | root given => exact Assembly.startRoot_treads spot.element given
  | deliver id caps i => exact Assembly.deliver_treads i
  | attributes id => exact Assembly.takeAttributes_treads spot.element.attributes
  | text id caps => exact Assembly.takeText_treads spot.element.name spot.element.text
  | child parent caps => exact Assembly.start_treads spot.element (delivered spot.element.leading)
  | find parent caps name => exact Assembly.findIncluded_treads spot.stack name
  | append parent caps view => exact Assembly.append_treads

/-- What moves and slips keep is kept by a visit, however it ends. -/
theorem Visit.keeps {a : Assembly} {I : Progress → Prop} (v : Visit)
    (hMove : ∀ p q, I p → a.Move v.attempt.subject? p q → I q)
    (hSlip : ∀ p q, I p → a.Slip v.attempt.subject? p q → I q) (h : I v.before) :
    I (v.run a).2 :=
  (v.attempt.moves a v.spot).keeps hMove hSlip h

/-- What moves keep is kept by a visit that does not fail. -/
theorem Visit.keeps_of_ok {a : Assembly} {I : Progress → Prop} {v : Visit}
    {answer : v.attempt.Answer} {q : Progress}
    (hMove : ∀ p q, I p → a.Move v.attempt.subject? p q → I q) (hRun : v.run a = (.ok answer, q))
    (h : I v.before) : I q :=
  (v.attempt.moves a v.spot).keeps_of_ok hMove hRun h

/-! ## Builds -/

/-- What attempts that are due keep when they do not fail holds of each of them along a build, which
ends with it or with an attempt that fails, for any discipline that the tours of roots keep to. -/
theorem Assembly.buildTree_orderly {σ : Type} {d : Discipline σ} {s : σ} {F : ObjectId → σ → Prop}
    (a : Assembly) (root : Option ObjectId) (origin : Origin) {p : Progress}
    {I : σ → Progress → Prop}
    (hMoves : ∀ depth stack e, Touring.Moves a d (a.tourRoot depth stack e root) s F)
    (hStart : ∀ loader, I s { p with loader })
    (hStep : ∀ {s} {v : Visit} {answer q}, I s v.before → d.Due s v → v.run a = (.ok answer, q) →
      I (d.next s v answer) q) :
    (∃ s, I s (a.buildTree root origin p).2) ∨
      (∃ e, (a.buildTree root origin p).1 = .error e) ∧
        ∃ s, ∃ v : Visit, ∃ e, I s v.before ∧ d.Due s v ∧
          v.run a = (.error e, (a.buildTree root origin p).2) := by
  obtain ⟨loader, vs, hTour, hLinked⟩ := a.tourTree_builds root origin p
  rcases hLinked with hLinked | ⟨-, hState⟩
  · obtain ⟨s?, hOrderly, -⟩ := tourTree_orderly hMoves origin p
    rw [hTour] at hOrderly
    obtain ⟨hCuts, hHolds⟩ := hOrderly.invariant (I := fun _ => I)
      (fun h hDue hRun => hStep h hDue hRun) [] hLinked (hStart loader)
    generalize a.buildTree root origin p = tree at hLinked hHolds
    obtain ⟨answer, q⟩ := tree
    cases answer with
    | ok view =>
      obtain ⟨s', -, h⟩ := hHolds rfl
      exact .inl ⟨s', h⟩
    | error e =>
      obtain ⟨front, v, e', rfl, hRun, -⟩ := hLinked.last
      obtain ⟨s', hDue, h⟩ := hCuts front v [] rfl
      exact .inr ⟨⟨e, rfl⟩, s', v, e', h, hDue, hRun⟩
  · rw [hState]
    exact .inl ⟨_, hStart loader⟩

/-- What attempts keep that are due at their stages holds all along a build. -/
theorem Assembly.buildTree_invariant (a : Assembly) (root : Option ObjectId) (origin : Origin)
    {p : Progress} {I : Stage → Progress → Prop}
    (hStart : ∀ loader, I { entering := true } { p with loader })
    (hStep : ∀ {s} {v : Visit} {answer q}, I s v.before → v.attempt.Due root s →
      v.run a = (.ok answer, q) → I (v.attempt.next s answer) q) :
    (∃ s, I s (a.buildTree root origin p).2) ∨
      (∃ e, (a.buildTree root origin p).1 = .error e) ∧
        ∃ s, ∃ v : Visit, ∃ e, I s v.before ∧ v.attempt.Due root s ∧
          v.run a = (.error e, (a.buildTree root origin p).2) :=
  a.buildTree_orderly root origin (d := .staged root)
    (fun depth stack e => tourRoot_moves depth stack e root [] fun _ hGiven => ⟨rfl, hGiven⟩)
    hStart hStep

/-- What moves keep is kept by a tree that is built, if it is finished. -/
theorem Assembly.buildTree_keeps {a : Assembly} {root : Option ObjectId} {origin : Origin}
    {p q : Progress} {view : ObjectId} {I : Progress → Prop}
    (hStart : ∀ loader, I { p with loader })
    (hMove : ∀ {subject? p q}, I p → a.Move subject? p q → I q)
    (hRun : a.buildTree root origin p = (.ok view, q)) : I q := by
  have hKept := a.buildTree_invariant root origin (I := fun _ => I) hStart fun hI _ hVisit =>
    Visit.keeps_of_ok (fun _ _ h h' => hMove h h') hVisit hI
  rw [hRun] at hKept
  rcases hKept with ⟨-, hI⟩ | ⟨⟨e, hFails⟩, -⟩
  · exact hI
  · cases hFails

end ViewMarkup
