import ViewMarkup.Build.Element
import ViewMarkup.Proofs.Build.Journal
import ViewMarkup.Proofs.Object.Access
import ViewMarkup.Proofs.View.Receive

/-!
# What is done to one object

`Progress.Extends` says what every part of building a tree leaves alone: objects outside of a
region, the types of objects, bindings, the answers of the resources and the journal so far. New
steps are appended to the journal, and new instances get new numbers.

Most parts of a build deal with a single object, which they tell things and assign properties of.
`Progress.Attends` says so, and `Attending` says it of an action, together with what the object is
told if the action succeeds.

## Main results

* `Assembly.tell_yields` — telling an object something is one step, whatever the object does.
* `Assembly.deliverAll_attending`, `Assembly.takeAttributes_attending`,
  `Assembly.takeText_attending` — what an object is told of its instructions, attributes and text.
-/

namespace ViewMarkup

open Text

/-! ## Going on -/

/-- What part of a build has done, when it went on from `p` to `p'` with some new steps. -/
structure Progress.Extends (fs : Files) (U : Region) (p p' : Progress) (log : List Step) :
    Prop where
  store : Store.Evolves U p.store p'.store
  ascending : Ascending p.store.size p'.store.size log
  journal : p'.journal = p.journal ++ log
  bindings : p'.bindings = p.bindings
  documents : ∀ name, p'.loader.document? fs name = p.loader.document? fs name

namespace Progress.Extends

variable {fs : Files} {U : Region} {p p' p'' : Progress} {log log' : List Step}

theorem refl (fs : Files) (U : Region) (p : Progress) : p.Extends fs U p [] where
  store := .refl U p.store
  ascending := .of_madeIn_eq_nil (Nat.le_refl _) rfl
  journal := (List.append_nil _).symm
  bindings := rfl
  documents _ := rfl

theorem trans (h : p.Extends fs U p' log) (h' : p'.Extends fs U p'' log') :
    p.Extends fs U p'' (log ++ log') where
  store := h.store.trans h'.store
  ascending := h.ascending.append h'.ascending
  journal := by rw [h'.journal, h.journal, List.append_assoc]
  bindings := h'.bindings.trans h.bindings
  documents name := (h'.documents name).trans (h.documents name)

/-- A step that makes nothing, with a change of the objects of the region. -/
theorem step {s : Step} {store : Store} (h : Store.Writes U p.store store)
    (hMade : madeIn [s] = []) :
    p.Extends fs U { p with store, journal := p.journal ++ [s] } [s] where
  store := h.toEvolves
  ascending := .of_madeIn_eq_nil (Nat.le_of_eq h.size_eq.symm) hMade
  journal := rfl
  bindings := rfl
  documents _ := rfl

end Progress.Extends

/-- What part of a build has done to a single object, when it went on from `p` to `p'`. -/
def Progress.Attends (fs : Files) (U : Region) (id : ObjectId) (calls : List Call)
    (p p' : Progress) : Prop :=
  ∃ log, p.Extends fs U p' log ∧ p'.registries = p.registries ∧ (∀ s ∈ log, s.IsOwn id) ∧
    callsTo id log = calls

/-- Some steps of an object's own may have been taken when a build went on from `p` to `p'`. -/
def Progress.Touches (fs : Files) (U : Region) (id : ObjectId) (p p' : Progress) : Prop :=
  ∃ log, p.Extends fs U p' log ∧ ∀ s ∈ log, s.IsOwn id

namespace Progress.Attends

variable {fs : Files} {U : Region} {id : ObjectId} {calls calls' : List Call}
  {p p' p'' : Progress}

theorem refl (fs : Files) (U : Region) (id : ObjectId) (p : Progress) :
    p.Attends fs U id [] p :=
  ⟨[], .refl fs U p, rfl, by simp, rfl⟩

theorem trans (h : p.Attends fs U id calls p') (h' : p'.Attends fs U id calls' p'') :
    p.Attends fs U id (calls ++ calls') p'' := by
  obtain ⟨log, hExt, hReg, hOwn, hCalls⟩ := h
  obtain ⟨log', hExt', hReg', hOwn', hCalls'⟩ := h'
  refine ⟨log ++ log', hExt.trans hExt', hReg'.trans hReg, fun s hs => ?_, ?_⟩
  · rcases List.mem_append.1 hs with hs | hs
    · exact hOwn s hs
    · exact hOwn' s hs
  · rw [callsTo_append, hCalls, hCalls']

theorem touches (h : p.Attends fs U id calls p') : p.Touches fs U id p' := by
  obtain ⟨log, hExt, -, hOwn, -⟩ := h
  exact ⟨log, hExt, hOwn⟩

private theorem closed (h : p.Attends fs U id calls p') (hp : p.store.Closed U) :
    p'.store.Closed U := by
  obtain ⟨_, hExt, -⟩ := h
  exact hExt.store.closed hp

end Progress.Attends

/-! ## Attending actions -/

/-- An action that deals with a single object only, which is told what is given if the action
succeeds. -/
def Attending {α : Type} (fs : Files) (U : Region) (id : ObjectId) (calls : List Call)
    (x : Building α) : Prop :=
  ∀ p, p.store.Closed U →
    Yields x p (fun _ => p.Attends fs U id calls) fun p' => ∃ told, p.Attends fs U id told p'

namespace Attending

variable {α β : Type} {fs : Files} {U : Region} {id : ObjectId} {calls calls' : List Call}
  {x : Building α} {f : α → Building β}

theorem ofPure {a : α} : Attending fs U id [] (pure a : Building α) :=
  fun p _ => .ofPure (.refl fs U id p)

theorem ofThrow {failure : Failure} : Attending fs U id calls (throw failure : Building α) :=
  fun p _ => .ofThrow ⟨[], .refl fs U id p⟩

theorem ofGet : Attending fs U id [] (get : Building Progress) :=
  fun p _ => .ofGet (.refl fs U id p)

/-- What is noted down for later does nothing to an object. -/
theorem ofModify {g : Progress → Progress}
    (h : ∀ p, (g p).toWorld = p.toWorld ∧ (g p).journal = p.journal) :
    Attending fs U id [] (modify g : Building Unit) := by
  intro p _
  obtain ⟨hWorld, hJournal⟩ := h p
  refine .ofModify ⟨[], ?_, congrArg World.registries hWorld, by simp, rfl⟩
  refine ⟨?_, ?_, by rw [hJournal, List.append_nil], congrArg World.bindings hWorld, ?_⟩
  · rw [congrArg World.store hWorld]
    exact .refl U p.store
  · rw [congrArg World.store hWorld]
    exact .of_madeIn_eq_nil (Nat.le_refl _) rfl
  · intro name
    rw [congrArg World.loader hWorld]

theorem bind (hx : Attending fs U id calls x) (hf : ∀ a, Attending fs U id calls' (f a)) :
    Attending fs U id (calls ++ calls') (x >>= f) := by
  intro p hp
  refine .bind (hx p hp) fun a p' h => ?_
  refine (hf a p' (h.closed hp)).mono (fun _ _ h' => h.trans h') ?_
  rintro p'' ⟨told, h'⟩
  exact ⟨calls ++ told, h.trans h'⟩

/-- An action whose first half tells the object nothing. -/
theorem andThen (hx : Attending fs U id [] x) (hf : ∀ a, Attending fs U id calls (f a)) :
    Attending fs U id calls (x >>= f) := by
  rw [← List.nil_append calls]
  exact hx.bind hf

theorem ofExcept {y : Except Failure α} : Attending fs U id [] (Building.ofExcept y) := by
  cases y with
  | ok a => exact ofPure
  | error failure => exact ofThrow

/-- A check in front of an action. -/
theorem check {c : Prop} [Decidable c] {failure : Failure} (hx : Attending fs U id calls x) :
    Attending fs U id calls (if c then (do throw failure; x) else x) := by
  split
  · exact andThen ofThrow fun _ => hx
  · exact hx

theorem forM {ι : Type} {g : ι → Building Unit} {told : ι → List Call}
    (h : ∀ i, Attending fs U id (told i) (g i)) (is : List ι) :
    Attending fs U id (is.flatMap told) (is.forM g) := by
  induction is with
  | nil => exact ofPure
  | cons i is ih =>
    rw [List.flatMap_cons]
    exact (h i).bind fun _ => ih

theorem foldlM {ι : Type} {g : β → ι → Building β}
    (h : ∀ b i, Attending fs U id [] (g b i)) (is : List ι) (b : β) :
    Attending fs U id [] (is.foldlM g b) := by
  induction is generalizing b with
  | nil => exact ofPure
  | cons i is ih => exact (h b i).andThen fun b' => ih b'

end Attending

theorem run_registering {α : Type} {act : Registering α} {p : Progress} {r : Except Failure α}
    {rs : Registries} (h : act.run p.registries = (r, rs)) :
    Building.registering act p = (r, { p with registries := rs }) := by
  unfold Building.registering
  rw [h]

theorem run_loading {α : Type} {act : Loading α} {p : Progress} {r : Except Failure α} {l : Loader}
    (h : act.run p.loader = (r, l)) : Building.loading act p = (r, { p with loader := l }) := by
  unfold Building.loading
  rw [h]

theorem run_fetching {α : Type} {act : Fetching α} {p : Progress} {r : Except Failure α}
    {l : Loader} (h : act (some p.loader) = (r, some l)) :
    Building.fetching act p = (r, { p with loader := l }) := by
  unfold Building.fetching
  rw [run_eq, h]

/-- A look-up in the resources as a part of building. -/
theorem fetching_yields {α : Type} {act : Fetching α} {p : Progress}
    {P : α → Progress → Prop} {B : Progress → Prop}
    (h : Yields act (some p.loader) (fun x l? => ∃ l, l? = some l ∧ P x { p with loader := l })
      fun l? => ∃ l, l? = some l ∧ B { p with loader := l }) :
    Yields (Building.fetching act) p P B := by
  cases hAct : act (some p.loader) with
  | mk r l? =>
    cases r with
    | error failure =>
      obtain ⟨l, rfl, hB⟩ := h.error hAct
      exact .ofError (run_fetching hAct) hB
    | ok x =>
      obtain ⟨l, rfl, hP⟩ := h.ok hAct
      exact .ofOk (run_fetching hAct) hP

/-! ## What an object is told -/

/-- The calls for instructions, where instructions are taken. -/
def instructionCalls (caps : Capabilities) (is : List Instruction) : List Call :=
  if caps.instruction then is.map fun i => .instruction i.target i.data else []

/-- The call for the text of an element, unless it is blank. -/
def textCalls (text : String) : List Call :=
  if (trim text).isEmpty then [] else [.text (trim text)]

namespace Assembly

variable {a : Assembly} {U : Region} {id : ObjectId} {caps : Capabilities}

/-- The objects as they are after some progress. -/
abbrev sceneAt (a : Assembly) (p : Progress) : Scene :=
  { classes := a.library.classes, store := p.store }

/-- The way of a dotted name from an instance, after some progress. -/
abbrev wayAt (a : Assembly) (p : Progress) (id : ObjectId) (name : String) : List ObjectId :=
  (a.sceneAt p).way (.object id) (splitOn '.' name)

theorem yields_scene_bind {β : Type} {f : Scene → Building β} {p : Progress}
    {P : β → Progress → Prop} {B : Progress → Prop}
    (h : Yields (f { classes := a.library.classes, store := p.store }) p P B) :
    Yields (a.scene >>= f) p P B :=
  h.congr rfl

/-- Telling an object something is one step, whether the object takes it or not. -/
theorem tell_yields (hcs : a.library.classes.Covered U) {p : Progress} (hp : p.store.Closed U)
    (hId : U id) (call : Call) (hCall : ∀ view, call = .append view → U view) :
    Yields (a.tell id call) p
      (fun _ p' => p.Extends a.files U p' [.told id call] ∧ p'.registries = p.registries)
      (fun p' => p.Extends a.files U p' [.told id call] ∧ p'.registries = p.registries) := by
  have hWithin : Acting.Within U (Acting.tell a.platform id call) := Acting.tell_within hId hCall
  have hTell := hWithin { classes := a.library.classes, store := p.store } ⟨hp, hcs⟩
  have hRun : a.tell id call p =
      (((Acting.tell a.platform id call) { classes := a.library.classes, store := p.store }).1,
        { p with
          store := ((Acting.tell a.platform id call)
            { classes := a.library.classes, store := p.store }).2.store
          journal := p.journal ++ [.told id call] }) := rfl
  cases hAct :
      Acting.tell a.platform id call { classes := a.library.classes, store := p.store } with
  | mk r sc =>
    rw [hAct] at hRun
    cases r with
    | error failure => exact .ofError hRun ⟨.step (hTell.error hAct).store rfl, rfl⟩
    | ok u => exact .ofOk hRun ⟨.step (hTell.ok hAct).1.store rfl, rfl⟩

/-- What an object is told, other than that a view is its child, is a step of its own. -/
theorem tell_attends (hcs : a.library.classes.Covered U) {p : Progress} (hp : p.store.Closed U)
    (hId : U id) (call : Call) (hCall : ∀ view, call ≠ .append view) :
    Yields (a.tell id call) p (fun _ => p.Attends a.files U id [call])
      (p.Attends a.files U id [call]) := by
  have hOwn : Step.IsOwn id (.told id call) := by
    cases call with
    | append view => exact absurd rfl (hCall view)
    | instruction _ _ | raw _ _ | text _ => rfl
  have hAttends {p' : Progress}
      (h : p.Extends a.files U p' [.told id call] ∧ p'.registries = p.registries) :
      p.Attends a.files U id [call] p' := by
    refine ⟨_, h.1, h.2, fun s hs => ?_, callsTo_told_self id call []⟩
    rw [List.mem_singleton.1 hs]
    exact hOwn
  refine (tell_yields hcs hp hId call fun view h => ?_).mono (fun _ _ => hAttends) fun _ => hAttends
  exact absurd h (hCall view)

theorem tell_attending (hcs : a.library.classes.Covered U) (hId : U id) (call : Call)
    (hCall : ∀ view, call ≠ .append view) : Attending a.files U id [call] (a.tell id call) :=
  fun _ hp => (tell_attends hcs hp hId call hCall).weaken fun _ h => ⟨_, h⟩

/-! ## Instructions and text -/

theorem scene_attending : Attending a.files U id [] a.scene :=
  Attending.ofGet.andThen fun _ => .ofPure

theorem typeName_attending {other : ObjectId} :
    Attending a.files U id [] (a.typeName other) :=
  scene_attending.andThen fun _ => .ofPure

theorem deliver_attending (hcs : a.library.classes.Covered U) (hId : U id) (caps : Capabilities)
    (i : Instruction) :
    Attending a.files U id (instructionCalls caps [i]) (a.deliver id caps i) := by
  unfold deliver instructionCalls
  dsimp only
  split
  · intro p hp
    refine .ofCatch (tell_attends hcs hp hId _ (by simp)) fun failure p' h => ?_
    -- The object was told, whatever it made of it.
    split
    · split
      · exact .ofPure h
      · exact .ofThrow ⟨_, h⟩
    · exact .ofThrow ⟨_, h⟩
  · split
    · exact .ofPure
    · exact typeName_attending.andThen fun _ => .ofThrow

theorem deliverAll_attending (hcs : a.library.classes.Covered U) (hId : U id)
    (caps : Capabilities) (is : List Instruction) :
    Attending a.files U id (instructionCalls caps is) (a.deliverAll id caps is) := by
  have hCalls : (is.flatMap fun i => instructionCalls caps [i]) = instructionCalls caps is := by
    unfold instructionCalls
    split
    · exact List.map_eq_flatMap.symm
    · simp
  rw [← hCalls]
  exact .forM (deliver_attending hcs hId caps) is

theorem takeText_attending (hcs : a.library.classes.Covered U) (hId : U id)
    (name text : String) :
    Attending a.files U id (textCalls text) (a.takeText id caps name text) := by
  unfold takeText textCalls
  dsimp only
  split
  · exact .ofPure
  · split
    · exact .ofThrow
    · exact tell_attending hcs hId _ (by simp)

/-! ## Attributes -/

private theorem addOutlet_attending {view : ObjectId} {name : String} :
    Attending a.files U id [] (a.addOutlet view name) := by
  unfold addOutlet
  split
  · exact .ofPure
  · refine scene_attending.andThen fun sc => Attending.ofExcept.andThen fun found => ?_
    split
    · exact .ofModify fun _ => ⟨rfl, rfl⟩
    · exact typeName_attending.andThen fun _ => .ofThrow

private theorem addLink_attending {view : ObjectId} {viewPath ownerPath : String} :
    Attending a.files U id [] (a.addLink view viewPath ownerPath) := by
  unfold addLink
  split
  · exact .ofThrow
  · refine scene_attending.andThen fun sc => ?_
    refine Attending.ofExcept.andThen fun _ => Attending.ofExcept.andThen fun _ => ?_
    split
    · exact typeName_attending.andThen fun _ => .ofThrow
    · exact .ofModify fun _ => ⟨rfl, rfl⟩

/-- Assigning a property of an object changes the region only. -/
theorem assignProperty_attending (hcs : a.library.classes.Covered U) (hId : U id)
    (entry : String × String) : Attending a.files U id [] (a.assignProperty id entry) := by
  intro p hp
  have hClosed : ({ classes := a.library.classes, store := p.store } : Scene).Closed U := ⟨hp, hcs⟩
  have hAssign := Scene.assign_yields hClosed (Region.covers_object.2 hId) a.decoder a.files entry.1
    entry.2 p.loader
  let step : Step := .assigned id entry.1 (a.wayAt p id entry.1)
  let noted : Progress := { p with journal := p.journal ++ [step] }
  have hKept {store : Store} {l? : Option Loader} (hStore : Store.Writes U p.store store)
      (hLoader : p.loader.KeptBy a.files l?) :
      ∃ l, l? = some l ∧ p.Attends a.files U id [] { noted with store, loader := l } := by
    obtain ⟨l, rfl, hDocuments, -⟩ := hLoader
    refine ⟨l, rfl, [step], ⟨hStore.toEvolves, ?_, rfl, rfl, hDocuments⟩, rfl, fun s hs => ?_, rfl⟩
    · exact .of_madeIn_eq_nil hStore.size_le rfl
    · rw [List.mem_singleton.1 hs]
      rfl
  have hFetch : Yields (Building.fetching ((a.sceneAt p).assign a.decoder a.files (.object id)
        entry.1 entry.2)) noted
      (fun store q => p.Attends a.files U id [] { q with store })
      (fun q => ∃ told, p.Attends a.files U id told q) := by
    refine fetching_yields (hAssign.mono ?_ ?_)
    · rintro store l? ⟨hStore, hLoader⟩
      exact hKept hStore hLoader
    · intro l? hLoader
      obtain ⟨l, hl, hAttends⟩ := hKept (.refl U p.store) hLoader
      exact ⟨l, hl, _, hAttends⟩
  refine yields_scene_bind (.bind (P := fun _ q => q = noted) (.ofModify rfl) ?_)
  rintro _ _ rfl
  exact .bind hFetch fun store q hq => .ofModify hq

/-- Taking an attribute in tells the object nothing. -/
theorem takeAttribute_attending (hcs : a.library.classes.Covered U) (hId : U id) (rs : Requests)
    (entry : String × String) : Attending a.files U id [] (a.takeAttribute id rs entry) := by
  unfold takeAttribute
  dsimp only
  split
  · exact .ofPure
  · split
    · exact .ofPure
    · exact (assignProperty_attending hcs hId entry).andThen fun _ => .ofPure

theorem takeAttributes_attending (hcs : a.library.classes.Covered U) (hId : U id)
    (attributes : Table String String) :
    Attending a.files U id [] (a.takeAttributes id attributes) := by
  have hLinks (binds : List (String × String)) :
      Attending a.files U id [] (binds.forM fun bind => a.addLink id bind.1 bind.2) := by
    have h : Attending a.files U id (binds.flatMap fun _ => [])
        (binds.forM fun bind => a.addLink id bind.1 bind.2) :=
      .forM (fun _ => addLink_attending) binds
    rwa [List.flatMap_eq_nil_iff.2 fun _ _ => rfl] at h
  refine .andThen (.foldlM (fun rs e => takeAttribute_attending hcs hId rs e) attributes {})
    fun rs => ?_
  obtain ⟨outlet, binds⟩ := rs
  cases outlet with
  | none => exact hLinks binds
  | some name =>
    dsimp only
    split
    · exact addOutlet_attending.andThen fun _ => hLinks binds
    · exact hLinks binds

/-! ## Children that are no components -/

theorem deliverRaw_attending (hcs : a.library.classes.Covered U) (hId : U id) (e : Element) :
    Attending a.files U id [.raw e.name e.attributes] (a.deliverRaw id e) := by
  have hTell := tell_attending hcs hId (.raw e.name e.attributes) (by simp)
  exact .check (.check (.check hTell))

end Assembly
end ViewMarkup
