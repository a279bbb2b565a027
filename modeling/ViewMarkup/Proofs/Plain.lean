import ViewMarkup.Build.Document
import ViewMarkup.Proofs.Outcome

/-!
# Plain failures

Most of what a build does knows neither where in a document it is done nor through which documents
that one is included. Its failures are plain: they have no place yet, and are no failures of
including. `FailsPlainly` says this of an answer and `ActsPlainly` of an action, from whatever state
it is run. Both are closed under the ways in which answers and actions are put together, so there is
one short lemma for each function.

## Main results

* `Library.resolve_plain`, `Classes.instantiateStyled_plain` — registering and making instances.
* `loadDocument_plain`, `Decoder.fetchProperty_plain` — what is asked of the resources.
* `Scene.attribute?_plain`, `Scene.readPath_plain`, `Scene.assign_plain` — attributes and
  properties.
-/

namespace ViewMarkup

/-- A failure that has no place yet and is not one of including. -/
def Failure.Plain : Failure → Prop
  | .markup (.includeCycle _) _ => False
  | .markup _ path => path = none
  | _ => True

/-- Whether an answer is no failure, or a plain one. -/
def FailsPlainly {α : Type} (x : Except Failure α) : Prop := ∀ e, x = .error e → e.Plain

/-- An action whose failures are plain, from whatever state it is run. -/
def ActsPlainly {σ α : Type} (x : ExceptT Failure (StateM σ) α) : Prop := ∀ s, FailsPlainly (x s).1

/-! ## Answers -/

namespace FailsPlainly

variable {α β ε : Type} {x : Except Failure α}

theorem ok {a : α} : FailsPlainly (.ok a : Except Failure α) := by
  intro e h
  cases h

theorem error {e : Failure} (h : e.Plain) : FailsPlainly (.error e : Except Failure α) := by
  intro e' he
  cases he
  exact h

theorem bind {f : α → Except Failure β} (hx : FailsPlainly x) (hf : ∀ a, FailsPlainly (f a)) :
    FailsPlainly (x >>= f) := by
  cases x with
  | error e => exact error (hx e rfl)
  | ok a => exact hf a

/-- A check in front of an answer. -/
theorem check {c : Prop} [Decidable c] {e : Failure} (he : e.Plain) (hx : FailsPlainly x) :
    FailsPlainly (if c then (do throw e; x) else x) := by
  split
  · exact bind (error he) fun _ => hx
  · exact hx

theorem map {f : α → β} (hx : FailsPlainly x) : FailsPlainly (x.map f) := by
  cases x with
  | error e => exact error (hx e rfl)
  | ok a => exact ok

theorem mapError {y : Except ε α} {f : ε → Failure} (h : ∀ e, (f e).Plain) :
    FailsPlainly (y.mapError f) := by
  cases y with
  | error e => exact error (h e)
  | ok a => exact ok

theorem elim {o : Option β} {e : Failure} {f : β → Except Failure α} (he : e.Plain)
    (hf : ∀ b, FailsPlainly (f b)) : FailsPlainly (o.elim (.error e) f) := by
  cases o with
  | none => exact error he
  | some b => exact hf b

end FailsPlainly

/-! ## Actions -/

namespace ActsPlainly

variable {σ α β : Type} {x : ExceptT Failure (StateM σ) α} {f : α → ExceptT Failure (StateM σ) β}

theorem ofPure {a : α} : ActsPlainly (pure a : ExceptT Failure (StateM σ) α) := fun _ => .ok

theorem ofThrow {e : Failure} (h : e.Plain) :
    ActsPlainly (throw e : ExceptT Failure (StateM σ) α) := fun _ => .error h

theorem ofGet : ActsPlainly (get : ExceptT Failure (StateM σ) σ) := fun _ => .ok

theorem ofModify {g : σ → σ} : ActsPlainly (modify g : ExceptT Failure (StateM σ) Unit) :=
  fun _ => .ok

theorem ofLift {y : Except Failure α} (h : FailsPlainly y) :
    ActsPlainly (liftM y : ExceptT Failure (StateM σ) α) := by
  intro s
  rw [run_liftM]
  exact h

theorem bind (hx : ActsPlainly x) (hf : ∀ a, ActsPlainly (f a)) : ActsPlainly (x >>= f) := by
  intro s
  have hFirst := hx s
  rw [run_bind]
  generalize x s = run at hFirst
  obtain ⟨answer, t⟩ := run
  cases answer with
  | error e => exact .error (hFirst e rfl)
  | ok a => exact hf a t

theorem ite {c : Prop} [Decidable c] {y : ExceptT Failure (StateM σ) α} (hx : ActsPlainly x)
    (hy : ActsPlainly y) : ActsPlainly (if c then x else y) := by
  split
  · exact hx
  · exact hy

/-- A check in front of an action. -/
theorem check {c : Prop} [Decidable c] {e : Failure} (he : e.Plain) (hx : ActsPlainly x) :
    ActsPlainly (if c then (do throw e; x) else x) :=
  ite (bind (ofThrow he) fun _ => hx) hx

/-- A check in front of an action, whose failure depends on the state. -/
theorem checkGet {c : Prop} [Decidable c] {e : σ → Failure} (he : ∀ s, (e s).Plain)
    (hx : ActsPlainly x) : ActsPlainly (if c then (do throw (e (← get)); x) else x) :=
  ite (bind ofGet fun s => bind (ofThrow (he s)) fun _ => hx) hx

theorem map {g : α → β} (hx : ActsPlainly x) : ActsPlainly (g <$> x) := by
  rw [map_eq_pure_bind]
  exact hx.bind fun _ => .ofPure

private theorem adapt {g : Failure → Failure} (hx : ActsPlainly x)
    (hg : ∀ e : Failure, e.Plain → (g e).Plain) :
    ActsPlainly (ExceptT.adapt g x) := by
  intro s e h
  have hRun : (ExceptT.adapt g x s).1 = (x s).1.mapError g := rfl
  rw [hRun] at h
  cases hx' : (x s).1 with
  | ok a =>
    rw [hx'] at h
    cases h
  | error e' =>
    rw [hx'] at h
    cases h
    exact hg e' (hx s e' hx')

theorem ofCatch {handle : Failure → ExceptT Failure (StateM σ) α} (hx : ActsPlainly x)
    (hHandle : ∀ e : Failure, e.Plain → ActsPlainly (handle e)) :
    ActsPlainly (tryCatch x handle) := by
  intro s
  have hFirst := hx s
  rw [run_tryCatch]
  generalize x s = run at hFirst
  obtain ⟨answer, t⟩ := run
  cases answer with
  | error e => exact hHandle e (hFirst e rfl) t
  | ok a => exact .ok

theorem forM {ι : Type} {g : ι → ExceptT Failure (StateM σ) Unit} (h : ∀ i, ActsPlainly (g i))
    (is : List ι) : ActsPlainly (is.forM g) := by
  induction is with
  | nil => exact ofPure
  | cons i is ih => exact (h i).bind fun _ => ih

theorem foldlM {ι : Type} {g : β → ι → ExceptT Failure (StateM σ) β}
    (h : ∀ b i, ActsPlainly (g b i)) (is : List ι) (b : β) : ActsPlainly (is.foldlM g b) := by
  induction is generalizing b with
  | nil => exact ofPure
  | cons i is ih => exact (h b i).bind fun b' => ih b'

end ActsPlainly

/-! ## Registering and making instances -/

namespace Library

variable (lib : Library)

private theorem component_plain (name : String) (cls : ClassId) (style : Option String) :
    FailsPlainly (lib.component name cls style) :=
  .check trivial (.check trivial (.bind (.mapError fun _ => trivial) fun _ => .ok))

private theorem register_plain (on : RegistryId) (name : String) (cls : ClassId)
    (style : Option String) : ActsPlainly (lib.register on name cls style) := by
  refine .bind (.ofLift (lib.component_plain name cls style)) fun c => .bind .ofGet fun rs => ?_
  split
  · split
    · exact .ofPure
    · exact .ofThrow trivial
  · exact .bind .ofModify fun _ => .ofPure

private theorem findModule_plain (space name : String) :
    FailsPlainly (lib.findModule space name) := by
  unfold findModule
  split
  · exact .ok
  · split
    · exact .error trivial
    · split
      · exact .error trivial
      · exact .error rfl

private theorem registerAll_plain (on : RegistryId) (space : String)
    (entries : List (String × ClassId × Option String)) :
    ActsPlainly (lib.registerAll on space entries) := by
  induction entries with
  | nil => exact .ofPure
  | cons entry rest ih => exact .bind (lib.register_plain on _ _ _) fun _ => ih

private theorem load_plain (on : RegistryId) (space : String) :
    ActsPlainly (lib.load on space) := by
  refine .bind .ofGet fun rs => ?_
  dsimp only
  split
  · exact .ofPure
  · split
    · exact .ofPure
    · exact .ofPure
    · exact .bind (.ofLift (lib.findModule_plain space _)) fun m =>
        .bind (lib.registerAll_plain on space _) fun _ => .ofModify
    · exact .ofThrow trivial

private theorem resolveIn_plain (name : String) (ids : List RegistryId) :
    ActsPlainly (lib.resolveIn name ids) := by
  induction ids with
  | nil => exact .ofPure
  | cons id below ih =>
    refine .bind .ofGet fun rs => ?_
    split
    · exact .ofPure
    · exact .ofPure
    · split
      · exact .bind (lib.load_plain id _) fun _ => .bind .ofGet fun _ => .ofPure
      · exact ih

theorem resolve_plain (id : RegistryId) (name : String) : ActsPlainly (lib.resolve id name) :=
  .bind .ofGet fun _ => lib.resolveIn_plain name _

end Library

theorem Classes.instantiateStyled_plain (cs : Classes) (cls : ClassId) (style : Option String)
    (s : Store) : FailsPlainly (cs.instantiateStyled cls style s) := by
  refine .bind (.mapError fun _ => trivial) fun given => ?_
  dsimp only
  split
  · refine .check trivial ?_
    split
    · exact .ok
    · exact .ok
  · split
    · exact .ok
    · exact .ok

/-! ## Resources -/

theorem Files.file?_plain (fs : Files) (p : Path) : FailsPlainly (fs.file? p) := by
  unfold file?
  split
  · exact .ok
  · exact .error trivial
  · exact .ok

private theorem firstImage_plain (fs : Files) {missing : Failure} (h : missing.Plain)
    (ps : List Path) : FailsPlainly (firstImage fs missing ps) := by
  induction ps with
  | nil => exact .error h
  | cons p ps ih =>
    refine .bind (fs.file?_plain p) fun content => ?_
    split
    · exact ih
    · exact .ok
    · exact .error rfl

private theorem Loader.image_plain (fs : Files) (l : Loader) (name : String) :
    FailsPlainly (l.image fs name) := by
  unfold image
  split
  · exact .elim rfl fun _ => .ok
  · refine firstImage_plain fs ?_ _
    exact rfl

private theorem Document.read_plain (source : Xml.Input) (name : String) :
    FailsPlainly (Document.read source name) := by
  unfold read
  split
  · exact .error trivial
  · exact .error trivial
  · exact .error rfl
  · split
    · exact .ok
    · exact .error rfl

private theorem readStrings_plain (fs : Files) (p : Path) : FailsPlainly (readStrings fs p) := by
  refine .bind (fs.file?_plain p) fun content => ?_
  split
  · exact .ok
  · split
    · exact .error trivial
    · dsimp only
      split
      · exact .error trivial
      · exact .elim trivial fun _ => .ok
      · exact .error trivial

private theorem loadStrings_plain (fs : Files) : ActsPlainly (loadStrings fs) := by
  refine .bind .ofGet fun l => ?_
  split
  · exact .ofPure
  · exact .ofPure
  · exact .bind (.ofLift (readStrings_plain fs _)) fun _ => .bind .ofModify fun _ => .ofPure

private theorem loadText_plain (fs : Files) (key : String) : ActsPlainly (loadText fs key) := by
  refine .bind (loadStrings_plain fs) fun strings => ?_
  split
  · exact .ofPure
  · exact .ofThrow rfl

theorem loadDocument_plain (fs : Files) (name : String) : ActsPlainly (loadDocument fs name) := by
  refine .bind .ofGet fun l => ?_
  split
  · split
    · exact .ofThrow rfl
    · exact .ofPure
    · exact .bind (.ofLift (Document.read_plain _ name)) fun _ => .bind .ofModify fun _ => .ofPure
  · split
    · exact .ofPure
    · dsimp only
      refine .bind (.ofLift (fs.file?_plain _)) fun content => ?_
      split
      · exact .ofThrow rfl
      · exact .bind (.ofLift (Document.read_plain _ _)) fun _ => .bind .ofModify fun _ => .ofPure

/-! ## Reading values -/

theorem Number.toFloat_plain (n : Number) : FailsPlainly n.toFloat := by
  cases n with
  | int n => exact .elim trivial fun _ => .ok
  | float x => exact .ok

private theorem Number.toInteger?_plain (n : Number) : FailsPlainly n.toInteger? := by
  cases n with
  | int n => exact (Number.toFloat_plain (.int n)).map
  | float x => exact .ok

theorem FontDescriptor.read_plain (raw : String) : FailsPlainly (FontDescriptor.read raw) := by
  unfold read
  split
  · exact .error rfl
  · exact .mapError fun _ => trivial

private theorem FontDescriptor.withSize_plain (descriptor : FontDescriptor) (size : String) :
    FailsPlainly (descriptor.withSize size) :=
  .bind (.mapError fun _ => rfl) fun _ => .mapError fun _ => trivial

private theorem Font.read_plain (raw : String) : FailsPlainly (Font.read raw) := by
  unfold read
  split
  · exact FontDescriptor.withSize_plain _ _
  · split
    · exact .bind (.mapError fun _ => trivial) fun _ => .mapError fun _ => trivial
    · split
      · exact .error rfl
      · dsimp only
        split
        · exact .error rfl
        · exact .bind (FontDescriptor.read_plain _) fun d => d.withSize_plain _

namespace Decoder

variable (d : Decoder)

private theorem readInt_plain (raw : String) : FailsPlainly (d.readInt raw) := by
  unfold readInt
  dsimp only
  split
  · exact .mapError fun _ => trivial
  · have hNumber : FailsPlainly ((d.constants.get? (Text.trim raw)).elim (pure none)
        Number.toInteger?) := by
      cases d.constants.get? (Text.trim raw) with
      | none => exact .ok
      | some n => exact n.toInteger?_plain
    refine .bind hNumber fun n => ?_
    split
    · exact .ok
    · exact .error rfl

private theorem readFloat_plain (raw : String) : FailsPlainly (d.readFloat raw) := by
  unfold readFloat
  dsimp only
  split
  · exact .ok
  · split
    · exact Number.toFloat_plain _
    · exact .error rfl

private theorem read_plain (raw : String) (kind : Kind) (enumeration : Option Enumeration) :
    FailsPlainly (d.read raw kind enumeration) := by
  unfold read
  cases kind with
  | string => exact .ok
  | bool | color => exact .mapError fun _ => rfl
  | int => exact (d.readInt_plain raw).map
  | float => exact (d.readFloat_plain raw).map
  | font => exact (Font.read_plain _).map
  | fontDescriptor => exact (FontDescriptor.read_plain _).map
  | image | object | other => exact .error rfl
  | enumeration =>
    cases enumeration with
    | none => exact .error rfl
    | some e => exact .mapError fun _ => rfl

theorem inProperty_plain (name : String) {e : Failure} (h : e.Plain) :
    (inProperty name e).Plain := by
  unfold inProperty
  split
  · exact rfl
  · exact rfl
  · exact h

private theorem readProperty_plain (p : Property) (raw : String) :
    FailsPlainly (d.readProperty p raw) := by
  unfold readProperty
  split
  · exact .ok
  · have hRead := d.read_plain raw p.kind p.enumeration
    cases hEq : d.read raw p.kind p.enumeration with
    | ok r => exact .ok
    | error e => exact .error (inProperty_plain p.name (hRead e hEq))

end Decoder

private theorem withResources_plain {α : Type} {missing : Failure} {act : Loading α}
    (h : missing.Plain) (hAct : ActsPlainly act) : ActsPlainly (withResources missing act) := by
  intro loader?
  cases loader? with
  | none => exact .error h
  | some l => exact hAct l

private theorem Reading.fetch_plain (fs : Files) (property : String) (r : Reading) :
    ActsPlainly (r.fetch fs property) := by
  cases r with
  | value v => exact .ofPure
  | localized raw key => exact withResources_plain rfl (loadText_plain fs key).map
  | picture name =>
    exact withResources_plain rfl (.bind .ofGet fun l =>
      .bind (.ofLift (l.image_plain fs name)) fun _ => .ofPure)

theorem Decoder.fetchProperty_plain (d : Decoder) (fs : Files) (p : Property)
    (raw : String) : ActsPlainly (d.fetchProperty fs p raw) := by
  refine .bind (.ofLift (d.readProperty_plain p raw)) fun reading => ?_
  split
  · exact (Reading.fetch_plain fs p.name _).adapt fun _ => inProperty_plain p.name
  · exact Reading.fetch_plain fs p.name _

/-! ## Attributes -/

namespace Scene

variable (sc : Scene)

private theorem length_plain (v : Value) : FailsPlainly (sc.length v) := by
  unfold length
  split
  all_goals first
    | exact .ok
    | exact .error trivial

private theorem selectedAt_plain (rows : Selection) (key : Value) :
    FailsPlainly (sc.selectedAt rows key) := by
  unfold selectedAt
  split
  all_goals first
    | exact .error trivial
    | split <;> exact .ok

private theorem elementOf_plain (container : String) (items : List Value) (place : Value) :
    FailsPlainly (sc.elementOf container items place) := by
  unfold elementOf
  split
  · exact .elim trivial fun _ => .ok
  · exact .error trivial

theorem elementAt_plain (v place : Value) : FailsPlainly (sc.elementAt v place) := by
  unfold elementAt
  split
  · exact sc.elementOf_plain _ _ _
  · exact sc.elementOf_plain _ _ _
  · split
    · split
      · exact .ok
      · exact .error trivial
    · exact .error trivial
  · refine .bind (sc.selectedAt_plain _ _) fun row? => ?_
    split
    · exact .ok
    · exact .error trivial
  · exact .error trivial

theorem given_plain (v : Value) (attr : String) : FailsPlainly (sc.given v attr) :=
  .elim trivial fun _ => .ok

private theorem selectedValue_plain (id : ObjectId) : FailsPlainly (sc.selectedValue id) := by
  unfold selectedValue
  dsimp only
  split
  · split
    · exact .ok
    · refine .bind (sc.length_plain _) fun n => ?_
      split
      · exact .bind (sc.elementAt_plain _ _) fun _ => sc.given_plain _ _
      · exact .ok
  · exact .error trivial

private theorem displayText_plain (id : ObjectId) : FailsPlainly (sc.displayText id) := by
  unfold displayText
  dsimp only
  split
  · split
    · exact .ok
    · split <;> exact .ok
  · exact .error trivial

private theorem imageSize_plain (id : ObjectId) : FailsPlainly (sc.imageSize id) := by
  unfold imageSize
  split
  · exact .ok
  · exact sc.given_plain _ _

private theorem computed_plain (id : ObjectId) (c : Computed) :
    FailsPlainly (sc.computed id c) := by
  cases c with
  | controlState => exact .ok
  | selectedValue => exact sc.selectedValue_plain id
  | imageSize => exact sc.imageSize_plain id
  | displayText => exact sc.displayText_plain id

theorem attribute?_plain (v : Value) (attr : String) : FailsPlainly (sc.attribute? v attr) := by
  unfold attribute?
  split
  · split
    · next id _ c _ =>
      have hComputed := sc.computed_plain id c
      split
      · exact .ok
      · exact .ok
      · next h => exact .error (hComputed _ h)
    · exact .ok
  · exact .ok

theorem requireAttribute_plain (v : Value) (attr : String) :
    FailsPlainly (sc.requireAttribute v attr) := by
  refine .bind (sc.attribute?_plain v attr) fun found => ?_
  split
  · exact .ok
  · exact .error trivial

private theorem readSegments_plain (path : String) (v : Value) (segments : List String) :
    FailsPlainly (sc.readSegments path v segments) := by
  induction segments generalizing v with
  | nil => exact .ok
  | cons segment rest ih =>
    refine .bind (sc.attribute?_plain v _) fun next => ?_
    split
    · exact ih _
    · exact .error rfl

theorem readPath_plain (v : Value) (path : String) : FailsPlainly (sc.readPath v path) :=
  .bind (.mapError fun _ => rfl) fun _ => sc.readSegments_plain path v _

private theorem change_plain (v : Value) (attr : String) (new : Value) :
    FailsPlainly (sc.change v attr new) := by
  unfold change
  split
  · split
    · split
      · exact .error trivial
      · exact .ok
    · split
      · exact .error trivial
      · exact .ok
    · exact .error trivial
  · split
    · exact .ok
    · exact .error trivial

theorem setAttribute_plain (v : Value) (attr : String) (new : Value) :
    FailsPlainly (sc.setAttribute v attr new) := by
  unfold setAttribute
  split
  all_goals first
    | exact .error trivial
    | split
      · exact .error trivial
      · exact sc.change_plain _ attr new

private theorem locate_plain (v : Value) (names : List String) :
    FailsPlainly (sc.locate v names) := by
  induction names generalizing v with
  | nil => exact .error rfl
  | cons name rest ih =>
    unfold locate
    split
    · exact .error rfl
    · split
      · split
        · exact .ok
        · exact .error rfl
      · split
        · exact .error rfl
        · refine .bind (sc.attribute?_plain v _) fun inner => ?_
          split
          · exact .error rfl
          · exact .error rfl
          · exact ih _

theorem assign_plain (d : Decoder) (fs : Files) (target : Value) (name raw : String) :
    ActsPlainly (sc.assign d fs target name raw) :=
  .bind (.ofLift (sc.locate_plain target _)) fun (_, p) =>
    .bind (d.fetchProperty_plain fs p raw) fun _ => .ofLift (sc.setAttribute_plain _ _ _)

end Scene
end ViewMarkup
