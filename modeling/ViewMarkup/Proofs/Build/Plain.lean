import ViewMarkup.Proofs.Build.Attending
import ViewMarkup.Proofs.View.Plain

/-!
# Plain failures of a build

The parts of a build that deal with a single element fail plainly, before `Building.within` gives
their failures a place. So none of them fails because a document is included through itself: only
finding an included document does.

## Main results

* `Assembly.startRoot_plain`, `Assembly.start_plain`, `Assembly.append_plain`,
  `Assembly.takeAttributes_plain`, `Assembly.deliver_plain` — parts of a build that fail plainly.
-/

namespace ViewMarkup

open Text

/-- A part of a build runs as it does by itself, and then its failure gets a place. -/
theorem Building.run_within {α : Type} (path : String) (x : Building α) (p : Progress) :
    within path x p = ((x p).1.mapError (Failure.withPath path), (x p).2) :=
  rfl

/-! ## Parts of a build -/

namespace ActsPlainly

variable {α : Type}

theorem ofExcept {y : Except Failure α} (h : FailsPlainly y) :
    ActsPlainly (Building.ofExcept y) := by
  cases y with
  | error e => exact ofThrow (h e rfl)
  | ok a => exact ofPure

theorem registering {act : Registering α} (h : ActsPlainly act) :
    ActsPlainly (Building.registering act) :=
  fun p => h p.registries

theorem loading {act : Loading α} (h : ActsPlainly act) : ActsPlainly (Building.loading act) :=
  fun p => h p.loader

private theorem fetching {act : Fetching α} (h : ActsPlainly act) :
    ActsPlainly (Building.fetching act) := by
  intro p
  have hAct := h (some p.loader)
  unfold Building.fetching
  rw [run_eq]
  generalize act (some p.loader) = run at hAct
  obtain ⟨answer, l?⟩ := run
  cases l? with
  | none => exact hAct
  | some l => exact hAct

private theorem acting {a : Assembly} {act : Acting α} (h : ActsPlainly act) :
    ActsPlainly (a.acting act) :=
  fun p => h { classes := a.library.classes, store := p.store }

end ActsPlainly

namespace Assembly

variable {a : Assembly} {id parent view : ObjectId} {caps : Capabilities}

/-! ## Instructions and text -/

theorem scene_plain : ActsPlainly a.scene := .bind .ofGet fun _ => .ofPure

theorem typeName_plain : ActsPlainly (a.typeName id) := .bind scene_plain fun _ => .ofPure

theorem tell_plain (call : Call) : ActsPlainly (a.tell id call) :=
  .bind .ofModify fun _ => .acting (Acting.tell_plain _ id call)

theorem deliver_plain (i : Instruction) : ActsPlainly (a.deliver id caps i) := by
  unfold deliver
  dsimp only
  split
  · refine .ofCatch (tell_plain _) fun failure hFailure => ?_
    split
    · exact .ite .ofPure (.ofThrow hFailure)
    · exact .ofThrow hFailure
  · exact .ite .ofPure (.bind typeName_plain fun _ => .ofThrow rfl)

theorem deliverAll_plain (is : List Instruction) : ActsPlainly (a.deliverAll id caps is) :=
  .forM deliver_plain is

theorem takeText_plain (name text : String) : ActsPlainly (a.takeText id caps name text) :=
  .ite .ofPure (.check rfl (tell_plain _))

/-! ## Attributes -/

private theorem assignProperty_plain (entry : String × String) :
    ActsPlainly (a.assignProperty id entry) :=
  .bind scene_plain fun sc => .bind .ofModify fun _ =>
    .bind (.fetching (sc.assign_plain _ _ _ _ _)) fun _ => .ofModify

private theorem takeAttribute_plain (rs : Requests) (entry : String × String) :
    ActsPlainly (a.takeAttribute id rs entry) :=
  .ite .ofPure (.ite .ofPure (.bind (assignProperty_plain entry) fun _ => .ofPure))

private theorem hasField_plain (sc : Scene) (owner : ObjectId) (name : String) :
    FailsPlainly (hasField sc owner name) := by
  refine .bind (sc.attribute?_plain _ _) fun found => ?_
  split
  · exact .ok
  · split
    · exact .ok
    · exact .ok

private theorem addOutlet_plain (name : String) : ActsPlainly (a.addOutlet id name) := by
  unfold addOutlet
  split
  · exact .ofPure
  · refine .bind scene_plain fun sc => .bind (.ofExcept (hasField_plain sc _ _)) fun _ => ?_
    exact .ite .ofModify (.bind typeName_plain fun _ => .ofThrow rfl)

private theorem addLink_plain (viewPath ownerPath : String) :
    ActsPlainly (a.addLink id viewPath ownerPath) := by
  unfold addLink
  split
  · exact .ofThrow rfl
  · refine .bind scene_plain fun sc => .bind (.ofExcept (sc.readPath_plain _ _)) fun _ =>
      .bind (.ofExcept (sc.readPath_plain _ _)) fun _ => ?_
    split
    · exact .bind typeName_plain fun _ => .ofThrow rfl
    · exact .ofModify

theorem takeAttributes_plain (attributes : Table String String) :
    ActsPlainly (a.takeAttributes id attributes) := by
  refine .bind (.foldlM takeAttribute_plain attributes {}) fun rs => ?_
  have hLinks : ActsPlainly (rs.binds.forM fun bind => a.addLink id bind.1 bind.2) :=
    .forM (fun bind => addLink_plain bind.1 bind.2) rs.binds
  split
  · exact .ite (.bind (addOutlet_plain _) fun _ => hLinks) hLinks
  · exact hLinks

/-! ## Children -/

theorem checkAppend_plain : ActsPlainly (a.checkAppend parent caps) := by
  have hThrow (fault : String → Fault) (h : ∀ s, (Failure.of (fault s)).Plain) :
      ActsPlainly (do throw (.of (fault (← a.typeName parent))) : Building Unit) :=
    .bind typeName_plain fun s => .ofThrow (h s)
  unfold checkAppend
  split
  · exact hThrow _ fun _ => rfl
  · exact .bind .ofGet fun p => .ite (hThrow _ fun _ => rfl) .ofPure
  · exact .ofPure

theorem append_plain : ActsPlainly (a.append parent caps view) :=
  .bind checkAppend_plain fun _ => .bind (tell_plain _) fun _ => .ofModify

private theorem deliverRaw_plain (e : Element) : ActsPlainly (a.deliverRaw parent e) :=
  .check rfl (.check rfl (.check rfl (tell_plain _)))

theorem instantiate_plain (c : Component) : ActsPlainly (a.instantiate c) :=
  .bind .ofGet fun _ => .bind (.ofExcept (Classes.instantiateStyled_plain _ _ _ _)) fun _ =>
    .bind .ofModify fun _ => .bind .ofModify fun _ => .ofPure

private theorem componentOf_plain (e : Element) : ActsPlainly (a.componentOf caps e) :=
  .ite (.bind .ofGet fun _ => .ofPure) (.registering (Library.resolve_plain _ _ _))

theorem start_plain (e : Element) (leading : List Instruction) :
    ActsPlainly (a.start parent caps e leading) := by
  refine .bind (componentOf_plain e) fun c? => ?_
  cases c? with
  | some c => exact .bind checkAppend_plain fun _ => .bind (instantiate_plain c) fun _ => .ofPure
  | none =>
    exact .check rfl (.bind (deliverAll_plain leading) fun _ =>
      .bind (deliverRaw_plain e) fun _ => .ofPure)

/-! ## Roots -/

private theorem rootInstance_plain (e : Element) (root : Option ObjectId) :
    ActsPlainly (a.rootInstance e root) := by
  refine .ite ?_ (.bind (.registering (Library.resolve_plain _ _ _)) fun c? => ?_)
  · cases root with
    | none => exact .ofThrow rfl
    | some id =>
      refine .bind .ofGet fun p => ?_
      split
      · exact .bind (.ofExcept (.mapError fun _ => trivial)) fun _ => .ofPure
      · exact .ofPure
  · cases c? with
    | none => exact .ofThrow rfl
    | some c =>
      cases root with
      | none => exact .bind (instantiate_plain c) fun _ => .ofPure
      | some id =>
        exact .bind .ofGet fun p => .ite .ofPure (.bind typeName_plain fun _ => .ofThrow rfl)

theorem startRoot_plain (e : Element) (root : Option ObjectId) :
    ActsPlainly (a.startRoot e root) :=
  .bind (rootInstance_plain e root) fun _ => .check rfl .ofPure

/-! ## Outlets and bindings -/

private theorem commitOutlets_plain (owner : ObjectId) (outlets : List (String × ObjectId)) :
    ActsPlainly (a.commitOutlets owner outlets) := by
  induction outlets with
  | nil => exact .ofPure
  | cons outlet rest ih =>
    exact .bind scene_plain fun sc => .bind (.ofExcept (sc.setAttribute_plain _ _ _)) fun _ =>
      .bind .ofModify fun _ => ih

private theorem register_plain (t : Bindings) (sc : Scene) (b : Binding) :
    FailsPlainly (t.register sc b) := by
  refine .bind (sc.readPath_plain _ _) fun _ => .bind (sc.readPath_plain _ _) fun _ => ?_
  split
  · exact .error rfl
  · exact .ok

private theorem commitLinks_plain (links : List Binding) : ActsPlainly (a.commitLinks links) := by
  induction links with
  | nil => exact .ofPure
  | cons b rest ih =>
    exact .bind .ofGet fun p => .bind scene_plain fun sc =>
      .bind (.ofExcept (register_plain _ sc b)) fun _ => .bind .ofModify fun _ => ih

theorem commit_plain : ActsPlainly a.commit := by
  have hLinks : ActsPlainly (do a.commitLinks (← get).links) :=
    .bind .ofGet fun p => commitLinks_plain p.links
  unfold commit
  split
  · exact .bind .ofGet fun p => .bind (commitOutlets_plain _ _) fun _ => hLinks
  · exact hLinks

end Assembly
end ViewMarkup
