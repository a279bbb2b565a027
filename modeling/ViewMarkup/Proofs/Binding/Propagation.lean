import ViewMarkup.Proofs.Object.Cell
import ViewMarkup.Proofs.Object.Reachability
import ViewMarkup.Workspace

/-!
# Pushing and pulling

Pushing copies the values of an owner to its views one after the other, and each copy may change
what the next one reads, where it leads, and even whether its view is still alive. None of this
happens if bindings are *separate*: over plain stored attributes, no cell is written twice, and no
cell that is written is read for an owner's value or walked through on the way to a view. Then, if
every view is held by something else than the cells that are written, pushing brings all of the
values over, and from there pushing again and pulling leave everything as it is.

A view that only such a cell holds is lost in the middle of a push, and is not counted.

## Main results

* `Scene.link?_congr`: copies to some cells do not disturb separate bindings.
* `propagate_push`: a push along separate bindings writes each of their cells once.
* `propagate_still`: copies of what is there already change nothing.
* `Working.push_pull`: what a push does, and that a second push and a pull do nothing more.
* `Working.push_loses_view`: a push that overwrites the only reference to one of its views.
-/

namespace ViewMarkup

/-! ## What bindings link -/

/-- The two ends of a binding over plain stored attributes, and the value at the owner's. -/
structure Link where
  source : Route
  target : Route
  value : Value

namespace Scene

variable {sc : Scene} {b : Binding} {l : Link} {bs : List Binding}

/-- What a binding links, if both of its paths are over plain stored attributes. -/
def link? (sc : Scene) (b : Binding) : Option Link := do
  let source ← sc.routeAt? (.object b.owner) b.ownerPath
  let target ← sc.routeAt? (.object b.view) b.viewPath
  let value ← sc.store.valueAt? source.cell
  let _ ← sc.store.valueAt? target.cell
  return { source, target, value }

/-- The cells that pushing along some bindings writes. -/
def written (sc : Scene) (bs : List Binding) : List Cell :=
  bs.filterMap fun b => (sc.link? b).map (·.target.cell)

/-- No binding disturbs another: their paths are over plain stored attributes, no cell is written
twice, and none that is written is read for an owner's value or walked through to a view. -/
structure Separate (sc : Scene) (bs : List Binding) : Prop where
  linked : ∀ b ∈ bs, (sc.link? b).isSome = true
  once : (sc.written bs).Nodup
  unread : ∀ b ∈ bs, ∀ l ∈ sc.link? b, ∀ cell ∈ sc.written bs,
    cell ∉ l.source.walked ∧ cell ≠ l.source.cell ∧ cell ∉ l.target.walked

instance (sc : Scene) (bs : List Binding) : Decidable (sc.Separate bs) :=
  decidable_of_iff
    ((∀ b ∈ bs, (sc.link? b).isSome = true) ∧ (sc.written bs).Nodup ∧
      ∀ b ∈ bs, ∀ l ∈ sc.link? b, ∀ cell ∈ sc.written bs,
        cell ∉ l.source.walked ∧ cell ≠ l.source.cell ∧ cell ∉ l.target.walked)
    ⟨fun ⟨linked, once, unread⟩ => ⟨linked, once, unread⟩,
      fun ⟨linked, once, unread⟩ => ⟨linked, once, unread⟩⟩

theorem link?_eq_some_iff :
    sc.link? b = some l ↔
      sc.routeAt? (.object b.owner) b.ownerPath = some l.source ∧
        sc.routeAt? (.object b.view) b.viewPath = some l.target ∧
        sc.store.valueAt? l.source.cell = some l.value ∧
        (sc.store.valueAt? l.target.cell).isSome = true := by
  unfold link?
  constructor
  · intro h
    obtain ⟨source, hSource, h⟩ := Option.bind_eq_some_iff.1 h
    obtain ⟨target, hTarget, h⟩ := Option.bind_eq_some_iff.1 h
    obtain ⟨value, hValue, h⟩ := Option.bind_eq_some_iff.1 h
    obtain ⟨old, hOld, h⟩ := Option.bind_eq_some_iff.1 h
    cases h
    exact ⟨hSource, hTarget, hValue, Option.isSome_of_eq_some hOld⟩
  · rintro ⟨hSource, hTarget, hValue, hThere⟩
    obtain ⟨old, hOld⟩ := Option.isSome_iff_exists.1 hThere
    simp [hSource, hTarget, hValue, hOld]

private theorem mem_written (hb : b ∈ bs) (hl : sc.link? b = some l) :
    l.target.cell ∈ sc.written bs :=
  List.mem_filterMap.2 ⟨b, hb, by rw [hl]; rfl⟩

/-- Pushing writes the owner's value into the view's cell. -/
theorem push_of_link? (hl : sc.link? b = some l) :
    b.push sc = .ok (sc.store.assign l.target.cell l.value) := by
  obtain ⟨hSource, hTarget, hValue, hThere⟩ := link?_eq_some_iff.1 hl
  simp only [Binding.push, readPath_of_routeAt? hSource hValue]
  exact writePath_of_routeAt? hTarget hThere

/-- Pulling writes the value of the view's cell into the owner's. -/
theorem pull_of_link? {v : Value} (hl : sc.link? b = some l)
    (hView : sc.store.valueAt? l.target.cell = some v) :
    b.pull sc = .ok (sc.store.assign l.source.cell v) := by
  obtain ⟨hSource, hTarget, hValue, hThere⟩ := link?_eq_some_iff.1 hl
  simp only [Binding.pull, readPath_of_routeAt? hTarget hView]
  exact writePath_of_routeAt? hSource (by rw [hValue]; rfl)

/-- Copies to cells that are written do not disturb separate bindings. -/
theorem link?_congr {t : Store} (hSeparate : sc.Separate bs)
    (hSame : Store.SameBut (sc.written bs) sc.store t) (hb : b ∈ bs) (hl : sc.link? b = some l) :
    ({ sc with store := t } : Scene).link? b = some l := by
  obtain ⟨hSource, hTarget, hValue, hThere⟩ := link?_eq_some_iff.1 hl
  have hUnread := hSeparate.unread b hb l hl
  have hUnwritten : l.source.cell ∉ sc.written bs := fun hMem => (hUnread _ hMem).2.1 rfl
  refine link?_eq_some_iff.2 ⟨?_, ?_, ?_, hSame.there _ hThere⟩
  · exact routeAt?_congr hSame hSource fun cell hCell hMem => (hUnread cell hMem).1 hCell
  · exact routeAt?_congr hSame hTarget fun cell hCell hMem => (hUnread cell hMem).2.2 hCell
  · exact (hSame.value _ hUnwritten).trans hValue

end Scene

/-! ## What keeps views alive -/

/-- What is reachable from some objects without passing through some cells. -/
inductive Store.Held (s : Store) (roots : List ObjectId) (cells : List Cell) : ObjectId → Prop where
  | root {id : ObjectId} (hRoot : id ∈ roots) : Held s roots cells id
  | borne {id : ObjectId} {b : Bearer} {attr : String} {v : Value}
      (hBorne : s.borne? b attr = some v) (hFree : .borne b attr ∉ cells)
      (hNext : id ∈ v.objects) : Held s roots cells id
  | step {id next : ObjectId} {attr : String} {v : Value} (h : Held s roots cells id)
      (hField : s.field? id attr = some v) (hFree : .field id attr ∉ cells)
      (hNext : next ∈ v.objects) : Held s roots cells next

/-- What other cells hold stays reachable, whatever some cells hold. -/
theorem Store.Held.reach {s t : Store} {roots : List ObjectId} {cells : List Cell} {id : ObjectId}
    (h : s.Held roots cells id) (hSame : Store.SameBut cells s t) : t.Reach roots id := by
  induction h with
  | root hRoot => exact .root hRoot
  | @borne id b attr v hBorne hFree hNext =>
    have hBorne' : t.borne? b attr = some v := (hSame.value _ hFree).trans hBorne
    exact .borne (Store.mem_borneObjects_of_borne? hBorne' hNext)
  | @step id next attr v _ hField hFree hNext ih =>
    have hField' : t.field? id attr = some v := (hSame.value _ hFree).trans hField
    exact ih.step (Store.mem_references_of_field? hField' hNext)

/-! ## Copying -/

section Propagate

variable {roots : List ObjectId} {move : Binding → Scene → Except Failure Store}
  {far : Binding → ObjectId}

theorem propagate_cons_of_ok {b : Binding} {bs : List Binding} {held : List ObjectId} {n : Nat}
    {sc : Scene} {store : Store} (hAlive : sc.store.Reach roots (far b))
    (hMove : move b sc = .ok store) :
    propagate roots move far (b :: bs) held n sc =
      propagate roots move far bs [far b] (n + 1) { sc with store } := by
  have hFound : sc.store.isAlive (held ++ roots) (far b) = true :=
    Store.isAlive_iff.2 (hAlive.of_roots fun r hr => .root (List.mem_append_right held hr))
  rw [propagate, if_pos hFound, hMove]

/-- Copies of what is there already change nothing. -/
theorem propagate_still {sc : Scene} {bs : List Binding} (held : List ObjectId) (n : Nat)
    (hAlive : ∀ b ∈ bs, sc.store.Reach roots (far b))
    (hMove : ∀ b ∈ bs, move b sc = .ok sc.store) :
    propagate roots move far bs held n sc = (.ok (n + bs.length), sc) := by
  induction bs generalizing held n with
  | nil => rfl
  | cons b bs ih =>
    rw [propagate_cons_of_ok (hAlive b List.mem_cons_self) (hMove b List.mem_cons_self)]
    rw [ih [far b] (n + 1) (fun b' hb' => hAlive b' (List.mem_cons_of_mem b hb'))
      fun b' hb' => hMove b' (List.mem_cons_of_mem b hb')]
    rw [List.length_cons, Nat.add_right_comm, Nat.add_assoc]

/-- A push along separate bindings writes each of their cells once, and no other. -/
theorem propagate_push {sc : Scene} {all : List Binding} (hSeparate : sc.Separate all)
    (hHeld : ∀ b ∈ all, sc.store.Held roots (sc.written all) b.view) {bs : List Binding}
    (hAll : ∀ b ∈ bs, b ∈ all) (hOnce : (sc.written bs).Nodup) (held : List ObjectId) (n : Nat)
    {t : Store} (hSame : Store.SameBut (sc.written all) sc.store t) :
    ∃ u, propagate roots Binding.push (·.view) bs held n { sc with store := t } =
        (.ok (n + bs.length), { sc with store := u }) ∧
      Store.SameBut (sc.written bs) t u ∧
      ∀ b ∈ bs, ∀ l ∈ sc.link? b, u.valueAt? l.target.cell = some l.value := by
  induction bs generalizing held n t with
  | nil => exact ⟨t, rfl, .refl _ t, fun _ hb => nomatch hb⟩
  | cons b bs ih =>
    have hb : b ∈ all := hAll b List.mem_cons_self
    obtain ⟨l, hl⟩ := Option.isSome_iff_exists.1 (hSeparate.linked b hb)
    have hWritten : sc.written (b :: bs) = l.target.cell :: sc.written bs := by
      rw [Scene.written, List.filterMap_cons, hl]
      rfl
    rw [hWritten] at hOnce ⊢
    obtain ⟨hNew, hOnce⟩ := List.nodup_cons.1 hOnce
    have hLink := Scene.link?_congr hSeparate hSame hb hl
    obtain ⟨-, -, -, hThere⟩ := Scene.link?_eq_some_iff.1 hLink
    have hStep : Store.SameBut (sc.written all) t (t.assign l.target.cell l.value) :=
      .assign t l.value (Scene.mem_written hb hl)
    obtain ⟨u, hRun, hRest, hDelivered⟩ := ih (fun b' hb' => hAll b' (List.mem_cons_of_mem b hb'))
      hOnce [b.view] (n + 1) (hSame.trans hStep)
    refine ⟨u, ?_, ?_, fun b' hb' l' hl' => ?_⟩
    · rw [propagate_cons_of_ok ((hHeld b hb).reach hSame) (Scene.push_of_link? hLink)]
      refine hRun.trans ?_
      rw [List.length_cons, Nat.add_right_comm, Nat.add_assoc]
    · exact .trans (.assign t l.value List.mem_cons_self)
        (hRest.mono fun cell hCell => List.mem_cons_of_mem _ hCell)
    · rcases List.mem_cons.1 hb' with rfl | hb'
      · -- No later copy writes this cell again.
        obtain rfl : l = l' := Option.some.inj (hl.symm.trans hl')
        rw [hRest.value _ hNew]
        exact Store.valueAt?_assign_self hThere
      · exact hDelivered b' hb' l' hl'

end Propagate

/-! ## Owners in a workspace -/

/-- As long as all views of an owner are alive, pruning takes none of its bindings away. -/
theorem Bindings.prune_eq_self {t : Bindings} {sc : Scene} {roots : List ObjectId}
    {owner : ObjectId} (hAlive : ∀ b ∈ t.of owner, sc.store.Reach (owner :: roots) b.view) :
    t.prune sc roots owner = t := by
  unfold prune
  cases h : t.get? owner with
  | none => rfl
  | some bs =>
    have hFilter :
        (bs.filter fun b => (sc.store.reachable (owner :: roots)).contains b.view) = bs :=
      List.filter_eq_self.2 fun b hb =>
        List.contains_iff_mem.2 (Store.mem_reachable_iff.2 (hAlive b (of_eq_of_get? h ▸ hb)))
    dsimp only
    rw [hFilter]
    exact Table.put_of_get? h

namespace Working

variable {w : Workspace} {owner : ObjectId}

theorem liveBindings_eq
    (hAlive : ∀ b ∈ w.world.bindings.of owner, w.world.store.Reach (owner :: w.roots) b.view) :
    liveBindings owner w = (.ok (w.world.bindings.of owner), w) := by
  have hRun : liveBindings owner w =
      (.ok ((w.world.bindings.prune w.scene w.roots owner).of owner),
        { w with world :=
            { w.world with bindings := w.world.bindings.prune w.scene w.roots owner } }) := rfl
  rw [hRun, Bindings.prune_eq_self hAlive]

theorem copy_eq {roots : List ObjectId} {move : Binding → Scene → Except Failure Store}
    {far : Binding → ObjectId} {bs : List Binding} {n : Nat} {store : Store}
    (h : propagate roots move far bs [] 0 w.scene = (.ok n, { w.scene with store })) :
    copy roots move far bs w = (.ok n, { w with world := { w.world with store } }) := by
  have hRun : copy roots move far bs w =
      (ofExcept (propagate roots move far bs [] 0 w.scene).1)
        { w with world :=
            { w.world with store := (propagate roots move far bs [] 0 w.scene).2.store } } := rfl
  rw [hRun, h]
  rfl

/-- As long as all views of an owner are alive, pushing and pulling go through all of its
bindings. -/
theorem pushOwner_eq
    (hAlive : ∀ b ∈ w.world.bindings.of owner, w.world.store.Reach (owner :: w.roots) b.view) :
    pushOwner owner w =
      copy (owner :: w.roots) Binding.push (·.view) (w.world.bindings.of owner) w :=
  run_bind_of_eq_ok (f := copy (owner :: w.roots) Binding.push (·.view)) (liveBindings_eq hAlive)

@[inherit_doc pushOwner_eq]
private theorem pullOwner_eq
    (hAlive : ∀ b ∈ w.world.bindings.of owner, w.world.store.Reach (owner :: w.roots) b.view) :
    pullOwner owner w =
      copy (owner :: w.roots) Binding.pull (·.view) (w.world.bindings.of owner) w :=
  run_bind_of_eq_ok (f := copy (owner :: w.roots) Binding.pull (·.view)) (liveBindings_eq hAlive)

/-- Where all views are alive and have the values of their owner already, pushing and pulling
count all of the bindings and change nothing. -/
theorem push_pull_still
    (hAlive : ∀ b ∈ w.world.bindings.of owner, w.world.store.Reach (owner :: w.roots) b.view)
    (hThere : ∀ b ∈ w.world.bindings.of owner, ∃ l, w.scene.link? b = some l ∧
      w.world.store.valueAt? l.target.cell = some l.value) :
    pushOwner owner w = (.ok (w.world.bindings.of owner).length, w) ∧
      pullOwner owner w = (.ok (w.world.bindings.of owner).length, w) := by
  have hStill {move : Binding → Scene → Except Failure Store}
      (hMove : ∀ b ∈ w.world.bindings.of owner, move b w.scene = .ok w.world.store) :
      copy (owner :: w.roots) move (·.view) (w.world.bindings.of owner) w =
        (.ok (w.world.bindings.of owner).length, w) := by
    have hRun :
        propagate (owner :: w.roots) move (·.view) (w.world.bindings.of owner) [] 0 w.scene =
          (.ok (0 + (w.world.bindings.of owner).length), w.scene) :=
      propagate_still [] 0 hAlive hMove
    rw [Nat.zero_add] at hRun
    exact copy_eq hRun
  constructor
  · rw [pushOwner_eq hAlive]
    refine hStill fun b hb => ?_
    obtain ⟨l, hLink, hView⟩ := hThere b hb
    exact (Scene.push_of_link? hLink).trans (congrArg _ (Store.assign_eq_self hView))
  · rw [pullOwner_eq hAlive]
    refine hStill fun b hb => ?_
    obtain ⟨l, hLink, hView⟩ := hThere b hb
    obtain ⟨-, -, hOwner, -⟩ := Scene.link?_eq_some_iff.1 hLink
    exact (Scene.pull_of_link? hLink hView).trans (congrArg _ (Store.assign_eq_self hOwner))

/-- Let the bindings of an owner be separate, and let each of their views be held by something else
than the cells that are written. Then a push counts all of the bindings, every bound attribute of a
view has the value of the owner, and what is read from the owner is what was read before. A second
push and a pull count all of the bindings, too, and change nothing at all. -/
theorem push_pull (hSeparate : w.scene.Separate (w.world.bindings.of owner))
    (hHeld : ∀ b ∈ w.world.bindings.of owner,
      w.world.store.Held (owner :: w.roots) (w.scene.written (w.world.bindings.of owner)) b.view) :
    ∃ w', pushOwner owner w = (.ok (w.world.bindings.of owner).length, w') ∧
      (∀ b ∈ w.world.bindings.of owner, ∃ v,
        w.scene.readPath (.object b.owner) b.ownerPath = .ok v ∧
          w'.scene.readPath (.object b.owner) b.ownerPath = .ok v ∧
          w'.scene.readPath (.object b.view) b.viewPath = .ok v) ∧
      pushOwner owner w' = (.ok (w.world.bindings.of owner).length, w') ∧
      pullOwner owner w' = (.ok (w.world.bindings.of owner).length, w') := by
  obtain ⟨u, hRun, hSame, hDelivered⟩ := propagate_push hSeparate hHeld (fun _ hb => hb)
    hSeparate.once [] 0 (.refl _ w.world.store)
  rw [Nat.zero_add] at hRun
  -- Before and after the push, all views are alive and all bindings link what they did.
  have hAlive {t : Store} (hSame : Store.SameBut (w.scene.written (w.world.bindings.of owner))
      w.world.store t) (b : Binding) (hb : b ∈ w.world.bindings.of owner) :
      t.Reach (owner :: w.roots) b.view := (hHeld b hb).reach hSame
  have hLinks (b : Binding) (hb : b ∈ w.world.bindings.of owner) :
      ∃ l, w.scene.link? b = some l ∧ ({ w.scene with store := u } : Scene).link? b = some l ∧
        u.valueAt? l.target.cell = some l.value := by
    obtain ⟨l, hl⟩ := Option.isSome_iff_exists.1 (hSeparate.linked b hb)
    exact ⟨l, hl, Scene.link?_congr hSeparate hSame hb hl, hDelivered b hb l hl⟩
  have hStill := push_pull_still (w := { w with world := { w.world with store := u } })
    (hAlive hSame) fun b hb => by
      obtain ⟨l, -, hLink, hView⟩ := hLinks b hb
      exact ⟨l, hLink, hView⟩
  refine ⟨{ w with world := { w.world with store := u } }, ?_, fun b hb => ?_, hStill⟩
  · rw [pushOwner_eq (hAlive (.refl _ _))]
    exact copy_eq hRun
  · obtain ⟨l, hBefore, hAfter, hView⟩ := hLinks b hb
    obtain ⟨hSource, -, hOwner, -⟩ := Scene.link?_eq_some_iff.1 hBefore
    obtain ⟨hSource', hTarget', hOwner', -⟩ := Scene.link?_eq_some_iff.1 hAfter
    exact ⟨l.value, Scene.readPath_of_routeAt? hSource hOwner,
      Scene.readPath_of_routeAt? hSource' hOwner', Scene.readPath_of_routeAt? hTarget' hView⟩

end Working

/-! ## Two workspaces -/

namespace Sample

/-- An object of the host. -/
def item (name : String) (fields : Fields) : Object := { type := .host name [] true, fields }

/-- A workspace of host objects, in which an owner is bound to two views. -/
def bench (objects : Array Object) (held : Table String ObjectId) (bs : List Binding) :
    Workspace where
  builder := { library := { classes := {} } }
  world := { store := { objects }, bindings := [(0, bs)] }
  held

/-- The second view hangs in the first, and nothing is written over on the way to it. -/
def nested : Workspace :=
  bench #[item "Owner" [("name", .text "a"), ("model", .object 3)],
      item "View" [("note", .text ""), ("inner", .object 2)], item "Label" [("text", .text "")],
      item "Model" [("title", .text "t")]]
    [("o", 0), ("v", 1)] [⟨0, "name", 1, "note"⟩, ⟨0, "model.title", 2, "text"⟩]

/-- The second view hangs in the first, under the attribute that is bound. -/
def dangling : Workspace :=
  bench #[item "Owner" [("name", .text "a")], item "View" [("note", .object 2)],
      item "Label" [("text", .text "")]]
    [("o", 0), ("v", 1)] [⟨0, "name", 1, "note"⟩, ⟨0, "name", 2, "text"⟩]

end Sample

namespace Working

open Sample

theorem push_pull_nested :
    ∃ w', pushOwner 0 nested = (.ok 2, w') ∧
      w'.scene.readPath (.object 1) "note" = .ok (.text "a") ∧
      w'.scene.readPath (.object 2) "text" = .ok (.text "t") ∧
      pushOwner 0 w' = (.ok 2, w') ∧ pullOwner 0 w' = (.ok 2, w') := by
  have hSeparate : nested.scene.Separate (nested.world.bindings.of 0) := by decide +kernel
  have hFirst : nested.world.store.Held (0 :: nested.roots)
      (nested.scene.written (nested.world.bindings.of 0)) 1 := .root (by decide)
  have hSecond : nested.world.store.Held (0 :: nested.roots)
      (nested.scene.written (nested.world.bindings.of 0)) 2 := by
    have hInner : nested.world.store.field? 1 "inner" = some (.object 2) := rfl
    exact hFirst.step hInner (by decide +kernel) List.mem_cons_self
  obtain ⟨w', hPush, hRead, hAgain, hPull⟩ := push_pull hSeparate fun b hb => by
    rcases List.mem_pair.1 hb with rfl | rfl
    · exact hFirst
    · exact hSecond
  obtain ⟨v, hName, -, hNote⟩ := hRead ⟨0, "name", 1, "note"⟩ List.mem_cons_self
  obtain rfl : .text "a" = v := Except.ok.inj hName
  obtain ⟨v, hTitle, -, hText⟩ :=
    hRead ⟨0, "model.title", 2, "text"⟩ (List.mem_cons_of_mem _ List.mem_cons_self)
  obtain rfl : .text "t" = v := Except.ok.inj hTitle
  exact ⟨w', hPush, hNote, hText, hAgain, hPull⟩

/-- A push overwrites the only reference to one of its views: the paths are separate and both views
are alive, but only one binding is counted, and the other view is as it was. -/
theorem push_loses_view :
    dangling.scene.Separate (dangling.world.bindings.of 0) ∧
      (∀ b ∈ dangling.world.bindings.of 0,
        dangling.world.store.isAlive (0 :: dangling.roots) b.view = true) ∧
      (dangling.world.bindings.of 0).length = 2 ∧ (pushOwner 0 dangling).1 = .ok 1 := by
  exact ⟨by decide +kernel, by decide +kernel, rfl, rfl⟩

end Working

end ViewMarkup
