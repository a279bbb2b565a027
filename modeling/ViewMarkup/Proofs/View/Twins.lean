import ViewMarkup.Proofs.Build.Framed
import ViewMarkup.Proofs.Object.Footprint

/-!
# Views in twins

What a view does with what it is told depends on the values of attributes, and not on the order in
which they were set for the first time. So it does the same in stores that are twins, and leaves
twins behind. Instances are made alike in them, too: twins are stores that objects do not tell
apart.

## Main results

* `Acting.tell_twins` — telling an object something gives the same answer in twins.
* `Store.unseen_twin` — objects do not see which one of two twins they are in.
-/

namespace ViewMarkup

open Text

/-- Two scenes with the same classes, whose stores are twins. -/
structure Scene.Twin (sc sc' : Scene) : Prop where
  classes : sc'.classes = sc.classes
  store : sc.store.Twin sc'.store

namespace Scene

/-- What is the same in twin stores is the same in twin scenes. -/
theorem Twin.eq {α : Type} {f : Scene → α}
    (h : ∀ {sc : Scene} {t : Store}, sc.store.Twin t → f { sc with store := t } = f sc)
    {sc sc' : Scene} (hTwin : sc.Twin sc') : f sc' = f sc := by
  obtain ⟨cs, t⟩ := sc'
  obtain ⟨hClasses, hStore⟩ := hTwin
  cases hClasses
  exact h hStore

variable {sc : Scene} {t : Store} (h : sc.store.Twin t)
include h

private theorem isBegunSection_twin (v : Value) :
    ({ sc with store := t } : Scene).isBegunSection v = sc.isBegunSection v := by
  unfold isBegunSection
  simp only [requireAttribute_twin h]

private theorem recordOf_twin (call : Call) :
    ({ sc with store := t } : Scene).recordOf call = sc.recordOf call := by
  cases call <;> simp only [recordOf, eventCount, typeName_twin h, stored_twin h, h.field?]

end Scene

namespace Acting

variable {α : Type} {id view : ObjectId} {owner name attr : String}

/-- Actions that do the same in twins. -/
abbrev Twins (x : Acting α) : Prop := Alike Scene.Twin x x

theorem Twins.ofGet {f : Scene → Acting α}
    (hSame : ∀ {sc : Scene} {t : Store}, sc.store.Twin t → f { sc with store := t } = f sc)
    (h : ∀ sc, Twins (f sc)) : Twins (get >>= f) :=
  Alike.ofGet fun sc sc' hTwin => by
    rw [hTwin.eq hSame]
    exact h sc sc sc' hTwin

theorem Twins.ite {c : Prop} [Decidable c] {x y : Acting α} (hx : Twins x) (hy : Twins y) :
    Twins (if c then x else y) := by
  split
  · exact hx
  · exact hy

/-- A check in front of an action, whose failure names what is there. -/
theorem Twins.checkGet {c : Prop} [Decidable c] {e : Scene → Failure} {x : Acting α}
    (hSame : ∀ {sc : Scene} {t : Store}, sc.store.Twin t → e { sc with store := t } = e sc)
    (hx : Twins x) : Twins (if c then (do throw (e (← get)); x) else x) := by
  refine .ite (.ofGet (fun hTwin => by rw [hSame hTwin]) fun sc => ?_) hx
  exact .bind (.ofThrow _) fun _ => hx

theorem look_twins {f : Scene → Except Failure α}
    (h : ∀ {sc : Scene} {t : Store}, sc.store.Twin t → f { sc with store := t } = f sc) :
    Twins (look f) := by
  refine .ofGet (fun hTwin => by rw [h hTwin]) fun sc => ?_
  split
  · exact .ofPure _
  · exact .ofThrow _

theorem put_twins (id : ObjectId) (attr : String) (v : Value) : Twins (put id attr v) :=
  .ofModify fun _ _ h => ⟨h.classes, h.store.setField id attr v⟩

theorem setAttribute_twins (v : Value) (attr : String) (new : Value) :
    Twins (setAttribute v attr new) := by
  rintro sc ⟨cs, t⟩ ⟨hClasses, hStore⟩
  cases hClasses
  have hOk {sc : Scene} {store : Store} (hSet : sc.setAttribute v attr new = .ok store) :
      setAttribute v attr new sc = (.ok (), { sc with store }) := by
    unfold setAttribute look
    simp [run_bind, run_get, hSet]
    rfl
  have hError {sc : Scene} {e : Failure} (hSet : sc.setAttribute v attr new = .error e) :
      setAttribute v attr new sc = (.error e, sc) := by
    unfold setAttribute look
    simp [run_bind, run_get, hSet]
    rfl
  obtain ⟨cell?, hFirst, hSecond⟩ := Scene.setAttribute_twin hStore v attr new
  cases cell? with
  | error e =>
    rw [hError hFirst, hError hSecond]
    exact ⟨rfl, rfl, hStore⟩
  | ok cell =>
    rw [hOk hFirst, hOk hSecond]
    exact ⟨rfl, rfl, hStore.assign cell new⟩

private theorem listAt_twins (id : ObjectId) (attr : String) : Twins (listAt id attr) := by
  refine .ofGet (fun hTwin => by simp only [hTwin.field?]) fun sc => ?_
  split
  · exact .ofPure _
  · exact .ofThrow _

theorem push_twins (id : ObjectId) (attr : String) (v : Value) : Twins (push id attr v) :=
  .bind (listAt_twins id attr) fun _ => put_twins id attr _

private theorem keepChild_twins (id view : ObjectId) : Twins (keepChild id view) := by
  refine .ofGet (fun hTwin => by simp only [hTwin.field?]) fun sc => ?_
  split
  · exact .bind (put_twins id _ _) fun _ => push_twins id _ _
  · exact push_twins id _ _

private theorem record_twins (id : ObjectId) (cls : ClassId) (call : Call) :
    Twins (record id cls call) := by
  refine .ofGet (fun hTwin => by simp only [Scene.recordOf_twin hTwin]) fun sc => ?_
  have hPush := push_twins id "events" (sc.recordOf call)
  cases (sc.classes.get? cls).bind (refusal? · call) with
  | none =>
    cases call with
    | append view => exact .bind (keepChild_twins id view) fun _ => hPush
    | instruction _ _ | raw _ _ | text _ => exact hPush
  | some e =>
    have hThrow : Twins (throw e : Acting Unit) := .ofThrow e
    cases call with
    | append view => exact hThrow.bind fun _ => .bind (keepChild_twins id view) fun _ => hPush
    | instruction _ _ | raw _ _ | text _ => exact hThrow.bind fun _ => hPush

private theorem restrict_twins (platform : String) (id : ObjectId) (target data : String) :
    Twins (restrict platform id target data) := by
  unfold restrict
  refine .checkGet (fun hTwin => by rw [Scene.typeName_twin hTwin]) ?_
  split
  · exact .ofThrow _
  · exact .bind (put_twins id _ _) fun _ => Twins.ite (put_twins id _ _) (.ofPure _)

private theorem setContent_twins (owner : String) (id view : ObjectId) :
    Twins (setContent owner id view) := by
  refine .ofGet (fun hTwin => by simp only [Scene.stored_twin hTwin]) fun sc => ?_
  split
  · exact .bind (put_twins id _ _) fun _ => push_twins id _ _
  · exact .ofThrow _

private theorem addSegment_twins (owner : String) (id : ObjectId) (name : String)
    (attributes : Table String String) : Twins (addSegment owner id name attributes) :=
  .check (.bind (look_twins fun _ => rfl) fun _ => push_twins id _ _)

theorem sectionsOf_twins (id : ObjectId) : Twins (sectionsOf id) := by
  refine .ofGet (fun hTwin => by
    simp only [Scene.stored_twin hTwin, Scene.announcedSlot]) fun sc => ?_
  split
  · exact .ofPure _
  · exact .ofPure _

theorem announce_twins (id : ObjectId) (slot : Slot) : Twins (announce id slot) := by
  cases slot with
  | row | header | footer => exact put_twins id _ _

theorem leaveSections_twins (id : ObjectId) (front : List Value) (t : Sections) :
    Twins (leaveSections id front t) :=
  .bind (put_twins id _ _) fun _ => announce_twins id t.slot

theorem last_twins (id : ObjectId) (attr : String) :
    Twins (look fun sc => sc.elementAt (sc.stored id attr) (.int (-1))) :=
  look_twins fun hTwin => by rw [Scene.stored_twin hTwin, Scene.elementAt_twin hTwin]

private theorem startAfter_twins (id : ObjectId) (name title : Option String) :
    Twins (startAfter id name title) := by
  refine .bind (last_twins id _) fun last =>
    .bind (look_twins fun hTwin => Scene.isBegunSection_twin hTwin last) fun begun => ?_
  split
  · exact .bind (push_twins id _ _) fun _ => announce_twins id .row
  · exact .bind (setAttribute_twins _ _ _) fun _ => .bind (setAttribute_twins _ _ _) fun _ =>
      announce_twins id .row

private theorem putInto_twins (slot : Slot) (view : ObjectId) (last : Value) :
    Twins (putInto slot view last) := by
  unfold putInto
  cases slot with
  | header | footer => exact setAttribute_twins _ _ _
  | row =>
    refine .bind (look_twins fun hTwin => Scene.requireAttribute_twin hTwin last _) fun rows => ?_
    split
    · exact push_twins _ _ _
    · exact .ofThrow _

private theorem addTablePart_twins (owner : String) (id : ObjectId) (name : String)
    (attributes : Table String String) : Twins (addTablePart owner id name attributes) := by
  refine .bind (sectionsOf_twins id) fun (front, t) =>
    .bind (look_twins fun _ => rfl) fun after => ?_
  split
  · exact announce_twins id _
  · split
    · exact startAfter_twins id _ _
    · exact leaveSections_twins id _ _

private theorem addRow_twins (id view : ObjectId) : Twins (addRow id view) := by
  refine .bind (sectionsOf_twins id) fun (front, t) => ?_
  dsimp only
  split
  · exact .bind (last_twins id _) fun last => .bind (putInto_twins t.slot view last) fun _ =>
      .bind (announce_twins id .row) fun _ => push_twins id _ _
  · exact .bind (leaveSections_twins id _ _) fun _ => push_twins id _ _

private theorem addRowAfter_twins (id : ObjectId) (row : PickerRow) :
    Twins (addRowAfter id row) := by
  refine .bind (last_twins id _) fun last =>
    .bind (look_twins fun hTwin => Scene.requireAttribute_twin hTwin last _) fun rows => ?_
  split
  · exact push_twins _ _ _
  · exact .ofThrow _

private theorem addPickerPart_twins (owner : String) (id : ObjectId) (name : String)
    (attributes : Table String String) : Twins (addPickerPart owner id name attributes) := by
  have hLeave (front : List Value) (p : Picker) (v : Value) :
      Twins (addPickerPart.leave id front p v) := by
    unfold addPickerPart.leave
    split
    · exact put_twins id _ _
    · exact .ofThrow _
  refine .ofGet (fun hTwin => by simp only [Scene.stored_twin hTwin]) fun sc => ?_
  dsimp only
  refine .bind (look_twins fun _ => rfl) fun after => ?_
  split
  · exact Twins.ite (addRowAfter_twins id _) (hLeave _ _ _)
  · exact hLeave _ _ _

private theorem obey_twins (platform : String) (id : ObjectId) (owner : String) (rule : HookRule)
    (call : Call) : Twins (obey platform id owner rule call) := by
  unfold obey
  split
  · exact restrict_twins _ _ _ _
  · exact put_twins id _ _
  · exact push_twins id _ _
  · exact .bind (push_twins id _ _) fun _ => push_twins id _ _
  · exact setContent_twins _ _ _
  · exact addRow_twins _ _
  · exact addTablePart_twins _ _ _ _
  · exact addPickerPart_twins _ _ _ _
  · exact addSegment_twins _ _ _ _
  · exact .ofPure _

private theorem refuseReplaced_twins (id : ObjectId) (operation : String) :
    Twins (refuseReplaced id operation) := by
  refine .ofGet (fun hTwin => by simp only [hTwin.field?, Scene.typeName_twin hTwin]) fun sc => ?_
  split
  · exact .ofThrow _
  · exact .ofPure _

/-- Telling an object something does the same in twins. -/
theorem tell_twins (platform : String) (id : ObjectId) (call : Call) :
    Twins (tell platform id call) := by
  refine .bind (refuseReplaced_twins id _) fun _ => Twins.ofGet (fun hTwin => ?_) fun sc => ?_
  · simp only [hTwin.class?]
  split
  · exact .ofThrow _
  · split
    · exact .ofThrow _
    · exact record_twins _ _ _
    · exact obey_twins _ _ _ _ _

end Acting

/-- Objects do not see which one of two twins they are in. -/
theorem Store.unseen_twin (cs : Classes) : Store.Unseen cs Store.Twin where
  class? h id := h.class? id
  typeName {s t} h v := by
    have hScene : (Scene.mk cs s).store.Twin t := h
    exact Scene.typeName_twin hScene v
  tell {s t} h platform id call := by
    obtain ⟨hAnswer, hTwin⟩ := Acting.tell_twins platform id call ⟨cs, s⟩ ⟨cs, t⟩ ⟨rfl, h⟩
    exact ⟨hAnswer.symm, hTwin.store⟩
  make {s t} h c style := by
    unfold Classes.instantiateStyled
    cases (cs.styleField c style).mapError Failure.invalid with
    | error e => exact .error e
    | ok given =>
      have hMade := cs.instantiate_twin c h (given.toList.map fun e => (e.1, .value (.text e.2)))
      simp only [bind, Except.bind]
      revert hMade
      generalize cs.instantiate c s _ = made
      generalize cs.instantiate c t _ = made'
      obtain ⟨id, s'⟩ := made
      obtain ⟨id', t'⟩ := made'
      rintro ⟨hNew, hStore⟩
      obtain rfl : id' = id := hNew
      -- The check in front depends on the class only, and so does whether a style is stored.
      cases given with
      | none =>
        dsimp only
        split
        · exact .ok (hStore.setField _ _ _)
        · exact .ok hStore
      | some entry =>
        dsimp only
        split
        · exact .error _
        · split
          · exact .ok (hStore.setField _ _ _)
          · exact .ok hStore

end ViewMarkup
