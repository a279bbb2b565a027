import ViewMarkup.Proofs.Plain

/-!
# Plain failures of views

What a view does with what it is told fails plainly, if it fails: a view knows neither its element
nor its document.

## Main results

* `Acting.tell_plain` — telling an object something fails plainly.
-/

namespace ViewMarkup

open Text

namespace Scene

private theorem isBegunSection_plain (sc : Scene) (v : Value) :
    FailsPlainly (sc.isBegunSection v) := by
  have hEach (attr : String) : FailsPlainly (do
      return (← sc.requireAttribute v attr).isTrue : Except Failure Bool) :=
    .bind (sc.requireAttribute_plain v attr) fun _ => .ok
  unfold isBegunSection
  generalize ["rows", "header", "footer", "name", "title"] = attrs
  induction attrs with
  | nil => exact .ok
  | cons attr attrs ih =>
    rw [List.anyM]
    refine .bind (hEach attr) fun found => ?_
    split
    · exact .ok
    · exact ih

end Scene

private theorem refusal?_plain {c : ComponentClass} {call : Call} {e : Failure}
    (h : refusal? c call = some e) : e.Plain := by
  unfold refusal? at h
  split at h
  · cases h
    trivial
  · split at h
    · cases h
    · cases h
      rfl
  · cases h

private theorem Picker.addPart_plain (p : Picker) (cls name : String)
    (attributes : Table String String) :
    FailsPlainly ((p.addPart cls name attributes).mapError .of) := by
  unfold addPart
  split
  · exact .ok
  · split
    · exact .error rfl
    · exact .ok
  · exact .error rfl

namespace Acting

variable {id view : ObjectId} {owner name attr : String}

theorem look_plain {α : Type} {f : Scene → Except Failure α} (h : ∀ sc, FailsPlainly (f sc)) :
    ActsPlainly (look f) := by
  refine .bind .ofGet fun sc => ?_
  split
  · exact .ofPure
  · next e he => exact .ofThrow (h sc e he)

theorem put_plain (id : ObjectId) (attr : String) (v : Value) : ActsPlainly (put id attr v) :=
  .ofModify

theorem setAttribute_plain (v : Value) (attr : String) (new : Value) :
    ActsPlainly (setAttribute v attr new) :=
  .bind (look_plain fun sc => sc.setAttribute_plain v attr new) fun _ => .ofModify

private theorem listAt_plain (id : ObjectId) (attr : String) : ActsPlainly (listAt id attr) := by
  refine .bind .ofGet fun sc => ?_
  split
  · exact .ofPure
  · exact .ofThrow trivial

theorem push_plain (id : ObjectId) (attr : String) (v : Value) : ActsPlainly (push id attr v) :=
  .bind (listAt_plain id attr) fun _ => put_plain id attr _

private theorem keepChild_plain (id view : ObjectId) : ActsPlainly (keepChild id view) := by
  refine .bind .ofGet fun sc => ?_
  split
  · exact .bind (put_plain id _ _) fun _ => push_plain id _ _
  · exact push_plain id _ _

private theorem record_plain (id : ObjectId) (cls : ClassId) (call : Call) :
    ActsPlainly (record id cls call) := by
  refine .bind .ofGet fun sc => ?_
  have hPush := push_plain id "events" (sc.recordOf call)
  cases hRefusal : (sc.classes.get? cls).bind (refusal? · call) with
  | none =>
    cases call with
    | append view => exact .bind (keepChild_plain id view) fun _ => hPush
    | instruction _ _ | raw _ _ | text _ => exact hPush
  | some e =>
    obtain ⟨c, -, hClass⟩ := Option.bind_eq_some_iff.1 hRefusal
    have hThrow : ActsPlainly (throw e : Acting Unit) := .ofThrow (refusal?_plain hClass)
    cases call with
    | append view => exact hThrow.bind fun _ => .bind (keepChild_plain id view) fun _ => hPush
    | instruction _ _ | raw _ _ | text _ => exact hThrow.bind fun _ => hPush

private theorem restrict_plain (platform : String) (id : ObjectId) (target data : String) :
    ActsPlainly (restrict platform id target data) := by
  unfold restrict
  refine .checkGet (fun _ => rfl) ?_
  split
  · exact .ofThrow rfl
  · exact .bind (put_plain id _ _) fun _ => .ite (put_plain id _ _) .ofPure

private theorem setContent_plain (owner : String) (id view : ObjectId) :
    ActsPlainly (setContent owner id view) := by
  refine .bind .ofGet fun sc => ?_
  split
  · exact .bind (put_plain id _ _) fun _ => push_plain id _ _
  · exact .ofThrow rfl

private theorem addSegment_plain (owner : String) (id : ObjectId) (name : String)
    (attributes : Table String String) : ActsPlainly (addSegment owner id name attributes) :=
  .check rfl (.bind (look_plain fun _ => .mapError fun _ => rfl) fun _ => push_plain id _ _)

theorem sectionsOf_plain (id : ObjectId) : ActsPlainly (sectionsOf id) := by
  refine .bind .ofGet fun sc => ?_
  split
  · exact .ofPure
  · exact .ofPure

theorem announce_plain (id : ObjectId) (slot : Slot) : ActsPlainly (announce id slot) := by
  cases slot with
  | row | header | footer => exact put_plain id _ _

theorem leaveSections_plain (id : ObjectId) (front : List Value) (t : Sections) :
    ActsPlainly (leaveSections id front t) :=
  .bind (put_plain id _ _) fun _ => announce_plain id t.slot

private theorem startAfter_plain (id : ObjectId) (name title : Option String) :
    ActsPlainly (startAfter id name title) := by
  refine .bind (look_plain fun sc => sc.elementAt_plain _ _) fun last =>
    .bind (look_plain fun sc => sc.isBegunSection_plain last) fun begun => ?_
  split
  · exact .bind (push_plain id _ _) fun _ => announce_plain id .row
  · exact .bind (setAttribute_plain _ _ _) fun _ => .bind (setAttribute_plain _ _ _) fun _ =>
      announce_plain id .row

private theorem putInto_plain (slot : Slot) (view : ObjectId) (last : Value) :
    ActsPlainly (putInto slot view last) := by
  unfold putInto
  cases slot with
  | header | footer => exact setAttribute_plain _ _ _
  | row =>
    refine .bind (look_plain fun sc => sc.requireAttribute_plain last _) fun rows => ?_
    split
    · exact push_plain _ _ _
    · exact .ofThrow trivial

private theorem addTablePart_plain (owner : String) (id : ObjectId) (name : String)
    (attributes : Table String String) : ActsPlainly (addTablePart owner id name attributes) := by
  refine .bind (sectionsOf_plain id) fun (front, t) =>
    .bind (look_plain fun _ => .mapError fun _ => rfl) fun after => ?_
  split
  · exact announce_plain id _
  · split
    · exact startAfter_plain id _ _
    · exact leaveSections_plain id _ _

private theorem addRow_plain (id view : ObjectId) : ActsPlainly (addRow id view) := by
  refine .bind (sectionsOf_plain id) fun (front, t) => ?_
  dsimp only
  split
  · exact .bind (look_plain fun sc => sc.elementAt_plain _ _) fun last =>
      .bind (putInto_plain t.slot view last) fun _ => .bind (announce_plain id .row) fun _ =>
        push_plain id _ _
  · exact .bind (leaveSections_plain id _ _) fun _ => push_plain id _ _

private theorem addRowAfter_plain (id : ObjectId) (row : PickerRow) :
    ActsPlainly (addRowAfter id row) := by
  refine .bind (look_plain fun sc => sc.elementAt_plain _ _) fun last =>
    .bind (look_plain fun sc => sc.requireAttribute_plain last _) fun rows => ?_
  split
  · exact push_plain _ _ _
  · exact .ofThrow trivial

private theorem addPickerPart_plain (owner : String) (id : ObjectId) (name : String)
    (attributes : Table String String) : ActsPlainly (addPickerPart owner id name attributes) := by
  have hLeave (front : List Value) (p : Picker) (v : Value) :
      ActsPlainly (addPickerPart.leave id front p v) := by
    unfold addPickerPart.leave
    split
    · exact put_plain id _ _
    · exact .ofThrow trivial
  refine .bind .ofGet fun sc => ?_
  dsimp only
  refine .bind (look_plain fun _ => Picker.addPart_plain _ _ _ _) fun after => ?_
  split
  · exact .ite (addRowAfter_plain id _) (hLeave _ _ _)
  · exact hLeave _ _ _

private theorem obey_plain (platform : String) (id : ObjectId) (owner : String) (rule : HookRule)
    (call : Call) : ActsPlainly (obey platform id owner rule call) := by
  unfold obey
  split
  · exact restrict_plain _ _ _ _
  · exact put_plain id _ _
  · exact push_plain id _ _
  · exact .bind (push_plain id _ _) fun _ => push_plain id _ _
  · exact setContent_plain _ _ _
  · exact addRow_plain _ _
  · exact addTablePart_plain _ _ _ _
  · exact addPickerPart_plain _ _ _ _
  · exact addSegment_plain _ _ _ _
  · exact .ofPure

private theorem refuseReplaced_plain (id : ObjectId) (operation : String) :
    ActsPlainly (refuseReplaced id operation) := by
  refine .bind .ofGet fun sc => ?_
  split
  · exact .ofThrow trivial
  · exact .ofPure

/-- Telling an object something fails plainly, if it fails. -/
theorem tell_plain (platform : String) (id : ObjectId) (call : Call) :
    ActsPlainly (tell platform id call) := by
  refine .bind (refuseReplaced_plain id _) fun _ => .bind .ofGet fun sc => ?_
  split
  · exact .ofThrow trivial
  · split
    · exact .ofThrow trivial
    · exact record_plain _ _ _
    · exact obey_plain _ _ _ _ _

end Acting
end ViewMarkup
