import ViewMarkup.Proofs.Object.Footprint
import ViewMarkup.Proofs.Treads
import ViewMarkup.View.Receive

/-!
# What hooks write

An object that is told something sets attributes one after the other. Those of the object itself may
get any value. Elsewhere nothing is written but a view that the object has just been given, or what
refers to no object at all: into an attribute of its own, or behind what a list holds. The names of
all these attributes are known. Two of them are names of properties as well: a view may be hidden,
and a text may be set.

So nothing that an object is told makes other objects refer to anything that they could not have
reached, and nothing makes a hidden view appear.

## Main results

* `Acting.tell_puts` — whatever an object is told, it does nothing but this.
* `Scene.Puts.closed` — a region that no attribute leads out of stays one, if the views that are
  handed over belong to it.
* `Scene.Puts.field?_cases`, `Scene.Puts.keeps_hidden` — what becomes of the other attributes;
  hidden views stay hidden.
-/

namespace ViewMarkup

namespace Scene

/-- The names under which objects put what they are told. -/
def putNames : List String := [
  "platforms", "subviews", "arranged_subviews", "content_view", "sections", "_pending_slot", "rows",
  "header", "footer", "name", "title", "components", "segments", "children", "events"]

/-- What may be put under a name. Besides, views may be hidden, but are not shown, and a text may be
set. -/
def Puttable (attr : String) (v : Value) : Prop :=
  attr ∈ putNames ∨ (attr = "hidden" ∧ v = .bool true) ∨ (attr = "text" ∧ ∃ s, v = .text s)

/-- One thing that an object does when it is told something: it sets an attribute of its own, it
sets another one to what it was given, or it adds that to a list. -/
inductive Puts (id : ObjectId) (call : Call) (sc : Scene) : Scene → Prop
  | own (attr : String) (v : Value) : Puttable attr v →
      Puts id call sc { sc with store := sc.store.setField id attr v }
  | given (cell : Cell) (v : Value) : cell.attr ∈ putNames →
      (∀ view ∈ v.objects, call = .append view) →
      Puts id call sc { sc with store := sc.store.assign cell v }
  | listed (x : ObjectId) (attr : String) (items : List Value) (v : Value) : attr ∈ putNames →
      sc.store.field? x attr = some (.list items) → (∀ view ∈ v.objects, call = .append view) →
      Puts id call sc { sc with store := sc.store.setField x attr (.list (items ++ [v])) }

variable {id : ObjectId} {call : Call} {sc sc' : Scene} {U : Region}

/-- What is written into a region stays in it. What is written outside makes no difference to it. -/
theorem Puts.closed (h : sc.Puts id call sc') (hId : ¬ U id)
    (hView : ∀ view, call = .append view → U view) (hsc : sc.store.Closed U) :
    sc'.store.Closed U := by
  cases h with
  | own attr v _ => exact hsc.setField attr fun hIn => absurd hIn hId
  | given cell v _ hGiven =>
    have hCovers : U.Covers v := fun view hMem => hView view (hGiven view hMem)
    exact hsc.assign cell hCovers
  | listed x attr items v _ hItems hGiven =>
    have hCovers : U.Covers v := fun view hMem => hView view (hGiven view hMem)
    exact hsc.setField attr fun hIn => Region.covers_append (hsc.field hIn hItems) hCovers

/-- An attribute with another name keeps its value, unless a view is hidden or a text is set. -/
theorem Puts.field?_cases {x : ObjectId} {attr : String} {v : Value} (h : sc.Puts id call sc')
    (hAttr : attr ∉ putNames) (hField : sc.store.field? x attr = some v) :
    sc'.store.field? x attr = some v ∨
      ∃ w, sc'.store.field? x attr = some w ∧ Puttable attr w := by
  have hOther {cell : Cell} {w : Value} (hNe : .field x attr ≠ cell) :
      (sc.store.assign cell w).valueAt? (.field x attr) = some v :=
    (Store.valueAt?_assign_ne hNe).trans hField
  cases h with
  | own name w hPut =>
    by_cases hSame : .field x attr = Cell.field id name
    · cases hSame
      have hThere : (sc.store.valueAt? (.field id attr)).isSome = true := by
        rw [Store.valueAt?, hField]
        rfl
      exact .inr ⟨w, Store.valueAt?_assign_self hThere, hPut⟩
    · exact .inl (hOther hSame)
  | given cell w hCell _ =>
    refine .inl (hOther fun hSame => hAttr ?_)
    rw [← hSame] at hCell
    exact hCell
  | listed y name items w hName _ _ =>
    exact .inl (hOther fun hSame => hAttr ((Cell.field.inj hSame).2 ▸ hName))

/-- A view that is hidden stays hidden. -/
theorem Puts.keeps_hidden {view : ObjectId} (h : sc.Puts id call sc')
    (hHidden : sc.store.field? view "hidden" = some (.bool true)) :
    sc'.store.field? view "hidden" = some (.bool true) := by
  rcases h.field?_cases (by decide) hHidden with hKept | ⟨w, hField, hName | ⟨-, rfl⟩ | ⟨hName, -⟩⟩
  · exact hKept
  · exact absurd hName (by decide)
  · exact hField
  · exact absurd hName (by decide)

end Scene

namespace Acting

/-- An action of an object that has been told something. -/
abbrev Putting {α : Type} (id : ObjectId) (call : Call) (x : Acting α) : Prop :=
  Treads (Scene.Puts id call) (Scene.Puts id call) x

variable {id view x : ObjectId} {attr name owner platform target data : String} {v new : Value}
  {attributes : Table String String} {call : Call}

/-! ## Setting attributes -/

theorem look_puts {α : Type} {f : Scene → Except Failure α} : Putting id call (look f) := by
  refine Treads.ofGet.bind fun sc => ?_
  split
  · exact .ofPure
  · exact .ofThrow

theorem put_puts (hAttr : attr ∈ Scene.putNames) : Putting id call (put id attr v) :=
  .single fun _ => .own attr v (.inl hAttr)

private theorem put_hidden_puts : Putting id call (put id "hidden" (.bool true)) :=
  .single fun _ => .own "hidden" (.bool true) (.inr (.inl ⟨rfl, rfl⟩))

private theorem put_text_puts {s : String} : Putting id call (put id "text" (.text s)) :=
  .single fun _ => .own "text" (.text s) (.inr (.inr ⟨rfl, s, rfl⟩))

theorem setAttribute_puts (hAttr : attr ∈ Scene.putNames)
    (hNew : ∀ view ∈ new.objects, call = .append view) :
    Putting id call (setAttribute v attr new) := by
  intro sc
  have hSet := sc.toOption_setAttribute v attr new
  have hLook : look (fun sc => sc.setAttribute v attr new) sc =
      (sc.setAttribute v attr new, sc) := by
    unfold look
    rw [run_bind, run_get]
    dsimp only
    cases sc.setAttribute v attr new <;> rfl
  unfold setAttribute
  rw [run_bind, hLook]
  cases hStore : sc.setAttribute v attr new with
  | error e => exact ⟨sc, .refl, .inl rfl⟩
  | ok store =>
    rw [hStore] at hSet
    obtain ⟨cell, hCell, rfl⟩ := Option.map_eq_some_iff.1 hSet.symm
    have hOf : Scene.cellOf v attr = some cell := (Option.filter_eq_some_iff.1 hCell).1
    have hName : cell.attr ∈ Scene.putNames := by
      rwa [Scene.attr_of_cellOf hOf]
    exact ⟨_, .single (.given cell new hName hNew), .inl rfl⟩

private theorem listAt_puts : Putting id call (listAt x attr) := by
  refine Treads.ofGet.bind fun sc => ?_
  split
  · exact .ofPure
  · exact .ofThrow

/-- An object adds to a list of its own. -/
theorem push_puts (hAttr : attr ∈ Scene.putNames) : Putting id call (push id attr v) :=
  listAt_puts.bind fun _ => put_puts hAttr

/-- An object adds to a list that another one holds. -/
theorem push_given_puts (hAttr : attr ∈ Scene.putNames)
    (hv : ∀ view ∈ v.objects, call = .append view) :
    Putting id call (push x attr v) := by
  intro sc
  unfold push listAt
  rw [run_bind, run_bind, run_get]
  dsimp only
  cases hField : sc.store.field? x attr with
  | none => exact ⟨sc, .refl, .inl rfl⟩
  | some stored =>
    cases stored with
    | list items => exact ⟨_, .single (.listed x attr items v hAttr hField hv), .inl rfl⟩
    | _ => exact ⟨sc, .refl, .inl rfl⟩

/-! ## Recording components -/

private theorem keepChild_puts : Putting id call (keepChild id view) := by
  refine Treads.ofGet.bind fun sc => ?_
  exact .guarded (push_puts (by decide)) fun hPush => (put_puts (by decide)).bind fun _ => hPush

private theorem record_puts {cls : ClassId} : Putting id call (record id cls call) := by
  refine Treads.ofGet.bind fun sc => ?_
  have hPush {call : Call} {event : Value} : Putting id call (push id "events" event) :=
    push_puts (by decide)
  cases call with
  | append view =>
    have hEnd {event : Value} : Putting id (.append view) (do
        keepChild id view
        push id "events" event) :=
      keepChild_puts.bind fun _ => hPush
    dsimp only
    split
    · exact .ofThrowBind
    · exact hEnd
  | instruction _ _ | raw _ _ | text _ =>
    dsimp only
    split
    · exact .ofThrowBind
    · exact hPush

/-! ## Views -/

private theorem restrict_puts : Putting id call (restrict platform id target data) := by
  unfold restrict
  dsimp only
  refine .guarded ?_ fun _ => Treads.ofGet.bind fun _ => .ofThrowBind
  split
  · exact .ofThrow
  · exact (put_puts (by decide)).bind fun _ => .ite put_hidden_puts .ofPure

private theorem setContent_puts : Putting id call (setContent owner id view) := by
  refine Treads.ofGet.bind fun sc => ?_
  split
  · exact (put_puts (by decide)).bind fun _ => push_puts (by decide)
  · exact .ofThrow

private theorem addSegment_puts : Putting id call (addSegment owner id name attributes) :=
  .check (look_puts.bind fun _ => push_puts (by decide))

/-! ### Tables -/

theorem sectionsOf_puts : Putting id call (sectionsOf id) := by
  refine Treads.ofGet.bind fun sc => ?_
  split <;> exact .ofPure

theorem announce_puts {slot : Slot} : Putting id call (announce id slot) := by
  cases slot <;> exact put_puts (by decide)

theorem leaveSections_puts {front : List Value} {t : Sections} :
    Putting id call (leaveSections id front t) :=
  (put_puts (by decide)).bind fun _ => announce_puts

private theorem startAfter_puts {name title : Option String} :
    Putting id call (startAfter id name title) := by
  have hText (text? : Option String) : ∀ view ∈ (Value.ofText? text?).objects,
      call = .append view := by
    cases text? <;> exact fun _ h => nomatch h
  refine look_puts.bind fun last => look_puts.bind fun begun => ?_
  split
  · exact (push_puts (by decide)).bind fun _ => announce_puts
  · exact (setAttribute_puts (by decide) (hText name)).bind fun _ =>
      (setAttribute_puts (by decide) (hText title)).bind fun _ => announce_puts

private theorem putInto_puts {slot : Slot} {last : Value} :
    Putting id (.append view) (putInto slot view last) := by
  have hView : ∀ y ∈ (Value.object view).objects, Call.append view = .append y := fun y hy =>
    congrArg Call.append (List.mem_singleton.1 hy).symm
  cases slot with
  | header | footer => exact setAttribute_puts (by decide) hView
  | row =>
    refine look_puts.bind fun rows => ?_
    split
    · exact push_given_puts (by decide) hView
    · exact .ofThrow

private theorem addTablePart_puts : Putting id call (addTablePart owner id name attributes) :=
  sectionsOf_puts.bind fun _ => look_puts.bind fun _ =>
    .ite announce_puts (.ite startAfter_puts leaveSections_puts)

private theorem addRow_puts : Putting id (.append view) (addRow id view) := by
  have hPush : Putting id (.append view) (push id "subviews" (.object view)) :=
    push_puts (by decide)
  refine sectionsOf_puts.bind fun sections => ?_
  dsimp only
  split
  · exact look_puts.bind fun _ => putInto_puts.bind fun _ => announce_puts.bind fun _ => hPush
  · exact leaveSections_puts.bind fun _ => hPush

/-! ### Pickers -/

private theorem addRowAfter_puts {row : PickerRow} : Putting id call (addRowAfter id row) := by
  refine look_puts.bind fun last => look_puts.bind fun rows => ?_
  split
  · exact push_given_puts (by decide) fun _ h => nomatch h
  · exact .ofThrow

private theorem leave_puts {front : List Value} {p : Picker} :
    Putting id call (addPickerPart.leave id front p v) := by
  unfold addPickerPart.leave
  split
  · exact put_puts (by decide)
  · exact .ofThrow

private theorem addPickerPart_puts : Putting id call (addPickerPart owner id name attributes) := by
  refine Treads.ofGet.bind fun sc => ?_
  dsimp only
  refine look_puts.bind fun after => ?_
  split
  · exact .ite addRowAfter_puts leave_puts
  · exact leave_puts

/-! ## Hooks -/

private theorem obey_puts {rule : HookRule} :
    Putting id call (obey platform id owner rule call) := by
  unfold obey
  split
  · exact restrict_puts
  · exact put_text_puts
  · exact push_puts (by decide)
  · exact (push_puts (by decide)).bind fun _ => push_puts (by decide)
  · exact setContent_puts
  · exact addRow_puts
  · exact addTablePart_puts
  · exact addPickerPart_puts
  · exact addSegment_puts
  · exact .ofPure

/-- Whatever an object is told, it sets attributes of its own and puts what it is given
elsewhere. -/
theorem tell_puts : Putting id call (tell platform id call) := by
  have hRefuse : Putting id call (refuseReplaced id call.hook.name) := by
    refine Treads.ofGet.bind fun sc => ?_
    split
    · exact .ofThrow
    · exact .ofPure
  refine hRefuse.bind fun _ => Treads.ofGet.bind fun sc => ?_
  split
  · exact .ofThrow
  · split
    · exact .ofThrow
    · exact record_puts
    · exact obey_puts

/-! ## Instructions -/

/-- An action after which no object refers to anything that it has not referred to before. -/
abbrev Unreferring {α : Type} (x : Acting α) : Prop :=
  Treads (fun sc sc' => ∀ V U, sc.store.LeadsInto V U → sc'.store.LeadsInto V U)
    (fun _ _ => False) x

private theorem put_unreferring (hv : v.objects = []) : Unreferring (put id attr v) :=
  .single fun _ _ _ h => h.setField attr fun _ => Region.covers_of_objects_nil hv

/-- A list stays one that leads into a region when something is added that is no object. -/
theorem push_unreferring (hv : v.objects = []) : Unreferring (push id attr v) := by
  intro sc
  unfold push listAt
  rw [run_bind, run_bind, run_get]
  dsimp only
  cases hField : sc.store.field? id attr with
  | none => exact ⟨sc, .refl, .inl rfl⟩
  | some stored =>
    cases stored with
    | list items =>
      refine ⟨_, .single fun V U h => h.setField attr fun hId => ?_, .inl rfl⟩
      exact Region.covers_append (h id attr _ hId hField) (Region.covers_of_objects_nil hv)
    | _ => exact ⟨sc, .refl, .inl rfl⟩

private theorem restrict_unreferring : Unreferring (restrict platform id target data) := by
  unfold restrict
  dsimp only
  refine .guarded ?_ fun _ => Treads.ofGet.bind fun _ => .ofThrowBind
  split
  · exact .ofThrow
  · refine (put_unreferring ?_).bind fun _ => .ite (put_unreferring rfl) .ofPure
    rw [Value.objects]
    exact List.eq_nil_iff_forall_not_mem.2 fun x hx => by
      obtain ⟨y, hy, hx⟩ := Region.mem_objectsOfList.1 hx
      obtain ⟨s, -, rfl⟩ := List.mem_map.1 hy
      cases hx

/-- An instruction may restrict a view to some platforms, or be recorded. -/
theorem tell_unreferring : Unreferring (tell platform id (.instruction target data)) := by
  have hRefuse : Unreferring (refuseReplaced id (Call.instruction target data).hook.name) := by
    refine Treads.ofGet.bind fun sc => ?_
    split
    · exact .ofThrow
    · exact .ofPure
  refine hRefuse.bind fun _ => Treads.ofGet.bind fun sc => ?_
  split
  · exact .ofThrow
  · split
    · exact .ofThrow
    · refine Treads.ofGet.bind fun sc => ?_
      dsimp only
      split
      · exact .ofThrowBind
      · exact push_unreferring rfl
    · unfold obey
      split
      · exact restrict_unreferring
      all_goals first | exact .ofPure | contradiction

end Acting
end ViewMarkup
