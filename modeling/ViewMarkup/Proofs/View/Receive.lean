import ViewMarkup.Proofs.Object.Access
import ViewMarkup.View.Receive

/-!
# What hooks can reach

Whatever a component is told, it changes only objects that can be reached from it, and it makes
none. The statement is one about every region that the component belongs to and that no attribute
leads out of; `Acting.StaysIn` says it of an action, and each rule of the views is an instance.

## Main results

* `Acting.tell_within`: telling a component something changes the region only.
-/

namespace ViewMarkup

/-- A change of the objects of a region. -/
structure Scene.Writes (U : Region) (sc sc' : Scene) : Prop where
  classes : sc'.classes = sc.classes
  store : Store.Writes U sc.store sc'.store

namespace Scene.Writes

variable {U : Region} {sc sc' sc'' : Scene}

theorem refl (U : Region) (sc : Scene) : Scene.Writes U sc sc := ⟨rfl, .refl U sc.store⟩

theorem trans (h : Scene.Writes U sc sc') (h' : Scene.Writes U sc' sc'') :
    Scene.Writes U sc sc'' :=
  ⟨h'.classes.trans h.classes, h.store.trans h'.store⟩

private theorem closed (h : Scene.Writes U sc sc') (hsc : sc.Closed U) : sc'.Closed U :=
  ⟨h.store.closed hsc.store, h.classes ▸ hsc.classes⟩

end Scene.Writes

namespace Acting

variable {α β : Type} {U : Region} {P : α → Prop} {Q : β → Prop}

/-- An action that changes objects of a region only, whether it fails or not, and whose answer has a
property. -/
def StaysIn (U : Region) (act : Acting α) (P : α → Prop) : Prop :=
  ∀ sc, sc.Closed U →
    Yields act sc (fun a sc' => Scene.Writes U sc sc' ∧ P a) fun sc' => Scene.Writes U sc sc'

namespace StaysIn

theorem ofPure {a : α} (h : P a) : StaysIn U (pure a) P :=
  fun sc _ => .ofPure ⟨.refl U sc, h⟩

theorem ofThrow {failure : Failure} : StaysIn U (throw failure) P :=
  fun sc _ => .ofThrow (.refl U sc)

theorem ofGet : StaysIn U get fun sc => sc.Closed U :=
  fun sc hsc => .ofGet ⟨.refl U sc, hsc⟩

theorem bind {x : Acting α} {f : α → Acting β} (hx : StaysIn U x P)
    (hf : ∀ a, P a → StaysIn U (f a) Q) : StaysIn U (x >>= f) Q := by
  intro sc hsc
  refine .bind (hx sc hsc) fun a sc' h => ?_
  obtain ⟨hWrites, ha⟩ := h
  exact (hf a ha sc' (hWrites.closed hsc)).mono
    (fun _ _ h => ⟨hWrites.trans h.1, h.2⟩) fun _ h => hWrites.trans h

theorem andThen {x : Acting Unit} {y : Acting β} (hx : StaysIn U x fun _ => True)
    (hy : StaysIn U y Q) : StaysIn U (do x; y) Q := bind hx fun _ _ => hy

end StaysIn

/-- An action that changes objects of a region only. -/
abbrev Within (U : Region) (act : Acting Unit) : Prop := StaysIn U act fun _ => True

/-- An action, and another one in its place that may go on with it. -/
theorem StaysIn.guarded {c : Prop} [Decidable c] {x y : Acting Unit} (hx : Within U x)
    (hy : Within U x → Within U y) : Within U (if c then y else x) := by
  split
  · exact hy hx
  · exact hx

theorem look_staysIn {f : Scene → Except Failure α}
    (h : ∀ sc, sc.Closed U → ∀ a, f sc = .ok a → P a) : StaysIn U (look f) P := by
  refine .bind .ofGet fun sc hsc => ?_
  split
  · next a ha => exact .ofPure (h sc hsc a ha)
  · exact .ofThrow

/-! ## Changing attributes -/

variable {id view : ObjectId} {v new : Value} {attr : String}

theorem put_within (hId : U id) (hv : U.Covers v) : Within U (put id attr v) :=
  fun sc _ => .ofModify ⟨⟨rfl, .setField sc.store attr hId hv⟩, trivial⟩

theorem setAttribute_within (hv : U.Covers v) (hNew : U.Covers new) :
    Within U (setAttribute v attr new) := by
  intro sc hsc
  have hLook : Yields (look fun sc => sc.setAttribute v attr new) sc
      (fun s sc' => sc' = sc ∧ Store.Writes U sc.store s) fun sc' => sc' = sc := by
    refine .bind (.ofGet (P := fun sc' t => sc' = sc ∧ t = sc) ⟨rfl, rfl⟩) ?_
    rintro _ _ ⟨rfl, rfl⟩
    split
    · next s hs => exact .ofPure ⟨rfl, Scene.setAttribute_writes hv hNew hs⟩
    · exact .ofThrow rfl
  refine .bind (hLook.weaken ?_) ?_
  · rintro _ rfl
    exact .refl U _
  · rintro s _ ⟨rfl, hs⟩
    exact .ofModify ⟨⟨rfl, hs⟩, trivial⟩

private theorem listAt_staysIn (hId : U id) : StaysIn U (listAt id attr) fun items =>
    U.Covers (.list items) := by
  refine .bind .ofGet fun sc hsc => ?_
  split
  · next h => exact .ofPure (hsc.store.field hId h)
  · exact .ofThrow

theorem push_within (attr : String) (hId : U id) (hv : U.Covers v) : Within U (push id attr v) :=
  .bind (listAt_staysIn hId) fun _ h => put_within hId (Region.covers_append h hv)

/-! ## Recording components -/

private theorem keepChild_within (hId : U id) (hView : U view) : Within U (keepChild id view) := by
  refine .bind .ofGet fun sc _ => ?_
  have hPush := push_within "children" hId (Region.covers_object.2 hView)
  split
  · exact .andThen (put_within hId (Region.covers_of_objects_nil rfl)) hPush
  · exact hPush

private theorem recordOf_covers {sc : Scene} (hsc : sc.Closed U) {call : Call}
    (hCall : ∀ view, call = .append view → U view) : U.Covers (sc.recordOf call) := by
  have hText (s : String) : U.Covers (.text s) := Region.covers_of_objects_nil rfl
  cases call with
  | instruction target data => simp [Scene.recordOf, Region.covers_list, hText]
  | raw name attributes =>
    simp only [Scene.recordOf, Region.covers_list, List.forall_mem_cons, List.mem_map, hText]
    refine ⟨trivial, trivial, ?_, fun _ h => nomatch h⟩
    rintro _ ⟨e, -, rfl⟩
    simp [Region.covers_list, hText]
  | text s => simp [Scene.recordOf, Region.covers_list, hText]
  | append view =>
    have hInt (n : Int) : U.Covers (.int n) := Region.covers_of_objects_nil rfl
    have hTitle := Scene.stored_covers hsc.store.leadsInto "title" (hCall view rfl)
    simp [Scene.recordOf, Region.covers_list, hText, hInt, hTitle]

private theorem record_within {cls : ClassId} {call : Call} (hId : U id)
    (hCall : ∀ view, call = .append view → U view) : Within U (record id cls call) := by
  refine .bind .ofGet fun sc hsc => ?_
  have hPush := push_within "events" hId (recordOf_covers hsc hCall)
  cases call with
  | append view =>
    have hEnd := StaysIn.andThen (keepChild_within hId (hCall view rfl)) hPush
    dsimp only
    split
    · exact .andThen .ofThrow hEnd
    · exact hEnd
  | instruction _ _ | raw _ _ | text _ =>
    dsimp only
    split
    · exact .andThen .ofThrow hPush
    · exact hPush

/-! ## Views -/

private theorem restrict_within {platform target data : String} (hId : U id) :
    Within U (restrict platform id target data) := by
  unfold restrict
  dsimp only
  refine .guarded ?_ fun hEnd => .bind .ofGet fun _ _ => .andThen .ofThrow hEnd
  split
  · exact .ofThrow
  · next names _ =>
    refine .andThen (put_within hId ?_) ?_
    · refine Region.covers_tuple.2 fun v hv => ?_
      obtain ⟨s, -, rfl⟩ := List.mem_map.1 hv
      exact Region.covers_of_objects_nil rfl
    · split
      · exact put_within hId (Region.covers_of_objects_nil rfl)
      · exact .ofPure trivial

private theorem setContent_within {owner : String} (hId : U id) (hView : U view) :
    Within U (setContent owner id view) := by
  refine .bind .ofGet fun sc _ => ?_
  have hObject := Region.covers_object.2 hView
  split
  · exact .andThen (put_within hId hObject) (push_within _ hId hObject)
  · exact .ofThrow

private theorem addSegment_within {owner name : String} {attributes : Table String String}
    (hId : U id) : Within U (addSegment owner id name attributes) := by
  have hEnd : Within U (do
      let segment ← look fun _ =>
        (Segment.ofAttributes attributes).mapError (Failure.of ∘ Fault.decode)
      push id "segments" (.segment segment)) :=
    .bind (P := fun _ => True) (look_staysIn fun _ _ _ _ => trivial) fun _ _ =>
      push_within _ hId (Region.covers_of_objects_nil rfl)
  unfold addSegment
  dsimp only
  split
  · exact .andThen .ofThrow hEnd
  · exact hEnd

/-! ### Tables -/

/-- Sections that refer to objects of a region only. -/
abbrev CoversAll (U : Region) (ss : List TableSection) : Prop :=
  ∀ s ∈ ss, U.Covers (.tableSection s)

private theorem coversAll_start {t : Sections} (h : CoversAll U t.all)
    (name title : Option String) : CoversAll U (t.start name title) := by
  have hNamed (s : TableSection) (hs : U.Covers (.tableSection s)) :
      U.Covers (.tableSection { s with name, title }) :=
    Region.covers_tableSection.2 (Region.covers_tableSection.1 hs)
  unfold Sections.start
  dsimp only
  split
  · intro s hs
    rcases List.mem_append.1 hs with hs | hs
    · exact h s hs
    · rw [List.mem_singleton.1 hs]
      exact hNamed {} (Region.covers_of_objects_nil rfl)
  · exact forall_mem_changeLast h hNamed

private theorem coversAll_addPart {t t' : Sections} {cls name : String}
    {attributes : Table String String} (h : CoversAll U t.all)
    (hPart : t.addPart cls name attributes = .ok t') : CoversAll U t'.all := by
  unfold Sections.addPart at hPart
  split at hPart <;> cases hPart
  · exact coversAll_start h _ _
  · exact h
  · exact h

private theorem coversAll_addView {t : Sections} (h : CoversAll U t.all) (hView : U view) :
    CoversAll U (t.addView view).all := by
  refine forall_mem_changeLast h fun s hs => ?_
  obtain ⟨hHeader, hRows, hFooter⟩ := Region.covers_tableSection.1 hs
  unfold Sections.put
  split
  · refine Region.covers_tableSection.2 ⟨hHeader, fun id hId => ?_, hFooter⟩
    rcases List.mem_append.1 hId with hId | hId
    · exact hRows id hId
    · exact List.mem_singleton.1 hId ▸ hView
  · exact Region.covers_tableSection.2 ⟨by simpa using hView, hRows, hFooter⟩
  · exact Region.covers_tableSection.2 ⟨hHeader, hRows, by simpa using hView⟩

theorem sectionsOf_staysIn (hId : U id) : StaysIn U (sectionsOf id) fun r =>
    (∀ v ∈ r.1, U.Covers v) ∧ CoversAll U r.2.all := by
  refine .bind .ofGet fun sc hsc => ?_
  have hStored := Scene.stored_covers hsc.store.leadsInto "sections" hId
  split
  · next items h =>
    rw [h, Region.covers_list] at hStored
    obtain ⟨hFront, hEnding⟩ := Ending.mem_of_cut Value.section? items
    refine .ofPure ⟨fun v hv => hStored v (hFront v hv), fun s hs => ?_⟩
    obtain ⟨v, hv, hKnown⟩ := hEnding s hs
    unfold Value.section? at hKnown
    split at hKnown <;> cases hKnown
    exact hStored _ hv
  · exact .ofPure ⟨by simp, by simp [CoversAll]⟩

theorem announce_within (hId : U id) (slot : Slot) : Within U (announce id slot) := by
  cases slot <;> exact put_within hId (Region.covers_of_objects_nil rfl)

theorem leaveSections_within {front : List Value} {t : Sections} (hId : U id)
    (hFront : ∀ v ∈ front, U.Covers v) (hAll : CoversAll U t.all) :
    Within U (leaveSections id front t) := by
  refine .andThen (put_within hId (Region.covers_list.2 fun v hv => ?_)) (announce_within hId _)
  rcases List.mem_append.1 hv with hv | hv
  · exact hFront v hv
  · obtain ⟨s, hs, rfl⟩ := List.mem_map.1 hv
    exact hAll s hs

/-- The last of what a component has stored under an attribute. -/
theorem last_staysIn (hId : U id) :
    StaysIn U (look fun sc => sc.elementAt (sc.stored id attr) (.int (-1))) fun v => U.Covers v :=
  look_staysIn fun _ hsc _ h =>
    Scene.elementAt_covers (Scene.stored_covers hsc.store.leadsInto _ hId) h

private theorem startAfter_within {name title : Option String} (hId : U id) :
    Within U (startAfter id name title) := by
  refine .bind (last_staysIn hId) fun last hLast => ?_
  refine .bind (P := fun _ => True) (look_staysIn fun _ _ _ _ => trivial) fun begun _ => ?_
  split
  · exact .andThen (push_within _ hId (Region.covers_of_objects_nil rfl)) (announce_within hId _)
  · exact .andThen (setAttribute_within hLast (Region.covers_ofText? _))
      (.andThen (setAttribute_within hLast (Region.covers_ofText? _)) (announce_within hId _))

private theorem putInto_within {slot : Slot} {last : Value} (hView : U view)
    (hLast : U.Covers last) : Within U (putInto slot view last) := by
  have hObject := Region.covers_object.2 hView
  cases slot with
  | header | footer => exact setAttribute_within hLast hObject
  | row =>
    refine .bind (P := fun _ => True) (look_staysIn fun _ _ _ _ => trivial) fun rows _ => ?_
    split
    · exact push_within _ (Region.covers_object.1 hLast) hObject
    · exact .ofThrow

private theorem addTablePart_within {owner name : String} {attributes : Table String String}
    (hId : U id) : Within U (addTablePart owner id name attributes) := by
  refine .bind (sectionsOf_staysIn hId) fun r hr => ?_
  obtain ⟨hFront, hAll⟩ := hr
  refine .bind (P := fun t => CoversAll U t.all) (look_staysIn fun _ _ t ht => ?_) fun t ht => ?_
  · exact coversAll_addPart hAll (eq_ok_of_mapError_eq_ok ht)
  · split
    · exact announce_within hId _
    · split
      · exact startAfter_within hId
      · exact leaveSections_within hId hFront ht

private theorem addRow_within (hId : U id) (hView : U view) : Within U (addRow id view) := by
  have hPush := push_within "subviews" hId (Region.covers_object.2 hView)
  refine .bind (sectionsOf_staysIn hId) fun r hr => ?_
  obtain ⟨hFront, hAll⟩ := hr
  dsimp only
  split
  · refine .bind (last_staysIn hId) fun last hLast => ?_
    exact .andThen (putInto_within hView hLast) (.andThen (announce_within hId _) hPush)
  · exact .andThen (leaveSections_within hId hFront (coversAll_addView hAll hView)) hPush

/-! ### Pickers -/

private theorem addRowAfter_within {row : PickerRow} (hId : U id) :
    Within U (addRowAfter id row) := by
  refine .bind (last_staysIn hId) fun last hLast => ?_
  refine .bind (P := fun _ => True) (look_staysIn fun _ _ _ _ => trivial) fun rows _ => ?_
  split
  · exact push_within _ (Region.covers_object.1 hLast) (Region.covers_of_objects_nil rfl)
  · exact .ofThrow

private theorem leave_within {front : List Value} {p : Picker} {v : Value} (hId : U id)
    (hFront : ∀ v ∈ front, U.Covers v) : Within U (addPickerPart.leave id front p v) := by
  unfold addPickerPart.leave
  split
  · refine put_within hId (Region.covers_list.2 fun v hv => ?_)
    rcases List.mem_append.1 hv with hv | hv
    · exact hFront v hv
    · obtain ⟨c, -, rfl⟩ := List.mem_map.1 hv
      exact Region.covers_of_objects_nil rfl
  · exact .ofThrow

private theorem addPickerPart_within {owner name : String} {attributes : Table String String}
    (hId : U id) : Within U (addPickerPart owner id name attributes) := by
  refine .bind .ofGet fun sc hsc => ?_
  have hFront (items : List Value) (h : sc.stored id "components" = .list items) :
      ∀ v ∈ (knownComponents items).1, U.Covers v := by
    have hStored := Scene.stored_covers hsc.store.leadsInto "components" hId
    rw [h, Region.covers_list] at hStored
    intro v hv
    exact hStored v ((Ending.mem_of_cut _ _).1 v hv)
  dsimp only
  refine .bind (P := fun _ => True) (look_staysIn fun _ _ _ _ => trivial) fun after _ => ?_
  split
  · refine .guarded (leave_within hId ?_) fun _ => addRowAfter_within hId
    split
    · next items h => exact hFront items h
    · simp
  · refine leave_within hId ?_
    split
    · next items h => exact hFront items h
    · simp

/-! ## Hooks -/

private theorem obey_within {platform owner : String} {rule : HookRule} {call : Call} (hId : U id)
    (hCall : ∀ view, call = .append view → U view) :
    Within U (obey platform id owner rule call) := by
  have hText (s : String) : Within U (put id "text" (.text s)) :=
    put_within hId (Region.covers_of_objects_nil rfl)
  unfold obey
  split
  · exact restrict_within hId
  · exact hText _
  · exact push_within _ hId (Region.covers_object.2 (hCall _ rfl))
  · have hObject := Region.covers_object.2 (hCall _ rfl)
    exact .andThen (push_within _ hId hObject) (push_within _ hId hObject)
  · exact setContent_within hId (hCall _ rfl)
  · exact addRow_within hId (hCall _ rfl)
  · exact addTablePart_within hId
  · exact addPickerPart_within hId
  · exact addSegment_within hId
  · exact .ofPure trivial

/-- Telling a component of a region something changes the region only, if a child view that it is
told of belongs to the region, too. -/
theorem tell_within {platform : String} {call : Call} (hId : U id)
    (hCall : ∀ view, call = .append view → U view) : Within U (tell platform id call) := by
  have hRefuse : Within U (refuseReplaced id call.hook.name) := by
    refine .bind .ofGet fun sc _ => ?_
    split
    · exact .ofThrow
    · exact .ofPure trivial
  refine .andThen hRefuse (.bind .ofGet fun sc _ => ?_)
  split
  · exact .ofThrow
  · split
    · exact .ofThrow
    · exact record_within hId hCall
    · exact obey_within hId hCall

end Acting
end ViewMarkup
