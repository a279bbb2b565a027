import ViewMarkup.Proofs.Object.Access
import ViewMarkup.Proofs.Object.Declared

/-!
# Where dotted names lead

A dotted name leads from object to object. An instance that has just been made refers to what was
made with it and to what all share: what its class starts instances with, and what other values
bear. So the way of a name goes through an object that is shared, or it stays among what is at least
as new as the instance that it starts from.

## Main results

* `Scene.getLast?_way` — a property is found in the last object of the way.
* `Scene.way_beside` — a way that goes through no old object stays among the new ones.
-/

namespace ViewMarkup

/-- The objects below a number, and those from another number on. -/
def beside (old lo : Nat) : Region := fun id => id < old ∨ lo ≤ id

/-- The names under which read-only attributes look something up in other values. -/
def lookedUpNames : List String := ["value", "size"]

/-- What is looked up in values that are no objects refers to a region only. -/
def Store.Shares (s : Store) (U : Region) : Prop :=
  ∀ b attr v, attr ∈ lookedUpNames → s.borne? b attr = some v → U.Covers v

theorem Region.Covers.mono {U V : Region} {v : Value} (h : U.Covers v) (hUV : ∀ id, U id → V id) :
    V.Covers v :=
  fun id hId => hUV id (h id hId)

namespace Scene

variable {sc : Scene} {old lo : Nat} {id : ObjectId} {v x : Value} {attr : String}
  {names : List String}

/-- A property is found in the last object of the way of its name. -/
theorem getLast?_way {p : Property} (h : sc.locate v names = .ok (x, p)) :
    ∃ y, x = .object y ∧ (sc.way v names).getLast? = some y := by
  induction names generalizing v with
  | nil => cases h
  | cons name rest ih =>
    have hCases := locate_cons_eq_ok_iff.1 h
    split at hCases
    · next hEnd =>
      obtain ⟨rfl, hFound, -⟩ := hCases
      obtain ⟨id, -, rfl, -⟩ := exists_component_of_get? hFound
      have hStop : rest = [] ∨ rest = [""] ∨ ¬ p.kind = .object := or_assoc.1 (.inl hEnd)
      refine ⟨id, rfl, ?_⟩
      simp [way, hFound, hStop]
    · next hEnd =>
      obtain ⟨q, inner, hFound, hNested, hInner, -, hRest⟩ := hCases
      obtain ⟨id, -, rfl, -⟩ := exists_component_of_get? hFound
      obtain ⟨y, hy, hLast⟩ := ih hRest
      have hGoes : ¬ (rest.isEmpty ∨ rest = [""] ∨ q.kind ≠ .object) := by
        rw [← or_assoc, List.isEmpty_iff]
        exact fun hStop => hStop.elim hEnd fun hNe => hNe hNested
      refine ⟨y, hy, ?_⟩
      unfold way
      simp only [hFound, if_neg hGoes, hInner]
      rw [← List.cons_append, List.getLast?_append, hLast]
      rfl

/-! ## New instances -/

/-- The objects from a number on refer to each other and to old ones only, and so does what is
shared, to old ones. -/
structure Secluded (sc : Scene) (old lo : Nat) : Prop where
  leads : sc.store.LeadsInto (lo ≤ ·) (beside old lo)
  classes : sc.classes.Covered (· < old)
  shares : sc.store.Shares (· < old)

theorem Secluded.covered (h : sc.Secluded old lo) : sc.classes.Covered (beside old lo) :=
  fun c hc y hy => .inl (h.classes c hc y hy)

/-- What is looked up in a new object, or in what is no object, refers to new objects and old
ones. -/
theorem given_beside (hsc : sc.Secluded old lo) (hv : (beside old lo).Covers v)
    (hNew : ∀ y, v = .object y → lo ≤ y) (hName : attr ∈ lookedUpNames)
    (h : sc.given v attr = .ok x) : (beside old lo).Covers x := by
  have hGiven : sc.given? v attr = some x := by
    unfold given at h
    cases hGiven : sc.given? v attr with
    | none =>
      rw [hGiven] at h
      cases h
    | some y =>
      rw [hGiven] at h
      cases h
      rfl
  unfold given? at hGiven
  split at hGiven
  · cases hGiven
    exact Region.covers_of_objects_nil rfl
  · split at hGiven
    · next y => exact ownAttribute?_covers hsc.leads hsc.covered (hNew y rfl) hGiven
    · rcases Option.or_eq_some_iff.1 hGiven with hPart | ⟨-, hBorne⟩
      · exact partOf?_covers hv hPart
      · obtain ⟨b, -, hBorne⟩ := Option.bind_eq_some_iff.1 hBorne
        exact (hsc.shares b attr x hName hBorne).mono fun _ => .inl

/-- What attributes of objects that lead into a region are looked up in belongs to the region. -/
theorem lookedUpIn?_covers {V U : Region} (hLeads : sc.store.LeadsInto V U) (hId : V id)
    {c : Computed} {y : ObjectId} (h : sc.lookedUpIn? id c = some y) : U y := by
  cases c with
  | controlState | displayText => cases h
  | selectedValue =>
    simp only [lookedUpIn?] at h
    split at h <;> cases h
    next hAt =>
    exact Region.covers_object.1 (elementAt_covers (stored_covers hLeads "segments" hId) hAt)
  | imageSize =>
    simp only [lookedUpIn?] at h
    split at h <;> cases h
    next hImage =>
    have hStored := stored_covers hLeads "image" hId
    rw [hImage] at hStored
    exact Region.covers_object.1 hStored

/-- The object that an attribute of an instance is looked up in, if it is another one. -/
def sourceOf? (sc : Scene) (id : ObjectId) (attr : String) : Option ObjectId :=
  ((sc.store.class? id).bind (sc.classes.computed? · attr)).bind (sc.lookedUpIn? id)

private theorem sourceOf?_covers {V U : Region} (hLeads : sc.store.LeadsInto V U) (hId : V id)
    {y : ObjectId} (h : sc.sourceOf? id attr = some y) : U y := by
  obtain ⟨c, -, hLooked⟩ := Option.bind_eq_some_iff.1 h
  exact lookedUpIn?_covers hLeads hId hLooked

/-- An attribute of a new object that is not looked up in an old one refers to new objects and old
ones. -/
theorem attribute?_beside (hsc : sc.Secluded old lo) (hId : lo ≤ id)
    (hSource : ∀ y, sc.sourceOf? id attr = some y → lo ≤ y)
    (h : sc.attribute? (.object id) attr = .ok (some x)) : (beside old lo).Covers x := by
  have hStored (name : String) : (beside old lo).Covers (sc.stored id name) :=
    stored_covers hsc.leads name hId
  unfold attribute? at h
  unfold sourceOf? at hSource
  dsimp only at h
  cases hComputed : (sc.store.class? id).bind (sc.classes.computed? · attr) with
  | none =>
    rw [hComputed] at h
    have hGiven : sc.given? (.object id) attr = some x := Except.ok.inj h
    unfold given? at hGiven
    split at hGiven
    · cases hGiven
      exact Region.covers_of_objects_nil rfl
    · exact ownAttribute?_covers hsc.leads hsc.covered hId hGiven
  | some c =>
    rw [hComputed] at h
    rw [hComputed, Option.bind_some] at hSource
    have hFound : sc.computed id c = .ok x := by
      dsimp only at h
      split at h <;> cases h
      assumption
    cases c with
    | controlState =>
      cases hFound
      exact Region.covers_of_objects_nil rfl
    | displayText => exact displayText_covers hFound
    | selectedValue =>
      rcases selectedValue_cases hFound with rfl | ⟨w, hAt, hValue⟩
      · exact Region.covers_of_objects_nil rfl
      · refine given_beside hsc (elementAt_covers (hStored "segments") hAt) ?_ (by decide) hValue
        rintro y rfl
        exact hSource y (by simp [lookedUpIn?, hAt])
    | imageSize =>
      simp only [computed, imageSize] at hFound
      split at hFound
      · cases hFound
        exact Region.covers_of_objects_nil rfl
      · refine given_beside hsc (hStored "image") (fun y hy => ?_) (by decide) hFound
        exact hSource y (by simp [lookedUpIn?, hy])

/-- The way of a name from a new object goes through an old one, or stays among the new. -/
theorem way_beside (hsc : sc.Secluded old lo) (hv : (beside old lo).Covers v) :
    (∃ y ∈ sc.way v names, y < old) ∨ ∀ y ∈ sc.way v names, lo ≤ y := by
  induction names generalizing v with
  | nil => exact .inr (by cases v <;> simp [way])
  | cons name rest ih =>
    cases v with
    | object id =>
      rcases Region.covers_object.1 hv with hOld | hNew
      · exact .inl ⟨id, by simp [way], hOld⟩
      · have hHead : ∀ y ∈ [id], lo ≤ y := by simpa using hNew
        unfold way
        split
        · exact .inr hHead
        · next p _ =>
          split
          · exact .inr hHead
          · split
            · next inner hInner =>
              change
                (∃ y ∈ id :: ((sc.sourceOf? id p.target).toList ++ sc.way inner rest), y < old) ∨
                ∀ y ∈ id :: ((sc.sourceOf? id p.target).toList ++ sc.way inner rest), lo ≤ y
              by_cases hOld : ∃ y < old, sc.sourceOf? id p.target = some y
              · obtain ⟨y, hy, hSource⟩ := hOld
                exact .inl ⟨y, by simp [hSource], hy⟩
              · have hSource (y : ObjectId) (h : sc.sourceOf? id p.target = some y) : lo ≤ y :=
                  (sourceOf?_covers hsc.leads hNew h).resolve_left fun hLt => hOld ⟨y, hLt, h⟩
                rcases ih (attribute?_beside hsc hNew hSource hInner) with ⟨y, hy, hLt⟩ | hRest
                · exact .inl ⟨y, by simp [hy], hLt⟩
                · refine .inr fun y hy => ?_
                  simp only [List.mem_cons, List.mem_append, Option.mem_toList] at hy
                  rcases hy with rfl | hy | hy
                  · exact hNew
                  · exact hSource y hy
                  · exact hRest y hy
            · exact .inr hHead
    | _ => exact .inr (by simp [way])

end Scene
end ViewMarkup
