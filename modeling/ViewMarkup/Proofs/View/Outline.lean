import Mathlib.Data.Finset.Card
import ViewMarkup.Proofs.View.LineFeeds
import ViewMarkup.Proofs.View.Lines
import ViewMarkup.Proofs.View.Platforms
import ViewMarkup.Proofs.View.Reading

/-!
# The outline of a tree of views

The views that arrange each other form a tree if none of them is inside of itself. Its outline has
the headline of every view in it, in preorder and indented by depth: the name of the class and every
settable property whose value is not the one that it starts with. What a text can become never adds
a line to that, but for fonts whose family has a line feed.

## Main results

* `Scene.Arranged.eq_of_label_eq` — a tree is determined by the view at its root.
* `Scene.Arranged.outline_eq` — the outline of a tree of views is the text of its headlines.
* `Scene.lineFeed_not_mem_headline_iff` — which views take a single line.
-/

namespace ViewMarkup

open Text View View.Catalog

/-! ## Views -/

namespace View

/-- The number of a built-in view. -/
def IsBuiltIn (cls : ClassId) : Prop := (classes.get? cls).any (·.role = .view) = true

instance (cls : ClassId) : Decidable (IsBuiltIn cls) := inferInstanceAs (Decidable (_ = true))

theorem IsBuiltIn.isSome {cls : ClassId} (h : IsBuiltIn cls) :
    (classes.get? cls).isSome = true := by
  unfold IsBuiltIn at h
  cases hGet : classes.get? cls with
  | none => simp [hGet] at h
  | some c => rfl

/-- The names of the built-in classes are words. -/
theorem name_classes : ∀ cls : Fin 15,
    (classes.name cls).toList.head?.all (· ≠ ' ') = true ∧ classes.name cls ≠ "" ∧
      '\n' ∉ (classes.name cls).toList := by
  decide +kernel

/-- So are the names of their properties. -/
theorem name_properties : ∀ c ∈ classes.all, ∀ p ∈ c.properties.getD [],
    '\n' ∉ p.name.toList := by
  decide +kernel

end View

namespace Scene

variable {sc : Scene} {id : ObjectId} {cls : ClassId} {t t' : Rose ObjectId}

/-- What an object shows under a property: what it has there, or nothing. -/
def shownValue (sc : Scene) (id : ObjectId) (p : Property) : Value :=
  (sc.ownAttribute? id p.target).getD .none

/-- The class of an object; what is no component counts as a plain view. -/
def classOf (sc : Scene) (id : ObjectId) : ClassId := (sc.store.class? id).getD viewClass

/-- The settable properties of an object whose values are not those that it starts with, in the
order of their declaration. -/
def changed (sc : Scene) (id : ObjectId) : List Property :=
  ((sc.classes.properties (sc.classOf id)).map (·.2)).filter fun p =>
    p.settable && !sc.isAtStart (sc.classOf id) p (sc.shownValue id p)

/-- The class of an object, and its changed properties with their values. -/
def headline (sc : Scene) (id : ObjectId) : String :=
  joined " " (sc.classes.name (sc.classOf id) ::
    (sc.changed id).map fun p => p.name ++ "=" ++ sc.outlineValue (sc.shownValue id p))

/-- No value that is shown has a line feed in it. -/
def OnOneLine (sc : Scene) (id : ObjectId) : Prop :=
  ∀ p ∈ sc.changed id, '\n' ∉ (sc.outlineValue (sc.shownValue id p)).toList

/-- Under every settable property of a built-in class, the object has a value that a text for it
could become. -/
def Legible (sc : Scene) (id : ObjectId) : Prop :=
  ∀ cls, sc.store.class? id = some cls → (Catalog.classes.get? cls).isSome = true →
    ∀ entry ∈ Catalog.classes.properties cls, entry.2.settable = true →
      ∃ v, sc.store.field? id entry.2.target = some v ∧ v.IsLiteral

/-- A tree of built-in views. Those below a view are the ones that it arranges. -/
inductive Arranged (sc : Scene) : Rose ObjectId → Prop
  | node {id : ObjectId} {cls : ClassId} {below : List (Rose ObjectId)} :
      sc.store.class? id = some cls → IsBuiltIn cls →
      sc.arrangedChildren id = .ok (below.map fun t => .object t.label) →
      (∀ t ∈ below, Arranged sc t) → Arranged sc (.node id below)

/-! ## Trees -/

/-- A tree is determined by the view at its root. -/
theorem Arranged.eq_of_label_eq (h : sc.Arranged t) (h' : sc.Arranged t')
    (hSame : t.label = t'.label) : t = t' := by
  induction h generalizing t' with
  | @node id cls below _ _ hChildren _ ih =>
    cases h' with
    | @node id' cls' below' _ _ hChildren' hBelow' =>
      obtain rfl : id = id' := hSame
      have hValues : (below.map Rose.label).map Value.object =
          (below'.map Rose.label).map Value.object := by
        rw [List.map_map, List.map_map]
        exact Except.ok.inj (hChildren.symm.trans hChildren')
      have hLabels := List.map_injective_iff.2 (fun _ _ h => Value.object.inj h) hValues
      have hBelow : below = below' := Rose.eq_of_map_label_eq
        (fun t ht t' ht' hSame => ih t ht (hBelow' t' ht') hSame) hLabels
      rw [hBelow]

/-- What stands in a tree is the root of one that is no larger. -/
theorem Arranged.exists_of_mem_labels (h : sc.Arranged t) {x : ObjectId} (hx : x ∈ t.labels) :
    ∃ u, sc.Arranged u ∧ u.label = x ∧ sizeOf u ≤ sizeOf t := by
  induction h with
  | @node id cls below hClass hView hChildren hBelow ih =>
    rcases List.mem_cons.1 hx with rfl | hx
    · exact ⟨.node x below, .node hClass hView hChildren hBelow, rfl, Nat.le_refl _⟩
    · obtain ⟨t, ht, hx⟩ := Rose.mem_labelsAll.1 hx
      obtain ⟨u, hu, hLabel, hSize⟩ := ih t ht hx
      have hLess := List.sizeOf_lt_of_mem ht
      refine ⟨u, hu, hLabel, ?_⟩
      rw [Rose.node.sizeOf_spec]
      omega

/-- No view is inside of itself. -/
theorem Arranged.not_mem_labelsAll {below : List (Rose ObjectId)}
    (h : sc.Arranged (.node id below)) : id ∉ Rose.labelsAll below := by
  intro hInside
  obtain ⟨t, ht, hx⟩ := Rose.mem_labelsAll.1 hInside
  have hBelow : sc.Arranged t := by
    cases h with
    | node _ _ _ hBelow => exact hBelow t ht
  obtain ⟨u, hu, hLabel, hSize⟩ := hBelow.exists_of_mem_labels hx
  have hLess := List.sizeOf_lt_of_mem ht
  rw [hu.eq_of_label_eq h hLabel, Rose.node.sizeOf_spec] at hSize
  omega

/-! ## The line of a view -/

theorem classOf_eq (hClass : sc.store.class? id = some cls) : sc.classOf id = cls := by
  rw [classOf, hClass, Option.getD_some]

private theorem propertyValue_eq (hcs : sc.classes.Extends Catalog.classes)
    (hClass : sc.store.class? id = some cls) (hThere : (Catalog.classes.get? cls).isSome = true)
    {entry : String × Property} (hEntry : entry ∈ Catalog.classes.properties cls) :
    sc.propertyValue id entry.2 = .ok (sc.shownValue id entry.2) := by
  obtain ⟨hComputed, hTarget⟩ := kept_of_mem_properties hcs hThere hEntry
  simp [propertyValue, attribute?, hClass, hComputed, given?, hTarget, shownValue, Except.map]

/-- What is chosen of a list and changed by an action that does not fail. -/
theorem filterMapM_eq_ok {α β ε : Type} {f : α → Except ε (Option β)} {keep : α → Bool}
    {g : α → β} {xs : List α}
    (h : ∀ x ∈ xs, f x = .ok (if keep x = true then some (g x) else none)) :
    xs.filterMapM f = .ok ((xs.filter keep).map g) := by
  induction xs with
  | nil => rfl
  | cons x xs ih =>
    obtain ⟨hHead, hTail⟩ := List.forall_mem_cons.1 h
    rw [List.filterMapM_cons, hHead, ih hTail, List.filter_cons]
    cases keep x <;> rfl

/-- The line of a view is its headline. -/
theorem outlineLine_eq (hcs : sc.classes.Extends Catalog.classes)
    (hClass : sc.store.class? id = some cls) (hThere : (Catalog.classes.get? cls).isSome = true) :
    sc.outlineLine id cls = .ok (sc.headline id) := by
  have hShown : (((sc.classes.properties cls).map (·.2)).filterMapM fun p => do
      if !p.settable then return none
      let v ← sc.propertyValue id p
      if sc.isAtStart cls p v then return none
      return some (p.name ++ "=" ++ sc.outlineValue v) : Except Failure (List String)) =
      .ok ((sc.changed id).map fun p =>
        p.name ++ "=" ++ sc.outlineValue (sc.shownValue id p)) := by
    rw [changed, classOf_eq hClass]
    refine filterMapM_eq_ok fun p hp => ?_
    obtain ⟨entry, hEntry, rfl⟩ := List.mem_map.1 hp
    rw [hcs.properties View.complete_classes hThere] at hEntry
    rw [propertyValue_eq hcs hClass hThere hEntry]
    cases hSettable : entry.2.settable with
    | false => rfl
    | true =>
      generalize sc.shownValue id entry.2 = v
      change (if sc.isAtStart cls entry.2 v = true then .ok none else .ok (some _)) = Except.ok _
      cases sc.isAtStart cls entry.2 v <;> rfl
  unfold outlineLine headline
  rw [hShown, classOf_eq hClass]
  rfl

/-- A headline does not start with a space. -/
theorem flush_headline (hcs : sc.classes.Extends Catalog.classes)
    (hClass : sc.store.class? id = some cls) (hThere : (Catalog.classes.get? cls).isSome = true) :
    Rose.Flush (sc.headline id) := by
  obtain ⟨hStart, hNonempty, -⟩ := View.name_classes ⟨cls, View.lt_of_isSome hThere⟩
  have hName : sc.classes.name cls = Catalog.classes.name cls := by
    rw [Classes.name, Classes.name, hcs.get?_eq hThere]
  have hHead : (sc.headline id).toList.head? = (Catalog.classes.name cls).toList.head? := by
    rw [headline, classOf_eq hClass, hName]
    cases hChars : (Catalog.classes.name cls).toList with
    | nil => exact absurd (String.toList_eq_nil_iff.1 hChars) hNonempty
    | cons c cs => cases (sc.changed id).map _ <;> simp [joined, hChars]
  intro hSpace
  rw [hHead] at hSpace
  dsimp only at hStart
  rw [hSpace] at hStart
  exact absurd hStart (by decide)

/-- A headline is on one line if and only if all the values in it are. -/
theorem lineFeed_not_mem_headline_iff (hcs : sc.classes.Extends Catalog.classes)
    (hClass : sc.store.class? id = some cls) (hThere : (Catalog.classes.get? cls).isSome = true) :
    '\n' ∉ (sc.headline id).toList ↔ sc.OnOneLine id := by
  obtain ⟨-, -, hClassName⟩ := View.name_classes ⟨cls, View.lt_of_isSome hThere⟩
  have hName : sc.classes.name cls = Catalog.classes.name cls := by
    rw [Classes.name, Classes.name, hcs.get?_eq hThere]
  have hPart : ∀ p ∈ sc.changed id,
      ('\n' ∉ (p.name ++ "=" ++ sc.outlineValue (sc.shownValue id p)).toList ↔
        '\n' ∉ (sc.outlineValue (sc.shownValue id p)).toList) := by
    intro p hp
    obtain ⟨entry, hEntry, rfl⟩ := List.mem_map.1 (List.mem_filter.1 hp).1
    rw [classOf_eq hClass, hcs.properties View.complete_classes hThere] at hEntry
    obtain ⟨c, hc, hDeclared⟩ := Classes.exists_of_mem_properties hEntry
    have hProperty :=
      View.name_properties c (Classes.mem_all_of_mem_lineage hc) entry.2 hDeclared
    have hEquals : '\n' ∉ "=".toList := by decide
    simp only [String.toList_append, List.mem_append, hProperty, hEquals, false_or]
  rw [headline, classOf_eq hClass, hName, mem_joined_iff (by decide)]
  simp only [List.mem_cons, List.mem_map, exists_eq_or_imp, hClassName, false_or, not_exists,
    not_and, forall_exists_index, and_imp, forall_apply_eq_imp_iff₂]
  exact forall₂_congr hPart

/-- Where the values are such as texts become, only families of fonts take more than one line. -/
theorem Legible.onOneLine_iff (h : sc.Legible id) (hcs : sc.classes.Extends Catalog.classes)
    (hClass : sc.store.class? id = some cls) (hThere : (Catalog.classes.get? cls).isSome = true) :
    sc.OnOneLine id ↔ ∀ p ∈ sc.changed id, ¬ (sc.shownValue id p).BreaksLine := by
  refine forall₂_congr fun p hp => not_congr ?_
  obtain ⟨hp, hShown⟩ := List.mem_filter.1 hp
  obtain ⟨entry, hEntry, rfl⟩ := List.mem_map.1 hp
  rw [classOf_eq hClass, hcs.properties View.complete_classes hThere] at hEntry
  obtain ⟨v, hField, hLiteral⟩ := h cls hClass hThere entry hEntry (Bool.and_eq_true_iff.1 hShown).1
  have hValue : sc.shownValue id entry.2 = v := by
    simp [shownValue, ownAttribute?, hField]
  rw [hValue]
  exact sc.lineFeed_mem_outlineValue_iff hLiteral

/-! ## The outline of a tree -/

/-- What an action that does not fail makes of a list. -/
theorem mapM_eq_ok {α β γ ε : Type} {f : β → Except ε γ} {g : α → β} {h : α → γ} {xs : List α}
    (hf : ∀ x ∈ xs, f (g x) = .ok (h x)) : (xs.map g).mapM f = .ok (xs.map h) := by
  induction xs with
  | nil => rfl
  | cons x xs ih =>
    obtain ⟨hHead, hTail⟩ := List.forall_mem_cons.1 hf
    rw [List.map_cons, List.mapM_cons, hHead, ih hTail]
    rfl

/-- The lines of a tree, where it is not inside of any of the views `around`. -/
theorem Arranged.outlineTo_eq (hcs : sc.classes.Extends Catalog.classes) (h : sc.Arranged t)
    (depth indent : Nat) (around : Finset ObjectId)
    (hAround : ∀ x ∈ around, x < sc.store.size ∧ x ∉ t.labels)
    (hDepth : sc.store.size < depth + around.card) :
    sc.outlineTo depth indent (.object t.label) = .ok ((t.map sc.headline).lines indent) := by
  induction h generalizing depth indent around with
  | @node id cls below hClass hView hChildren hBelow ih =>
    have hOutside : id ∉ Rose.labelsAll below :=
      (Arranged.node hClass hView hChildren hBelow).not_mem_labelsAll
    -- There are no more views around this one than there are others, so `depth` is not used up.
    have hNew : id ∉ around := fun hIn => (hAround id hIn).2 List.mem_cons_self
    have hThere : insert id around ⊆ Finset.range sc.store.size := by
      refine Finset.insert_subset (Finset.mem_range.2 (Store.lt_size_of_class? hClass)) ?_
      exact fun x hx => Finset.mem_range.2 (hAround x hx).1
    have hCard := Finset.card_le_card hThere
    rw [Finset.card_insert_of_notMem hNew, Finset.card_range] at hCard
    obtain ⟨depth, rfl⟩ : ∃ n, depth = n + 1 := Nat.exists_eq_succ_of_ne_zero (by omega)
    have hInner : (below.map fun t => Value.object t.label).mapM (sc.outlineTo depth (indent + 1)) =
        .ok (below.map fun t => (t.map sc.headline).lines (indent + 1)) := by
      refine mapM_eq_ok fun t ht => ih t ht depth (indent + 1) (insert id around) ?_ ?_
      · intro x hx
        rcases Finset.mem_insert.1 hx with rfl | hx
        · exact ⟨Store.lt_size_of_class? hClass, fun hIn =>
            hOutside (Rose.mem_labelsAll.2 ⟨t, ht, hIn⟩)⟩
        · exact ⟨(hAround x hx).1, fun hIn =>
            (hAround x hx).2 (List.mem_cons_of_mem id (Rose.mem_labelsAll.2 ⟨t, ht, hIn⟩))⟩
      · rw [Finset.card_insert_of_notMem hNew]
        omega
    have hLine := outlineLine_eq hcs hClass hView.isSome
    show sc.outlineTo (depth + 1) indent (.object id) = _
    rw [Rose.map, Rose.lines, Rose.linesAll_mapAll]
    simp only [outlineTo, hClass, hLine, hChildren, hInner, bind, Except.bind, pure, Except.pure]
    rfl

/-- In a tree there are built-in views only. -/
theorem Arranged.exists_class? (h : sc.Arranged t) {x : ObjectId} (hx : x ∈ t.labels) :
    ∃ cls, sc.store.class? x = some cls ∧ (Catalog.classes.get? cls).isSome = true := by
  obtain ⟨u, hu, rfl, -⟩ := h.exists_of_mem_labels hx
  cases hu with
  | node hClass hView _ _ => exact ⟨_, hClass, hView.isSome⟩

/-- The outline of a tree of views is the text of its headlines. -/
theorem Arranged.outline_eq (hcs : sc.classes.Extends Catalog.classes) (h : sc.Arranged t) :
    sc.outline t.label = .ok (t.map sc.headline).text := by
  have hLines := h.outlineTo_eq hcs (sc.store.size + 1) 0 ∅
    (fun _ hx => absurd hx (Finset.notMem_empty _)) (by simp)
  rw [outline, hLines]
  rfl

/-- The outline falls into one line for each view if and only if every value is on one line. -/
theorem Arranged.splitOn_outline_iff (hcs : sc.classes.Extends Catalog.classes)
    (h : sc.Arranged t) :
    splitOn '\n' (t.map sc.headline).text = (t.map sc.headline).lines 0 ↔
      ∀ x ∈ t.labels, sc.OnOneLine x := by
  rw [Rose.splitOn_text_eq_iff, Rose.labels_map, List.forall_mem_map]
  refine forall₂_congr fun x hx => ?_
  obtain ⟨cls, hClass, hThere⟩ := h.exists_class? hx
  exact lineFeed_not_mem_headline_iff hcs hClass hThere

/-- Then no other tree of lines has the same text. -/
theorem Arranged.eq_of_outline_eq (hcs : sc.classes.Extends Catalog.classes) (h : sc.Arranged t)
    (hLines : ∀ x ∈ t.labels, sc.OnOneLine x) {lines : Rose String}
    (hFlush : ∀ line ∈ lines.labels, Rose.Flush line ∧ '\n' ∉ line.toList)
    (hText : lines.text = (t.map sc.headline).text) : lines = t.map sc.headline := by
  refine Rose.eq_of_text_eq hFlush ?_ hText
  rw [Rose.labels_map]
  refine List.forall_mem_map.2 fun x hx => ?_
  obtain ⟨cls, hClass, hThere⟩ := h.exists_class? hx
  exact ⟨flush_headline hcs hClass hThere,
    (lineFeed_not_mem_headline_iff hcs hClass hThere).2 (hLines x hx)⟩

end Scene
end ViewMarkup
