import ViewMarkup.Proofs.Component.Extension
import ViewMarkup.Proofs.Object.Access
import ViewMarkup.Proofs.Object.Fresh
import ViewMarkup.View.Catalog
import ViewMarkup.View.Query

/-!
# What containers keep

A container is told of raw elements and of views, one after the other, and passes over what it
rejects. It has two records of the views that it took: the list of all of them, and the places at
which its children are found, which for a table are the headers, rows and footers of its sections.
`Scene.Contains` says what both records hold after some calls; one call keeps it
(`Acting.tell_container`), and so do all (`Acting.offer_contains`).

The two records go apart where a table puts a view at a place that is taken: the view that was there
is no child any more (`displaced`).

## Main results

* `Sections.views_foldl_take` — the views in the sections of a table, and those that have lost their
  place, are the views appended.
* `Acting.offer_container` — what a new container has of the views that it took, and which of them
  are its children.
-/

namespace ViewMarkup

open View.Catalog

/-- The views among what a component is told. -/
def appended (calls : List Call) : List ObjectId :=
  calls.filterMap fun
    | .append view => some view
    | _ => none

/-! ## Sections -/

/-- The views that lose their place in a table. A place that was announced for one view loses the
view that it had, until the next section is started. -/
def displaced : (slot : Slot) → (header footer : Option ObjectId) → List Call → List ObjectId
  | _, _, _, [] => []
  | slot, header, footer, .raw name _ :: rest =>
    match name with
    | "section" => displaced .row none none rest
    | "sectionHeader" => displaced .header header footer rest
    | "sectionFooter" => displaced .footer header footer rest
    | _ => displaced slot header footer rest
  | .row, header, footer, .append _ :: rest => displaced .row header footer rest
  | .header, header, footer, .append view :: rest =>
    header.toList ++ displaced .row (some view) footer rest
  | .footer, header, footer, .append view :: rest =>
    footer.toList ++ displaced .row header (some view) rest
  | slot, header, footer, _ :: rest => displaced slot header footer rest

namespace Sections

/-- What a call that a table takes makes of its sections. -/
def take (t : Sections) : Call → Sections
  | .raw name attributes => (t.addPart "" name attributes).toOption.getD t
  | .append view => t.addView view
  | _ => t

theorem take_raw (t : Sections) (name : String) (attributes : Table String String) :
    t.take (.raw name attributes) =
      match name with
      | "section" =>
        { all := t.start (attributes.get? "name") (attributes.get? "title"), slot := .row }
      | "sectionHeader" => { t with slot := .header }
      | "sectionFooter" => { t with slot := .footer }
      | _ => t := by
  simp only [take, addPart]
  split
  · rfl
  · rfl
  · rfl
  · simp [Except.toOption]

theorem changeLast_append {α : Type} (f : α → α) (xs : List α) (x : α) :
    changeLast f (xs ++ [x]) = xs ++ [f x] := by
  induction xs with
  | nil => rfl
  | cons y ys ih =>
    cases h : ys ++ [x] with
    | nil => simp at h
    | cons z zs =>
      rw [List.cons_append, h, changeLast, ← h, ih]
      · rfl
      · simp

private theorem views_append (ss ss' : List TableSection) :
    views (ss ++ ss') = views ss ++ views ss' :=
  List.flatMap_append

private theorem views_singleton (s : TableSection) : views [s] = Value.sectionObjects s :=
  List.append_nil _

/-- The view that a section loses when another one is put at a place of it. -/
def lost (slot : Slot) (s : TableSection) : List ObjectId :=
  match slot with
  | .row => []
  | .header => s.header.toList
  | .footer => s.footer.toList

private theorem sectionObjects_put (slot : Slot) (view : ObjectId) (s : TableSection) :
    (Value.sectionObjects (put slot view s) ++ lost slot s).Perm
      (Value.sectionObjects s ++ [view]) := by
  refine List.perm_iff_count.2 fun x => ?_
  cases slot <;> simp only [Value.sectionObjects, put, lost, Option.toList_some, List.count_append,
    List.count_nil] <;> omega

/-- A section is started without header and footer, and no section loses a view by that. -/
theorem start_eq (front : List TableSection) (last : TableSection) (slot : Slot)
    (name title : Option String) :
    ∃ front' last', start { all := front ++ [last], slot } name title = front' ++ [last'] ∧
      last'.header = none ∧ last'.footer = none ∧
      views (front' ++ [last']) = views (front ++ [last]) := by
  simp only [start, List.getLast?_concat, Option.any_some]
  split
  · refine ⟨front ++ [last], _, rfl, rfl, rfl, ?_⟩
    simp [views, Value.sectionObjects]
  · next hBegun =>
    -- What is not begun has no header or footer.
    have hEnds : last.header = none ∧ last.footer = none := by
      simp only [TableSection.isBegun, Bool.not_eq_true, Bool.or_eq_false_iff,
        Option.isSome_eq_false_iff, Option.isNone_iff_eq_none] at hBegun
      exact ⟨hBegun.1.1.1.2, hBegun.1.1.2⟩
    refine ⟨front, _, changeLast_append _ front last, hEnds.1, hEnds.2, ?_⟩
    simp [views, Value.sectionObjects]

/-- The views in the sections, with those that have lost their place, are the ones appended. -/
theorem views_foldl_take (calls : List Call) (front : List TableSection) (last : TableSection)
    (slot : Slot) :
    (views (calls.foldl take { all := front ++ [last], slot }).all ++
        displaced slot last.header last.footer calls).Perm
      (views (front ++ [last]) ++ appended calls) := by
  induction calls generalizing front last slot with
  | nil => simp [displaced, appended]
  | cons call rest ih =>
    cases call with
    | instruction _ _ => simpa [take, displaced, appended] using ih front last slot
    | text _ => simpa [take, displaced, appended] using ih front last slot
    | raw name attributes =>
      have hAppended : appended (.raw name attributes :: rest) = appended rest := rfl
      rw [List.foldl_cons, hAppended, take_raw]
      split
      · obtain ⟨front', last', hStart, hHeader, hFooter, hViews⟩ :=
          start_eq front last slot (attributes.get? "name") (attributes.get? "title")
        have hRest := ih front' last' .row
        rw [hHeader, hFooter, hViews, ← hStart] at hRest
        rwa [displaced]
      · rw [displaced]
        exact ih front last .header
      · rw [displaced]
        exact ih front last .footer
      · rw [displaced]
        · exact ih front last slot
        all_goals assumption
    | append view =>
      have hAppended : appended (.append view :: rest) = view :: appended rest := rfl
      have hTake : take { all := front ++ [last], slot } (.append view) =
          { all := front ++ [put slot view last], slot := .row } := by
        simp [take, addView, changeLast_append]
      have hDisplaced : displaced slot last.header last.footer (.append view :: rest) =
          lost slot last ++ displaced .row (put slot view last).header
            (put slot view last).footer rest := by
        cases slot <;> simp [displaced, lost, put]
      have hPut := sectionObjects_put slot view last
      have hRest := ih front (put slot view last) .row
      rw [List.foldl_cons, hTake, hDisplaced, hAppended]
      rw [views_append, views_singleton] at hRest ⊢
      refine List.perm_iff_count.2 fun x => ?_
      have hPutCount := hPut.count_eq x
      have hRestCount := hRest.count_eq x
      simp only [List.count_append, List.count_cons, List.count_nil] at hPutCount hRestCount ⊢
      omega

end Sections

/-! ## Stores with an attribute set -/

private theorem Store.isSome_get?_setField {s : Store} {id id' : ObjectId} (attr : String)
    (v : Value) : ((s.setField id attr v).get? id').isSome = (s.get? id').isSome := by
  rw [Bool.eq_iff_iff, isSome_get?_iff, isSome_get?_iff, size_setField]

theorem Store.class?_setField (s : Store) (id id' : ObjectId) (attr : String) (v : Value) :
    (s.setField id attr v).class? id' = s.class? id' :=
  class?_of_type? (type?_setField s id id' attr v)

theorem Store.isSome_get?_of_class? {s : Store} {id : ObjectId} {cls : ClassId}
    (h : s.class? id = some cls) : (s.get? id).isSome := by
  cases hGet : s.get? id with
  | none => simp [class?, type?, hGet] at h
  | some _ => rfl

/-! ## Runs of hooks -/

namespace Acting

variable {platform : String} {id view : ObjectId} {attr : String} {sc : Scene} {cls : ClassId}
  {rule : HookRule} {call : Call} {items : List Value}

private theorem run_put (id : ObjectId) (attr : String) (v : Value) (sc : Scene) :
    put id attr v sc = (.ok (), { sc with store := sc.store.setField id attr v }) := rfl

theorem run_push (h : sc.store.field? id attr = some (.list items)) (v : Value) :
    push id attr v sc =
      (.ok (), { sc with store := sc.store.setField id attr (.list (items ++ [v])) }) := by
  have hList : listAt id attr sc = (.ok items, sc) := by
    rw [listAt, run_bind_of_eq_ok (run_get sc), h]
    rfl
  exact run_bind_of_eq_ok hList

/-- Unless the object has something stored in place of its operation, it can be called. -/
theorem run_refuseReplaced {operation : String} (hFree : sc.store.field? id operation = none) :
    refuseReplaced id operation sc = (.ok (), sc) := by
  rw [refuseReplaced, run_bind_of_eq_ok (run_get sc), hFree]
  rfl

/-- What is no component cannot be told anything. -/
theorem run_tell_of_host (hClass : sc.store.class? id = none)
    (hFree : sc.store.field? id call.hook.name = none) :
    tell platform id call sc = (.error .noAttribute, sc) := by
  rw [tell, run_bind_of_eq_ok (run_refuseReplaced hFree), run_bind_of_eq_ok (run_get sc)]
  simp only [hClass]
  rfl

/-- A component without a hook cannot be told what goes through it. -/
theorem run_tell_of_none (hClass : sc.store.class? id = some cls)
    (hFree : sc.store.field? id call.hook.name = none)
    (hHook : sc.classes.hookFrom? cls call.hook = none) :
    tell platform id call sc = (.error .noAttribute, sc) := by
  rw [tell, run_bind_of_eq_ok (run_refuseReplaced hFree), run_bind_of_eq_ok (run_get sc)]
  simp only [hClass, hHook]
  rfl

/-- A view does what its class lays down. -/
theorem run_tell_of_rule {owner : String} (hClass : sc.store.class? id = some cls)
    (hFree : sc.store.field? id call.hook.name = none)
    (hHook : sc.classes.hookFrom? cls call.hook = some (owner, rule)) (hRule : rule ≠ .record) :
    tell platform id call sc = obey platform id owner rule call sc := by
  rw [tell, run_bind_of_eq_ok (run_refuseReplaced hFree), run_bind_of_eq_ok (run_get sc)]
  simp only [hClass, hHook]

/-! ## Containers -/

/-- The calls that a component takes of those that it is told one after the other, and the objects
then. What it rejects is passed over. -/
def offer (platform : String) (id : ObjectId) : List Call → Scene → List Call × Scene
  | [], sc => ([], sc)
  | call :: rest, sc =>
    match tell platform id call sc with
    | (.ok (), sc) =>
      let (taken, sc) := offer platform id rest sc
      (call :: taken, sc)
    | (.error _, sc) => offer platform id rest sc

end Acting

/-- The views as a list. -/
def Value.views (ids : List ObjectId) : Value := .list (ids.map .object)

namespace View

/-- The built-in containers, and how they take views. -/
def containers : List (ClassId × HookRule) := [
  (viewClass, .addSubview), (layoutClass, .addSubview), (boxClass, .addArranged),
  (scrollClass, .setContent), (cellClass, .setContent), (tableClass, .addRow)]

/-- The built-in classes build on each other only. -/
theorem complete_classes : classes.Complete :=
  Classes.complete_of_forall_mem (by decide)

/-- What a container does with views is laid down by its rule; only a table takes raw elements. -/
theorem hooks_of_mem_containers {cls : ClassId} {rule : HookRule} (h : (cls, rule) ∈ containers) :
    (classes.get? cls).isSome ∧
      (∃ owner, classes.hookFrom? cls .append = some (owner, rule) ∧ rule ≠ .record) ∧
      (classes.hookFrom? cls .raw).map (·.2) =
        if rule = .addRow then some .addTablePart else none := by
  simp only [containers, List.mem_cons, Prod.mk.injEq, List.not_mem_nil, or_false] at h
  rcases h with ⟨rfl, rfl⟩ | ⟨rfl, rfl⟩ | ⟨rfl, rfl⟩ | ⟨rfl, rfl⟩ | ⟨rfl, rfl⟩ | ⟨rfl, rfl⟩ <;>
    exact ⟨rfl, ⟨_, rfl, by decide⟩, rfl⟩

/-- What a container arranges goes by the same rule. -/
theorem arranging_of_mem_containers {cls : ClassId} {rule : HookRule}
    (h : (cls, rule) ∈ containers) :
    classes.nearest? cls (fun c =>
      (c.hooks.find? fun h => h.1 = .append && h.2 ≠ .record).map (·.2)) = some rule := by
  simp only [containers, List.mem_cons, Prod.mk.injEq, List.not_mem_nil, or_false] at h
  rcases h with ⟨rfl, rfl⟩ | ⟨rfl, rfl⟩ | ⟨rfl, rfl⟩ | ⟨rfl, rfl⟩ | ⟨rfl, rfl⟩ | ⟨rfl, rfl⟩ <;> rfl

/-- The raw elements that belong to tables. -/
def tableParts : List String := ["section", "sectionHeader", "sectionFooter"]

/-- Whether a container takes a call after others: one that shows a single view takes no second one,
and raw elements are taken by tables only. -/
def takes (rule : HookRule) (taken : List Call) : Call → Bool
  | .append _ => rule ≠ .setContent || taken.isEmpty
  | .raw name _ => rule = .addRow && tableParts.contains name
  | _ => false

end View

/-- The announcement of a place, as a table has it stored. -/
def Slot.stored : Slot → Value
  | .row => .none
  | .header => .text "header"
  | .footer => .text "footer"

namespace Scene

/-- What a container has stored besides the list of its views. -/
def Keeps (sc : Scene) (id : ObjectId) (taken : List Call) : HookRule → Prop
  | .addArranged => sc.store.field? id "arranged_subviews" = some (.views (appended taken))
  | .setContent =>
    taken = [] ∧ sc.store.field? id "content_view" = some .none ∨
      ∃ view, taken = [.append view] ∧ sc.store.field? id "content_view" = some (.object view)
  | .addRow =>
    let t := taken.foldl Sections.take {}
    t.all ≠ [] ∧ sc.store.field? id "sections" = some (.list (t.all.map .tableSection)) ∧
      sc.store.field? id "_pending_slot" = some t.slot.stored
  | _ => True

/-- A container after the calls that it has taken. -/
structure Contains (sc : Scene) (id : ObjectId) (cls : ClassId) (rule : HookRule)
    (taken : List Call) : Prop where
  class? : sc.store.class? id = some cls
  free : ∀ h : Hook, sc.store.field? id h.name = none
  subviews : sc.store.field? id "subviews" = some (.views (appended taken))
  keeps : sc.Keeps id taken rule

variable {sc sc' : Scene} {id view : ObjectId} {cls : ClassId} {rule : HookRule}
  {taken : List Call} {attr : String}

/-- The attributes that containers keep their views under. -/
def keptNames : List String :=
  ["subviews", "arranged_subviews", "content_view", "sections", "_pending_slot"]

private theorem name_not_mem_keptNames (h : Hook) : h.name ∉ keptNames := by
  cases h <;> decide

theorem free_setField {s : Store} (hFree : ∀ h : Hook, s.field? id h.name = none)
    (hAttr : attr ∈ keptNames) (v : Value) (h : Hook) :
    (s.setField id attr v).field? id h.name = none := by
  have hNe : h.name ≠ attr := fun hEq => name_not_mem_keptNames h (hEq ▸ hAttr)
  rw [Store.field?_setField_ne s id v hNe, hFree h]

/-- The list of views does not matter to what is kept besides. -/
theorem Keeps.setField (h : sc.Keeps id taken rule) (v : Value) :
    Keeps { sc with store := sc.store.setField id "subviews" v } id taken rule := by
  have hField {attr : String} (hNe : attr ≠ "subviews") :
      (sc.store.setField id "subviews" v).field? id attr = sc.store.field? id attr :=
    Store.field?_setField_ne _ _ _ hNe
  cases rule <;> simp_all [Keeps]

/-- A view is at last added to the list of the views. -/
theorem exists_push (hClass : sc.store.class? id = some cls)
    (hFree : ∀ h : Hook, sc.store.field? id h.name = none)
    (hViews : sc.store.field? id "subviews" = some (.views (appended taken)))
    (hKeeps : sc.Keeps id (taken ++ [.append view]) rule) :
    ∃ sc', Acting.push id "subviews" (.object view) sc = (.ok (), sc') ∧
      sc'.classes = sc.classes ∧ sc'.Contains id cls rule (taken ++ [.append view]) := by
  refine ⟨_, Acting.run_push hViews _, rfl, ?_, ?_, ?_, hKeeps.setField _⟩
  · exact (Store.class?_setField _ _ _ _ _).trans hClass
  · exact free_setField hFree (by decide) _
  · rw [Store.field?_setField_self (Store.isSome_get?_of_class? hClass)]
    simp [appended, Value.views]

end Scene

namespace Acting

variable {platform owner name : String} {id view : ObjectId} {sc : Scene} {cls : ClassId}
  {rule : HookRule} {call : Call} {taken : List Call} {attributes : Table String String}

/-- A container that takes a call contains it afterwards. -/
def TakesIn (act : Acting Unit) (sc : Scene) (id : ObjectId) (cls : ClassId) (rule : HookRule)
    (taken : List Call) : Prop :=
  ∃ sc', act sc = (.ok (), sc') ∧ sc'.classes = sc.classes ∧ sc'.Contains id cls rule taken

private theorem obey_addSubview (h : sc.Contains id cls .addSubview taken) :
    TakesIn (obey platform id owner .addSubview (.append view)) sc id cls .addSubview
      (taken ++ [.append view]) :=
  Scene.exists_push h.class? h.free h.subviews trivial

private theorem obey_addArranged (h : sc.Contains id cls .addArranged taken) :
    TakesIn (obey platform id owner .addArranged (.append view)) sc id cls .addArranged
      (taken ++ [.append view]) := by
  have hArranged : push id "arranged_subviews" (.object view) sc = _ := run_push h.keeps _
  rw [TakesIn, obey, run_bind_of_eq_ok hArranged]
  refine Scene.exists_push ?_ ?_ ?_ ?_
  · exact (Store.class?_setField _ _ _ _ _).trans h.class?
  · exact Scene.free_setField h.free (by decide) _
  · exact (Store.field?_setField_ne _ _ _ (by decide)).trans h.subviews
  · refine (Store.field?_setField_self (Store.isSome_get?_of_class? h.class?) _ _).trans ?_
    simp [appended, Value.views]

/-- A view that shows a single view takes one while it has none. -/
theorem obey_setContent (platform owner : String) (view : ObjectId)
    (h : sc.Contains id cls .setContent taken) :
    if taken.isEmpty then
      TakesIn (obey platform id owner .setContent (.append view)) sc id cls .setContent
        (taken ++ [.append view])
    else obey platform id owner .setContent (.append view) sc =
      (.error (.of (.child (.occupied owner))), sc) := by
  rcases h.keeps with ⟨rfl, hContent⟩ | ⟨shown, rfl, hContent⟩
  · have hStored : sc.stored id "content_view" = .none := by simp [Scene.stored, hContent]
    have hRun : setContent owner id view sc = push id "subviews" (.object view)
        { sc with store := sc.store.setField id "content_view" (.object view) } := by
      rw [setContent, run_bind_of_eq_ok (run_get sc), hStored]
      rfl
    simp only [List.isEmpty_nil, if_true]
    rw [TakesIn, obey, hRun]
    refine Scene.exists_push ?_ ?_ ?_ ?_
    · exact (Store.class?_setField _ _ _ _ _).trans h.class?
    · exact Scene.free_setField h.free (by decide) _
    · exact (Store.field?_setField_ne _ _ _ (by decide)).trans h.subviews
    · exact .inr ⟨view, rfl, Store.field?_setField_self (Store.isSome_get?_of_class? h.class?) _ _⟩
  · have hStored : sc.stored id "content_view" = .object shown := by simp [Scene.stored, hContent]
    simp only [List.isEmpty_cons, Bool.false_eq_true, if_false]
    rw [obey, setContent, run_bind_of_eq_ok (run_get sc), hStored]
    rfl

/-! ### Tables -/

theorem run_announce (id : ObjectId) (slot : Slot) (sc : Scene) :
    announce id slot sc =
      (.ok (), { sc with store := sc.store.setField id "_pending_slot" slot.stored }) := by
  cases slot <;> rfl

theorem run_sectionsOf {t : Sections}
    (hSections : sc.store.field? id "sections" = some (.list (t.all.map .tableSection)))
    (hSlot : sc.store.field? id "_pending_slot" = some t.slot.stored) :
    sectionsOf id sc = (.ok ([], t), sc) := by
  have hAnnounced : sc.announcedSlot id = t.slot := by
    rw [Scene.announcedSlot, Scene.stored, hSlot]
    cases t.slot <;> rfl
  rw [sectionsOf, run_bind_of_eq_ok (run_get sc), Scene.stored, hSections]
  simp only [Option.getD_some, knownSections_ofSections, hAnnounced]
  rfl

private theorem run_leaveSections (id : ObjectId) (t : Sections) (sc : Scene) :
    let left := sc.store.setField id "sections" (.list (t.all.map .tableSection))
    leaveSections id [] t sc =
      (.ok (), { sc with store := left.setField id "_pending_slot" t.slot.stored }) := by
  intro left
  rw [leaveSections, run_bind_of_eq_ok (run_put id "sections" _ sc), run_announce]
  rfl

/-- What a table has stored once its sections are left. -/
theorem exists_leaveSections {t : Sections} (taken : List Call)
    (hClass : sc.store.class? id = some cls)
    (hFree : ∀ h : Hook, sc.store.field? id h.name = none)
    (hTaken : taken.foldl Sections.take {} = t) (hAll : t.all ≠ []) :
    ∃ sc', leaveSections id [] t sc = (.ok (), sc') ∧ sc'.classes = sc.classes ∧
      sc'.store.class? id = some cls ∧ (∀ h : Hook, sc'.store.field? id h.name = none) ∧
      sc'.store.field? id "subviews" = sc.store.field? id "subviews" ∧
      sc'.Keeps id taken .addRow := by
  have hSome := Store.isSome_get?_of_class? hClass
  refine ⟨_, run_leaveSections id t sc, rfl, ?_, ?_, ?_, hTaken ▸ hAll, ?_, ?_⟩
  · simp only [Store.class?_setField, hClass]
  · exact Scene.free_setField (Scene.free_setField hFree (by decide) _) (by decide) _
  · rw [Store.field?_setField_ne _ _ _ (by decide), Store.field?_setField_ne _ _ _ (by decide)]
  · rw [Store.field?_setField_ne _ _ _ (by decide), Store.field?_setField_self hSome, hTaken]
  · rw [Store.field?_setField_self (by rwa [Store.isSome_get?_setField]), hTaken]

private theorem obey_addRow (h : sc.Contains id cls .addRow taken) :
    TakesIn (obey platform id owner .addRow (.append view)) sc id cls .addRow
      (taken ++ [.append view]) := by
  obtain ⟨hAll, hSections, hSlot⟩ := h.keeps
  set t := taken.foldl Sections.take {} with ht
  have hAdded : (t.addView view).all ≠ [] := by
    rw [← List.length_pos_iff_ne_nil, Sections.addView, length_changeLast]
    exact List.length_pos_iff_ne_nil.2 hAll
  obtain ⟨sc', hRun, hClasses, hClass, hFree, hViews, hKeeps⟩ :=
    exists_leaveSections (taken ++ [.append view]) h.class? h.free
      (by rw [List.foldl_append, ← ht]; rfl) hAdded
  have hPut : (do leaveSections id [] (t.addView view); push id "subviews" (.object view)) sc =
      push id "subviews" (.object view) sc' := run_bind_of_eq_ok hRun
  have hEmpty : t.all.isEmpty = false := by simpa using hAll
  obtain ⟨sc'', hPush, hClasses', hContains⟩ :=
    Scene.exists_push hClass hFree (hViews.trans h.subviews) hKeeps
  refine ⟨sc'', ?_, hClasses'.trans hClasses, hContains⟩
  rw [obey, addRow, run_bind_of_eq_ok (run_sectionsOf hSections hSlot)]
  simp only [hEmpty, Bool.false_eq_true, if_false]
  exact hPut.trans hPush

private theorem addPart_of_mem (t : Sections) (owner : String) (h : name ∈ View.tableParts)
    (attributes : Table String String) :
    t.addPart owner name attributes = .ok (t.take (.raw name attributes)) := by
  simp only [View.tableParts, List.mem_cons, List.not_mem_nil, or_false] at h
  rcases h with rfl | rfl | rfl <;> rfl

private theorem addPart_of_not_mem (t : Sections) (owner : String) (h : name ∉ View.tableParts)
    (attributes : Table String String) :
    t.addPart owner name attributes = .error (.rawRefused owner name) := by
  simp only [View.tableParts, List.mem_cons, List.not_mem_nil, or_false, not_or] at h
  unfold Sections.addPart
  split <;> simp_all

/-- What a table does with a raw element, once it has sections. -/
theorem run_addTablePart {t : Sections} (owner name : String) (attributes : Table String String)
    (hAll : t.all ≠ [])
    (hSections : sc.store.field? id "sections" = some (.list (t.all.map .tableSection)))
    (hSlot : sc.store.field? id "_pending_slot" = some t.slot.stored) :
    addTablePart owner id name attributes sc =
      match t.addPart owner name attributes with
      | .ok after =>
        if name = "section" then leaveSections id [] after sc else announce id after.slot sc
      | .error fault => (.error (.of (.element fault)), sc) := by
  have hEmpty : t.all.isEmpty = false := by simpa using hAll
  rw [addTablePart, run_bind_of_eq_ok (run_sectionsOf hSections hSlot)]
  dsimp only
  cases hPart : t.addPart owner name attributes with
  | error fault => rfl
  | ok after =>
    have hLook : look (fun _ => (Except.ok after : Except ElementFault Sections).mapError
        (Failure.of ∘ Fault.element)) sc = (.ok after, sc) := rfl
    rw [run_bind_of_eq_ok hLook, hEmpty]
    by_cases hName : name = "section" <;> simp [hName]

private theorem obey_addTablePart (platform owner name : String) (attributes : Table String String)
    (h : sc.Contains id cls .addRow taken) :
    if name ∈ View.tableParts then
      TakesIn (obey platform id owner .addTablePart (.raw name attributes)) sc id cls .addRow
        (taken ++ [.raw name attributes])
    else obey platform id owner .addTablePart (.raw name attributes) sc =
      (.error (.of (.element (.rawRefused owner name))), sc) := by
  obtain ⟨hAll, hSections, hSlot⟩ := h.keeps
  set t := taken.foldl Sections.take {} with ht
  have hRun := run_addTablePart owner name attributes hAll hSections hSlot
  split
  · next hMem =>
    rw [addPart_of_mem t owner hMem attributes] at hRun
    have hTaken : (taken ++ [Call.raw name attributes]).foldl Sections.take {} =
        t.take (.raw name attributes) := by
      rw [List.foldl_append, ← ht]
      rfl
    have hViews : sc.store.field? id "subviews" =
        some (.views (appended (taken ++ [Call.raw name attributes]))) := by
      simpa [appended] using h.subviews
    by_cases hName : name = "section"
    · -- A section is started, and the sections are left as they are then.
      have hNotNil : (t.take (.raw name attributes)).all ≠ [] := by
        have hLonger := Sections.addPart_length_le (addPart_of_mem t owner hMem attributes)
        have hPos := List.length_pos_iff_ne_nil.2 hAll
        exact List.length_pos_iff_ne_nil.1 (Nat.lt_of_lt_of_le hPos hLonger)
      obtain ⟨sc', hLeave, hClasses, hClass, hFree, hSame, hKeeps⟩ :=
        exists_leaveSections _ h.class? h.free hTaken hNotNil
      refine ⟨sc', ?_, hClasses, hClass, hFree, hSame.trans hViews, hKeeps⟩
      exact hRun.trans ((if_pos hName).trans hLeave)
    · -- Another raw element announces a place, and leaves the sections alone.
      have hSame : (t.take (.raw name attributes)).all = t.all := by
        rw [Sections.take_raw]
        split <;> first | rfl | exact absurd rfl hName
      have hAnnounce := run_announce id (t.take (.raw name attributes)).slot sc
      refine ⟨_, hRun.trans ((if_neg hName).trans hAnnounce), rfl, ?_, ?_, ?_, ?_, ?_, ?_⟩
      · exact (Store.class?_setField _ _ _ _ _).trans h.class?
      · exact Scene.free_setField h.free (by decide) _
      · exact (Store.field?_setField_ne _ _ _ (by decide)).trans hViews
      · rw [hTaken, hSame]
        exact hAll
      · rw [hTaken, hSame]
        exact (Store.field?_setField_ne _ _ _ (by decide)).trans hSections
      · rw [hTaken]
        exact Store.field?_setField_self (Store.isSome_get?_of_class? h.class?) _ _
  · next hMem =>
    rw [addPart_of_not_mem t owner hMem attributes] at hRun
    exact hRun

/-! ### Every container -/

/-- A container that is told of a raw element or of a view takes it, or stays as it is. -/
theorem tell_container (platform : String) (hcs : sc.classes.Extends classes)
    (hRule : (cls, rule) ∈ View.containers) (h : sc.Contains id cls rule taken)
    (hCall : call.hook = .raw ∨ call.hook = .append) :
    if View.takes rule taken call then
      TakesIn (tell platform id call) sc id cls rule (taken ++ [call])
    else ∃ failure, tell platform id call sc = (.error failure, sc) := by
  obtain ⟨hThere, ⟨appender, hAppend, hNe⟩, hRaw⟩ := View.hooks_of_mem_containers hRule
  have hFrom (hook : Hook) : sc.classes.hookFrom? cls hook = classes.hookFrom? cls hook :=
    hcs.nearest? View.complete_classes hThere _
  cases call with
  | instruction _ _ => simp [Call.hook] at hCall
  | text _ => simp [Call.hook] at hCall
  | append view =>
    have hTell : tell platform id (.append view) sc =
        obey platform id appender rule (.append view) sc :=
      run_tell_of_rule h.class? (h.free .append) ((hFrom .append).trans hAppend) hNe
    rw [TakesIn, hTell]
    cases rule with
    | setContent =>
      have hContent := obey_setContent platform appender view h
      simp only [View.takes, ne_eq, not_true_eq_false, decide_false, Bool.false_or]
      split at hContent
      · next hNone => exact (if_pos hNone).symm ▸ hContent
      · next hShown => exact (if_neg hShown).symm ▸ ⟨_, hContent⟩
    | addSubview => exact obey_addSubview h
    | addArranged => exact obey_addArranged h
    | addRow => exact obey_addRow h
    | _ => simp [View.containers] at hRule
  | raw name attributes =>
    by_cases hTable : rule = .addRow
    · subst hTable
      obtain ⟨⟨taker, part⟩, hPart, hEq⟩ := Option.map_eq_some_iff.1 (hRaw.trans (if_pos rfl))
      obtain rfl : part = .addTablePart := hEq
      have hTell : tell platform id (.raw name attributes) sc =
          obey platform id taker .addTablePart (.raw name attributes) sc :=
        run_tell_of_rule h.class? (h.free .raw) ((hFrom .raw).trans hPart) (by decide)
      have hTaken := obey_addTablePart platform taker name attributes h
      rw [TakesIn, hTell]
      simp only [View.takes, decide_true, Bool.true_and, List.contains_iff_mem]
      split at hTaken
      · next hMem => exact (if_pos hMem).symm ▸ hTaken
      · next hMem => exact (if_neg hMem).symm ▸ ⟨_, hTaken⟩
    · have hNone : classes.hookFrom? cls .raw = none := by
        simpa [hTable] using hRaw
      have hTakes : View.takes rule taken (.raw name attributes) = false := by
        simp [View.takes, hTable]
      rw [hTakes]
      exact ⟨_, run_tell_of_none h.class? (h.free .raw) ((hFrom .raw).trans hNone)⟩

/-- What a container contains after some calls are the calls that it has taken. -/
theorem offer_contains (platform : String) (hRule : (cls, rule) ∈ View.containers)
    {calls : List Call} (hCalls : ∀ call ∈ calls, call.hook = .raw ∨ call.hook = .append)
    (hcs : sc.classes.Extends classes) (h : sc.Contains id cls rule taken) :
    let offered := offer platform id calls sc
    offered.2.classes = sc.classes ∧
      offered.2.Contains id cls rule (taken ++ offered.1) := by
  induction calls generalizing sc taken with
  | nil => exact ⟨rfl, by simpa [offer] using h⟩
  | cons call rest ih =>
    have hRest := fun c hc => hCalls c (List.mem_cons_of_mem _ hc)
    have hTold := tell_container platform hcs hRule h (hCalls call List.mem_cons_self)
    split at hTold
    · obtain ⟨sc', hRun, hClasses, hContains⟩ := hTold
      obtain ⟨hSame, hAll⟩ := ih hRest (hClasses ▸ hcs) hContains
      simp only [offer, hRun]
      exact ⟨hSame.trans hClasses, by simpa using hAll⟩
    · obtain ⟨failure, hRun⟩ := hTold
      simp only [offer, hRun]
      exact ih hRest hcs h

end Acting

namespace Scene

variable {sc : Scene} {id : ObjectId} {cls : ClassId} {rule : HookRule} {taken : List Call}

private theorem sectionViews_tableSection (sc : Scene) (s : TableSection) :
    sc.sectionViews (.tableSection s) = .ok ((Value.sectionObjects s).map .object) := by
  have hHeader : sc.requireAttribute (.tableSection s) "header" = .ok (.ofObject? s.header) := rfl
  have hFooter : sc.requireAttribute (.tableSection s) "footer" = .ok (.ofObject? s.footer) := rfl
  have hRows : sc.requireAttribute (.tableSection s) "rows" = .ok (.views s.rows) := rfl
  have hElements : sc.elements (.views s.rows) = .ok (s.rows.map .object) := rfl
  obtain ⟨name, title, header, footer, rows⟩ := s
  simp only [sectionViews, hHeader, hFooter, hRows]
  cases header <;> cases footer <;>
    simp [Value.sectionObjects, Value.ofObject?, hElements, bind, Except.bind, pure, Except.pure]

private theorem mapM_sectionViews (sc : Scene) (ss : List TableSection) :
    (ss.map Value.tableSection).mapM sc.sectionViews =
      .ok (ss.map fun s => (Value.sectionObjects s).map .object) := by
  induction ss with
  | nil => rfl
  | cons s ss ih =>
    rw [List.map_cons, List.mapM_cons, sectionViews_tableSection, ih]
    rfl

/-- The children that a container arranges, and how they come from the views that it has taken. -/
theorem exists_arrangedChildren (hcs : sc.classes.Extends View.Catalog.classes)
    (hRule : (cls, rule) ∈ View.containers) (h : sc.Contains id cls rule taken) :
    ∃ children, sc.arrangedChildren id = .ok (children.map .object) ∧
      if rule = .addRow then
        (appended taken).Perm (children ++ displaced .row none none taken)
      else children = appended taken := by
  have hNearest : (sc.store.class? id).bind (fun cls => sc.classes.nearest? cls fun c =>
      ((c.hooks.find? fun h => h.1 = .append && h.2 ≠ .record)).map (·.2)) = some rule := by
    rw [h.class?, Option.bind_some,
      hcs.nearest? View.complete_classes (View.hooks_of_mem_containers hRule).1]
    exact View.arranging_of_mem_containers hRule
  have hStored {attr : String} {v : Value} (h : sc.store.field? id attr = some v) :
      sc.stored id attr = v := by rw [stored, h, Option.getD_some]
  rw [arrangedChildren, hNearest]
  cases rule with
  | addSubview => exact ⟨_, by rw [hStored h.subviews]; rfl, rfl⟩
  | addArranged => exact ⟨_, by rw [hStored h.keeps]; rfl, rfl⟩
  | setContent =>
    rcases h.keeps with ⟨rfl, hContent⟩ | ⟨shown, rfl, hContent⟩
    · exact ⟨[], by rw [hStored hContent]; rfl, rfl⟩
    · exact ⟨[shown], by rw [hStored hContent]; rfl, rfl⟩
  | addRow =>
    obtain ⟨-, hSections, -⟩ := h.keeps
    refine ⟨Sections.views (taken.foldl Sections.take {}).all, ?_, ?_⟩
    · rw [hStored hSections]
      show (do return (← (List.map Value.tableSection _).mapM sc.sectionViews).flatten) = _
      rw [mapM_sectionViews]
      simp [Sections.views, List.flatMap_def, Function.comp_def, bind, Except.bind, pure,
        Except.pure]
    · exact (Sections.views_foldl_take taken [] {} .row).symm
  | _ => simp [View.containers] at hRule

/-- A new container contains nothing. -/
theorem contains_fresh {cs : Classes} {style : Option String} {s s' : Store}
    (hcs : cs.Extends View.Catalog.classes) (hRule : (cls, rule) ∈ View.containers)
    (hMade : cs.instantiateStyled cls style s = .ok (id, s')) :
    Contains ⟨cs, s'⟩ id cls rule [] := by
  have hStarts := hcs.starts View.complete_classes (View.hooks_of_mem_containers hRule).1 []
  have hGiven {name : String} {b : Blueprint} {v : Value}
      (hGet : (View.Catalog.classes.starts cls []).get? name = some b)
      (hb : b.constant? = some v) (hName : name ∉ Classes.styleNames) :
      s'.field? id name = some v :=
    (Classes.instantiateStyled_field? hMade hName).1 b v (hStarts ▸ hGet) hb
  have hFree (h : Hook) (hGet : (View.Catalog.classes.starts cls []).get? h.name = none) :
      s'.field? id h.name = none :=
    (Classes.instantiateStyled_field? hMade (by cases h <;> decide)).2 (hStarts ▸ hGet)
  simp only [View.containers, List.mem_cons, Prod.mk.injEq, List.not_mem_nil, or_false] at hRule
  refine ⟨Classes.instantiateStyled_class? hMade, fun h => hFree h ?_,
    hGiven (b := .list []) ?_ rfl (by decide), ?_⟩
  · rcases hRule with ⟨rfl, -⟩ | ⟨rfl, -⟩ | ⟨rfl, -⟩ | ⟨rfl, -⟩ | ⟨rfl, -⟩ | ⟨rfl, -⟩ <;>
      cases h <;> rfl
  · rcases hRule with ⟨rfl, -⟩ | ⟨rfl, -⟩ | ⟨rfl, -⟩ | ⟨rfl, -⟩ | ⟨rfl, -⟩ | ⟨rfl, -⟩ <;> rfl
  · rcases hRule with ⟨-, rfl⟩ | ⟨-, rfl⟩ | ⟨rfl, rfl⟩ | ⟨rfl, rfl⟩ | ⟨rfl, rfl⟩ | ⟨rfl, rfl⟩
    · trivial
    · trivial
    · exact hGiven (b := .list []) rfl rfl (by decide)
    · exact .inl ⟨rfl, hGiven (b := .value .none) rfl rfl (by decide)⟩
    · exact .inl ⟨rfl, hGiven (b := .value .none) rfl rfl (by decide)⟩
    · refine ⟨by simp, ?_, ?_⟩
      · exact hGiven (b := .value (.list [.tableSection {}])) rfl rfl (by decide)
      · exact hGiven (b := .value .none) rfl rfl (by decide)

end Scene
/-! ## What a container has of the views that it took -/

/-- The views that a container loses from its children, by the rule by which it takes them. -/
def View.lost (rule : HookRule) (taken : List Call) : List ObjectId :=
  if rule = .addRow then displaced .row none none taken else []

namespace Acting

/-- A new built-in container that is told of raw elements and of views has all views that it took
among its subviews, in order, and whatever it rejects leaves all objects as they were. Its children
are the views that it took without those that have lost their place in a section to another one, so
that they are all of them if and only if none has; only a table can lose views. -/
theorem offer_container {cs : Classes} (hcs : cs.Extends View.Catalog.classes) {cls : ClassId}
    {rule : HookRule} (hRule : (cls, rule) ∈ View.containers) {style : Option String}
    {s s' : Store} {id : ObjectId} (hMade : cs.instantiateStyled cls style s = .ok (id, s'))
    (platform : String) {calls : List Call}
    (hCalls : ∀ call ∈ calls, call.hook = .raw ∨ call.hook = .append) :
    let offered := offer platform id calls ⟨cs, s'⟩
    offered.2.store.field? id "subviews" = some (.views (appended offered.1)) ∧
      (∀ before call after, calls = before ++ call :: after →
        let earlier := offer platform id before ⟨cs, s'⟩
        if View.takes rule earlier.1 call then
          ∃ sc', tell platform id call earlier.2 = (.ok (), sc')
        else ∃ failure, tell platform id call earlier.2 = (.error failure, earlier.2)) ∧
      ∃ children, offered.2.arrangedChildren id = .ok (children.map .object) ∧
        (appended offered.1).Perm (children ++ View.lost rule offered.1) ∧
        (children.Perm (appended offered.1) ↔ View.lost rule offered.1 = []) ∧
        (rule ≠ .addRow → children = appended offered.1) := by
  intro offered
  have hFresh := Scene.contains_fresh hcs hRule hMade
  obtain ⟨hClasses, hContains⟩ := offer_contains platform hRule hCalls hcs hFresh
  rw [List.nil_append] at hContains
  refine ⟨hContains.subviews, fun before call after hCut => ?_, ?_⟩
  · have hMem {c : Call} (hc : c ∈ before ++ [call]) : c.hook = .raw ∨ c.hook = .append := by
      refine hCalls c ?_
      rw [hCut, List.append_cons]
      exact List.mem_append_left _ hc
    obtain ⟨hSame, hBefore⟩ := offer_contains platform hRule
      (fun c hc => hMem (List.mem_append_left _ hc)) hcs hFresh
    have hHook : call.hook = .raw ∨ call.hook = .append := hMem (by simp)
    have hTold := tell_container platform (hSame ▸ hcs) hRule hBefore hHook
    rw [List.nil_append] at hTold
    dsimp only
    split at hTold
    · next hTakes =>
      obtain ⟨sc', hRun, -⟩ := hTold
      exact (if_pos hTakes).symm ▸ ⟨sc', hRun⟩
    · next hTakes => exact (if_neg hTakes).symm ▸ hTold
  · obtain ⟨children, hChildren, hPlaced⟩ :=
      Scene.exists_arrangedChildren (hClasses ▸ hcs) hRule hContains
    have hPerm : (appended offered.1).Perm (children ++ View.lost rule offered.1) := by
      unfold View.lost
      split at hPlaced
      · next hRow => rwa [if_pos hRow]
      · next hRow => rw [if_neg hRow, List.append_nil, hPlaced]
    refine ⟨children, hChildren, hPerm, ⟨fun hAll => ?_, fun hNone => ?_⟩, fun hRow => ?_⟩
    · have hLength := (hAll.trans hPerm).length_eq
      rw [List.length_append] at hLength
      exact List.eq_nil_of_length_eq_zero (by omega)
    · rw [hNone, List.append_nil] at hPerm
      exact hPerm.symm
    · rwa [if_neg hRow] at hPlaced

/-- What a table is told that is given two views, each announced as a header. -/
def twoHeaders (first second : ObjectId) : List Call := [
  .raw "sectionHeader" [], .append first, .raw "sectionHeader" [], .append second]

/-- A store with a table and nothing else, but for its layer. -/
def tableStore : Store :=
  ((View.Catalog.classes.instantiateStyled tableClass none {}).toOption.map (·.2)).getD {}

/-- The second header of a section takes the place of the first one, which is still among the
subviews of the table and no child of it any more. -/
theorem offer_container_headers :
    View.Catalog.classes.instantiateStyled tableClass none {} = .ok (0, tableStore) ∧
      let offered := offer "linux" 0 (twoHeaders 7 8) ⟨View.Catalog.classes, tableStore⟩
      offered.1 = twoHeaders 7 8 ∧
        offered.2.store.field? 0 "subviews" = some (.views [7, 8]) ∧
        offered.2.arrangedChildren 0 = .ok [.object 8] := by
  have hMade : View.Catalog.classes.instantiateStyled tableClass none {} = .ok (0, tableStore) := by
    obtain ⟨⟨id, s'⟩, hMade⟩ : ∃ made,
        View.Catalog.classes.instantiateStyled tableClass none {} = .ok made := ⟨_, rfl⟩
    have hId : id = 0 := (Classes.instantiateStyled_evolves (Classes.covered_univ _)
      (fun _ _ => trivial) hMade).1
    have hStore : tableStore = s' := by
      rw [tableStore, hMade]
      rfl
    rw [hMade, hId, hStore]
  have hRule : (tableClass, HookRule.addRow) ∈ View.containers := by decide
  have hCalls : ∀ call ∈ twoHeaders 7 8, call.hook = .raw ∨ call.hook = .append := by decide
  have hTaken : (offer "linux" 0 (twoHeaders 7 8) ⟨View.Catalog.classes, tableStore⟩).1 =
      twoHeaders 7 8 := by decide +kernel
  obtain ⟨hViews, -, children, hChildren, hPerm, -⟩ :=
    offer_container (.refl _) hRule hMade "linux" hCalls
  rw [hTaken] at hViews hPerm
  have hLeft : children = [8] := by
    have hSplit : (children ++ [7]).Perm ([8] ++ [7]) := hPerm.symm.trans (.swap _ _ _)
    exact List.perm_singleton.1 ((List.perm_append_right_iff _).1 hSplit)
  rw [hLeft] at hChildren
  exact ⟨hMade, hTaken, hViews, hChildren⟩

end Acting
end ViewMarkup
