import ViewMarkup.Proofs.View.Outline

/-!
# The outline of what is built

A view that a build makes starts with values that texts could become, and gets nothing else under
the properties that can be set: a text is read for a property as a value of its kind, and what views
are told goes elsewhere, but for a text, and for hiding a view. So the outline of a tree that was
built has one line for each of its views, and can be read back, unless a font has a family with a
line feed. Nothing keeps a text from naming such a family.

## Main results

* `Assembly.Legible.move` — what is shown of an object stays such as texts become.
* `Builder.outcome_outline` — the outline of a tree of built-in views after a build.
-/

namespace ViewMarkup

open Text View View.Catalog

/-! ## The built-in classes -/

namespace View

/-- No name of a property is one that styles are stored under, or one under which views put what
they are told. -/
theorem targets_apart : ∀ c ∈ classes.all, ∀ p ∈ c.properties.getD [], p.settable = true →
    p.target ∉ Classes.styleNames ∧ p.target ∉ Scene.putNames := by
  decide +kernel

/-- The members that properties take have words for names. -/
theorem enumerations_unbroken : ∀ c ∈ classes.all, ∀ p ∈ c.properties.getD [],
    ∀ e ∈ p.enumeration, ∀ m ∈ e.members, '\n' ∉ (lower m.name).toList := by
  decide +kernel

/-- Properties start with values that texts could become. -/
theorem starts_literal : ∀ cls : Fin 15, ∀ entry ∈ classes.properties cls,
    entry.2.settable = true →
      ((Table.get? (classes.starts cls []) entry.2.target).bind Blueprint.constant?).any
        (fun v => decide v.IsLiteral) = true := by
  decide +kernel

end View

/-! ## Along a build -/

namespace Scene

variable {sc : Scene} {id x : ObjectId} {call : Call} {platform : String}

/-- Whatever an object is told, a value that a text could become stays one. -/
theorem tell_keeps_literal {attr : String} (hAttr : attr ∉ putNames)
    (h : ∃ v, sc.store.field? id attr = some v ∧ v.IsLiteral) :
    ∃ v, (Acting.tell platform x call sc).2.store.field? id attr = some v ∧ v.IsLiteral := by
  have hPuts (sc sc' : Scene) (h : ∃ v, sc.store.field? id attr = some v ∧ v.IsLiteral)
      (hPut : sc.Puts x call sc') : ∃ v, sc'.store.field? id attr = some v ∧ v.IsLiteral := by
    obtain ⟨v, hField, hLiteral⟩ := h
    rcases hPut.field?_cases hAttr hField with hKept | ⟨w, hNew, hName | ⟨-, rfl⟩ | ⟨-, s, rfl⟩⟩
    · exact ⟨v, hKept, hLiteral⟩
    · exact absurd hName hAttr
    · exact ⟨_, hNew, trivial⟩
    · exact ⟨_, hNew, trivial⟩
  exact Acting.tell_puts.keeps hPuts hPuts h

end Scene

namespace Assembly

variable {a : Assembly} {p q : Progress} {id : ObjectId} {cls : ClassId}

/-- What a property of a built-in view is assigned is what a text becomes. -/
theorem isLiteral_of_change? (hcs : a.library.classes.Extends classes)
    (hClass : p.store.class? id = some cls) (hThere : (classes.get? cls).isSome = true)
    {x : ObjectId} {entry : String × String} {change : Cell × Value}
    (hChange : a.change? x p entry = some change) {attr : String}
    (hCell : change.1 = .field id attr) : change.2.IsLiteral := by
  obtain ⟨⟨owner, prop⟩, hFound, hChange⟩ := Option.bind_eq_some_iff.1 hChange
  obtain ⟨value, hFetch, hChange⟩ := Option.bind_eq_some_iff.1 hChange
  obtain ⟨cell, hOf, hChange⟩ := Option.bind_eq_some_iff.1 hChange
  cases hChange
  obtain rfl : cell = .field id attr := hCell
  obtain ⟨rfl, -⟩ := Scene.eq_of_cellOf (Option.filter_eq_some_iff.1 hOf).1
  obtain ⟨name, -, hGet, -⟩ := Scene.locate_named (eq_ok_of_toOption_eq_some hFound)
  have hProperties : (a.sceneAt p).propertiesOf (.object id) = classes.properties cls := by
    rw [Scene.propertiesOf_of_class? hClass]
    exact hcs.properties View.complete_classes hThere
  rw [hProperties] at hGet
  obtain ⟨c, hc, hp⟩ := Classes.exists_of_mem_properties (Table.mem_of_get? hGet)
  have hNames : ∀ e ∈ prop.enumeration, e.Unbroken :=
    View.enumerations_unbroken c (Classes.mem_all_of_mem_lineage hc) prop hp
  have hRun : a.decoder.fetchProperty a.files prop entry.2 (some p.loader) =
      (.ok value, (a.decoder.fetchProperty a.files prop entry.2 (some p.loader)).2) :=
    Prod.ext (eq_ok_of_toOption_eq_some hFetch) rfl
  exact (a.decoder.fetchProperty_isLiteral a.files entry.2 p.loader hNames).ok hRun

/-- What is shown of an object stays such as texts become. -/
theorem Legible.move (hcs : a.library.classes.Extends classes) (hThere : id < p.store.size)
    (h : (a.sceneAt p).Legible id) {subject? : Option Subject} (hMove : a.Move subject? p q) :
    (a.sceneAt q).Legible id := by
  have hSame : q.store.class? id = p.store.class? id :=
    Store.class?_of_type? (hMove.evolves.type id hThere)
  intro cls hClass hBuiltIn entry hEntry hSettable
  have hWas : p.store.class? id = some cls := hSame.symm.trans hClass
  obtain ⟨v, hField, hLiteral⟩ := h cls hWas hBuiltIn entry hEntry hSettable
  cases hMove with
  | resolve _ | load _ | note _ _ _ => exact ⟨v, hField, hLiteral⟩
  | make hMake =>
    have hKept := (Classes.instantiateStyled_grows hMake).kept id hThere
    exact ⟨v, (Store.field?_congr hKept _).trans hField, hLiteral⟩
  | assign given _ _ =>
    obtain ⟨store, loader, hState, hStored⟩ := a.assignProperty_state _ given p
    rw [hState]
    rcases hStored with rfl | ⟨change, hChange, rfl⟩
    · exact ⟨v, hField, hLiteral⟩
    · by_cases hCell : .field id entry.2.target = change.1
      · have hHeld : (p.store.valueAt? change.1).isSome = true := by
          rw [← hCell, Store.valueAt?, hField]
          rfl
        have hNew : (p.store.assign change.1 change.2).valueAt? (.field id entry.2.target) =
            some change.2 := by
          rw [hCell]
          exact Store.valueAt?_assign_self hHeld
        exact ⟨change.2, hNew, isLiteral_of_change? hcs hWas hBuiltIn hChange hCell.symm⟩
      · exact ⟨v, (Store.valueAt?_assign_ne hCell).trans hField, hLiteral⟩
  | tell call _ _ _ =>
    obtain ⟨c, hc, hp⟩ := Classes.exists_of_mem_properties hEntry
    have hApart :=
      (View.targets_apart c (Classes.mem_all_of_mem_lineage hc) entry.2 hp hSettable).2
    have hHeld : ∃ v, (a.sceneAt p).store.field? id entry.2.target = some v ∧ v.IsLiteral :=
      ⟨v, hField, hLiteral⟩
    exact Scene.tell_keeps_literal hApart hHeld

/-- A new object shows what its class starts with. -/
theorem legible_of_instantiateStyled (hcs : a.library.classes.Extends classes)
    {made : ClassId} {style : Option String} {store : Store}
    (hMake : a.library.classes.instantiateStyled made style p.store = .ok (id, store)) :
    ({ classes := a.library.classes, store } : Scene).Legible id := by
  intro cls hClass hBuiltIn entry hEntry hSettable
  obtain rfl : made = cls :=
    Option.some.inj ((Classes.instantiateStyled_class? hMake).symm.trans hClass)
  obtain ⟨c, hc, hp⟩ := Classes.exists_of_mem_properties hEntry
  have hApart := (View.targets_apart c (Classes.mem_all_of_mem_lineage hc) entry.2 hp hSettable).1
  have hStart := View.starts_literal ⟨made, View.lt_of_isSome hBuiltIn⟩ entry hEntry hSettable
  obtain ⟨v, hConstant, hLiteral⟩ := (Option.any_eq_true _ _).1 hStart
  obtain ⟨b, hGet, hb⟩ := Option.bind_eq_some_iff.1 hConstant
  rw [← hcs.starts View.complete_classes hBuiltIn] at hGet
  exact ⟨v, (Classes.instantiateStyled_field? hMake hApart).1 b v hGet hb,
    of_decide_eq_true hLiteral⟩

/-- What a build has made is legible, and so is what was there before and was legible then. -/
structure Drawn (a : Assembly) (s : Store) (p : Progress) : Prop where
  size_le : s.size ≤ p.store.size
  made : ∀ x ∈ madeIn p.journal, s.size ≤ x ∧ x < p.store.size ∧ (a.sceneAt p).Legible x
  kept : ∀ x < s.size, ({ classes := a.library.classes, store := s } : Scene).Legible x →
    (a.sceneAt p).Legible x

variable {s : Store}

private theorem Drawn.move (hcs : a.library.classes.Extends classes) (h : a.Drawn s p)
    {subject? : Option Subject} (hMove : a.Move subject? p q) : a.Drawn s q := by
  have hStore := hMove.evolves
  have hOld : ∀ x ∈ madeIn p.journal, s.size ≤ x ∧ x < q.store.size ∧ (a.sceneAt q).Legible x := by
    intro x hx
    obtain ⟨hNew, hThere, hLegible⟩ := h.made x hx
    exact ⟨hNew, Nat.lt_of_lt_of_le hThere hStore.size_le, Legible.move hcs hThere hLegible hMove⟩
  refine ⟨Nat.le_trans h.size_le hStore.size_le, ?_, fun x hx hLegible =>
    Legible.move hcs (Nat.lt_of_lt_of_le hx h.size_le) (h.kept x hx hLegible) hMove⟩
  cases hMove with
  | resolve _ | load _ | note _ _ _ => exact hOld
  | make hMake =>
    intro x hx
    rw [madeIn_append, List.mem_append] at hx
    rcases hx with hx | hx
    · exact hOld x hx
    · obtain rfl := List.mem_singleton.1 hx
      obtain ⟨hNumber, hLess, -⟩ := Classes.instantiateStyled_evolves
        a.library.classes.covered_univ (fun _ _ => trivial) hMake
      exact ⟨hNumber ▸ h.size_le, hNumber ▸ hLess, legible_of_instantiateStyled hcs hMake⟩
  | @assign x given _ =>
    obtain ⟨store, loader, hState, -⟩ := a.assignProperty_state x.id given p
    have hMade : madeIn (a.assignProperty x.id given p).2.journal = madeIn p.journal := by
      rw [hState, madeIn_append]
      exact List.append_nil _
    rwa [hMade]
  | @tell x call _ _ _ =>
    have hMade : madeIn (a.tell x.id call p).2.journal = madeIn p.journal :=
      (madeIn_append p.journal [.told x.id call]).trans (List.append_nil _)
    rwa [hMade]

/-- A tree that is built consists of legible views, but for those that were not so before. -/
theorem buildTree_drawn (hcs : a.library.classes.Extends classes) {root : Option ObjectId}
    {origin : Origin} {view : ObjectId} (hJournal : p.journal = [])
    (hRun : a.buildTree root origin p = (.ok view, q)) : a.Drawn p.store q := by
  have hStart (loader : Loader) : a.Drawn p.store { p with loader } := by
    refine ⟨Nat.le_refl _, fun x hx => ?_, fun _ _ hLegible => hLegible⟩
    have hNone : madeIn p.journal = [] := by rw [hJournal, madeIn_nil]
    have hMade : x ∈ madeIn p.journal := hx
    rw [hNone] at hMade
    exact absurd hMade List.not_mem_nil
  exact a.buildTree_keeps hStart (fun h hMove => h.move hcs hMove) hRun

/-- A commit changes nothing that is shown of an object that is not the owner. -/
theorem legible_storeCommitted (h : (a.sceneAt q).Legible id) (hOwner : a.owner ≠ some id)
    (hThere : id < q.store.size) :
    ({ classes := a.library.classes, store := a.storeCommitted q } : Scene).Legible id := by
  intro cls hClass hBuiltIn entry hEntry hSettable
  have hSame : (a.storeCommitted q).class? id = q.store.class? id :=
    Store.class?_of_type? ((a.writes_storeCommitted q).type id hThere)
  obtain ⟨v, hField, hLiteral⟩ := h cls (hSame.symm.trans hClass) hBuiltIn entry hEntry hSettable
  exact ⟨v, (a.field?_storeCommitted fun h => absurd h hOwner).trans hField, hLiteral⟩

end Assembly

namespace Builder

/-- The objects in a store, among the classes of a builder. -/
abbrev sceneAt (b : Builder) (store : Store) : Scene := { classes := b.library.classes, store }

/-- After a build, the outline of a tree of built-in views has the headlines of its views for lines,
in preorder, each of them indented by its depth. The text falls into these lines if and only if
every value that is shown is on one line, and no other tree of lines has the same text then. Of a
view that was made, and of one that was there and not the owner, only the family of a font can take
more than one line. -/
theorem outcome_outline (b : Builder) (owner root : Option ObjectId) (origin : Origin) (w : World)
    (hcs : b.library.classes.Extends classes)
    (hOwner : ∀ o : Nat, owner = some o → o < w.store.size) {view : ObjectId} {p : Progress}
    (hRun : b.outcome owner root origin w = (.ok view, p)) {t : Rose ObjectId}
    (hTree : (b.sceneAt p.store).Arranged t) :
    let sc := b.sceneAt p.store
    let lines := t.map sc.headline
    sc.outline t.label = .ok lines.text ∧
      (∀ x ∈ t.labels, Rose.Flush (sc.headline x)) ∧
      (splitOn '\n' lines.text = lines.lines 0 ↔ ∀ x ∈ t.labels, sc.OnOneLine x) ∧
      ((∀ x ∈ t.labels, sc.OnOneLine x) → ∀ others : Rose String,
        (∀ line ∈ others.labels, Rose.Flush line ∧ '\n' ∉ line.toList) →
          others.text = lines.text → others = lines) ∧
      ∀ x ∈ t.labels, x ∈ madeIn p.journal ∨
          owner ≠ some x ∧ x < w.store.size ∧ (b.sceneAt w.store).Legible x →
        (sc.OnOneLine x ↔ ∀ q ∈ sc.changed x, ¬ (sc.shownValue x q).BreaksLine) := by
  intro sc lines
  let a : Assembly := { b with owner }
  obtain ⟨q, hBuilt, rfl⟩ := exists_of_outcome_eq_ok hRun
  have hDrawn : a.Drawn w.store q := Assembly.buildTree_drawn hcs rfl hBuilt
  refine ⟨hTree.outline_eq hcs, ?_, hTree.splitOn_outline_iff hcs, ?_, ?_⟩
  · intro x hx
    obtain ⟨cls, hClass, hThere⟩ := hTree.exists_class? hx
    exact Scene.flush_headline hcs hClass hThere
  · exact fun hLines others hFlush hText => hTree.eq_of_outline_eq hcs hLines hFlush hText
  · intro x hx hFrom
    obtain ⟨cls, hClass, hThere⟩ := hTree.exists_class? hx
    have hLegible : (b.sceneAt (a.storeCommitted q)).Legible x := by
      rcases hFrom with hMade | ⟨hNotOwner, hOld, hLegible⟩
      · obtain ⟨hNew, hIn, hLegible⟩ := hDrawn.made x hMade
        refine a.legible_storeCommitted hLegible (fun hIs => ?_) hIn
        exact absurd (hOwner x hIs) (Nat.not_lt.2 hNew)
      · exact a.legible_storeCommitted (hDrawn.kept x hOld hLegible) hNotOwner
          (Nat.lt_of_lt_of_le hOld hDrawn.size_le)
    exact hLegible.onOneLine_iff hcs hClass hThere

end Builder

namespace Sample

/-- A label in a font whose family is on two lines. -/
def lettered : Document where
  root := .mk "Label" [("font", "A\nB,12")] [] [] [] ""

end Sample

/-- A label in such a font takes two lines of the outline, though there is only one view. -/
theorem Builder.outcome_outline_family :
    ∃ p, Sample.views.outcome none none (.given Sample.lettered) Sample.emptyWorld = (.ok 0, p) ∧
      (Sample.views.sceneAt p.store).Arranged (.node 0 []) ∧
      ((Sample.views.sceneAt p.store).outline 0).map (splitOn '\n') =
        .ok ["Label font=A", "B@12"] ∧
      ¬ (Sample.views.sceneAt p.store).OnOneLine 0 := by
  have hView : (Sample.views.outcome none none (.given Sample.lettered)
      Sample.emptyWorld).1.toOption = some 0 := by decide +kernel
  have hClass : (Sample.views.outcome none none (.given Sample.lettered)
      Sample.emptyWorld).2.store.class? 0 = some labelClass := by decide +kernel
  have hNone : ((Sample.views.sceneAt (Sample.views.outcome none none (.given Sample.lettered)
      Sample.emptyWorld).2.store).arrangedChildren 0).toOption.map List.length = some 0 := by
    decide +kernel
  have hPieces : splitOn '\n' ((Sample.views.sceneAt (Sample.views.outcome none none
      (.given Sample.lettered) Sample.emptyWorld).2.store).headline 0) =
        ["Label font=A", "B@12"] := by
    decide +kernel
  cases h : Sample.views.outcome none none (.given Sample.lettered) Sample.emptyWorld with
  | mk answer p =>
    rw [h] at hView hClass hNone hPieces
    obtain rfl : answer = .ok 0 := eq_ok_of_toOption_eq_some hView
    have hChildren : (Sample.views.sceneAt p.store).arrangedChildren 0 = .ok [] := by
      obtain ⟨children, hFound, hLength⟩ := Option.map_eq_some_iff.1 hNone
      rw [← List.length_eq_zero_iff.1 hLength]
      exact eq_ok_of_toOption_eq_some hFound
    have hTree : (Sample.views.sceneAt p.store).Arranged (.node 0 []) :=
      .node hClass (by decide) hChildren fun _ h => absurd h List.not_mem_nil
    obtain ⟨hOutline, -, hSplit, -⟩ := Builder.outcome_outline Sample.views none none _
      Sample.emptyWorld (.refl classes) (fun _ h => nomatch h) h hTree
    have hText : ((Rose.node 0 []).map (Sample.views.sceneAt p.store).headline).text =
        (Sample.views.sceneAt p.store).headline 0 := by
      simp [Rose.map, Rose.mapAll, Rose.text, Rose.lines, Rose.linesAll, Rose.indented, joined]
    refine ⟨p, rfl, hTree, ?_, fun hLine => ?_⟩
    · rw [← hPieces, ← hText]
      exact congrArg (Except.map (splitOn '\n')) hOutline
    · have hLines := hSplit.2 fun x hx => by
        obtain rfl : x = 0 := List.mem_singleton.1 hx
        exact hLine
      rw [hText, hPieces] at hLines
      have hLength := congrArg List.length hLines
      simp [Rose.map, Rose.mapAll, Rose.lines, Rose.linesAll] at hLength

end ViewMarkup
