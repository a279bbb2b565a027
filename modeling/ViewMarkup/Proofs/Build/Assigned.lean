import ViewMarkup.Proofs.Build.Attributes
import ViewMarkup.Proofs.Object.Footprint

/-!
# Assigning properties in any order

A property is assigned by walking through the objects of a dotted name and setting an attribute of
the last one. What it changes is one cell; what it depends on are the cells that the attributes on
its way are read from. So properties of which none changes a cell that another one changes or
depends on can be assigned in any order, with the same effect, and if one of them cannot be assigned
this shows in every order.

## Main results

* `Scene.locate_congr`, `Scene.change?_congr` — what a property depends on.
* `Scene.assign_changes` — what assigning a property does.
* `Assembly.assignProperties_yields` — independent properties are assigned as each of them would be
  from the start.
-/

namespace ViewMarkup

open Text

namespace Scene

/-! ## Dotted names -/

/-- The cells on the way of a dotted name, given which ones belong to an attribute. -/
def along (sc : Scene) (cells : Value → String → List Cell) : Value → List String → List Cell
  | _, [] => []
  | v, name :: rest =>
    match (sc.propertiesOf v).get? name with
    | none => []
    | some p =>
      if rest.isEmpty ∨ rest = [""] ∨ p.kind ≠ .object then []
      else
        cells v p.target ++
          match sc.attribute? v p.target with
          | .ok (some inner) => sc.along cells inner rest
          | _ => []

variable {sc : Scene}

/-- A dotted name leads to the same property as long as what is read on its way stays as it is. -/
theorem locate_congr {cells : List Cell} {t : Store} (h : Store.SameBut cells sc.store t)
    {names : List String} {v : Value} (hCells : ∀ cell ∈ sc.along sc.reads v names, cell ∉ cells) :
    ({ sc with store := t } : Scene).locate v names = sc.locate v names := by
  induction names generalizing v with
  | nil => simp only [locate, typeName_congr h]
  | cons name rest ih =>
    unfold locate
    rw [propertiesOf_congr h, typeName_congr h]
    unfold along at hCells
    cases hProperty : (sc.propertiesOf v).get? name with
    | none => rfl
    | some p =>
      simp only [hProperty] at hCells
      dsimp only
      by_cases hEnd : rest.isEmpty = true ∨ rest = [""]
      · rw [if_pos hEnd, if_pos hEnd]
      · by_cases hNested : p.kind = .object
        · have hOn : ¬ (rest.isEmpty = true ∨ rest = [""] ∨ p.kind ≠ .object) := fun hStop =>
            hStop.elim (fun h => hEnd (.inl h)) fun hStop =>
              hStop.elim (fun h => hEnd (.inr h)) fun h => h hNested
          simp only [if_neg hOn] at hCells
          rw [if_neg hEnd, if_neg hEnd, if_neg (not_not_intro hNested),
            if_neg (not_not_intro hNested)]
          rw [attribute?_congr h fun cell hCell => hCells cell (List.mem_append_left _ hCell)]
          cases hAttribute : sc.attribute? v p.target with
          | error e => rfl
          | ok inner? =>
            cases inner? with
            | none => rfl
            | some inner =>
              have hInner := ih (v := inner) fun cell hCell =>
                hCells cell (List.mem_append_right _ (by rwa [hAttribute]))
              cases inner with
              | none => rfl
              | _ => exact hInner
        · simp only [hNested, ne_eq, not_false_eq_true, if_true]

/-- So does the way that it leads. -/
theorem way_congr {cells : List Cell} {t : Store} (h : Store.SameBut cells sc.store t)
    {names : List String} {v : Value} (hCells : ∀ cell ∈ sc.along sc.reads v names, cell ∉ cells) :
    ({ sc with store := t } : Scene).way v names = sc.way v names := by
  induction names generalizing v with
  | nil => cases v <;> rfl
  | cons name rest ih =>
    cases v with
    | object id =>
      unfold way
      rw [propertiesOf_congr h]
      unfold along at hCells
      cases hProperty : (sc.propertiesOf (.object id)).get? name with
      | none => rfl
      | some p =>
        simp only [hProperty] at hCells
        dsimp only
        by_cases hStop : rest.isEmpty = true ∨ rest = [""] ∨ p.kind ≠ .object
        · rw [if_pos hStop, if_pos hStop]
        · rw [if_neg hStop] at hCells
          rw [if_neg hStop, if_neg hStop,
            attribute?_congr h fun cell hCell => hCells cell (List.mem_append_left _ hCell),
            Store.class?_of_type? (h.type id)]
          cases hAttribute : sc.attribute? (.object id) p.target with
          | error e => rfl
          | ok inner? =>
            cases inner? with
            | none => rfl
            | some inner =>
              dsimp only
              rw [ih fun cell hCell => hCells cell (List.mem_append_right _ (by rwa [hAttribute]))]
              cases hComputed : (sc.store.class? id).bind (sc.classes.computed? · p.target) with
              | none => rfl
              | some c =>
                have hLooked := lookedUpIn?_congr h id c fun cell hCell =>
                  hCells cell (List.mem_append_left _ (List.mem_append_right _ (by
                    simpa [computedAt?, hComputed] using hCell)))
                rw [Option.bind_some, Option.bind_some, hLooked]
    | _ => rfl

/-! ## Changes -/

/-- What assigning a property changes: a cell, and what it gets. There is nothing if the property
cannot be assigned. -/
def change? (sc : Scene) (d : Decoder) (fs : Files) (l : Loader) (target : Value)
    (entry : String × String) : Option (Cell × Value) := do
  let (owner, p) ← (sc.locate target (splitOn '.' entry.1)).toOption
  let v ← (d.fetchProperty fs p entry.2 (some l)).1.toOption
  let cell ← (cellOf owner p.target).filter sc.takes
  return (cell, v)

theorem change?_congr {cells : List Cell} {t : Store} (h : Store.SameBut cells sc.store t)
    (hTaken : ∀ cell ∈ cells, sc.takes cell = true) {d : Decoder} {fs : Files} {l l' : Loader}
    (hAgrees : l.Agrees fs l') {target : Value} {entry : String × String}
    (hCells : ∀ cell ∈ sc.along sc.reads target (splitOn '.' entry.1), cell ∉ cells) :
    ({ sc with store := t } : Scene).change? d fs l' target entry =
      sc.change? d fs l target entry := by
  have hTakes : ({ sc with store := t } : Scene).takes = sc.takes := funext (takes_congr h hTaken)
  have hFetch (p : Property) : (d.fetchProperty fs p entry.2 (some l')).1 =
      (d.fetchProperty fs p entry.2 (some l)).1 :=
    (d.fetchProperty_alike (Loader.Agrees.sameValues fs) p entry.2 _ _ (.some hAgrees)).1.symm
  unfold change?
  rw [locate_congr h hCells, hTakes]
  simp only [hFetch]

/-- What a property is assigned has no objects. -/
theorem objects_of_change? {d : Decoder} {fs : Files} {l : Loader} {target : Value}
    {entry : String × String} {change : Cell × Value}
    (h : sc.change? d fs l target entry = some change) : change.2.objects = [] := by
  obtain ⟨⟨owner, p⟩, -, h⟩ := Option.bind_eq_some_iff.1 h
  obtain ⟨v, hFetch, h⟩ := Option.bind_eq_some_iff.1 h
  obtain ⟨cell, -, h⟩ := Option.bind_eq_some_iff.1 h
  cases h
  have hRun : d.fetchProperty fs p entry.2 (some l) =
      (.ok v, (d.fetchProperty fs p entry.2 (some l)).2) :=
    Prod.ext (eq_ok_of_toOption_eq_some hFetch) rfl
  exact ((d.fetchProperty_yields fs p entry.2 l).ok hRun).1

/-- A cell that is changed can be set. -/
theorem takes_of_change? {d : Decoder} {fs : Files} {l : Loader} {target : Value}
    {entry : String × String} {change : Cell × Value}
    (h : sc.change? d fs l target entry = some change) : sc.takes change.1 = true := by
  obtain ⟨_, -, h⟩ := Option.bind_eq_some_iff.1 h
  obtain ⟨_, -, h⟩ := Option.bind_eq_some_iff.1 h
  obtain ⟨cell, hCell, h⟩ := Option.bind_eq_some_iff.1 h
  cases h
  exact (Option.filter_eq_some_iff.1 hCell).2

/-- A property is assigned if there is something that it changes, which is then changed. -/
theorem assign_changes (sc : Scene) (d : Decoder) (fs : Files) (target : Value)
    (entry : String × String) (l : Loader) :
    Yields (sc.assign d fs target entry.1 entry.2) (some l)
      (fun s l? => l.KeptBy fs l? ∧ ∃ change, sc.change? d fs l target entry = some change ∧
        s = sc.store.assign change.1 change.2)
      (fun l? => l.KeptBy fs l? ∧ sc.change? d fs l target entry = none) := by
  cases hLocate : sc.locate target (splitOn '.' entry.1) with
  | error e =>
    have hNone : sc.change? d fs l target entry = none := by
      unfold change?
      rw [hLocate]
      rfl
    unfold assign
    rw [hLocate]
    exact .ofThrow ⟨.refl l, hNone⟩
  | ok found =>
    obtain ⟨owner, p⟩ := found
    have hChange : sc.change? d fs l target entry =
        (d.fetchProperty fs p entry.2 (some l)).1.toOption.bind fun v =>
          ((cellOf owner p.target).filter sc.takes).bind fun cell => some (cell, v) := by
      unfold change?
      rw [hLocate]
      rfl
    have hFetch : Yields (d.fetchProperty fs p entry.2) (some l)
        (fun v l? => (d.fetchProperty fs p entry.2 (some l)).1.toOption = some v ∧ l.KeptBy fs l?)
        (fun l? => (d.fetchProperty fs p entry.2 (some l)).1.toOption = none ∧ l.KeptBy fs l?) := by
      have hKept := d.fetchProperty_yields fs p entry.2 l
      exact ⟨fun h => ⟨by rw [congrArg Prod.fst h]; rfl, (hKept.ok h).2⟩,
        fun h => ⟨by rw [congrArg Prod.fst h]; rfl, hKept.error h⟩⟩
    unfold assign
    rw [hLocate, hChange]
    refine .bind (P := fun r l? => r = (owner, p) ∧ l? = some l) (.ofOk rfl ⟨rfl, rfl⟩) ?_
    rintro _ _ ⟨rfl, rfl⟩
    refine .bind (hFetch.weaken fun l? h => ⟨h.2, by rw [h.1]; rfl⟩) ?_
    rintro v l? ⟨hValue, hKept⟩
    rw [hValue]
    have hSet := sc.toOption_setAttribute owner p.target v
    cases hStore : sc.setAttribute owner p.target v with
    | error e =>
      rw [hStore] at hSet
      have hNone : (cellOf owner p.target).filter sc.takes = none :=
        Option.map_eq_none_iff.1 hSet.symm
      exact .ofThrow ⟨hKept, by rw [hNone]; rfl⟩
    | ok s =>
      rw [hStore] at hSet
      obtain ⟨cell, hCell, hAssigned⟩ := Option.map_eq_some_iff.1 hSet.symm
      exact .ofPure ⟨hKept, (cell, v), by rw [hCell]; rfl, hAssigned.symm⟩

end Scene

/-! ## Properties of an instance -/

namespace Assembly

variable {a : Assembly} {id : ObjectId}

/-- What assigning a property of an instance changes. -/
def change? (a : Assembly) (id : ObjectId) (p : Progress) (entry : String × String) :
    Option (Cell × Value) :=
  (a.sceneAt p).change? a.decoder a.files p.loader (.object id) entry

/-- The cells on the way of a property of an instance, given which ones belong to an attribute. -/
def along (a : Assembly) (cells : Scene → Value → String → List Cell) (id : ObjectId) (p : Progress)
    (entry : String × String) : List Cell :=
  (a.sceneAt p).along (cells (a.sceneAt p)) (.object id) (splitOn '.' entry.1)

/-- A property is assigned if there is something that it changes. -/
theorem assignProperty_yields (id : ObjectId) (entry : String × String) (p : Progress) :
    Yields (a.assignProperty id entry) p
      (fun _ q => ∃ change loader, a.change? id p entry = some change ∧
        p.loader.KeptBy a.files (some loader) ∧
        q = { p with
          store := p.store.assign change.1 change.2
          loader
          journal := p.journal ++ [.assigned id entry.1 (a.wayAt p id entry.1)] })
      fun _ => a.change? id p entry = none := by
  let noted : Progress :=
    { p with journal := p.journal ++ [.assigned id entry.1 (a.wayAt p id entry.1)] }
  have hAssign :=
    (a.sceneAt p).assign_changes a.decoder a.files (.object id) entry p.loader
  have hFetch : Yields (Building.fetching
        ((a.sceneAt p).assign a.decoder a.files (.object id) entry.1 entry.2)) noted
      (fun store q => ∃ change loader, a.change? id p entry = some change ∧
        p.loader.KeptBy a.files (some loader) ∧ store = p.store.assign change.1 change.2 ∧
        q = { noted with loader })
      fun _ => a.change? id p entry = none := by
    refine fetching_yields (hAssign.mono ?_ ?_)
    · rintro store _ ⟨⟨loader, rfl, hKept⟩, change, hChange, hStore⟩
      exact ⟨loader, rfl, change, loader, hChange, ⟨loader, rfl, hKept⟩, hStore, rfl⟩
    · rintro _ ⟨⟨loader, rfl, -⟩, hNone⟩
      exact ⟨loader, rfl, hNone⟩
  refine yields_scene_bind (.bind (P := fun _ q => q = noted) (.ofModify rfl) ?_)
  rintro _ _ rfl
  refine .bind hFetch ?_
  rintro store q ⟨change, loader, hChange, hKept, rfl, rfl⟩
  exact .ofModify ⟨change, loader, hChange, hKept, rfl⟩

/-- Assigning one property changes neither what another one changes nor what is on its way. -/
def Spares (a : Assembly) (cells : Scene → Value → String → List Cell) (id : ObjectId)
    (p : Progress) (x y : String × String) : Prop :=
  ∀ change ∈ a.change? id p x,
    (∀ other ∈ a.change? id p y, change.1 ≠ other.1) ∧ change.1 ∉ a.along cells id p y

/-- Properties that spare those behind them are each assigned as from the start, wherever cells are
different that they do not depend on. -/
theorem assignProperties_yields {p : Progress} {entries : List (String × String)}
    (hSpares : entries.Pairwise (a.Spares Scene.reads id p)) {cells : List Cell} {q : Progress}
    (hSame : Store.SameBut cells p.store q.store)
    (hTaken : ∀ cell ∈ cells, (a.sceneAt p).takes cell = true)
    (hSpared : ∀ entry ∈ entries, ∀ cell ∈ a.along Scene.reads id p entry, cell ∉ cells)
    (hAgrees : p.loader.Agrees a.files q.loader) :
    Yields (entries.forM (a.assignProperty id)) q
      (fun _ q' => (∀ entry ∈ entries, (a.change? id p entry).isSome = true) ∧
        ∃ loader, q.loader.KeptBy a.files (some loader) ∧
        q' = { q with
          store := q.store.assignAll (entries.filterMap (a.change? id p))
          loader
          journal := q.journal ++
            entries.map fun entry => .assigned id entry.1 (a.wayAt p id entry.1) })
      fun _ => ∃ entry ∈ entries, a.change? id p entry = none := by
  -- `cells` are those that the properties assigned so far have changed.
  induction entries generalizing cells q with
  | nil =>
    refine .ofPure ⟨(fun _ h => nomatch h), q.loader, .refl q.loader, ?_⟩
    simp [Store.assignAll]
  | cons entry entries ih =>
    obtain ⟨hBehind, hSpares⟩ := List.pairwise_cons.1 hSpares
    have hChange : a.change? id q entry = a.change? id p entry :=
      Scene.change?_congr hSame hTaken hAgrees (hSpared entry List.mem_cons_self)
    have hWay : a.wayAt q id entry.1 = a.wayAt p id entry.1 :=
      Scene.way_congr hSame (hSpared entry List.mem_cons_self)
    have hFirst := a.assignProperty_yields id entry q
    rw [hChange, hWay] at hFirst
    refine .bind (hFirst.weaken fun _ h => ⟨entry, List.mem_cons_self, h⟩) ?_
    rintro _ _ ⟨change, loader, hSome, ⟨_, hLoader, hDocuments, hLoaderAgrees⟩, rfl⟩
    cases hLoader
    let q' : Progress := { q with
      store := q.store.assign change.1 change.2
      loader
      journal := q.journal ++ [.assigned id entry.1 (a.wayAt p id entry.1)] }
    have hSame' : Store.SameBut (change.1 :: cells) p.store q'.store :=
      (hSame.mono fun _ => List.mem_cons_of_mem _).trans (.assign _ _ List.mem_cons_self)
    have hTaken' : ∀ cell ∈ change.1 :: cells, (a.sceneAt p).takes cell = true :=
      List.forall_mem_cons.2 ⟨Scene.takes_of_change? hSome, hTaken⟩
    have hSpared' : ∀ other ∈ entries, ∀ cell ∈ a.along Scene.reads id p other,
        cell ∉ change.1 :: cells := by
      intro other hOther cell hCell hMem
      rcases List.mem_cons.1 hMem with rfl | hMem
      · exact (hBehind other hOther change hSome).2 hCell
      · exact hSpared other (List.mem_cons_of_mem _ hOther) cell hCell hMem
    refine (ih hSpares hSame' hTaken' hSpared' (hAgrees.trans hLoaderAgrees)).mono ?_ ?_
    · rintro _ _ ⟨hAll, loader', ⟨_, hLoader', hDocuments', hAgrees'⟩, rfl⟩
      cases hLoader'
      refine ⟨List.forall_mem_cons.2 ⟨by rw [hSome]; rfl, hAll⟩, loader',
        ⟨loader', rfl, fun name => (hDocuments' name).trans (hDocuments name),
          hLoaderAgrees.trans hAgrees'⟩, ?_⟩
      simp [q', hSome, Store.assignAll]
    · rintro _ ⟨other, hOther, hNone⟩
      exact ⟨other, List.mem_cons_of_mem _ hOther, hNone⟩

end Assembly
end ViewMarkup
