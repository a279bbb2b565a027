import Mathlib.Data.List.Induction
import ViewMarkup.Proofs.View.Containers

/-!
# The sections of a table

The calls that a table takes fall into stretches: those in front of the first `section` element, and
those behind each of them up to the next. What is appended in a stretch makes up one section, which
goes by the name and title of the element in front of it.

A table does not keep all of these sections. A `section` element takes over the section before it if
that has no view and neither a name nor a title, or empty ones. This is right for the section that a
table has from the start, but not for one that another `section` element has started.

## Main results

* `flatMap_told_stretches` — the stretches of some calls, put together again, are the calls.
* `Sections.places_append` — a view goes to the place that a raw element right in front of it
  announces.
* `Sections.foldl_take_stretches` — the sections of a table after any calls: those of the stretches
  that have something to show, and that of the last one.
* `Acting.offer_sections` — the sections of a table, and when every `section` element has its own.
-/

namespace ViewMarkup

open View.Catalog

/-! ## Stretches of calls -/

/-- Whether a call starts a section. -/
def Call.isSection : Call → Bool
  | .raw name _ => name == "section"
  | _ => false

/-- A `section` element with the calls behind it up to the next one. -/
structure Stretch where
  attributes : Table String String
  calls : List Call

/-- The calls of a stretch, its `section` element first. -/
def Stretch.told (s : Stretch) : List Call := .raw "section" s.attributes :: s.calls

/-- The calls in front of the first `section` element. -/
def openingCalls (calls : List Call) : List Call := calls.takeWhile (!·.isSection)

/-- The `section` elements among some calls, each with the calls behind it. -/
def stretches : List Call → List Stretch
  | [] => []
  | .raw name attributes :: rest =>
    if name = "section" then ⟨attributes, openingCalls rest⟩ :: stretches rest else stretches rest
  | _ :: rest => stretches rest

variable {calls : List Call} {call : Call} {name : String} {attributes : Table String String}

theorem stretches_cons_of_not_isSection (calls : List Call) (h : call.isSection = false) :
    openingCalls (call :: calls) = call :: openingCalls calls ∧
      stretches (call :: calls) = stretches calls := by
  refine ⟨by simp [openingCalls, h], ?_⟩
  cases call with
  | raw name attributes =>
    have hName : name ≠ "section" := by simpa [Call.isSection] using h
    exact if_neg hName
  | _ => rfl

theorem stretches_cons_section (attributes : Table String String) (calls : List Call) :
    openingCalls (.raw "section" attributes :: calls) = [] ∧
      stretches (.raw "section" attributes :: calls) =
        ⟨attributes, openingCalls calls⟩ :: stretches calls :=
  ⟨rfl, if_pos rfl⟩

/-- The stretches of some calls, put together again, are the calls. -/
theorem flatMap_told_stretches (calls : List Call) :
    openingCalls calls ++ (stretches calls).flatMap Stretch.told = calls := by
  induction calls with
  | nil => rfl
  | cons call calls ih =>
    cases hSection : call.isSection with
    | false =>
      obtain ⟨hOpening, hStretches⟩ := stretches_cons_of_not_isSection calls hSection
      rw [hOpening, hStretches, List.cons_append, ih]
    | true =>
      cases call with
      | raw name attributes =>
        obtain rfl : name = "section" := eq_of_beq hSection
        obtain ⟨hOpening, hStretches⟩ := stretches_cons_section attributes calls
        rw [hOpening, hStretches, List.nil_append, List.flatMap_cons, Stretch.told,
          List.cons_append, ih]
      | _ => cases hSection

theorem not_isSection_of_mem_openingCalls (h : call ∈ openingCalls calls) :
    call.isSection = false := by
  have hAll : (openingCalls calls).all (!·.isSection) = true := List.all_takeWhile
  simpa using List.all_eq_true.1 hAll call h

private theorem mem_of_mem_stretches {s : Stretch} (hs : s ∈ stretches calls) (h : call ∈ s.calls) :
    call ∈ calls := by
  have hTold : call ∈ s.told := List.mem_cons_of_mem _ h
  rw [← flatMap_told_stretches calls]
  exact List.mem_append_right _ (List.mem_flatMap.2 ⟨s, hs, hTold⟩)

private theorem not_isSection_of_mem_stretches {s : Stretch} (hs : s ∈ stretches calls)
    (h : call ∈ s.calls) : call.isSection = false := by
  induction calls with
  | nil => cases hs
  | cons c calls ih =>
    cases hSection : c.isSection with
    | false =>
      rw [(stretches_cons_of_not_isSection _ hSection).2] at hs
      exact ih hs
    | true =>
      cases c with
      | raw name attributes =>
        obtain rfl : name = "section" := eq_of_beq hSection
        rw [(stretches_cons_section _ _).2] at hs
        rcases List.mem_cons.1 hs with rfl | hs
        · exact not_isSection_of_mem_openingCalls h
        · exact ih hs
      | _ => cases hSection

/-! ## What a stretch makes up -/

namespace Slot

/-- The place that a raw element announces. -/
def announced (name : String) : Slot :=
  match name with
  | "sectionHeader" => .header
  | "sectionFooter" => .footer
  | _ => .row

/-- The place of a view that is appended after some calls: that which a raw element has announced
right in front of it. -/
def after (calls : List Call) : Slot :=
  match calls.getLast? with
  | some (.raw name _) => announced name
  | _ => .row

end Slot

namespace Sections

/-- The views appended by some calls with their places, where the one of the next is announced. -/
def places : Slot → List Call → List (Slot × ObjectId)
  | _, [] => []
  | _, .raw name _ :: rest => places (.announced name) rest
  | slot, .append view :: rest => (slot, view) :: places .row rest
  | _, _ :: rest => places .row rest

/-- A view goes to the place that a raw element right in front of it announces. -/
theorem places_append (before after : List Call) (view : ObjectId) :
    places .row (before ++ .append view :: after) =
      places .row before ++ (Slot.after before, view) :: places .row after := by
  have hFrom (slot : Slot) (before : List Call) :
      places slot (before ++ .append view :: after) = places slot before ++
        (if before = [] then slot else Slot.after before, view) :: places .row after := by
    induction before generalizing slot with
    | nil => rfl
    | cons call before ih =>
      have hLast : Slot.after (call :: before) =
          if before = [] then Slot.after [call] else Slot.after before := by
        cases before with
        | nil => rfl
        | cons _ _ => rfl
      rw [if_neg (List.cons_ne_nil _ _), hLast]
      cases call with
      | append view' => exact congrArg (_ :: ·) (ih .row)
      | _ => exact ih _
  rw [hFrom]
  cases before <;> rfl

/-- Every view that is appended has a place. -/
theorem map_places (slot : Slot) (calls : List Call) :
    (places slot calls).map (·.2) = appended calls := by
  induction calls generalizing slot with
  | nil => rfl
  | cons call calls ih =>
    cases call with
    | append view => exact congrArg (view :: ·) (ih .row)
    | _ => exact ih _

/-- The views that are put at a place, in order. -/
def placedAt (slot : Slot) (placed : List (Slot × ObjectId)) : List ObjectId :=
  (placed.filter (·.1 == slot)).map (·.2)

end Sections

/-- A section with some views at their places. Of several that are to be its header, the last one
is, and so it is with the footer. -/
def TableSection.holding (name title : Option String) (placed : List (Slot × ObjectId)) :
    TableSection where
  name := name
  title := title
  header := (Sections.placedAt .header placed).getLast?
  footer := (Sections.placedAt .footer placed).getLast?
  rows := Sections.placedAt .row placed

/-- The section of a stretch. -/
def Stretch.section (s : Stretch) : TableSection :=
  .holding (s.attributes.get? "name") (s.attributes.get? "title") (Sections.places .row s.calls)

/-- Whether a stretch gives its section a view, a name or a title. -/
def Stretch.shows (s : Stretch) : Bool :=
  isNonEmptyText (s.attributes.get? "name") || isNonEmptyText (s.attributes.get? "title") ||
    !(appended s.calls).isEmpty

namespace Sections

variable {front : List TableSection} {last : TableSection} {slot : Slot}
  {placed : List (Slot × ObjectId)} {title : Option String}

private theorem placedAt_append_singleton (slot : Slot) (placed : List (Slot × ObjectId))
    (p : Slot × ObjectId) :
    placedAt slot (placed ++ [p]) = placedAt slot placed ++ if p.1 = slot then [p.2] else [] := by
  unfold placedAt
  rw [List.filter_append, List.map_append]
  by_cases hSlot : p.1 = slot <;> simp [hSlot]

/-- Views that are put at their places one after the other are held there. -/
theorem foldl_put (name title : Option String) (placed : List (Slot × ObjectId)) :
    placed.foldl (fun s p => put p.1 p.2 s) { name, title } = .holding name title placed := by
  induction placed using List.reverseRecOn with
  | nil => rfl
  | append_singleton placed p ih =>
    rw [List.foldl_append, ih]
    simp only [TableSection.holding, placedAt_append_singleton]
    obtain ⟨place, view⟩ := p
    cases place <;> simp [put]

/-- There are views at no place if and only if there are none. -/
theorem placedAt_eq_nil_iff : (∀ slot, placedAt slot placed = []) ↔ placed = [] := by
  constructor
  · intro h
    refine List.eq_nil_iff_forall_not_mem.2 fun p hp => ?_
    have hMem : p.2 ∈ placedAt p.1 placed :=
      List.mem_map_of_mem (List.mem_filter.2 ⟨hp, beq_self_eq_true p.1⟩)
    rw [h p.1] at hMem
    cases hMem
  · rintro rfl slot
    rfl

/-- The section of a stretch is begun if it shows anything. -/
theorem isBegun_section (s : Stretch) : s.section.isBegun = s.shows := by
  have hNone : (placedAt .row (places .row s.calls) = [] ∧
      placedAt .header (places .row s.calls) = [] ∧ placedAt .footer (places .row s.calls) = []) ↔
        appended s.calls = [] := by
    rw [← map_places .row, List.map_eq_nil_iff, ← placedAt_eq_nil_iff]
    exact ⟨fun ⟨hRow, hHeader, hFooter⟩ slot => by cases slot <;> assumption,
      fun h => ⟨h .row, h .header, h .footer⟩⟩
  rw [Bool.eq_iff_iff, TableSection.isBegun, Stretch.shows]
  simp only [Stretch.section, TableSection.holding, Bool.or_eq_true, Bool.not_eq_true',
    List.isEmpty_eq_false_iff, Option.isSome_iff_ne_none, ne_eq, List.getLast?_eq_none_iff]
  rw [← hNone]
  tauto

/-! ## The sections that are kept -/

/-- Of some sections, those that are begun and the last one. -/
def kept (parts : List TableSection) : List TableSection :=
  parts.dropLast.filter (·.isBegun) ++ parts.getLast?.toList

theorem kept_cons_cons (s s' : TableSection) (rest : List TableSection) :
    kept (s :: s' :: rest) = (if s.isBegun then [s] else []) ++ kept (s' :: rest) := by
  unfold kept
  rw [List.dropLast_cons_cons, List.getLast?_cons_cons, List.filter_cons]
  split <;> rfl

/-- Calls that start no section fill the last one. -/
theorem foldl_take_of_not_isSection (hParts : ∀ call ∈ calls, View.takes .addRow [] call)
    (hNone : ∀ call ∈ calls, call.isSection = false) (front : List TableSection)
    (last : TableSection) (slot : Slot) :
    ∃ slot', calls.foldl take { all := front ++ [last], slot } =
      { all := front ++ [(places slot calls).foldl (fun s p => put p.1 p.2 s) last],
        slot := slot' } := by
  induction calls generalizing last slot with
  | nil => exact ⟨slot, rfl⟩
  | cons call calls ih =>
    obtain ⟨hPart, hRest⟩ := List.forall_mem_cons.1 hParts
    obtain ⟨hSection, hNoneRest⟩ := List.forall_mem_cons.1 hNone
    rw [List.foldl_cons]
    cases call with
    | append view =>
      have hTake : take { all := front ++ [last], slot } (.append view) =
          { all := front ++ [put slot view last], slot := .row } := by
        simp [take, addView, changeLast_append]
      rw [hTake]
      exact ih hRest hNoneRest _ .row
    | raw name attributes =>
      have hTake : take { all := front ++ [last], slot } (.raw name attributes) =
          { all := front ++ [last], slot := .announced name } := by
        have hName : name = "section" ∨ name = "sectionHeader" ∨ name = "sectionFooter" := by
          simpa [View.takes, View.tableParts] using hPart
        rcases hName with rfl | rfl | rfl
        · cases hSection
        · rfl
        · rfl
      rw [hTake]
      exact ih hRest hNoneRest last _
    | _ => cases hPart

/-- A `section` element adds its section to the others, or takes over the last one if this is not
begun. -/
theorem start_section (front : List TableSection) (last : TableSection) (slot : Slot)
    (name title : Option String) :
    start { all := front ++ [last], slot } name title =
      front ++ (if last.isBegun then [last] else []) ++ [({ name, title } : TableSection)] := by
  simp only [start, List.getLast?_concat, Option.any_some]
  split
  · simp
  · next hBegun =>
    -- What is not begun is empty but for its name and title, which the element gives anew.
    have hEmpty : { last with name, title } = ({ name, title } : TableSection) := by
      simp only [TableSection.isBegun, Bool.not_eq_true, Bool.or_eq_false_iff,
        Option.isSome_eq_false_iff, Option.isNone_iff_eq_none, Bool.not_eq_false',
        List.isEmpty_iff] at hBegun
      obtain ⟨⟨⟨⟨hRows, hHeader⟩, hFooter⟩, -⟩, -⟩ := hBegun
      rw [hRows, hHeader, hFooter]
    rw [changeLast_append, hEmpty, List.append_nil]

/-- The sections of a table after some stretches: of the section before them and theirs, those that
are begun and the last one. -/
theorem foldl_take_stretches {parts : List Stretch}
    (hParts : ∀ s ∈ parts, ∀ call ∈ s.calls, View.takes .addRow [] call)
    (hNone : ∀ s ∈ parts, ∀ call ∈ s.calls, call.isSection = false)
    (front : List TableSection) (last : TableSection) (slot : Slot) :
    ((parts.flatMap Stretch.told).foldl take { all := front ++ [last], slot }).all =
      front ++ kept (last :: parts.map Stretch.section) := by
  -- By induction on the stretches; each of them is a start and what fills the new last section.
  induction parts generalizing front last slot with
  | nil => rfl
  | cons s parts ih =>
    obtain ⟨hPart, hParts⟩ := List.forall_mem_cons.1 hParts
    obtain ⟨hSection, hNone⟩ := List.forall_mem_cons.1 hNone
    obtain ⟨slot', hFill⟩ := foldl_take_of_not_isSection hPart hSection
      (front ++ if last.isBegun then [last] else [])
      { name := s.attributes.get? "name", title := s.attributes.get? "title" } .row
    have hStart : take { all := front ++ [last], slot } (.raw "section" s.attributes) =
        { all := front ++ (if last.isBegun then [last] else []) ++
            [{ name := s.attributes.get? "name", title := s.attributes.get? "title" }],
          slot := .row } := by
      rw [← start_section front last slot]
      rfl
    rw [foldl_put] at hFill
    rw [List.flatMap_cons, List.foldl_append, Stretch.told, List.foldl_cons, hStart, hFill,
      List.map_cons, kept_cons_cons, ← List.append_assoc]
    exact ih hParts hNone _ s.section slot'

/-- All sections are kept if and only if each of them but the last one is begun. -/
theorem kept_eq_self_iff {parts : List TableSection} :
    kept parts = parts ↔ ∀ s ∈ parts.dropLast, s.isBegun := by
  have hAll : parts.dropLast ++ parts.getLast?.toList = parts := by
    cases parts using List.reverseRecOn with
    | nil => rfl
    | append_singleton parts s => simp
  unfold kept
  constructor
  · intro h
    have hFilter : parts.dropLast.filter (·.isBegun) = parts.dropLast :=
      List.append_cancel_right (h.trans hAll.symm)
    exact List.filter_eq_self.1 hFilter
  · intro h
    rw [List.filter_eq_self.2 h, hAll]

end Sections

/-! ## The sections of a new table -/

namespace Acting

variable {cs : Classes} {style : Option String} {s s' : Store} {id : ObjectId} {sc : Scene}
  {taken : List Call}

/-- Of raw elements and views, a table takes all but the raw elements that it does not know. -/
theorem offer_table (platform : String)
    (hCalls : ∀ call ∈ calls, call.hook = .raw ∨ call.hook = .append)
    (hcs : sc.classes.Extends classes) (h : sc.Contains id tableClass .addRow taken) :
    (offer platform id calls sc).1 = calls.filter (View.takes .addRow []) := by
  have hRule : (tableClass, HookRule.addRow) ∈ View.containers := by decide
  induction calls generalizing sc taken with
  | nil => rfl
  | cons call calls ih =>
    obtain ⟨hCall, hRest⟩ := List.forall_mem_cons.1 hCalls
    have hTold := tell_container platform hcs hRule h hCall
    have hSame : View.takes .addRow taken call = View.takes .addRow [] call := by
      cases call <;> rfl
    rw [hSame] at hTold
    rw [List.filter_cons]
    split at hTold
    · next hTakes =>
      obtain ⟨sc', hRun, hClasses, hContains⟩ := hTold
      rw [if_pos hTakes]
      simp only [offer, hRun]
      rw [ih hRest (hClasses ▸ hcs) hContains]
    · next hTakes =>
      obtain ⟨failure, hRun⟩ := hTold
      rw [if_neg hTakes]
      simp only [offer, hRun]
      exact ih hRest hcs h

/-- A new table that is told of raw elements and of views takes the views and the elements that it
knows. Each `section` element among them starts a stretch, and so does the beginning; the views of a
stretch make up one section. The table has the sections of those stretches that show anything, and
that of the last one. So it has one for every `section` element, behind one for the views in front
of the first of them, if and only if every stretch of a `section` element but the last one shows a
view, a name or a title. -/
theorem offer_sections (hcs : cs.Extends View.Catalog.classes)
    (hMade : cs.instantiateStyled tableClass style s = .ok (id, s')) (platform : String)
    (hCalls : ∀ call ∈ calls, call.hook = .raw ∨ call.hook = .append) :
    let offered := offer platform id calls ⟨cs, s'⟩
    let opening := openingCalls offered.1
    let first := Stretch.section ⟨[], opening⟩
    let rest := (stretches offered.1).map Stretch.section
    offered.1 = calls.filter (View.takes .addRow []) ∧
      ∃ sections, offered.2.store.field? id "sections" = some (.list (sections.map .tableSection)) ∧
        sections = Sections.kept (first :: rest) ∧
        (sections = (if appended opening = [] ∧ rest ≠ [] then rest else first :: rest) ↔
          ∀ s ∈ (stretches offered.1).dropLast, s.shows) := by
  intro offered opening first rest
  have hRule : (tableClass, HookRule.addRow) ∈ View.containers := by decide
  have hFresh := Scene.contains_fresh hcs hRule hMade
  have hTaken : offered.1 = calls.filter (View.takes .addRow []) :=
    offer_table platform hCalls hcs hFresh
  obtain ⟨-, hContains⟩ := offer_contains platform hRule hCalls hcs hFresh
  rw [List.nil_append] at hContains
  obtain ⟨-, hSections, -⟩ := hContains.keeps
  have hParts : ∀ call ∈ offered.1, View.takes .addRow [] call := fun call hCall =>
    (List.mem_filter.1 (hTaken ▸ hCall)).2
  have hCut := flatMap_told_stretches offered.1
  have hAll : (offered.1.foldl Sections.take {}).all = Sections.kept (first :: rest) := by
    obtain ⟨slot, hOpening⟩ := Sections.foldl_take_of_not_isSection
      (fun call hCall => hParts call (hCut ▸ List.mem_append_left _ hCall))
      (fun call hCall => not_isSection_of_mem_openingCalls hCall) [] {} .row
    have hFirst : (Sections.places .row opening).foldl
        (fun s p => Sections.put p.1 p.2 s) {} = first :=
      Sections.foldl_put none none _
    rw [hFirst] at hOpening
    have hRest := Sections.foldl_take_stretches
      (fun s hs call hCall => hParts call (mem_of_mem_stretches hs hCall))
      (fun s hs call hCall => not_isSection_of_mem_stretches hs hCall) [] first slot
    rw [← hOpening, ← List.foldl_append, hCut] at hRest
    exact hRest
  have hShows : (∀ s ∈ rest.dropLast, s.isBegun) ↔
      ∀ s ∈ (stretches offered.1).dropLast, s.shows := by
    simp only [rest, ← List.map_dropLast, List.forall_mem_map, Sections.isBegun_section]
  refine ⟨hTaken, _, hSections, hAll, ?_⟩
  rw [hAll, ← hShows]
  have hBegun : first.isBegun = !(appended opening).isEmpty := Sections.isBegun_section _
  cases hRest : rest with
  | nil => simp [Sections.kept]
  | cons s' rest' =>
    rw [Sections.kept_cons_cons, ← Sections.kept_eq_self_iff, hBegun]
    by_cases hNone : appended opening = []
    · simp [hNone]
    · simp [hNone]

/-- What a table is told that is given two sections without anything in them. -/
def twoSections : List Call := [.raw "section" [], .raw "section" []]

/-- Of two sections that nothing is given to, a new table keeps one. -/
theorem offer_sections_empty :
    ∃ id s', View.Catalog.classes.instantiateStyled tableClass none {} = .ok (id, s') ∧
      let offered := offer "linux" id twoSections ⟨View.Catalog.classes, s'⟩
      offered.1 = twoSections ∧ (stretches offered.1).length = 2 ∧
        offered.2.store.field? id "sections" = some (.list [.tableSection {}]) := by
  obtain ⟨⟨id, s'⟩, hMade⟩ : ∃ made,
      View.Catalog.classes.instantiateStyled tableClass none {} = .ok made := ⟨_, rfl⟩
  have hCalls : ∀ call ∈ twoSections, call.hook = .raw ∨ call.hook = .append := by decide
  obtain ⟨hTaken, sections, hSections, hKept, -⟩ :=
    offer_sections (.refl _) hMade "linux" hCalls
  have hBoth : twoSections.filter (View.takes .addRow []) = twoSections := by decide
  rw [hTaken, hBoth] at hKept
  have hOne : sections = [{}] := hKept
  refine ⟨id, s', hMade, hTaken.trans hBoth, ?_, ?_⟩
  · rw [hTaken, hBoth]
    rfl
  · rw [hSections, hOne]
    rfl

end Acting
end ViewMarkup
