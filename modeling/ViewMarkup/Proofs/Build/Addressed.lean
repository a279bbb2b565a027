import ViewMarkup.Proofs.Build.Moves
import ViewMarkup.Proofs.Build.Reordered
import ViewMarkup.Proofs.Object.Declared
import ViewMarkup.Proofs.Object.PathEnd
import ViewMarkup.Proofs.Workspace

/-!
# Properties and paths

Markup assigns a property by its dotted name, and a host writes and reads an attribute by a path.
Both go through the objects on the way, the one by the tables of properties and the other by the
names of attributes. A declared name, as a path, ends at the very attribute that the property is
kept in. So assigning the property and writing the path change the same cell, and the path gives the
value back, unless what was on the way depends on that cell.

## Main results

* `Scene.Declares.endsAt` — a declared name ends at the attribute of its property.
* `Assembly.assignProperty_fails`, `Working.assign_fails` — a property that is refused leaves all
  objects as they are.
* `Scene.assign_addressed` — what assigning a property changes, as a path sees it.
* `Scene.assign_elsewhere` — an assigned property may not be found any more at the end of its path.
-/

namespace ViewMarkup

open Text

namespace Scene

variable {sc : Scene} {v owner target x : Value} {names front : List String} {last name : String}
  {p : Property} {s : Store}

/-! ## Where names end -/

/-- The attribute behind the name of a property is the one that the property is kept in. -/
theorem attributeNamed_of_get? (h : (sc.propertiesOf v).get? name = some p) :
    sc.attributeNamed v name = p.target := by
  unfold attributeNamed
  rw [h]
  rfl

/-- What leads to a value leads to the attributes of its properties. -/
theorem Leads.endsAt (h : sc.Leads v front owner)
    (hFound : (sc.propertiesOf owner).get? last = some p) :
    sc.EndsAt v (front ++ [last]) owner p.target := by
  induction h with
  | here =>
    rw [← attributeNamed_of_get? hFound]
    exact .last
  | through hName _ hInner _ _ ih =>
    refine .through ?_ (ih hFound)
    rw [attributeNamed_of_get? hName]
    exact hInner

/-- A declared name ends at the attribute of its property. -/
theorem Declares.endsAt (h : sc.Declares v names owner p) : sc.EndsAt v names owner p.target := by
  obtain ⟨front, last, rfl, hLeads, hFound, -⟩ := h
  exact hLeads.endsAt hFound

/-- Only objects declare properties. -/
theorem Declares.exists_object (h : sc.Declares v names owner p) : ∃ id, owner = .object id := by
  obtain ⟨-, last, -, -, hFound, -⟩ := h
  obtain ⟨id, cls, hOwner, -⟩ := exists_component_of_get? hFound
  exact ⟨id, hOwner⟩

/-- An empty text is no identifier. -/
theorem upToClosingDot_of_identifiers
    (h : ∀ segment ∈ names, isIdentifier segment = true) : upToClosingDot names = names := by
  apply upToClosingDot_eq_self
  intro hMem
  have hEmpty : isIdentifier "" = true := h "" hMem
  exact absurd hEmpty (by decide)

/-- A declared name stays one as long as what is read on its way stays as it is. -/
theorem Declares.congr {cells : List Cell} (h : sc.Declares v names owner p)
    (hNames : upToClosingDot names = names) (hSame : Store.SameBut cells sc.store s)
    (hCells : ∀ cell ∈ sc.along sc.reads v names, cell ∉ cells) :
    ({ sc with store := s } : Scene).Declares v names owner p := by
  have hLocate : sc.locate v names = .ok (owner, p) := by
    rw [locate_eq_ok_iff, hNames]
    exact h
  rw [← locate_congr hSame hCells, locate_eq_ok_iff, hNames] at hLocate
  exact hLocate

end Scene

/-! ## Refusals -/

/-- A property of an instance that cannot be assigned leaves all objects as they are. All that
remains is the note of the attempt, and what has been read from the resources. -/
theorem Assembly.assignProperty_fails {a : Assembly} {id : ObjectId} {entry : String × String}
    {p q : Progress} {e : Failure} (h : a.assignProperty id entry p = (.error e, q)) :
    ∃ loader, q = { p with
      loader
      journal := p.journal ++ [.assigned id entry.1 (a.wayAt p id entry.1)] } := by
  let noted : Progress :=
    { p with journal := p.journal ++ [.assigned id entry.1 (a.wayAt p id entry.1)] }
  let act := (a.sceneAt p).assign a.decoder a.files (.object id) entry.1 entry.2
  have hRun : a.assignProperty id entry p =
      (Building.fetching act >>= fun store => modify fun p => { p with store }) noted := rfl
  obtain ⟨loader, hFetch⟩ := fetching_state act noted
  rw [hRun, run_bind] at h
  cases hFetched : Building.fetching act noted with
  | mk answer r =>
    rw [hFetched] at h hFetch
    cases answer with
    | ok store => cases h
    | error failure =>
      cases h
      exact ⟨loader, hFetch⟩

/-- A property that a host cannot assign leaves all that it works on as it is, but for what has been
read from the resources. -/
theorem Working.assign_fails {w : Workspace} {ref name raw : String} {id : ObjectId} {bare : Bool}
    {e : Failure} {l? : Option Loader} (hFind : w.find? ref = .ok (some id))
    (h : w.scene.assign (if bare then Decoder.make [] [] else w.builder.decoder) w.builder.files
      (.object id) name raw (if bare then none else some w.world.loader) = (.error e, l?)) :
    ∃ loader, Working.assign ref name raw bare w =
      (.error (.failed e), { w with world := { w.world with loader } }) := by
  have hRun : Working.assign ref name raw bare w =
      (match l? with
        | some loader => (.error (.failed e), { w with world := { w.world with loader } })
        | none => (.error (.failed e), w)) := by
    unfold Working.assign
    rw [run_bind_of_eq_ok (find_of_find? hFind), run_bind_of_eq_ok (run_get w)]
    simp only [run_eq, h]
    cases l? <;> rfl
  rw [hRun]
  cases l? with
  | none => exact ⟨w.world.loader, rfl⟩
  | some loader => exact ⟨loader, rfl⟩

namespace Scene

/-- A property is assigned by its name as an attribute is set by its path. What is refused leaves
all objects as they are. What is assigned, by a name whose segments are identifiers, is one
attribute of one object; writing the value along the path would leave the same objects behind; and
the value is what is read along the path afterwards, unless an attribute on its way is read from
the one that has been assigned: because it is that one, or follows from it. -/
theorem assign_addressed (name raw : String) :
    (∀ (a : Assembly) (id : ObjectId) (p q : Progress) (e : Failure),
      a.assignProperty id (name, raw) p = (.error e, q) →
        ∃ loader, q = { p with
          loader
          journal := p.journal ++ [.assigned id name (a.wayAt p id name)] }) ∧
    (∀ (w : Workspace) (ref : String) (id : ObjectId) (bare : Bool) (e : Failure)
        (l? : Option Loader), w.find? ref = .ok (some id) →
      w.scene.assign (if bare then Decoder.make [] [] else w.builder.decoder) w.builder.files
        (.object id) name raw (if bare then none else some w.world.loader) = (.error e, l?) →
        ∃ loader, Working.assign ref name raw bare w =
          (.error (.failed e), { w with world := { w.world with loader } })) ∧
    ∀ (sc : Scene) (d : Decoder) (fs : Files) (target : Value) (l? l'? : Option Loader) (s : Store),
      sc.assign d fs target name raw l? = (.ok s, l'?) →
      (∀ segment ∈ splitOn '.' name, isIdentifier segment = true) →
      ∃ id p v, sc.Declares target (splitOn '.' name) (.object id) p ∧
        d.fetchProperty fs p raw l? = (.ok v, l'?) ∧
        s = sc.store.setField id p.target v ∧
        (∀ cell, s.valueAt? cell =
          if cell = .field id p.target then some v else sc.store.valueAt? cell) ∧
        sc.writePath target name v = .ok s ∧
        (.field id p.target ∉ sc.along sc.reads target (splitOn '.' name) →
          ({ sc with store := s } : Scene).readPath target name = .ok v) := by
  refine ⟨?_, ?_, ?_⟩
  · intro a id p q e h
    exact Assembly.assignProperty_fails h
  · intro w ref id bare e l? hFind h
    exact Working.assign_fails hFind h
  · intro sc d fs target l? l'? s h hNames
    have hSelf : upToClosingDot (splitOn '.' name) = splitOn '.' name :=
      upToClosingDot_of_identifiers hNames
    obtain ⟨owner, p, hDeclares⟩ := sc.exists_declares_of_assign d fs target raw h
    rw [sc.assign_of_declares d fs target raw hDeclares] at h
    rw [hSelf] at hDeclares
    obtain ⟨id, rfl⟩ := hDeclares.exists_object
    obtain ⟨v, l₁?, hFetch, hSet⟩ := exists_of_run_bind_eq_ok h
    rw [run_liftM] at hSet
    have hStore : sc.setAttribute (.object id) p.target v = .ok s := congrArg Prod.fst hSet
    obtain rfl : l₁? = l'? := congrArg Prod.snd hSet
    have hEnds : sc.EndsAt target (splitOn '.' name) (.object id) p.target := hDeclares.endsAt
    obtain ⟨cell, hCell, hTakes, hAssigned⟩ := setAttribute_eq_ok_iff.1 hStore
    cases hCell
    refine ⟨id, p, v, hDeclares, hFetch, hAssigned, ?_, ?_, ?_⟩
    · intro cell
      rw [hAssigned, Store.valueAt?_assign, if_pos (holds_of_takes hTakes)]
    · rw [writePath_eq hNames, hEnds.writeSegments, hStore]
    · intro hAside
      -- What is read on the way is what it was, so the name still ends where it did.
      have hSame : Store.SameBut [.field id p.target] sc.store s := by
        rw [hAssigned]
        exact .assign _ _ List.mem_cons_self
      have hAfter : ({ sc with store := s } : Scene).Declares target (splitOn '.' name)
          (.object id) p := by
        refine hDeclares.congr hSelf hSame fun cell hAlong hMem => ?_
        rw [List.mem_singleton.1 hMem] at hAlong
        exact hAside hAlong
      rw [readPath_eq hNames]
      exact hAfter.endsAt.readSegments (attribute?_setAttribute hStore)

end Scene

namespace Sample

/-- A picture that leads to another one. -/
def linked : Scene where
  classes := pictures.library.classes
  store := pictureWorld.store

/-- A picture that leads to itself: it is the size of what it shows. -/
def selfLinked : Scene where
  classes := pictures.library.classes
  store.objects := #[
    { type := .component 0, fields := [("title", .text ""), ("image", .object 1)] },
    { type := .component 0
      fields := [("title", .text ""), ("image", .none), ("size", .object 0)] }]

end Sample

namespace Scene

/-- A title is given to what a picture leads to. -/
theorem assign_addressed_linked :
    ∃ s, Sample.linked.assign {} {} (.object 1) "link.title" "b" none = (.ok s, none) ∧
      s = Sample.linked.store.setField 3 "title" (.text "b") ∧
      Sample.linked.writePath (.object 1) "link.title" (.text "b") = .ok s ∧
      ({ Sample.linked with store := s } : Scene).readPath (.object 1) "link.title" =
        .ok (.text "b") := by
  have hNames : ∀ segment ∈ splitOn '.' "link.title", isIdentifier segment = true := by
    decide +kernel
  have hAssign : Sample.linked.assign {} {} (.object 1) "link.title" "b" none =
      (.ok (Sample.linked.store.setField 3 "title" (.text "b")), none) := rfl
  obtain ⟨-, -, hAssigned⟩ := assign_addressed "link.title" "b"
  obtain ⟨id, p, v, hDeclares, hFetch, hStore, -, hWrite, hRead⟩ :=
    hAssigned _ _ _ _ _ _ _ hAssign hNames
  have hTitle : Sample.linked.locate (.object 1) (splitOn '.' "link.title") =
      .ok (.object 3, { name := "title", kind := .string, target := "title" }) := rfl
  rw [← upToClosingDot_of_identifiers hNames, ← locate_eq_ok_iff, hTitle] at hDeclares
  cases hDeclares
  cases hFetch
  exact ⟨_, hAssign, rfl, hWrite, hRead (by decide +kernel)⟩

/-- An attribute may be assigned that is not on the way of its own name, and yet decide where this
name leads to afterwards: here to the size of an image, which has no image. -/
theorem assign_elsewhere :
    (∀ segment ∈ splitOn '.' "link.image", isIdentifier segment = true) ∧
    (.field 0 "image" ∉ Sample.selfLinked.along
      (fun v attr => (cellOf v attr).toList) (.object 0) (splitOn '.' "link.image")) ∧
    ∃ s, Sample.selfLinked.assign {} {} (.object 0) "link.image" "icon"
        (some (.tables [("icon", ⟨4, 2⟩)] [] [])) =
          (.ok s, some (.tables [("icon", ⟨4, 2⟩)] [] [])) ∧
      s = Sample.selfLinked.store.setField 0 "image" (.image 4 2) ∧
      ({ Sample.selfLinked with store := s } : Scene).readPath (.object 0) "link.image" =
        .error (.of (.binding (.missing "tuple" "image" "link.image"))) := by
  refine ⟨?_, ?_, ?_⟩
  · decide +kernel
  · decide +kernel
  · exact ⟨_, rfl, rfl, rfl⟩

end Scene
end ViewMarkup
