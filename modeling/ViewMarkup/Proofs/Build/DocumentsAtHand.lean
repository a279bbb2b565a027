import ViewMarkup.Proofs.Build.Framed

/-!
# Building with other documents at hand

Two builds may have come equally far with different documents read, since one of them has them in
its own tree already. What is done to single objects then goes on alike: documents have no part in
reading strings and images, and nothing else looks at the resources.

## Main results

* `Assembly.takeAttributes_alike`, `Assembly.deliver_alike`, `Assembly.takeText_alike` — what an
  element says about its instance is carried out alike.
* `Assembly.instantiate_alike`, `Assembly.append_alike` — instances are made and appended alike.
-/

namespace ViewMarkup

/-- Reading a document changes nothing about strings and images. -/
theorem Loader.Agrees.loadDocument (fs : Files) (name : String) (l : Loader) :
    l.Agrees fs ((loadDocument fs name).run l).2 := by
  cases l with
  | tables images strings documents =>
    rw [run_loadDocument_tables]
    split
    · exact .refl fs _
    · exact .refl fs _
    · split
      · exact .refl fs _
      · exact ⟨rfl, fun _ => rfl⟩
  | directory root stringsFile strings documents =>
    rw [run_loadDocument_directory]
    split
    · exact .refl fs _
    · split
      · exact .refl fs _
      · refine ⟨?_, fun _ => rfl⟩
        rw [run_loadStrings_directory, run_loadStrings_directory]
        cases strings with
        | some strings => rfl
        | none => cases readStrings fs (root.join stringsFile) <;> rfl

/-- A build that has come equally far, with other resources. -/
def Progress.withLoader (p : Progress) (l : Loader) : Progress := { p with loader := l }

/-- Two builds that have come equally far but for the documents that have been read. The resources
of the first one have the documents that are meant. -/
inductive Progress.Apart (fs : Files) (docs : String → Option Document) :
    Progress → Progress → Prop
  | mk {p : Progress} {l : Loader} :
      (∀ name, p.loader.document? fs name = docs name) → p.loader.Agrees fs l →
      Apart fs docs p (p.withLoader l)

namespace Progress.Apart

variable {fs : Files} {docs : String → Option Document} {p q : Progress}

theorem registries (h : Apart fs docs p q) : q.registries = p.registries := by
  cases h
  rfl

theorem tally (h : Apart fs docs p q) : q.tally = p.tally := by
  cases h
  rfl

theorem document? (h : Apart fs docs p q) (name : String) :
    p.loader.document? fs name = docs name := by
  cases h with
  | mk hDocs hAgrees => exact hDocs name

/-- Registering the same on both sides. -/
theorem register (h : Apart fs docs p q) (rs : Registries) :
    Apart fs docs { p with registries := rs } { q with registries := rs } := by
  cases h with
  | @mk l hDocs hAgrees => exact .mk (p := { p with registries := rs }) (l := l) hDocs hAgrees

/-- The first build may read a document that the second one has no need of. -/
theorem load (h : Apart fs docs p q) {name : String} {r : Except Failure Document} {l : Loader}
    (hRun : (loadDocument fs name).run p.loader = (r, l)) : Apart fs docs (p.withLoader l) q := by
  have hLoader : ((loadDocument fs name).run p.loader).2 = l := by rw [hRun]
  cases h with
  | @mk l' hDocs hAgrees =>
    refine .mk (p := p.withLoader l) (l := l') (fun other => ?_) ?_
    · rw [← hDocs other, ← document?_run_loadDocument fs name other p.loader, hLoader]
      rfl
    · have hLoaded := Loader.Agrees.loadDocument fs name p.loader
      rw [hLoader] at hLoaded
      exact hLoaded.symm.trans hAgrees

/-- The resources are all that differs. -/
theorem outlying (fs : Files) (docs : String → Option Document) : Outlying (Apart fs docs) := by
  refine ⟨fun h => ?_, fun {p q} p' h hRegistries hLoader => ?_⟩
  · cases h with
    | mk _ _ => exact ⟨_, _, rfl⟩
  · cases h with
    | @mk l hDocs hAgrees =>
      rw [← hLoader] at hDocs hAgrees
      show Apart fs docs p' { p' with registries := p.registries, loader := l }
      rw [← hRegistries]
      exact .mk hDocs hAgrees

/-- Strings and images are the same, and reading them changes nothing about the documents. -/
theorem sameValues (fs : Files) (docs : String → Option Document) :
    Loader.SameValues fs fs fun l l' =>
      (∀ name, l.document? fs name = docs name) ∧ l.Agrees fs l' where
  strings h := h.2.strings
  image name h := h.2.image name
  read {l _} h := ⟨fun name => (document?_run_loadStrings fs name l).trans (h.1 name),
    (Loader.Agrees.sameValues fs).read h.2⟩

end Progress.Apart

section

variable {fs : Files} {docs : String → Option Document} {α : Type}

theorem Alike.ofRegistering (act : Registering α) :
    Alike (Progress.Apart fs docs) (Building.registering act) (Building.registering act) := by
  intro p q h
  cases h with
  | mk hDocs hAgrees => exact ⟨rfl, .mk hDocs hAgrees⟩

end

namespace Assembly

variable {a : Assembly} {docs : String → Option Document} {id parent view : ObjectId}
  {caps : Capabilities}

theorem tell_alike (call : Call) :
    Alike (Progress.Apart a.files docs) (a.tell id call) (a.tell id call) :=
  (Progress.Apart.outlying a.files docs).framed.tell (Store.unseen_eq _) call

theorem deliver_alike (i : Instruction) :
    Alike (Progress.Apart a.files docs) (a.deliver id caps i) (a.deliver id caps i) :=
  (Progress.Apart.outlying a.files docs).framed.deliver (Store.unseen_eq _) i

theorem deliverAll_alike (is : List Instruction) :
    Alike (Progress.Apart a.files docs) (a.deliverAll id caps is) (a.deliverAll id caps is) :=
  .forM deliver_alike is

theorem takeText_alike (name text : String) :
    Alike (Progress.Apart a.files docs) (a.takeText id caps name text)
      (a.takeText id caps name text) :=
  (Progress.Apart.outlying a.files docs).framed.takeText (Store.unseen_eq _) name text

theorem takeAttributes_alike (attributes : Table String String) :
    Alike (Progress.Apart a.files docs) (a.takeAttributes id attributes)
      (a.takeAttributes id attributes) := by
  refine (Progress.Apart.outlying a.files docs).owing.takeAttributes (fun sc _ _ _ => ?_) attributes
  have hSame := Progress.Apart.sameValues a.files docs
  refine .ofFetching (sc.assign_alike _ hSame _ _ _) (fun h => ?_) fun {p q l l'} h hNext => ?_
  · cases h with
    | mk hDocs hAgrees => exact ⟨hDocs, hAgrees⟩
  · cases h with
    | mk _ _ => exact .mk (p := p.withLoader l) (l := l') hNext.1 hNext.2

theorem checkAppend_alike : Alike (Progress.Apart a.files docs) (a.checkAppend parent caps)
    (a.checkAppend parent caps) :=
  (Progress.Apart.outlying a.files docs).counting.checkAppend (Store.unseen_eq _)

theorem append_alike : Alike (Progress.Apart a.files docs) (a.append parent caps view)
    (a.append parent caps view) :=
  (Progress.Apart.outlying a.files docs).counting.append (Store.unseen_eq _)

theorem instantiate_alike (c : Component) :
    Alike (Progress.Apart a.files docs) (a.instantiate c) (a.instantiate c) :=
  (Progress.Apart.outlying a.files docs).framed.instantiate (Store.unseen_eq _) c

end Assembly
end ViewMarkup
