import ViewMarkup.Fetch
import ViewMarkup.Proofs.Outcome

/-!
# What resources answer

Resources keep what they have read. That does not change what they answer: a document that has been
read once is the same document ever after (`document?_run_loadDocument`), and reading strings and
images has no part in it (`Decoder.fetchProperty_yields`).

The other way round, strings and images do not depend on what has been read. Two loaders that agree
about them (`Loader.Agrees`) answer the same to a property and agree afterwards. So do resources in
different files, if they go together in that respect (`Loader.SameValues`).

## Main results

* `document?_run_loadDocument`, `Decoder.fetchProperty_yields` — documents stay what they are.
* `Decoder.fetchProperty_alike` — a property is read alike from loaders that agree.
-/

namespace ViewMarkup

open Text

/-- The document that resources have under a name, if it is there and can be read. -/
def Loader.document? (fs : Files) (l : Loader) (name : String) : Option Document :=
  ((loadDocument fs name).run l).1.toOption

variable {fs : Files} {l l' : Loader}

/-! ## Documents -/

theorem document?_eq_some_of_run {name : String} {d : Document}
    (h : (loadDocument fs name).run l = (.ok d, l')) : l.document? fs name = some d := by
  unfold Loader.document?
  rw [h]
  rfl

section Tables

variable (fs : Files) (images : Table String Image) (strings : Table String String)
  (documents : Table String Stored) (name : String)

theorem run_loadDocument_tables :
    (loadDocument fs name).run (.tables images strings documents) =
      match documents.get? name with
      | none => (.error (notFound (.document name)), .tables images strings documents)
      | some (.parsed d) => (.ok d, .tables images strings documents)
      | some (.text s) =>
        match Document.read (.text s) name with
        | .error e => (.error e, .tables images strings documents)
        | .ok d => (.ok d, .tables images strings (documents.put name (.parsed d))) := by
  unfold loadDocument
  rw [run_eq, run_bind, run_get]
  dsimp only
  cases documents.get? name with
  | none => rfl
  | some stored =>
    cases stored with
    | parsed d => rfl
    | text s =>
      dsimp only
      rw [run_bind, run_liftM]
      cases Document.read (.text s) name with
      | error e => rfl
      | ok d => rfl

theorem document?_tables :
    (Loader.tables images strings documents).document? fs name =
      (documents.get? name).bind fun
        | .parsed d => some d
        | .text s => (Document.read (.text s) name).toOption := by
  unfold Loader.document?
  rw [run_loadDocument_tables]
  cases documents.get? name with
  | none => rfl
  | some stored =>
    cases stored with
    | parsed d => rfl
    | text s =>
      rw [Option.bind_some]
      dsimp only
      cases Document.read (.text s) name with
      | error e => rfl
      | ok d => rfl

end Tables

section Directory

variable (fs : Files) (root : Path) (stringsFile : String) (strings : Option (Table String String))
  (documents : Table String Document) (name : String)

/-- The document in the file that a directory has for a name. -/
def documentIn (fs : Files) (root : Path) (name : String) : Except Failure Document := do
  let p := root.join (name ++ ".xml")
  match ← fs.file? p with
  | none => throw (notFound (.document (p.render fs.root)))
  | some c => Document.read (.bytes c.data) (p.render fs.root)

theorem run_loadDocument_directory :
    (loadDocument fs name).run (.directory root stringsFile strings documents) =
      match documents.get? name with
      | some d => (.ok d, .directory root stringsFile strings documents)
      | none =>
        match documentIn fs root name with
        | .error e => (.error e, .directory root stringsFile strings documents)
        | .ok d => (.ok d, .directory root stringsFile strings (documents.put name d)) := by
  unfold loadDocument documentIn
  rw [run_eq, run_bind, run_get]
  dsimp only
  cases documents.get? name with
  | some d => rfl
  | none =>
    dsimp only
    rw [run_bind, run_liftM]
    cases fs.file? (root.join (name ++ ".xml")) with
    | error e => rfl
    | ok content =>
      cases content with
      | none => rfl
      | some c =>
        dsimp only
        rw [run_bind, run_liftM]
        show _ = match Document.read (.bytes c.data) _ with
          | .error e => _
          | .ok d => _
        cases Document.read (.bytes c.data) ((root.join (name ++ ".xml")).render fs.root) with
        | error e => rfl
        | ok d => rfl

theorem document?_directory :
    (Loader.directory root stringsFile strings documents).document? fs name =
      (documents.get? name).or (documentIn fs root name).toOption := by
  unfold Loader.document?
  rw [run_loadDocument_directory]
  cases documents.get? name with
  | some d => rfl
  | none =>
    dsimp only
    cases documentIn fs root name with
    | error e => rfl
    | ok d => rfl

end Directory

/-- Loading a document changes no answer, not even one that is a failure. -/
theorem answer_run_loadDocument (fs : Files) (name other : String) (l : Loader) :
    ((loadDocument fs other).run ((loadDocument fs name).run l).2).1 =
      ((loadDocument fs other).run l).1 := by
  cases l with
  | tables images strings documents =>
    rw [run_loadDocument_tables]
    cases hGet : documents.get? name with
    | none => rfl
    | some stored =>
      cases stored with
      | parsed d => rfl
      | text s =>
        dsimp only
        cases hRead : Document.read (.text s) name with
        | error e => rfl
        | ok d =>
          dsimp only
          rw [run_loadDocument_tables, run_loadDocument_tables]
          by_cases h : other = name
          · subst h
            rw [Table.get?_put_self, hGet]
            dsimp only
            rw [hRead]
          · rw [Table.get?_put_ne _ h]
            cases documents.get? other with
            | none => rfl
            | some stored =>
              cases stored with
              | parsed _ => rfl
              | text s =>
                dsimp only
                cases Document.read (.text s) other <;> rfl
  | directory root stringsFile strings documents =>
    rw [run_loadDocument_directory]
    cases hGet : documents.get? name with
    | some d => rfl
    | none =>
      dsimp only
      cases hRead : documentIn fs root name with
      | error e => rfl
      | ok d =>
        dsimp only
        rw [run_loadDocument_directory, run_loadDocument_directory]
        by_cases h : other = name
        · subst h
          rw [Table.get?_put_self, hGet]
          dsimp only
          rw [hRead]
        · rw [Table.get?_put_ne _ h]
          cases documents.get? other with
          | some _ => rfl
          | none =>
            dsimp only
            cases documentIn fs root other <;> rfl

/-- So the documents stay what they are. -/
theorem document?_run_loadDocument (fs : Files) (name other : String) (l : Loader) :
    ((loadDocument fs name).run l).2.document? fs other = l.document? fs other :=
  congrArg Except.toOption (answer_run_loadDocument fs name other l)

/-! ## Strings -/

theorem run_loadStrings_directory (fs : Files) (root : Path) (stringsFile : String)
    (strings : Option (Table String String)) (documents : Table String Document) :
    (loadStrings fs).run (.directory root stringsFile strings documents) =
      match strings with
      | some strings => (.ok strings, .directory root stringsFile (some strings) documents)
      | none =>
        match readStrings fs (root.join stringsFile) with
        | .error e => (.error e, .directory root stringsFile none documents)
        | .ok strings => (.ok strings, .directory root stringsFile (some strings) documents) := by
  unfold loadStrings
  rw [run_eq, run_bind, run_get]
  cases strings with
  | some strings => rfl
  | none =>
    dsimp only
    rw [run_bind, run_liftM]
    cases readStrings fs (root.join stringsFile) with
    | error e => rfl
    | ok strings => rfl

/-- Reading the strings changes no answer about documents. -/
theorem answer_run_loadStrings (fs : Files) (name : String) (l : Loader) :
    ((loadDocument fs name).run ((loadStrings fs).run l).2).1 =
      ((loadDocument fs name).run l).1 := by
  cases l with
  | tables images strings documents => rfl
  | directory root stringsFile strings documents =>
    rw [run_loadStrings_directory]
    cases strings with
    | some strings => rfl
    | none =>
      dsimp only
      cases readStrings fs (root.join stringsFile) with
      | error e => rfl
      | ok strings =>
        dsimp only
        rw [run_loadDocument_directory, run_loadDocument_directory]
        cases documents.get? name with
        | some _ => rfl
        | none =>
          dsimp only
          cases documentIn fs root name <;> rfl

theorem document?_run_loadStrings (fs : Files) (name : String) (l : Loader) :
    ((loadStrings fs).run l).2.document? fs name = l.document? fs name :=
  congrArg Except.toOption (answer_run_loadStrings fs name l)

/-! ## Strings and images -/

/-- Two loaders that answer the same about strings and images. -/
structure Loader.Agrees (fs : Files) (l l' : Loader) : Prop where
  strings : ((loadStrings fs).run l').1 = ((loadStrings fs).run l).1
  image (name : String) : l'.image fs name = l.image fs name

namespace Loader.Agrees

theorem refl (fs : Files) (l : Loader) : l.Agrees fs l := ⟨rfl, fun _ => rfl⟩

theorem symm (h : l.Agrees fs l') : l'.Agrees fs l :=
  ⟨h.strings.symm, fun name => (h.image name).symm⟩

theorem trans {l'' : Loader} (h : l.Agrees fs l') (h' : l'.Agrees fs l'') : l.Agrees fs l'' :=
  ⟨h'.strings.trans h.strings, fun name => (h'.image name).trans (h.image name)⟩

/-- Reading the strings changes no answer about strings and images. -/
theorem loadStrings (fs : Files) (l : Loader) : l.Agrees fs ((loadStrings fs).run l).2 := by
  cases l with
  | tables images strings documents => exact .refl fs _
  | directory root stringsFile strings documents =>
    rw [run_loadStrings_directory]
    cases strings with
    | some strings => exact .refl fs _
    | none =>
      dsimp only
      cases hRead : readStrings fs (root.join stringsFile) with
      | error e => exact .refl fs _
      | ok strings =>
        refine ⟨?_, fun name => rfl⟩
        rw [run_loadStrings_directory, run_loadStrings_directory, hRead]

end Loader.Agrees

/-- Resources that go together answer the same about strings and images, each in its own files, and
still do when the strings have been read. -/
structure Loader.SameValues (fs fs' : Files) (R : Loader → Loader → Prop) : Prop where
  strings {l l' : Loader} : R l l' → ((loadStrings fs').run l').1 = ((loadStrings fs).run l).1
  image {l l' : Loader} (name : String) : R l l' → l'.image fs' name = l.image fs name
  read {l l' : Loader} : R l l' → R ((loadStrings fs).run l).2 ((loadStrings fs').run l').2

theorem Loader.Agrees.sameValues (fs : Files) : SameValues fs fs (Agrees fs) where
  strings h := h.strings
  image name h := h.image name
  read h := (loadStrings fs _).symm.trans (h.trans (loadStrings fs _))

/-! ## Values of properties -/

namespace Decoder

variable {d : Decoder} {v : Value}

private theorem readText_objects {raw : String} (h : readText raw = .value v) : v.objects = [] := by
  unfold readText at h
  split at h <;> cases h <;> rfl

/-- No literal stands for an object. -/
theorem read_objects {raw : String} {kind : Kind} {enumeration : Option Enumeration}
    (h : d.read raw kind enumeration = .ok (.value v)) : v.objects = [] := by
  -- Every kind but texts makes its value from what its own reading gives.
  have hMade {α : Type} {x : Except Failure α} {f : α → Value} (hf : ∀ a, (f a).objects = [])
      (h : x.map (Reading.value ∘ f) = .ok (.value v)) : v.objects = [] := by
    obtain ⟨a, -, ha⟩ := exists_of_map_eq_ok h
    cases ha
    exact hf a
  have hFault {α : Type} {x : Except DecodeFault α} {f : α → Value}
      (hf : ∀ a, (f a).objects = [])
      (h : (x.map (Reading.value ∘ f)).mapError (Failure.of ∘ Fault.decode) = .ok (.value v)) :
      v.objects = [] := by
    obtain ⟨a, -, ha⟩ := exists_of_map_eq_ok (eq_ok_of_mapError_eq_ok h)
    cases ha
    exact hf a
  cases kind with (simp only [read] at h)
  | string => exact readText_objects (Except.ok.inj h)
  | bool => exact hFault (fun _ => rfl) h
  | int => exact hMade (fun _ => rfl) h
  | float => exact hMade (fun _ => rfl) h
  | color => exact hFault (fun _ => rfl) h
  | font => exact hMade (fun _ => rfl) h
  | fontDescriptor => exact hMade (fun _ => rfl) h
  | enumeration =>
    cases enumeration with
    | none => cases h
    | some e => exact hFault (fun _ => rfl) h
  | image | object | other _ => simp at h

/-- Reading a property gives no object either. -/
theorem readProperty_objects {p : Property} {raw : String}
    (h : d.readProperty p raw = .ok (.value v)) : v.objects = [] := by
  unfold readProperty at h
  split at h
  · cases h
  · exact read_objects (eq_ok_of_mapError_eq_ok h)

end Decoder

/-- What resources leave behind, where there have been some: resources again, with the same
documents, strings and images. -/
def Loader.KeptBy (fs : Files) (l : Loader) (l? : Option Loader) : Prop :=
  ∃ l', l? = some l' ∧ (∀ name, l'.document? fs name = l.document? fs name) ∧ l.Agrees fs l'

theorem Loader.KeptBy.refl (l : Loader) : l.KeptBy fs (some l) :=
  ⟨l, rfl, fun _ => rfl, .refl fs l⟩

/-- A look-up in resources that are there. -/
theorem withResources_yields {α : Type} {act : Loading α} {P : α → Option Loader → Prop}
    {B : Option Loader → Prop}
    (h : Yields act l (fun a t => P a (some t)) fun t => B (some t)) (missing : Failure) :
    Yields (withResources missing act) (some l) P B := by
  have hWith : withResources missing act (some l) = ((act l).1, some (act l).2) := rfl
  cases hRun : act l with
  | mk r t =>
    rw [hRun] at hWith
    cases r with
    | ok x => exact .ofOk hWith (h.ok hRun)
    | error e => exact .ofError hWith (h.error hRun)

/-- Looking a text up changes no answer about documents. -/
theorem loadText_yields (fs : Files) (key : String) (l : Loader) :
    Yields (loadText fs key) l (fun _ t => l.KeptBy fs (some t)) fun t => l.KeptBy fs (some t) := by
  have hStrings : Yields (loadStrings fs) l (fun _ t => l.KeptBy fs (some t))
      fun t => l.KeptBy fs (some t) := by
    have hKept {r : Except Failure (Table String String)} {t : Loader}
        (h : (loadStrings fs).run l = (r, t)) : l.KeptBy fs (some t) := by
      obtain rfl : ((loadStrings fs).run l).2 = t := by rw [h]
      exact ⟨_, rfl, fun name => document?_run_loadStrings fs name l, .loadStrings fs l⟩
    exact ⟨fun h => hKept h, fun h => hKept h⟩
  refine .bind hStrings fun strings t ht => ?_
  split
  · exact .ofPure ht
  · exact .ofThrow ht

/-- Nothing that a text stands for is an object, and fetching it changes no answer about
documents. -/
theorem Reading.fetch_yields {r : Reading} (hr : ∀ v, r = .value v → v.objects = [])
    (fs : Files) (property : String) (l : Loader) :
    Yields (r.fetch fs property) (some l) (fun v l? => v.objects = [] ∧ l.KeptBy fs l?)
      (l.KeptBy fs) := by
  cases r with
  | value v => exact .ofPure ⟨hr v rfl, .refl l⟩
  | localized raw key =>
    refine withResources_yields (.map ?_) _
    exact (loadText_yields fs key l).mono (fun _ _ h => ⟨rfl, h⟩) fun _ h => h
  | picture name =>
    refine withResources_yields ?_ _
    refine .bind (P := fun _ t => t = l) (.ofGet rfl) fun _ t ht => ?_
    rw [ht]
    refine .bind (P := fun _ t => t = l) (.ofLift (fun _ _ => rfl) (.refl l)) fun _ u hu => ?_
    rw [hu]
    exact .ofPure ⟨rfl, .refl l⟩

theorem Decoder.fetchProperty_yields (d : Decoder) (fs : Files) (p : Property) (raw : String)
    (l : Loader) :
    Yields (d.fetchProperty fs p raw) (some l) (fun v l? => v.objects = [] ∧ l.KeptBy fs l?)
      (l.KeptBy fs) := by
  refine .bind (P := fun r l? => d.readProperty p raw = .ok r ∧ l? = some l)
    (.ofLift (fun _ h => ⟨h, rfl⟩) (.refl l)) ?_
  rintro r _ ⟨hr, rfl⟩
  cases r with
  | value v =>
    refine Reading.fetch_yields (fun w hw => ?_) ..
    cases hw
    exact readProperty_objects hr
  | localized raw key => exact .adapt (Reading.fetch_yields (fun _ h => by cases h) ..)
  | picture name => exact Reading.fetch_yields (fun _ h => by cases h) ..

/-! ## Resources that agree -/

section

variable {fs' : Files} {R : Loader → Loader → Prop}

/-- Texts do not depend on the documents that have been read, nor on whether the strings have
been. -/
theorem loadText_alike (h : Loader.SameValues fs fs' R) (key : String) :
    Alike R (loadText fs key) (loadText fs' key) := by
  refine .bind (fun l l' hR => ⟨(h.strings hR).symm, h.read hR⟩) fun strings => ?_
  split
  · exact .ofPure _
  · exact .ofThrow _

private theorem withResources_alike {α : Type} {x y : Loading α} (h : Alike R x y)
    (missing : Failure) :
    Alike (Option.Rel R) (withResources missing x) (withResources missing y) := by
  intro l? l'? hR
  cases hR with
  | none => exact ⟨rfl, .none⟩
  | some hSame =>
    obtain ⟨hAnswer, hState⟩ := h _ _ hSame
    exact ⟨hAnswer, .some hState⟩

private theorem Reading.fetch_alike (h : Loader.SameValues fs fs' R) (property : String)
    (r : Reading) : Alike (Option.Rel R) (r.fetch fs property) (r.fetch fs' property) := by
  cases r with
  | value v => exact .ofPure v
  | localized raw key =>
    refine withResources_alike ?_ _
    exact .bind (loadText_alike h key) fun s => .ofPure (Value.text s)
  | picture name =>
    refine withResources_alike (.ofGet fun l l' hR => ?_) _
    rw [h.image name hR]
    have hRest : Alike R
        (do let image ← liftM (l.image fs name); return Value.image image.width image.height)
        (do let image ← liftM (l.image fs name); return Value.image image.width image.height) :=
      .bind (.ofLift _) fun _ => .ofPure _
    exact hRest l l' hR

/-- A property is read alike from resources that agree about strings and images. -/
theorem Decoder.fetchProperty_alike (d : Decoder) (h : Loader.SameValues fs fs' R) (p : Property)
    (raw : String) :
    Alike (Option.Rel R) (d.fetchProperty fs p raw) (d.fetchProperty fs' p raw) := by
  refine .bind (.ofLift _) fun r => ?_
  cases r with
  | value v => exact Reading.fetch_alike h p.name _
  | localized raw key => exact .adapt (Reading.fetch_alike h p.name _)
  | picture name => exact Reading.fetch_alike h p.name _

end

end ViewMarkup
