import ViewMarkup.Proofs.Fetch

/-!
# What a directory answers over time

Look-ups in a directory take turns with changes of its files. What has been read of a file is kept
or not, according to its kind: a document under its name, the strings all at once, an image never.
Nothing is kept of a file that is not there or cannot be read, but for the strings, of which a file
that is not there holds none.

What a loader keeps is read off the history alone. A document is kept just when some look-up has
answered with it (`keptDocument?_after_iff`), and a string table just when some look-up has read it
(`keptStrings?_after_iff`). Before that the loader is as good as new: it answers what a new one does
with the files as they are by then.

## Main results

* `keptDocument?_next_iff`, `keptStrings?_next_iff` — what one event makes of what is kept.
* `keptDocument?_after_iff`, `keptStrings?_after_iff` — what is kept after any events.
* `Resources.after_answers` — what a directory answers after any events, and what a look-up that
  fails leaves behind.
-/

namespace ViewMarkup

/-! ## What loaders keep -/

namespace Loader

/-- The document that the loader of a directory has kept under a name. -/
def keptDocument? : Loader → String → Option Document
  | tables .., _ => none
  | directory _ _ _ documents, name => documents.get? name

/-- The string table that the loader of a directory has kept. -/
def keptStrings? : Loader → Option (Table String String)
  | tables .. => none
  | directory _ _ strings _ => strings

end Loader

/-! ## Look-ups -/

/-- What is looked up. -/
inductive Inquiry where
  | image (name : String)
  | text (key : String)
  | document (name : String)
deriving DecidableEq, Repr

/-- What a look-up finds. -/
inductive Found where
  | image (i : Image)
  | text (s : String)
  | document (d : Document)

/-- The document that has been found, if it is one. -/
def Found.document? : Found → Option Document
  | document d => some d
  | _ => none

/-- The text with a key in a string table. -/
def textIn (table : Table String String) (key : String) : Except Failure String :=
  (table.get? key).elim (.error (notFound (.text key))) .ok

namespace Inquiry

/-- Looks something up. -/
def find (fs : Files) : Inquiry → Loading Found
  | image name => do return .image (← ((← get).image fs name : Except Failure Image))
  | text key => .text <$> loadText fs key
  | document name => .document <$> loadDocument fs name

variable (fs : Files) (root : Path) (stringsFile name key : String)
  (strings : Option (Table String String)) (documents : Table String Document)

theorem run_find_image (l : Loader) :
    ((image name).find fs).run l = ((l.image fs name).map .image, l) := by
  show ((get : Loading Loader) >>= fun l =>
    liftM (l.image fs name) >>= fun i => pure (Found.image i)) l = _
  rw [run_bind, run_get]
  dsimp only
  rw [run_bind, run_liftM]
  cases l.image fs name <;> rfl

private theorem run_loadText (l : Loader) :
    (loadText fs key).run l =
      match (loadStrings fs).run l with
      | (.error e, t) => (.error e, t)
      | (.ok table, t) => (textIn table key, t) := by
  rw [loadText, run_eq, run_bind, ← run_eq (loadStrings fs)]
  cases (loadStrings fs).run l with
  | mk r t =>
    cases r with
    | error e => rfl
    | ok table =>
      unfold textIn
      dsimp only
      cases table.get? key <;> rfl

/-- The strings are read unless they have been, and they are kept even if the text is not there. -/
theorem run_find_text :
    ((text key).find fs).run (.directory root stringsFile strings documents) =
      match strings.elim (readStrings fs (root.join stringsFile)) .ok with
      | .error e => (.error e, .directory root stringsFile strings documents)
      | .ok table =>
        ((textIn table key).map .text, .directory root stringsFile (some table) documents) := by
  show (Found.text <$> loadText fs key) _ = _
  rw [run_map, ← run_eq (loadText fs key), run_loadText, run_loadStrings_directory]
  cases strings with
  | some table => rfl
  | none =>
    rw [Option.elim_none]
    cases readStrings fs (root.join stringsFile) <;> rfl

/-- The document is read unless it has been, and it is kept. -/
theorem run_find_document :
    ((document name).find fs).run (.directory root stringsFile strings documents) =
      match (documents.get? name).elim (documentIn fs root name) .ok with
      | .error e => (.error e, .directory root stringsFile strings documents)
      | .ok d =>
        (.ok (.document d), .directory root stringsFile strings (documents.put name d)) := by
  show (Found.document <$> loadDocument fs name) _ = _
  rw [run_map, ← run_eq (loadDocument fs name), run_loadDocument_directory]
  cases hGet : documents.get? name with
  | some d =>
    rw [Option.elim_some]
    dsimp only
    rw [Table.put_of_get? hGet]
    rfl
  | none =>
    rw [Option.elim_none]
    cases documentIn fs root name <;> rfl

end Inquiry

/-! ## What happens to a directory -/

/-- Files as they are, and a loader with what it has kept of them. -/
structure Resources where
  files : Files
  loader : Loader

namespace Resources

/-- What happens: something is done to the files, such as `Files.write`, or something is looked
up. -/
inductive Event where
  | edit (change : Files → Files)
  | ask (inquiry : Inquiry)

/-- A directory of which nothing has been read. -/
def fresh (fs : Files) (root : Path) (stringsFile : String) : Resources where
  files := fs
  loader := .directory root stringsFile none []

/-- What a look-up answers. -/
def answer (r : Resources) (inquiry : Inquiry) : Except Failure Found :=
  ((inquiry.find r.files).run r.loader).1

/-- What one event makes of resources. -/
def next (r : Resources) : Event → Resources
  | .edit change => { r with files := change r.files }
  | .ask inquiry => { r with loader := ((inquiry.find r.files).run r.loader).2 }

/-- What is left after some events. -/
def after (r : Resources) (events : List Event) : Resources := events.foldl next r

/-- One of some events has found the resources in a state as described. -/
def Happened (P : Resources → Event → Prop) (start : Resources) (events : List Event) : Prop :=
  ∃ before event rest, events = before ++ event :: rest ∧ P (start.after before) event

/-- A look-up has been answered so. -/
def Answered (inquiry : Inquiry) (found : Except Failure Found) :
    Resources → List Event → Prop :=
  Happened fun r event => event = .ask inquiry ∧ r.answer inquiry = found

/-- A look-up of a text has had the strings read from their file, which has been tried. -/
def StringsTried (p : Path) (outcome : Except Failure (Table String String)) :
    Resources → List Event → Prop :=
  Happened fun r event => (∃ key, event = .ask (.text key)) ∧ r.loader.keptStrings? = none ∧
    readStrings r.files p = outcome

/-- The resources are a directory, with whatever has been read of it. -/
def In (root : Path) (stringsFile : String) (r : Resources) : Prop :=
  ∃ strings documents, r.loader = .directory root stringsFile strings documents

variable {r start : Resources} {events : List Event} {event : Event} {root : Path}
  {stringsFile name key : String} {d : Document} {table : Table String String}

private theorem happened_cons_iff {P : Resources → Event → Prop} :
    Happened P start (event :: events) ↔ P start event ∨ Happened P (start.next event) events := by
  constructor
  · rintro ⟨before, other, rest, hCut, h⟩
    cases before with
    | nil =>
      cases hCut
      exact .inl h
    | cons _ before =>
      cases hCut
      exact .inr ⟨before, other, rest, rfl, h⟩
  · rintro (h | ⟨before, other, rest, rfl, h⟩)
    · exact ⟨[], event, events, rfl, h⟩
    · exact ⟨event :: before, other, rest, rfl, h⟩

/-- What becomes true at certain events of a directory, and stays true, is true just when one of
them has happened. -/
theorem after_iff_happened {K : Resources → Prop} {P : Resources → Event → Prop}
    (hIn : ∀ r event, In root stringsFile r → In root stringsFile (r.next event))
    (hStep : ∀ r event, In root stringsFile r → (K (r.next event) ↔ K r ∨ P r event))
    (hStart : In root stringsFile start) :
    K (start.after events) ↔ K start ∨ Happened P start events := by
  induction events generalizing start with
  | nil =>
    refine (or_iff_left ?_).symm
    rintro ⟨before, _, _, hCut, -⟩
    simp at hCut
  | cons event events ih =>
    show K ((start.next event).after events) ↔ _
    rw [ih (hIn _ _ hStart), hStep _ _ hStart, happened_cons_iff, or_assoc]

/-! ### Single events -/

section Directory

variable (fs : Files) (root : Path) (stringsFile : String) (strings : Option (Table String String))
  (documents : Table String Document)

theorem answer_document (name : String) :
    answer ⟨fs, .directory root stringsFile strings documents⟩ (.document name) =
      ((documents.get? name).elim (documentIn fs root name) .ok).map .document := by
  rw [answer, Inquiry.run_find_document]
  cases (documents.get? name).elim (documentIn fs root name) .ok <;> rfl

theorem next_document (name : String) :
    next ⟨fs, .directory root stringsFile strings documents⟩ (.ask (.document name)) =
      ⟨fs, .directory root stringsFile strings
        (((documents.get? name).elim (documentIn fs root name) .ok).toOption.elim documents
          (documents.put name))⟩ := by
  rw [next, Inquiry.run_find_document]
  cases (documents.get? name).elim (documentIn fs root name) .ok <;> rfl

theorem answer_text (key : String) :
    answer ⟨fs, .directory root stringsFile strings documents⟩ (.text key) =
      (strings.elim (readStrings fs (root.join stringsFile)) .ok).bind fun table =>
        (textIn table key).map .text := by
  rw [answer, Inquiry.run_find_text]
  cases strings.elim (readStrings fs (root.join stringsFile)) .ok <;> rfl

theorem next_text (key : String) :
    next ⟨fs, .directory root stringsFile strings documents⟩ (.ask (.text key)) =
      ⟨fs, .directory root stringsFile
        (strings.or (readStrings fs (root.join stringsFile)).toOption) documents⟩ := by
  rw [next, Inquiry.run_find_text]
  cases strings with
  | some table => rfl
  | none =>
    rw [Option.elim_none, Option.none_or]
    cases readStrings fs (root.join stringsFile) <;> rfl

end Directory

private theorem answer_image (r : Resources) (name : String) :
    r.answer (.image name) = (r.loader.image r.files name).map .image := by
  rw [answer, Inquiry.run_find_image]

theorem next_image (r : Resources) (name : String) : r.next (.ask (.image name)) = r := by
  rw [next, Inquiry.run_find_image]

theorem in_next (event : Event) (h : In root stringsFile r) :
    In root stringsFile (r.next event) := by
  obtain ⟨fs, l⟩ := r
  obtain ⟨strings, documents, rfl⟩ := h
  cases event with
  | edit change => exact ⟨strings, documents, rfl⟩
  | ask inquiry =>
    cases inquiry with
    | image name => exact ⟨strings, documents, by rw [next_image]⟩
    | text key => exact ⟨_, documents, by rw [next_text]⟩
    | document name => exact ⟨strings, _, by rw [next_document]⟩

/-- Only a look-up under the name itself changes what is kept under it. -/
theorem keptDocument?_next_of_ne (h : In root stringsFile r)
    (hOther : event ≠ .ask (.document name)) :
    (r.next event).loader.keptDocument? name = r.loader.keptDocument? name := by
  obtain ⟨fs, l⟩ := r
  obtain ⟨strings, documents, rfl⟩ := h
  cases event with
  | edit change => rfl
  | ask inquiry =>
    cases inquiry with
    | image other => rw [next_image]
    | text key =>
      rw [next_text]
      rfl
    | document other =>
      have hName : name ≠ other := fun hEq => hOther (hEq ▸ rfl)
      rw [next_document]
      show Table.get? _ name = _
      cases (documents.get? other).elim (documentIn fs root other) .ok with
      | error e => rfl
      | ok d => exact Table.get?_put_ne d hName

/-- A document is kept from the look-up on that answers with it. -/
theorem keptDocument?_next_iff (h : In root stringsFile r) :
    (r.next event).loader.keptDocument? name = some d ↔
      r.loader.keptDocument? name = some d ∨
        event = .ask (.document name) ∧ r.answer (.document name) = .ok (.document d) := by
  by_cases hEvent : event = .ask (.document name)
  · subst hEvent
    obtain ⟨fs, l⟩ := r
    obtain ⟨strings, documents, rfl⟩ := h
    rw [next_document, answer_document]
    show Table.get? _ name = _ ↔ documents.get? name = _ ∨ _
    cases hGet : documents.get? name with
    | some kept =>
      simp [Table.get?_put_self, Except.toOption, Except.map]
    | none =>
      cases documentIn fs root name with
      | error e => simp [hGet, Except.toOption, Except.map]
      | ok d => simp [Table.get?_put_self, Except.toOption, Except.map]
  · rw [keptDocument?_next_of_ne h hEvent]
    exact (or_iff_left fun hAsk => hEvent hAsk.1).symm

/-- The strings are read by the look-up of a text, unless they have been, and kept if they can be
read. -/
theorem keptStrings?_next_text (h : In root stringsFile r) (key : String) :
    (r.next (.ask (.text key))).loader.keptStrings? =
      r.loader.keptStrings?.or (readStrings r.files (root.join stringsFile)).toOption := by
  obtain ⟨fs, l⟩ := r
  obtain ⟨strings, documents, rfl⟩ := h
  rw [next_text]
  rfl

private theorem keptStrings?_next_of_ne (h : In root stringsFile r)
    (hOther : ∀ key, event ≠ .ask (.text key)) :
    (r.next event).loader.keptStrings? = r.loader.keptStrings? := by
  obtain ⟨fs, l⟩ := r
  obtain ⟨strings, documents, rfl⟩ := h
  cases event with
  | edit change => rfl
  | ask inquiry =>
    cases inquiry with
    | image name => rw [next_image]
    | text key => exact absurd rfl (hOther key)
    | document name =>
      rw [next_document]
      rfl

/-- A string table is kept from the look-up on that reads it. -/
theorem keptStrings?_next_iff (h : In root stringsFile r) :
    (r.next event).loader.keptStrings? = some table ↔
      r.loader.keptStrings? = some table ∨
        (∃ key, event = .ask (.text key)) ∧ r.loader.keptStrings? = none ∧
          readStrings r.files (root.join stringsFile) = .ok table := by
  by_cases hEvent : ∃ key, event = .ask (.text key)
  · obtain ⟨key, rfl⟩ := hEvent
    have hRead : (readStrings r.files (root.join stringsFile)).toOption = some table ↔
        readStrings r.files (root.join stringsFile) = .ok table :=
      ⟨eq_ok_of_toOption_eq_some, fun hOk => by rw [hOk]; rfl⟩
    rw [keptStrings?_next_text h, Option.or_eq_some_iff, hRead]
    simp
  · rw [keptStrings?_next_of_ne h (not_exists.1 hEvent)]
    exact (or_iff_left fun hAsk => hEvent hAsk.1).symm

/-! ### Any events -/

private theorem in_fresh (fs : Files) (root : Path) (stringsFile : String) :
    In root stringsFile (fresh fs root stringsFile) :=
  ⟨none, [], rfl⟩

private theorem in_after (events : List Event) (h : In root stringsFile start) :
    In root stringsFile (start.after events) := by
  induction events generalizing start with
  | nil => exact h
  | cons event events ih => exact ih (in_next event h)

theorem keptDocument?_after_iff (h : In root stringsFile start) :
    (start.after events).loader.keptDocument? name = some d ↔
      start.loader.keptDocument? name = some d ∨
        Answered (.document name) (.ok (.document d)) start events :=
  after_iff_happened (K := fun r => r.loader.keptDocument? name = some d)
    (fun _ event => in_next event) (fun _ _ => keptDocument?_next_iff) h

theorem keptStrings?_after_iff (h : In root stringsFile start) :
    (start.after events).loader.keptStrings? = some table ↔
      start.loader.keptStrings? = some table ∨
        StringsTried (root.join stringsFile) (.ok table) start events :=
  after_iff_happened (K := fun r => r.loader.keptStrings? = some table)
    (fun _ event => in_next event) (fun _ _ => keptStrings?_next_iff) h

/-! ### Answers -/

private theorem answer_document_of_kept (h : In root stringsFile r)
    (hKept : r.loader.keptDocument? name = some d) :
    r.answer (.document name) = .ok (.document d) := by
  obtain ⟨fs, l⟩ := r
  obtain ⟨strings, documents, rfl⟩ := h
  have hGet : documents.get? name = some d := hKept
  rw [answer_document, hGet]
  rfl

/-- What has not been kept is read. -/
theorem answer_document_of_not_kept (h : In root stringsFile r)
    (hNot : r.loader.keptDocument? name = none) :
    r.answer (.document name) = (fresh r.files root stringsFile).answer (.document name) := by
  obtain ⟨fs, l⟩ := r
  obtain ⟨strings, documents, rfl⟩ := h
  have hGet : documents.get? name = none := hNot
  rw [fresh, answer_document, answer_document, hGet]
  rfl

/-- A look-up of a document that fails leaves everything as it was. -/
theorem next_document_of_error {e : Failure} (h : In root stringsFile r)
    (hError : r.answer (.document name) = .error e) : r.next (.ask (.document name)) = r := by
  obtain ⟨fs, l⟩ := r
  obtain ⟨strings, documents, rfl⟩ := h
  rw [answer_document] at hError
  rw [next_document]
  cases hRead : (documents.get? name).elim (documentIn fs root name) .ok with
  | error e => rfl
  | ok d =>
    rw [hRead] at hError
    cases hError

theorem answer_text_of_kept (h : In root stringsFile r)
    (hKept : r.loader.keptStrings? = some table) (key : String) :
    r.answer (.text key) = (textIn table key).map .text := by
  obtain ⟨fs, l⟩ := r
  obtain ⟨strings, documents, rfl⟩ := h
  obtain rfl : strings = some table := hKept
  rw [answer_text]
  rfl

theorem answer_text_of_not_kept (h : In root stringsFile r)
    (hNot : r.loader.keptStrings? = none) (key : String) :
    r.answer (.text key) = (fresh r.files root stringsFile).answer (.text key) := by
  obtain ⟨fs, l⟩ := r
  obtain ⟨strings, documents, rfl⟩ := h
  obtain rfl : strings = none := hNot
  rw [fresh, answer_text, answer_text]

private theorem answer_image_eq (h : In root stringsFile r) (name : String) :
    r.answer (.image name) = (fresh r.files root stringsFile).answer (.image name) := by
  obtain ⟨fs, l⟩ := r
  obtain ⟨strings, documents, rfl⟩ := h
  rw [answer_image, answer_image]
  rfl

/-- Where there is no file, there are no strings. -/
theorem readStrings_of_missing {fs : Files} {p : Path} (h : fs.file? p = .ok none) :
    readStrings fs p = .ok [] := by
  rw [readStrings, h]
  rfl

/-- Why the strings cannot be read is never that something was not found. -/
theorem readStrings_ne_notFound {fs : Files} {p : Path} {e : Failure} (fault : ResourceFault)
    (h : readStrings fs p = .error e) : e ≠ notFound fault := by
  rintro rfl
  rw [readStrings] at h
  rcases eq_error_of_bind_eq_error h with hFile | ⟨content, -, hRead⟩
  · unfold Files.file? at hFile
    split at hFile <;> cases hFile
  · split at hRead
    · cases hRead
    · split at hRead
      · cases hRead
      · dsimp only at hRead
        split at hRead
        · cases hRead
        · next members _ =>
          cases hTable : stringTable? members <;> rw [hTable] at hRead <;> cases hRead
        · cases hRead

/-- When the look-up of a text fails and no strings have been read before or are now, then they
cannot be read, which is the failure; and if they have been or are, then the text is not among
them. -/
theorem keptStrings?_next_of_error {e : Failure} (h : In root stringsFile r)
    (hError : r.answer (.text key) = .error e) :
    ((r.next (.ask (.text key))).loader.keptStrings? = none ↔
      r.loader.keptStrings? = none ∧ readStrings r.files (root.join stringsFile) = .error e) ∧
    ((r.next (.ask (.text key))).loader.keptStrings? = none ↔ e ≠ notFound (.text key)) := by
  have hTextIn {table : Table String String}
      (hMiss : (textIn table key).map Found.text = .error e) : e = notFound (.text key) := by
    unfold textIn at hMiss
    cases hGet : table.get? key with
    | none =>
      rw [hGet] at hMiss
      cases hMiss
      rfl
    | some s =>
      rw [hGet] at hMiss
      cases hMiss
  rw [keptStrings?_next_text h]
  cases hKept : r.loader.keptStrings? with
  | some table =>
    rw [answer_text_of_kept h hKept] at hError
    simp [hTextIn hError]
  | none =>
    rw [answer_text_of_not_kept h hKept, fresh, answer_text, Option.elim_none] at hError
    cases hRead : readStrings r.files (root.join stringsFile) with
    | error e' =>
      rw [hRead] at hError
      cases hError
      simp [Except.toOption, readStrings_ne_notFound _ hRead]
    | ok table =>
      rw [hRead] at hError
      simp [Except.toOption, hTextIn hError]

/-- After any events, images are looked up in the files as they are. A document that a look-up has
answered with is the answer ever after; until then the file is read, as it is by then, and a look-up
that fails leaves everything as it was. Nothing but a look-up under the name itself changes what is
kept under it. The strings that a look-up of a text has read are the ones for all later look-ups,
and if there was no file they are none; until then the file is read, as it is by then. A look-up of
a text that fails leaves no strings behind just when the file could not be read. -/
theorem after_answers (fs : Files) (root : Path) (stringsFile : String) (events : List Event) :
    let start := fresh fs root stringsFile
    let r := start.after events
    let renewed := fresh r.files root stringsFile
    let p := root.join stringsFile
    (∀ name, r.answer (.image name) = renewed.answer (.image name)) ∧
    (∀ name,
      (∀ d, Answered (.document name) (.ok (.document d)) start events →
        r.answer (.document name) = .ok (.document d)) ∧
      ((∀ found, Answered (.document name) found start events → ∃ e, found = .error e) →
        r.answer (.document name) = renewed.answer (.document name)) ∧
      (∀ e, r.answer (.document name) = .error e → r.next (.ask (.document name)) = r) ∧
      ∀ event, event ≠ .ask (.document name) →
        (r.next event).loader.keptDocument? name = r.loader.keptDocument? name) ∧
    (∀ key,
      (∀ table, StringsTried p (.ok table) start events →
        r.answer (.text key) = (textIn table key).map .text) ∧
      ((∀ outcome, StringsTried p outcome start events → ∃ e, outcome = .error e) →
        r.answer (.text key) = renewed.answer (.text key)) ∧
      ∀ e, r.answer (.text key) = .error e →
        let r' := r.next (.ask (.text key))
        (r'.loader.keptStrings? = none ↔
          r.loader.keptStrings? = none ∧ readStrings r.files p = .error e) ∧
        (r'.loader.keptStrings? = none ↔ e ≠ notFound (.text key))) ∧
    (r.files.file? p = .ok none → readStrings r.files p = .ok []) := by
  intro start r renewed p
  have hStart : In root stringsFile start := in_fresh fs root stringsFile
  have hIn : In root stringsFile r := in_after events hStart
  -- Nothing has been kept at the start, so what is kept comes from the events.
  have hDocument (name : String) (d : Document) : r.loader.keptDocument? name = some d ↔
      Answered (.document name) (.ok (.document d)) start events :=
    (keptDocument?_after_iff hStart).trans (or_iff_right nofun)
  have hStrings (table : Table String String) : r.loader.keptStrings? = some table ↔
      StringsTried p (.ok table) start events :=
    (keptStrings?_after_iff hStart).trans (or_iff_right nofun)
  refine ⟨answer_image_eq hIn, fun name => ⟨?stays, ?current, ?failed, ?others⟩,
    fun key => ⟨?table, ?untilRead, ?textFailed⟩, readStrings_of_missing⟩
  case stays =>
    exact fun d hAnswered => answer_document_of_kept hIn ((hDocument name d).2 hAnswered)
  case current =>
    intro hFailed
    refine answer_document_of_not_kept hIn (Option.eq_none_iff_forall_ne_some.2 fun d hKept => ?_)
    obtain ⟨e, hError⟩ := hFailed _ ((hDocument name d).1 hKept)
    cases hError
  case failed => exact fun e => next_document_of_error hIn
  case others => exact fun event => keptDocument?_next_of_ne hIn
  case table => exact fun table hTried => answer_text_of_kept hIn ((hStrings table).2 hTried) key
  case untilRead =>
    intro hFailed
    refine answer_text_of_not_kept hIn
      (Option.eq_none_iff_forall_ne_some.2 fun table hKept => ?_) key
    obtain ⟨e, hError⟩ := hFailed _ ((hStrings table).1 hKept)
    cases hError
  case textFailed => exact fun e => keptStrings?_next_of_error hIn

/-! ### A menu -/

/-- A menu that is written twice, with a look-up in front and one in between, and strings that
cannot be read at first and are replaced in the end. -/
def menuEvents : List Event :=
  let write (path text : String) : Event :=
    .edit fun fs => fs.write path (.bytes text.toUTF8.toList)
  [.ask (.document "menu"), write "menu.xml" "<Row/>", .ask (.document "menu"),
    write "menu.xml" "<Column/>", write "strings.json" "[", .ask (.text "save"),
    write "strings.json" "\x7b\"save\": \"Save\"\x7d", .ask (.text "save"),
    write "strings.json" "\x7b\x7d"]

/-- Something is looked up only if there is an event for it. -/
theorem Answered.mem {inquiry : Inquiry} {found : Except Failure Found}
    (h : Answered inquiry found start events) : .ask inquiry ∈ events := by
  obtain ⟨before, event, rest, rfl, rfl, -⟩ := h
  simp

/-- The first menu and the first strings that could be read are still there, and there is no word
for leaving. -/
theorem after_answers_menu :
    let start := fresh {} {} "strings.json"
    let r := start.after menuEvents
    (∃ d, d.root.name = "Row" ∧
      Answered (.document "menu") (.ok (.document d)) start menuEvents ∧
      r.answer (.document "menu") = .ok (.document d)) ∧
    ((∀ found, Answered (.document "side") found start menuEvents → ∃ e, found = .error e) ∧
      r.answer (.document "side") = (fresh r.files {} "strings.json").answer (.document "side")) ∧
    StringsTried (Path.join {} "strings.json") (.ok [("save", "Save")]) start menuEvents ∧
    r.answer (.text "save") = .ok (.text "Save") ∧
    r.answer (.text "quit") = .error (notFound (.text "quit")) ∧
    (r.next (.ask (.text "quit"))).loader.keptStrings? ≠ none := by
  intro start r
  obtain ⟨-, hDocuments, hTexts, -⟩ := after_answers {} {} "strings.json" menuEvents
  have hMenu : ((((start.after (menuEvents.take 2)).answer (.document "menu")).toOption.bind
      Found.document?).map (·.root.name)) = some "Row" := by
    decide +kernel
  obtain ⟨d, hFound, hName⟩ := Option.map_eq_some_iff.1 hMenu
  have hAnswer :
      (start.after (menuEvents.take 2)).answer (.document "menu") = .ok (.document d) := by
    obtain ⟨found, hOk, hDocument⟩ := Option.bind_eq_some_iff.1 hFound
    cases found <;> cases hDocument
    exact eq_ok_of_toOption_eq_some hOk
  have hAnswered : Answered (.document "menu") (.ok (.document d)) start menuEvents :=
    ⟨menuEvents.take 2, _, menuEvents.drop 3, rfl, rfl, hAnswer⟩
  have hSide (found : Except Failure Found)
      (h : Answered (.document "side") found start menuEvents) : ∃ e, found = .error e :=
    absurd h.mem (by simp [menuEvents])
  have hKept : (start.after (menuEvents.take 7)).loader.keptStrings? = none := by decide +kernel
  have hRead : readStrings (start.after (menuEvents.take 7)).files (Path.join {} "strings.json") =
      .ok [("save", "Save")] :=
    eq_ok_of_toOption_eq_some (by decide +kernel)
  have hTried : StringsTried (Path.join {} "strings.json") (.ok [("save", "Save")]) start
      menuEvents :=
    ⟨menuEvents.take 7, _, menuEvents.drop 8, rfl, ⟨"save", rfl⟩, hKept, hRead⟩
  have hQuit : r.answer (.text "quit") = .error (notFound (.text "quit")) :=
    (hTexts "quit").1 _ hTried
  refine ⟨⟨d, hName, hAnswered, (hDocuments "menu").1 d hAnswered⟩,
    ⟨hSide, (hDocuments "side").2.1 hSide⟩, hTried, (hTexts "save").1 _ hTried, hQuit,
    fun hNone => ?_⟩
  exact ((hTexts "quit").2.2 _ hQuit).2.1 hNone rfl

end Resources
end ViewMarkup
