import Mathlib.Data.List.Dedup
import ViewMarkup.Proofs.Build.Commit
import ViewMarkup.Proofs.Build.Expansion
import ViewMarkup.Proofs.Build.Walk

/-!
# Builds come to an end

Through includes a build may come from any document to any other one, but not back to one that it
has not left: the names on the include stack are all different, and each of them is mentioned in
some document. There are finitely many of them, so a walk comes to an end, and it does what the
build does that is given a depth.

## Main results

* `Loader.mem_included` — the documents that resources have mention no other names than these.
* `Assembly.walkRoot_follows` — a root element is walked through like it is built.
* `Builder.outcome_walks` — a build comes to an end, with a stack that is kept, and fails because of
  an include just if a document is reached again while it is expanded.
-/

namespace ViewMarkup

open Text

/-! ## The names that documents mention -/

theorem Element.mem_included {n : String} {e : Element} : n ∈ e.included ↔
    (∃ i ∈ e.leading ++ e.trailing, i.target = includeTarget ∧ trim i.data = n) ∨
      ∃ c ∈ e.children, n ∈ c.included := by
  have hMem (e : Element) : n ∈ e.included ↔ ∃ x ∈ e.preorder, ∃ i ∈ x.leading ++ x.trailing,
      i.target = includeTarget ∧ trim i.data = n := by
    simp only [included, List.mem_flatMap, List.mem_map, List.mem_filter, decide_eq_true_eq,
      and_assoc]
  rw [hMem]
  constructor
  · rintro ⟨x, hx, h⟩
    rcases mem_preorder.1 hx with rfl | ⟨c, hc, hx⟩
    · exact .inl h
    · exact .inr ⟨c, hc, (hMem c).2 ⟨x, hx, h⟩⟩
  · rintro (h | ⟨c, hc, hn⟩)
    · exact ⟨e, mem_preorder.2 (.inl rfl), h⟩
    · obtain ⟨x, hx, h⟩ := (hMem c).1 hn
      exact ⟨x, mem_preorder.2 (.inr ⟨c, hc, hx⟩), h⟩

/-- The name under which problems are reported makes no difference to the names included. -/
theorem includedIn_of_read {source : Xml.Input} {name : String} {d : Document}
    (h : Document.read source name = .ok d) : includedIn source = d.root.included := by
  unfold includedIn
  unfold Document.read at h ⊢
  split at h
  · cases h
  · cases h
  · cases h
  · split at h
    · cases h
      rfl
    · cases h

private theorem Files.mem_of_follow (fs : Files) {c : Content} {segments : List String} :
    ∀ {current : List String}, fs.follow current segments = .file c →
      ∃ p, (p, c) ∈ fs.entries := by
  induction segments with
  | nil =>
    intro current h
    unfold follow at h
    split at h
    · next hGet =>
      cases h
      exact ⟨current, Table.mem_of_get? hGet⟩
    · split at h <;> cases h
  | cons s rest ih =>
    intro current h
    unfold follow at h
    split at h
    · split at h <;> cases h
    · split at h
      · cases h
      · split at h
        · split at h
          · cases h
          · exact ih h
        · exact ih h

private theorem Files.mem_of_file? {fs : Files} {p : Path} {c : Content}
    (h : fs.file? p = .ok (some c)) : ∃ q, (q, c) ∈ fs.entries := by
  have hFind : fs.find p = .file c := by
    unfold file? at h
    split at h
    · next hFind =>
      cases h
      exact hFind
    · cases h
    · cases h
  unfold find at hFind
  split at hFind
  · exact fs.mem_of_follow hFind
  · cases hFind

/-- A document that a directory has a file for is read from one of its files. -/
theorem exists_entry_of_documentIn {fs : Files} {root : Path} {name : String} {d : Document}
    (h : documentIn fs root name = .ok d) :
    ∃ p c, (p, c) ∈ fs.entries ∧ includedIn (.bytes c.data) = d.root.included := by
  obtain ⟨content, hFile, hRead⟩ := exists_of_bind_eq_ok h
  cases content with
  | none => cases hRead
  | some c =>
    obtain ⟨p, hp⟩ := Files.mem_of_file? hFile
    exact ⟨p, c, hp, includedIn_of_read hRead⟩

/-- The documents that resources have mention no other names than these. -/
theorem Loader.mem_included {fs : Files} {l : Loader} {name n : String} {d : Document}
    (h : l.document? fs name = some d) (hn : n ∈ d.root.included) : n ∈ l.included fs := by
  cases l with
  | tables images strings documents =>
    rw [document?_tables] at h
    obtain ⟨stored, hGet, hStored⟩ := Option.bind_eq_some_iff.1 h
    refine List.mem_flatMap.2 ⟨(name, stored), Table.mem_of_get? hGet, ?_⟩
    cases stored with
    | parsed d' =>
      cases hStored
      exact hn
    | text s =>
      dsimp only
      rw [includedIn_of_read (eq_ok_of_toOption_eq_some hStored)]
      exact hn
  | directory root stringsFile strings documents =>
    rw [document?_directory, Option.or_eq_some_iff] at h
    rcases h with hGet | ⟨-, hFile⟩
    · refine List.mem_append_left _ (List.mem_flatMap.2 ⟨(name, d), Table.mem_of_get? hGet, hn⟩)
    · obtain ⟨p, c, hp, hc⟩ := exists_entry_of_documentIn (eq_ok_of_toOption_eq_some hFile)
      refine List.mem_append_right _ (List.mem_flatMap.2 ⟨(p, c), hp, ?_⟩)
      dsimp only
      rw [hc]
      exact hn

/-- Whether the document at an origin, or one of the documents that there are, includes a name. -/
def Mentioned (docs : String → Option Document) (origin : Origin) (name : String) : Prop :=
  (∃ d, origin = .given d ∧ name ∈ d.root.included) ∨ ∃ other, Includes docs other name

/-- There are finitely many names that are mentioned. -/
theorem exists_mentioned (fs : Files) (l : Loader) (origin : Origin) :
    ∃ names : List String, names.Nodup ∧
      ∀ n, n ∈ names ↔ Mentioned (l.document? fs) origin n := by
  classical
  obtain ⟨own, hOwn⟩ : ∃ own : List String, ∀ d, origin = .given d → d.root.included ⊆ own := by
    cases origin with
    | given d => exact ⟨d.root.included, fun _ h => by cases h; exact fun _ hn => hn⟩
    | named name => exact ⟨[], fun _ h => by cases h⟩
  refine ⟨(own ++ l.included fs).dedup.filter (Mentioned (l.document? fs) origin),
    (List.nodup_dedup _).filter _, fun n => ?_⟩
  rw [List.mem_filter, List.mem_dedup, List.mem_append, decide_eq_true_eq]
  refine and_iff_right_of_imp ?_
  rintro (⟨d, hGiven, hn⟩ | ⟨other, d, hFound, hn⟩)
  · exact .inl (hOwn d hGiven hn)
  · exact .inr (Loader.mem_included hFound hn)

namespace Assembly

variable {a : Assembly} {docs : String → Option Document} {root : Element} {stack : List String}
  {expand : Expansion}

/-! ## Elements -/

/-- The documents that a root element includes can be walked through like they are expanded, unless
they are on the stack. -/
def Descends (a : Assembly) (docs : String → Option Document) (root : Element)
    (stack : List String) (expand : Expansion) : Prop :=
  ∀ name ∈ root.included, name ∉ stack → ∀ d, docs name = some d →
    Walking.Follows a.files docs d.root (stack ++ [name]) (a.walkRoot d.root none)
      (expand (stack ++ [name]) d.root)

theorem Descends.include (h : a.Descends docs root stack expand) {parent : ObjectId}
    {caps : Capabilities} {path data : String} (hName : trim data ∈ root.included) :
    Walking.Follows a.files docs root stack (a.walkInclude parent caps path data)
      (a.takeInclude expand stack parent caps path data) :=
  walkInclude_follows hName fun d hFound hFresh => h _ hName hFresh d hFound

private theorem walkChild_follows (h : a.Descends docs root stack expand) {e : Element}
    {parent : ObjectId} {caps : Capabilities} {path : String}
    {work : ObjectId → Capabilities → List Instruction → Building Unit}
    (hIncluded : ∀ n ∈ e.included, n ∈ root.included)
    (hWork : ∀ id own, Walking.Follows a.files docs root stack
      (a.walkElement e id own path (delivered e.leading)) (work id own (delivered e.leading))) :
    Walking.Follows a.files docs root stack (a.walkChild e parent caps path)
      (a.takeChild expand stack parent caps path e work) := by
  have hIncludes : Walking.Follows a.files docs root stack
      ((includes e.leading).forM fun i => a.walkInclude parent caps path i.data)
      ((includes e.leading).forM fun i => a.takeInclude expand stack parent caps path i.data) := by
    refine .forM fun i hi =>
      h.include (hIncluded _ (Element.mem_included.2 (.inl ⟨i, ?_, ?_, rfl⟩)))
    · exact List.mem_append_left e.trailing (List.mem_filter.1 hi).1
    · exact target_of_mem_includes hi
  rw [walkChild]
  unfold takeChild takeIncludes
  rw [bind_assoc]
  refine hIncludes.bind fun _ => ?_
  rw [pure_bind]
  refine .bind (.ofBuilding (start_quiet e (delivered e.leading))) fun made => ?_
  cases made with
  | none => exact .ofPure
  | some made => exact (hWork made.1 made.2).bind fun _ => .ofBuilding (append_quiet made.1)

mutual

/-- An element is walked through like it is processed. -/
theorem walkElement_follows (h : a.Descends docs root stack expand) :
    ∀ (e : Element) {id : ObjectId} {caps : Capabilities} {path : String}
      {leading : List Instruction}, (∀ n ∈ e.included, n ∈ root.included) →
      Walking.Follows a.files docs root stack (a.walkElement e id caps path leading)
        (a.process expand stack e id caps path leading)
  | .mk name attributes children leading₀ trailing text, id, caps, path, leading, hIncluded => by
    rw [walkElement, process]
    refine .bind (.ofBuilding (opening_quiet leading attributes name text)) fun _ => .bind ?_
      fun _ => .forM fun i hi => ?_
    · exact walkChildren_follows h children fun c hc n hn =>
        hIncluded n (Element.mem_included.2 (.inr ⟨c, hc, hn⟩))
    · split
      · next hTarget =>
        refine h.include (hIncluded _ (Element.mem_included.2 (.inl ⟨i, ?_, hTarget, rfl⟩)))
        exact List.mem_append_right leading₀ hi
      · exact .ofBuilding (deliver_quiet i)

/-- Child elements are walked through like they are processed. -/
theorem walkChildren_follows (h : a.Descends docs root stack expand) :
    ∀ (es : List Element) {parent : ObjectId} {caps : Capabilities} {path : String} {index : Nat},
      (∀ e ∈ es, ∀ n ∈ e.included, n ∈ root.included) →
      Walking.Follows a.files docs root stack (a.walkChildren es parent caps path index)
        (a.processChildren expand stack es parent caps path index)
  | [], parent, caps, path, index, _ => by
    rw [walkChildren, processChildren]
    exact .ofPure
  | e :: es, parent, caps, path, index, hIncluded => by
    have hHead := hIncluded e List.mem_cons_self
    rw [walkChildren, processChildren]
    refine .bind (walkChild_follows h hHead fun id own => ?_) fun _ => ?_
    · exact walkElement_follows h e hHead
    · exact walkChildren_follows h es fun c hc => hIncluded c (List.mem_cons_of_mem e hc)

end

/-! ## Roots -/

/-- A depth is enough for a stack: there are not that many names left that can still be pushed. -/
def Fits (names : List String) (depth : Nat) (stack : List String) : Prop :=
  ∃ base inner, stack = base ++ inner ∧ inner.Nodup ∧ inner ⊆ names ∧
    names.length < depth + inner.length

theorem Fits.start {names : List String} (stack : List String) :
    Fits names (names.length + 1) stack :=
  ⟨stack, [], (List.append_nil stack).symm, .nil, List.nil_subset names, by simp⟩

theorem Fits.depth_pos {names : List String} {depth : Nat} (h : Fits names depth stack) :
    0 < depth := by
  obtain ⟨base, inner, -, hNodup, hSubset, hLt⟩ := h
  have hLe := hNodup.length_le_of_subset hSubset
  omega

theorem Fits.push {names : List String} {depth : Nat} {name : String}
    (h : Fits names (depth + 1) stack) (hName : name ∈ names) (hFresh : name ∉ stack) :
    Fits names depth (stack ++ [name]) := by
  obtain ⟨base, inner, rfl, hNodup, hSubset, hLt⟩ := h
  refine ⟨base, inner ++ [name], List.append_assoc base inner [name], ?_, ?_, ?_⟩
  · refine List.nodup_append.2 ⟨hNodup, by simp, fun x hx y hy => ?_⟩
    rintro rfl
    exact hFresh (List.mem_append_right base (List.mem_singleton.1 hy ▸ hx))
  · exact List.append_subset.2 ⟨hSubset, by simpa using hName⟩
  · rw [List.length_append, List.length_singleton]
    omega

/-- A root element is walked through like it is built with a depth that is enough. -/
theorem walkRoot_follows {names : List String}
    (hDocs : ∀ name d, docs name = some d → d.root.included ⊆ names) {depth : Nat} (e : Element)
    (given : Option ObjectId) (hRoot : e.included ⊆ names) (hFits : Fits names depth stack) :
    Walking.Follows a.files docs e stack (a.walkRoot e given)
      (a.buildRoot depth stack e given) := by
  induction depth generalizing e given stack with
  | zero => exact absurd hFits.depth_pos (Nat.lt_irrefl 0)
  | succ depth ih =>
    have hDescends : a.Descends docs e stack fun stack e => a.buildRoot depth stack e none :=
      fun name hName hFresh d hFound =>
        ih d.root none (hDocs name d hFound) (hFits.push (hRoot hName) hFresh)
    rw [walkRoot, buildRoot]
    refine .bind (.ofBuilding (startRoot_quiet e given)) fun made => ?_
    exact .bind (walkElement_follows hDescends e fun _ hn => hn) fun _ => .ofPure

/-! ## Documents -/

/-- A document is walked through like it is built. -/
theorem walkRoot_follows_buildDocument (d : Document) (given : Option ObjectId) :
    Walking.Follows a.files docs d.root stack (a.walkRoot d.root given)
      (a.buildDocument stack d given) := by
  intro t hStack hDocs
  have hMentioned (name : String) (other : Document) (hFound : docs name = some other) :
      other.root.included ⊆ (d.root.included ++ t.loader.included a.files).eraseDups := by
    intro n hn
    rw [← hDocs name] at hFound
    exact List.mem_eraseDups.2 (List.mem_append_right _ (Loader.mem_included hFound hn))
  have hFits : Fits (d.root.included ++ t.loader.included a.files).eraseDups
      (includeDepth a.files t.loader d.root) stack := .start stack
  have hRun := a.run_buildDocument stack d given t.toProgress
  obtain ⟨turns, h⟩ := walkRoot_follows hMentioned d.root given
    (fun n hn => List.mem_eraseDups.2 (List.mem_append_left _ hn)) hFits t hStack hDocs
  refine ⟨turns, ?_, ?_, h.course, fun names => ?_⟩
  · rw [hRun]
    exact h.run
  · rw [hRun]
    exact h.documents
  · rw [hRun]
    exact h.cycles names

/-- The document at an origin is walked through like its tree is built. Its root element mentions
what the origin does; if there is no document, it is one that mentions nothing. -/
theorem walkTree_endsLike (a : Assembly) (given : Option ObjectId) (origin : Origin)
    (p : Progress) :
    ∃ e turns, (∀ n ∈ e.included, Mentioned (p.loader.document? a.files) origin n) ∧
      (∀ n ∈ origin.names, ∀ m ∈ e.included, Includes (p.loader.document? a.files) n m) ∧
      Walking.EndsLike a.files (p.loader.document? a.files) e (a.walkTree given origin)
        (a.buildTree given origin) ⟨p, origin.names, []⟩ turns := by
  cases origin with
  | given d =>
    obtain ⟨turns, h⟩ := walkRoot_follows_buildDocument d given ⟨p, [], []⟩ rfl fun _ => rfl
    exact ⟨d.root, turns, fun n hn => .inl ⟨d, rfl, hn⟩, fun n hn => absurd hn List.not_mem_nil, h⟩
  | named name =>
    have hQuiet : Quiet a.files (Building.loading (loadDocument a.files name)) :=
      ⟨fun p other => document?_run_loadDocument a.files name other p.loader,
        fun p _ => (ActsPlainly.loading (loadDocument_plain a.files name) p).not_cycles⟩
    have hLoad (e : Element) : Walking.Follows a.files (p.loader.document? a.files) e [name]
        (.building (Building.loading (loadDocument a.files name)))
        (Building.loading (loadDocument a.files name)) := .ofBuilding hQuiet
    cases hRun : Building.loading (loadDocument a.files name) p with
    | mk answer p' =>
      cases answer with
      | error failure =>
        obtain ⟨_, h⟩ := hLoad (.mk "" [] [] [] [] "") ⟨p, [name], []⟩ rfl fun _ => rfl
        obtain ⟨turns, h⟩ := h.bind (f := fun d => a.walkRoot d.root given)
          (g := fun d => a.buildDocument [name] d given) fun d q hDone => by
            rw [hRun] at hDone
            cases hDone
        exact ⟨_, turns, fun n hn => absurd hn List.not_mem_nil,
          fun _ _ m hm => absurd hm List.not_mem_nil, h⟩
      | ok d =>
        have hFound := ((loadDocument_yields (fun _ => True) name).ok hRun).2.2
        obtain ⟨_, h⟩ := hLoad d.root ⟨p, [name], []⟩ rfl fun _ => rfl
        obtain ⟨turns, h⟩ := h.bind (f := fun d => a.walkRoot d.root given)
          (g := fun d => a.buildDocument [name] d given) fun d' q hDone => by
            rw [hRun] at hDone
            cases hDone
            exact walkRoot_follows_buildDocument d given
        refine ⟨d.root, turns, fun n hn => .inr ⟨name, d, hFound, hn⟩, fun n hn m hm => ?_, h⟩
        exact List.mem_singleton.1 hn ▸ ⟨d, hFound, hm⟩

/-- Giving the owner what is its own has nothing to do with includes. -/
theorem commit_quiet (a : Assembly) : Quiet a.files a.commit where
  documents p name := by
    have hLoader : (a.commit p).2.loader = p.loader := by
      refine Yields.state (R := fun q => q.loader = p.loader) ((a.commit_yields p).mono ?_ ?_)
      · rintro _ q rfl
        rfl
      · rintro q rfl
        rfl
    rw [hLoader]
  acyclic p _ := (commit_plain p).not_cycles

end Assembly

namespace Builder

/-- Every build comes to an end, and the walk that it is keeps the include stack. The stack begins
with the name that the document was asked for by, if it was. No name is ever on it twice, it holds
the names of the documents being expanded from the outermost to the innermost, and it is restored
after each include; so includes are never nested deeper than there are names in the documents. A
build fails because of an include cycle just if it reaches an include whose name, which is not
empty, is on the stack, and then the document with that name is included through itself. -/
theorem outcome_walks (b : Builder) (owner root : Option ObjectId) (origin : Origin) (w : World) :
    ∃ (t : Walk) (names : List String),
      b.walk owner root origin w = some ((b.outcome owner root origin w).1, t) ∧
      t.toProgress = (b.outcome owner root origin w).2 ∧
      t.stack = origin.names ∧ KeepsStack origin.names t.turns ∧
      (names.Nodup ∧ ∀ n, n ∈ names ↔ Mentioned (w.loader.document? b.files) origin n) ∧
      (∀ before after, t.turns = before ++ after →
        (expandingAfter [] before).length ≤ names.length) ∧
      (∀ cycle, Cycles cycle (b.outcome owner root origin w).1 ↔ Recurs cycle t.turns) ∧
      ∀ name stack, .reached name stack ∈ t.turns → name ∈ stack →
        Relation.TransGen (Includes (w.loader.document? b.files)) name name := by
  let a : Assembly := { b with owner }
  obtain ⟨e, turns, hMentioned, hIncludes, hTree⟩ :=
    a.walkTree_endsLike root origin { w with }
  obtain ⟨turns', h⟩ := hTree.bind (f := fun view => do Walking.building a.commit; return view)
    (g := fun view => do a.commit; return view)
    fun view _ _ => .bind (.ofBuilding a.commit_quiet) fun _ => .ofPure
  obtain ⟨names, hNodup, hNames⟩ := exists_mentioned b.files w.loader origin
  have hBase : origin.names.Nodup := by
    cases origin <;> simp [Origin.names]
  have hDocs (name : String) (d : Document) (hFound : w.loader.document? b.files name = some d)
      (n : String) (hn : n ∈ d.root.included) : n ∈ names :=
    (hNames n).2 (.inr ⟨name, d, hFound, hn⟩)
  refine ⟨⟨(b.outcome owner root origin w).2, origin.names, turns'⟩, names, h.run, rfl, rfl,
    h.course.keepsStack hBase, ⟨hNodup, hNames⟩, fun before after hCut => ?_, h.cycles,
    fun name stack hReached hOld => ?_⟩
  · exact h.course.expanding_length_le hBase (fun n hn => (hNames n).2 (hMentioned n hn)) hDocs hCut
  · exact h.course.nests (fun n hn m hm => .single (hIncludes n hn m hm)) hReached hOld

end Builder
end ViewMarkup
