import ViewMarkup.Proofs.Build.Child

/-!
# Building is nested work

Whatever is built, from a single instruction to a whole document with all that it includes, is work
on one object in the sense of `Work`, or unfinished work if it fails. This is proved along the
definitions: one lemma for each part of building, one case for each kind of element.

## Main results

* `Assembly.process_nested`, `Assembly.processChildren_nested` — elements, given that the documents
  which they include are nested work, too.
* `Assembly.buildRoot_raising` — the root of an included document, by induction on the depth.
* `Assembly.buildTree_yields` — the tree of a whole document.
-/

namespace ViewMarkup

/-! ## Nested actions -/

/-- What part of a build has done in steps of some kind, when it went on from `p` to `p'`. -/
def Progress.Does (fs : Files) (U : Region) (Log : List Step → Prop) (p p' : Progress) : Prop :=
  ∃ log, p.Extends fs U p' log ∧ Log log

/-- An action that is work on one object, finished if it succeeds. -/
def Nested {α : Type} (fs : Files) (U : Region) (id : ObjectId) (x : Building α) : Prop :=
  ∀ p, p.Ready U → Yields x p (fun _ => p.Does fs U (Work id)) (p.Does fs U (Unfinished id))

namespace Nested

variable {α β : Type} {fs : Files} {U : Region} {id : ObjectId} {x : Building α}
  {f : α → Building β}

theorem ofAttending {calls : List Call} (h : Attending fs U id calls x) : Nested fs U id x := by
  intro p hp
  have hWork {told : List Call} {p' : Progress} (h : p.Attends fs U id told p') :
      p.Does fs U (Work id) p' := by
    obtain ⟨log, hExt, -, hOwn, -⟩ := h
    exact ⟨log, hExt, .of_forall_isOwn hOwn⟩
  refine (h p hp.closed).mono (fun _ _ => hWork) ?_
  rintro p' ⟨told, h⟩
  obtain ⟨log, hExt, hLog⟩ := hWork h
  exact ⟨log, hExt, .here hLog⟩

theorem bind (hx : Nested fs U id x) (hf : ∀ a, Nested fs U id (f a)) :
    Nested fs U id (x >>= f) := by
  intro p hp
  refine .bind (hx p hp) ?_
  rintro a p' ⟨log, hExt, hLog⟩
  refine (hf a p' (hExt.ready hp)).mono ?_ ?_
  · rintro b p'' ⟨log', hExt', hLog'⟩
    exact ⟨log ++ log', hExt.trans hExt', hLog.append hLog'⟩
  · rintro p'' ⟨log', hExt', hLog'⟩
    exact ⟨log ++ log', hExt.trans hExt', .after hLog hLog'⟩

theorem within {path : String} (hx : Nested fs U id x) :
    Nested fs U id (Building.within path x) :=
  fun p hp => .adapt (hx p hp)

theorem forM {ι : Type} {g : ι → Building Unit} (h : ∀ i, Nested fs U id (g i)) (is : List ι) :
    Nested fs U id (is.forM g) := by
  induction is with
  | nil => exact .ofAttending .ofPure
  | cons i is ih => exact (h i).bind fun _ => ih

end Nested

/-- Steps that make a view and work on it, and may break off anywhere. -/
def BrokenOff (log : List Step) : Prop :=
  log = [] ∨ ∃ view inner, log = .made view :: inner ∧ Unfinished view inner

/-- An action that makes a view and finishes the work on it, if it succeeds. -/
def Raising (fs : Files) (U : Region) (x : Building ObjectId) : Prop :=
  ∀ p, p.Ready U →
    Yields x p
      (fun view => p.Does fs U fun log => ∃ inner, log = .made view :: inner ∧ Work view inner)
      (p.Does fs U BrokenOff)

/-- Steps of building a tree: work on the root that was supplied, or steps that make one. -/
def Rooted : Option ObjectId → List Step → Prop
  | some root, log => Unfinished root log
  | none, log => BrokenOff log

private theorem Rooted.nil (root : Option ObjectId) : Rooted root [] := by
  cases root with
  | some r => exact .here .nil
  | none => exact .inl rfl

/-- Where a tree is being built, the work on a view that is handed over is a closed part of what is
in front of that step. -/
theorem Rooted.handedOver {root : Option ObjectId} {lo hi : Nat} {log pre after : List Step}
    (h : Rooted root log) (hAscending : Ascending lo hi log)
    (hRoot : ∀ r : Nat, root = some r → r < lo) {parent view : ObjectId}
    (hCut : log = pre ++ .told parent (.append view) :: after) :
    ∃ before inner, pre = before ++ .made view :: inner ∧
      HandedOver parent view before inner after := by
  cases root with
  | some r =>
    have hWork : Unfinished r log := h
    exact hWork.handedOver (hAscending.nodup_cons (.inl (hRoot r rfl))) hCut
  | none =>
    -- The whole may stand inside of the work on an object that there is not.
    have hWork : Unfinished hi log := by
      rcases h with rfl | ⟨view, inner, rfl, hInner⟩
      · exact .here .nil
      · exact .inside .nil hInner
    exact hWork.handedOver (hAscending.nodup_cons (.inr (Nat.le_refl hi))) hCut

namespace Assembly

section

variable {a : Assembly} {U : Region} {expand : Expansion} {stack : List String}
  {id parent view : ObjectId} {caps : Capabilities} {path : String}

/-! ## Child views -/

/-- Appending a view that has just been finished makes it a finished part of the work on its
parent. -/
theorem append_finished (hcs : a.library.classes.Covered U) (hParent : U parent) {p q : Progress}
    (hp : p.Ready U) {inner : List Step} (hMade : p.Extends a.files U q (.made view :: inner))
    (hInner : Work view inner) :
    Yields (Building.within path (a.append parent caps view)) q
      (fun _ => p.Does a.files U (Work parent)) (p.Does a.files U (Unfinished parent)) := by
  have hView : U view := hMade.made hp List.mem_cons_self
  have hAppended : Work parent (.made view :: inner ++ [.told parent (.append view)]) :=
    .child .nil hInner
  refine .adapt ((append_yields hcs (hMade.ready hp) hParent hView).mono ?_ ?_)
  · rintro _ r ⟨hExt, -⟩
    exact ⟨_, hMade.trans hExt, hAppended⟩
  · rintro r (rfl | hExt)
    · exact ⟨_, hMade, .inside .nil (.here hInner)⟩
    · exact ⟨_, hMade.trans hExt, .here hAppended⟩

/-- The root of a document that is included is a child view, too. -/
theorem takeInclude_nested (hcs : a.library.classes.Covered U)
    (hExpand : ∀ stack e, Raising a.files U (expand stack e)) (hParent : U parent)
    (name : String) :
    Nested a.files U parent (a.takeInclude expand stack parent caps path name) := by
  intro p hp
  unfold takeInclude
  refine .bind (.adapt ((findIncluded_yields U stack (Text.trim name)).weaken ?_)) ?_
  · exact fun _ h => ⟨[], h, .here .nil⟩

  rintro d q ⟨hExt, -, -⟩
  refine .bind ((hExpand _ d.root q (hExt.ready hp)).weaken ?_) ?_
  · rintro r ⟨log, hLog, rfl | ⟨view, inner, rfl, hInner⟩⟩
    · exact ⟨[], hExt.trans hLog, .here .nil⟩
    · exact ⟨_, hExt.trans hLog, .inside .nil hInner⟩
  · rintro view r ⟨_, hLog, inner, rfl, hInner⟩
    exact append_finished hcs hParent hp (hExt.trans hLog) hInner

private theorem takeIncludes_nested (hcs : a.library.classes.Covered U)
    (hExpand : ∀ stack e, Raising a.files U (expand stack e)) (hParent : U parent)
    (is : List Instruction) :
    Nested a.files U parent (a.takeIncludes expand stack parent caps path is) := by
  unfold takeIncludes
  refine .bind (.forM (fun i => ?_) _) fun _ => .ofAttending .ofPure
  exact takeInclude_nested hcs hExpand hParent i.data

private theorem takeTrailing_nested (hcs : a.library.classes.Covered U)
    (hExpand : ∀ stack e, Raising a.files U (expand stack e)) (hId : U id)
    (is : List Instruction) :
    Nested a.files U id (a.takeTrailing expand stack id caps path is) := by
  unfold takeTrailing
  refine .forM (fun i => ?_) is
  split
  · exact takeInclude_nested hcs hExpand hId i.data
  · exact .within (.ofAttending (deliver_attending hcs hId caps i))

/-! ## Elements -/

/-- What is done before the children of an element are built. -/
theorem opening_nested (hcs : a.library.classes.Covered U) (hId : U id)
    (attributes : Table String String) (leading : List Instruction) (name text : String) :
    Nested a.files U id (Building.within path do
      a.deliverAll id caps leading
      a.takeAttributes id attributes
      a.takeText id caps name text) :=
  .within (.bind (.ofAttending (deliverAll_attending hcs hId caps leading)) fun _ =>
    .bind (.ofAttending (takeAttributes_attending hcs hId attributes)) fun _ =>
      .ofAttending (takeText_attending hcs hId name text))

/-- Building a child is work on the parent, if what is done to the child is work on the child. -/
theorem takeChild_nested (hcs : a.library.classes.Covered U)
    (hExpand : ∀ stack e, Raising a.files U (expand stack e)) (hParent : U parent) (e : Element)
    {work : ObjectId → Capabilities → List Instruction → Building Unit}
    (hWork : ∀ {view own leading}, U view → Nested a.files U view (work view own leading)) :
    Nested a.files U parent (a.takeChild expand stack parent caps path e work) := by
  unfold takeChild
  refine .bind (takeIncludes_nested hcs hExpand hParent e.leading) fun leading p hp => ?_
  refine .bind (.adapt ((start_yields hcs hp hParent e leading).weaken ?_)) ?_
  · rintro q ⟨log, hExt, hOwn⟩
    exact ⟨log, hExt, .here (.of_forall_isOwn hOwn)⟩
  · rintro made q hStarted
    cases hStarted with
    | raw _ hExt hOwn _ => exact .ofPure ⟨_, hExt, .of_forall_isOwn hOwn⟩
    | @made c view _ _ hExt =>
      have hView : U view := hExt.made hp List.mem_cons_self
      refine .bind ((hWork hView q (hExt.ready hp)).weaken ?_) ?_
      · rintro r ⟨inner, hInner, hLog⟩
        exact ⟨_, hExt.trans hInner, .inside .nil hLog⟩
      · rintro _ r ⟨inner, hInner, hLog⟩
        exact append_finished hcs hParent hp (hExt.trans hInner) hLog

mutual

/-- Building an element is work on its instance. -/
theorem process_nested (hcs : a.library.classes.Covered U)
    (hExpand : ∀ stack e, Raising a.files U (expand stack e)) :
    ∀ (e : Element) {id : ObjectId} {caps : Capabilities} {path : String}
      {leading : List Instruction}, U id →
      Nested a.files U id (a.process expand stack e id caps path leading)
  | .mk name attributes children _ trailing text, id, caps, path, leading, hId => by
    unfold process
    refine .bind (opening_nested hcs hId attributes leading name text) fun _ => ?_
    refine .bind (processChildren_nested hcs hExpand children hId) fun _ => ?_
    exact takeTrailing_nested hcs hExpand hId trailing

/-- Building the children of an element is work on its instance. -/
theorem processChildren_nested (hcs : a.library.classes.Covered U)
    (hExpand : ∀ stack e, Raising a.files U (expand stack e)) :
    ∀ (es : List Element) {parent : ObjectId} {caps : Capabilities} {path : String} {index : Nat},
      U parent → Nested a.files U parent (a.processChildren expand stack es parent caps path index)
  | [], parent, caps, path, index, _ => by
    unfold processChildren
    exact .ofAttending .ofPure
  | e :: es, parent, caps, path, index, hParent => by
    unfold processChildren
    refine .bind (takeChild_nested hcs hExpand hParent e fun hView => ?_) fun _ => ?_
    · exact process_nested hcs hExpand e hView
    · exact processChildren_nested hcs hExpand es hParent

end

end

/-! ## Documents -/

variable {a : Assembly} {U : Region}

/-- Building a root is work on the root if it was supplied. -/
theorem buildRoot_nested (hcs : a.library.classes.Covered U) {depth : Nat}
    (hDepth : ∀ stack e, Raising a.files U (a.buildRoot depth stack e none))
    (stack : List String) (e : Element) {root : ObjectId} (hRoot : U root) :
    Nested a.files U root (a.buildRoot (depth + 1) stack e (some root)) := by
  intro p hp
  unfold buildRoot
  refine .bind (.adapt ((startRoot_yields hcs hp e (some root)).weaken ?_)) ?_
  · rintro q (hExt | ⟨hNone, -⟩)
    · exact ⟨[], hExt, .here .nil⟩
    · cases hNone
  · rintro ⟨id, own⟩ q ⟨hStarted, -⟩
    obtain ⟨rfl, hExt⟩ := hStarted.of_some
    refine .bind ((process_nested hcs hDepth e hRoot q (hExt.ready hp)).weaken ?_) ?_
    · rintro r ⟨log, hLog, hWork⟩
      exact ⟨_, hExt.trans hLog, hWork⟩
    · rintro _ r ⟨log, hLog, hWork⟩
      exact .ofPure ⟨_, hExt.trans hLog, hWork⟩

/-- Building the root of a document that is included makes it and works on it. -/
theorem buildRoot_raising (hcs : a.library.classes.Covered U) (depth : Nat) :
    ∀ stack e, Raising a.files U (a.buildRoot depth stack e none) := by
  induction depth with
  | zero =>
    intro stack e p hp
    unfold buildRoot
    exact .ofThrow ⟨[], .refl a.files U p, .inl rfl⟩
  | succ depth ih =>
    intro stack e p hp
    unfold buildRoot
    refine .bind (.adapt ((startRoot_yields hcs hp e none).weaken ?_)) ?_
    · rintro q (hExt | ⟨-, view, hExt⟩)
      · exact ⟨[], hExt, .inl rfl⟩
      · exact ⟨_, hExt, .inr ⟨view, [], rfl, .here .nil⟩⟩
    · rintro ⟨id, own⟩ q ⟨hStarted, -⟩
      have hExt := hStarted.of_none
      have hView : U id := hExt.made hp List.mem_cons_self
      refine .bind ((process_nested hcs ih e hView q (hExt.ready hp)).weaken ?_) ?_
      · rintro r ⟨inner, hInner, hWork⟩
        exact ⟨_, hExt.trans hInner, .inr ⟨id, inner, rfl, hWork⟩⟩
      · rintro _ r ⟨inner, hInner, hWork⟩
        exact .ofPure ⟨_, hExt.trans hInner, inner, rfl, hWork⟩

private theorem buildDocument_yields (hcs : a.library.classes.Covered U) {p : Progress}
    (hp : p.Ready U)
    {root : Option ObjectId} (hRoot : ∀ r, root = some r → U r) (stack : List String)
    (d : Document) :
    Yields (a.buildDocument stack d root) p (fun _ => p.Does a.files U (Rooted root))
      (p.Does a.files U (Rooted root)) := by
  unfold buildDocument
  refine .ofGetBind ?_
  cases root with
  | some r =>
    unfold includeDepth
    refine (buildRoot_nested hcs (buildRoot_raising hcs _) stack d.root (hRoot r rfl) p hp).mono
      ?_ fun _ h => h
    rintro _ p' ⟨log, hExt, hWork⟩
    exact ⟨log, hExt, Unfinished.here hWork⟩
  | none =>
    refine (buildRoot_raising hcs _ stack d.root p hp).mono ?_ fun _ h => h
    rintro view p' ⟨log, hExt, inner, rfl, hWork⟩
    exact ⟨_, hExt, .inr ⟨view, inner, rfl, .here hWork⟩⟩

/-- Building the tree of a document is nested work, whether it succeeds or breaks off. -/
theorem buildTree_yields (hcs : a.library.classes.Covered U) {p : Progress} (hp : p.Ready U)
    {root : Option ObjectId} (hRoot : ∀ r, root = some r → U r) (origin : Origin) :
    Yields (a.buildTree root origin) p (fun _ => p.Does a.files U (Rooted root))
      (p.Does a.files U (Rooted root)) := by
  cases origin with
  | given d => exact buildDocument_yields hcs hp hRoot [] d
  | named name =>
    unfold buildTree
    refine .bind ((loadDocument_yields U name).weaken fun q hExt => ?_) ?_
    · exact ⟨[], hExt, .nil root⟩
    · rintro d q ⟨hExt, -, -⟩
      have hTree := buildDocument_yields hcs (hExt.ready hp) hRoot [name] d
      have hTrans {r : Progress} (h : q.Does a.files U (Rooted root) r) :
          p.Does a.files U (Rooted root) r := by
        obtain ⟨log, hLog, hRooted⟩ := h
        exact ⟨log, hExt.trans hLog, hRooted⟩
      exact hTree.mono (fun _ _ => hTrans) fun _ => hTrans

end Assembly
end ViewMarkup
