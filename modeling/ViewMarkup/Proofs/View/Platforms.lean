import ViewMarkup.Proofs.Build.Moves
import ViewMarkup.Proofs.View.Containers
import ViewMarkup.Proofs.View.Puts

/-!
# Views that are hidden on a platform

An instruction that lists platforms hides its view where the platform of the build is not among
them. Nothing that objects are told makes a hidden view appear again, so it is hidden when the tree
is finished, unless the property `hidden` is assigned after the instruction. The attributes of an
element are assigned after the instructions in front of it: they can make a view appear that one of
these has hidden.

## Main results

* `Acting.tell_platform` — an instruction that misses the platform hides its view.
* `Builder.outcome_hidden` — a view that a platform was missed for ends up hidden, unless its
  property `hidden` is assigned later.
-/

namespace ViewMarkup

open View View.Catalog

/-! ## The built-in classes -/

namespace View

/-- There are fifteen built-in classes. -/
theorem lt_of_isSome {cls : ClassId} (hThere : (classes.get? cls).isSome = true) : cls < 15 := by
  obtain ⟨c, hc⟩ := Option.isSome_iff_exists.1 hThere
  exact (Array.getElem?_eq_some_iff.1 hc).1

/-- All built-in classes that take instructions take them as views do. -/
theorem hookFrom?_instruction {cls : ClassId} (hThere : (classes.get? cls).isSome = true) :
    classes.hookFrom? cls .instruction = none ∨
      classes.hookFrom? cls .instruction = some ("View", .restrictPlatforms) := by
  have hAll : ∀ cls : Fin 15, classes.hookFrom? cls.val .instruction = none ∨
      classes.hookFrom? cls.val .instruction = some ("View", .restrictPlatforms) := by decide
  exact hAll ⟨cls, lt_of_isSome hThere⟩

end View

/-! ## What is told -/

namespace Acting

variable {id : ObjectId} {platform data : String} {call : Call}

/-- An instruction that lists platforms, and not the one there is, hides its view. -/
theorem run_restrict_of_miss {sc : Scene} (hNamed : platformsNamed data ≠ [])
    (hMiss : Text.lower platform ∉ platformsNamed data) :
    restrict platform id "platform" data sc = (.ok (), { sc with
      store := (sc.store.setField id "platforms"
        (.tuple ((platformsNamed data).map .text))).setField id "hidden" (.bool true) }) := by
  have hAbsent : (!(platformsNamed data).contains (Text.lower platform)) = true := by
    simpa using hMiss
  unfold restrict
  dsimp only
  rw [if_neg (not_not_intro rfl)]
  generalize platformsNamed data = names at hNamed hAbsent
  cases names with
  | nil => exact absurd rfl hNamed
  | cons first rest =>
    dsimp only
    rw [if_pos hAbsent]
    rfl

/-- What takes a call, or refuses an instruction, has a hook for it, which is not replaced. -/
theorem hook_of_taken {sc : Scene}
    (hTaken : ∀ e, (tell platform id call sc).1 = .error e → e.IsInstruction) :
    sc.store.field? id call.hook.name = none ∧ ∃ cls found, sc.store.class? id = some cls ∧
      sc.classes.hookFrom? cls call.hook = some found := by
  cases hFree : sc.store.field? id call.hook.name with
  | some v =>
    have hRefuse : refuseReplaced id call.hook.name sc =
        (.error (.mistyped (.notCallable (sc.typeName v))), sc) := by
      rw [refuseReplaced, run_bind_of_eq_ok (run_get sc), hFree]
      rfl
    have hFails : tell platform id call sc =
        (.error (.mistyped (.notCallable (sc.typeName v))), sc) := run_bind_of_eq_error hRefuse
    exact (hTaken (.mistyped (.notCallable (sc.typeName v))) (by rw [hFails])).elim
  | none =>
    cases hClass : sc.store.class? id with
    | none =>
      exact (hTaken .noAttribute (congrArg Prod.fst (run_tell_of_host hClass hFree))).elim
    | some cls =>
      cases hHook : sc.classes.hookFrom? cls call.hook with
      | some found => exact ⟨rfl, cls, found, rfl, hHook⟩
      | none =>
        exact (hTaken .noAttribute (congrArg Prod.fst (run_tell_of_none hClass hFree hHook))).elim

/-- A view that takes a platform instruction which misses the platform is hidden then. -/
theorem tell_platform {sc : Scene} {cls : ClassId} (hcs : sc.classes.Extends classes)
    (hThere : (classes.get? cls).isSome = true) (hClass : sc.store.class? id = some cls)
    (hNamed : platformsNamed data ≠ []) (hMiss : Text.lower platform ∉ platformsNamed data)
    (hTaken : ∀ e, (tell platform id (.instruction "platform" data) sc).1 = .error e →
      e.IsInstruction) :
    (tell platform id (.instruction "platform" data) sc).2.store.field? id "hidden" =
      some (.bool true) := by
  obtain ⟨hFree, cls', found, hClass', hHook⟩ := hook_of_taken hTaken
  rw [hClass] at hClass'
  cases hClass'
  have hView : sc.classes.hookFrom? cls .instruction = some ("View", .restrictPlatforms) := by
    have hSame : sc.classes.hookFrom? cls .instruction = classes.hookFrom? cls .instruction :=
      hcs.nearest? View.complete_classes hThere _
    rcases View.hookFrom?_instruction hThere with hNone | hView
    · rw [hNone] at hSame
      rw [Call.hook, hSame] at hHook
      cases hHook
    · exact hSame.trans hView
  have hRun : tell platform id (.instruction "platform" data) sc =
      restrict platform id "platform" data sc :=
    run_tell_of_rule hClass hFree hView (by decide)
  rw [hRun, run_restrict_of_miss hNamed hMiss]
  refine Store.field?_setField_self ?_ "hidden" _
  rw [Store.isSome_get?_iff, Store.size_setField]
  exact Store.lt_size_of_class? hClass

end Acting

/-! ## Properties named `hidden` -/

namespace Scene

variable {sc : Scene}

theorem propertiesOf_of_class? {id : ObjectId} {cls : ClassId}
    (h : sc.store.class? id = some cls) :
    sc.propertiesOf (.object id) = sc.classes.properties cls := by
  unfold Store.class? at h
  split at h
  · next found hType =>
    cases h
    rw [propertiesOf, hType]
    rfl
  · cases h

/-- A dotted name leads to a property with one of its names. It is one of the value itself unless
the name is a nested one. -/
theorem locate_named {names : List String} {v owner : Value} {p : Property}
    (h : sc.locate v names = .ok (owner, p)) :
    ∃ name ∈ names, (sc.propertiesOf owner).get? name = some p ∧
      (owner = v ∨ names ≠ [name] ∧ names ≠ [name, ""]) := by
  induction names generalizing v with
  | nil => simp [locate] at h
  | cons name rest ih =>
    unfold locate at h
    split at h
    · cases h
    · next found hFound =>
      split at h
      · split at h
        · cases h
          exact ⟨name, List.mem_cons_self, hFound, .inl rfl⟩
        · cases h
      · next hRest =>
        split at h
        · cases h
        · obtain ⟨inner?, -, h⟩ := exists_of_bind_eq_ok h
          split at h
          · cases h
          · cases h
          · obtain ⟨name', hMem, hGet, -⟩ := ih h
            refine ⟨name', List.mem_cons_of_mem name hMem, hGet, .inr ⟨?_, ?_⟩⟩
            · rintro hEq
              exact hRest (.inl (by simp [(List.cons.inj hEq).2]))
            · rintro hEq
              exact hRest (.inr (List.cons.inj hEq).2)

end Scene

namespace View

/-- Among the built-in classes, `hidden` is stored for the property of that name only. -/
theorem name_of_target_hidden {cls : ClassId} (hThere : (classes.get? cls).isSome = true)
    {name : String} {p : Property} (h : (classes.properties cls).get? name = some p)
    (hTarget : p.target = "hidden") : name = "hidden" := by
  have hAll : ∀ cls : Fin 15, ∀ e ∈ classes.properties cls.val, e.2.target = "hidden" →
      e.1 = "hidden" := by decide +kernel
  exact hAll ⟨cls, lt_of_isSome hThere⟩ (name, p) (Table.mem_of_get? h) hTarget

end View

/-! ## Along a build -/

/-- Whether a step may make a view appear: a property `hidden` is assigned to it, or a nested one of
that name to whatever object. -/
def Step.Reveals (id : ObjectId) : Step → Prop
  | .assigned x name _ => "hidden" ∈ Text.splitOn '.' name ∧
      (x = id ∨ Text.splitOn '.' name ≠ ["hidden"] ∧ Text.splitOn '.' name ≠ ["hidden", ""])
  | _ => False

/-- A view has been told of platforms without the one there is, and has not been made to appear
since. -/
def MissedIn (platform : String) (id : ObjectId) (log : List Step) : Prop :=
  ∃ pre data post, log = pre ++ .told id (.instruction "platform" data) :: post ∧
    platformsNamed data ≠ [] ∧ Text.lower platform ∉ platformsNamed data ∧
    ∀ s ∈ post, ¬ s.Reveals id

variable {platform : String} {id : ObjectId} {log : List Step} {s : Step}

/-- A platform that is missed was missed at the last step, or before it. -/
theorem MissedIn.of_append (h : MissedIn platform id (log ++ [s])) :
    (∃ data, s = .told id (.instruction "platform" data) ∧ platformsNamed data ≠ [] ∧
        Text.lower platform ∉ platformsNamed data) ∨
      MissedIn platform id log ∧ ¬ s.Reveals id := by
  obtain ⟨pre, data, post, hLog, hNamed, hMiss, hPost⟩ := h
  rcases List.eq_nil_or_concat' post with rfl | ⟨post', last, rfl⟩
  · obtain ⟨-, hLast⟩ := List.append_inj' hLog rfl
    exact .inl ⟨data, (List.cons.inj hLast).1, hNamed, hMiss⟩
  · rw [← List.cons_append, ← List.append_assoc] at hLog
    obtain ⟨hFront, hLast⟩ := List.append_inj' hLog rfl
    cases hLast
    refine .inr ⟨⟨pre, data, post', hFront, hNamed, hMiss, fun x hx => ?_⟩, ?_⟩
    · exact hPost x (List.mem_append_left _ hx)
    · exact hPost s (List.mem_append_right _ List.mem_cons_self)

namespace Assembly

variable {a : Assembly} {p q : Progress} {cls : ClassId}

/-- What is said of a view along a build: if it is one of the built-in ones and has missed a
platform, it is hidden. -/
def Shaded (a : Assembly) (id : ObjectId) (p : Progress) : Prop :=
  MissedIn a.platform id p.journal → ∃ cls, p.store.class? id = some cls ∧
    ((classes.get? cls).isSome = true → p.store.field? id "hidden" = some (.bool true))

/-- Where an assignment changes whether a view is hidden, it reveals it. -/
theorem reveals_of_change? (hcs : a.library.classes.Extends classes)
    (hClass : p.store.class? id = some cls) (hThere : (classes.get? cls).isSome = true)
    {x : ObjectId} {entry : String × String} {change : Cell × Value}
    (hChange : a.change? x p entry = some change) (hCell : change.1 = .field id "hidden")
    (way : List ObjectId) : (Step.assigned x entry.1 way).Reveals id := by
  obtain ⟨⟨owner, prop⟩, hFound, hChange⟩ := Option.bind_eq_some_iff.1 hChange
  obtain ⟨value, -, hChange⟩ := Option.bind_eq_some_iff.1 hChange
  obtain ⟨cell, hOf, hChange⟩ := Option.bind_eq_some_iff.1 hChange
  cases hChange
  obtain rfl : cell = .field id "hidden" := hCell
  obtain ⟨rfl, hTarget⟩ := Scene.eq_of_cellOf (Option.filter_eq_some_iff.1 hOf).1
  obtain ⟨name, hMem, hGet, hPlace⟩ :=
    Scene.locate_named (eq_ok_of_toOption_eq_some hFound)
  have hProperties : (a.sceneAt p).propertiesOf (.object id) = classes.properties cls := by
    rw [Scene.propertiesOf_of_class? hClass]
    exact hcs.properties View.complete_classes hThere
  rw [hProperties] at hGet
  obtain rfl := View.name_of_target_hidden hThere hGet hTarget
  refine ⟨hMem, hPlace.imp_left fun hSame => ?_⟩
  cases hSame
  rfl

/-- A platform that is missed hides the view that is told of it. -/
theorem tell_hides {data : String} (hcs : a.library.classes.Extends classes)
    (hNamed : platformsNamed data ≠ []) (hMiss : Text.lower a.platform ∉ platformsNamed data)
    (hTaken : ∀ e, (a.tell id (.instruction "platform" data) p).1 = .error e → e.IsInstruction) :
    ∃ cls, p.store.class? id = some cls ∧ ((classes.get? cls).isSome = true →
      (a.tell id (.instruction "platform" data) p).2.store.field? id "hidden" =
        some (.bool true)) := by
  have hTells : ∀ e, (Acting.tell a.platform id (.instruction "platform" data)
      (a.sceneAt p)).1 = .error e → e.IsInstruction := hTaken
  obtain ⟨-, cls, -, hClass, -⟩ := Acting.hook_of_taken hTells
  have hExtends : (a.sceneAt p).classes.Extends classes := hcs
  exact ⟨cls, hClass, fun hThere =>
    Acting.tell_platform hExtends hThere hClass hNamed hMiss hTells⟩

/-- Nothing that is told makes a hidden view appear. -/
theorem tell_keeps_hidden {x : ObjectId} {call : Call}
    (h : p.store.field? id "hidden" = some (.bool true)) :
    (a.tell x call p).2.store.field? id "hidden" = some (.bool true) := by
  have hPuts (sc sc' : Scene) (hHidden : sc.store.field? id "hidden" = some (.bool true))
      (h : sc.Puts x call sc') : sc'.store.field? id "hidden" = some (.bool true) :=
    h.keeps_hidden hHidden
  exact Acting.tell_puts.keeps (s := a.sceneAt p) hPuts hPuts h

private theorem Shaded.move (hcs : a.library.classes.Extends classes) (h : a.Shaded id p)
    {subject? : Option Subject} (hMove : a.Move subject? p q) : a.Shaded id q := by
  intro hMissed
  have hStore := hMove.evolves
  have hClass {cls : ClassId} (h : p.store.class? id = some cls) : q.store.class? id = some cls :=
    (Store.class?_of_type? (hStore.type id (Store.lt_size_of_class? h))).trans h
  cases hMove with
  | resolve _ | load _ | note _ _ _ => exact h hMissed
  | make hMake =>
    obtain ⟨data, hTold, -⟩ | ⟨hBefore, -⟩ := hMissed.of_append
    · cases hTold
    · obtain ⟨cls, hIs, hHidden⟩ := h hBefore
      refine ⟨cls, hClass hIs, fun hThere => ?_⟩
      have hKept := (Classes.instantiateStyled_grows hMake).kept id (Store.lt_size_of_class? hIs)
      exact (Store.field?_congr hKept "hidden").trans (hHidden hThere)
  | assign entry _ _ =>
    obtain ⟨store, loader, hState, hStored⟩ := a.assignProperty_state _ entry p
    rw [hState] at hMissed hClass ⊢
    obtain ⟨data, hTold, -⟩ | ⟨hBefore, hNot⟩ := hMissed.of_append
    · cases hTold
    · obtain ⟨cls, hIs, hHidden⟩ := h hBefore
      refine ⟨cls, hClass hIs, fun hThere => ?_⟩
      rcases hStored with rfl | ⟨change, hChange, rfl⟩
      · exact hHidden hThere
      · have hCell : change.1 ≠ .field id "hidden" := fun hCell =>
          hNot (reveals_of_change? hcs hIs hThere hChange hCell _)
        have hSame : (p.store.assign change.1 change.2).valueAt? (.field id "hidden") =
            p.store.valueAt? (.field id "hidden") := Store.valueAt?_assign_ne hCell.symm
        exact hSame.trans (hHidden hThere)
  | @tell x call _ _ hTaken =>
    obtain ⟨data, hTold, hNamed, hMiss⟩ | ⟨hBefore, -⟩ :=
      MissedIn.of_append hMissed
    · cases hTold
      obtain ⟨cls, hIs, hHidden⟩ := tell_hides hcs hNamed hMiss hTaken
      exact ⟨cls, hClass hIs, hHidden⟩
    · obtain ⟨cls, hIs, hHidden⟩ := h hBefore
      exact ⟨cls, hClass hIs, fun hThere => tell_keeps_hidden (hHidden hThere)⟩

/-- A tree that is built has all views hidden that have missed a platform. -/
theorem buildTree_shaded (hcs : a.library.classes.Extends classes) {root : Option ObjectId}
    {origin : Origin} {view : ObjectId} (hJournal : p.journal = [])
    (hRun : a.buildTree root origin p = (.ok view, q)) : a.Shaded id q := by
  have hStart (loader : Loader) : a.Shaded id { p with loader } := by
    rintro ⟨pre, data, post, hLog, -⟩
    have hNone : pre ++ .told id (.instruction "platform" data) :: post = [] :=
      hLog.symm.trans hJournal
    simp at hNone
  exact a.buildTree_keeps hStart (fun h hMove => h.move hcs hMove) hRun

end Assembly

/-- Outlets change no other attributes than theirs. -/
theorem Store.field?_setOutlets_of_not_mem {s : Store} {owner id : ObjectId}
    {outlets : List (String × ObjectId)} {name : String}
    (h : id = owner → ∀ outlet ∈ outlets, outlet.1 ≠ name) :
    (s.setOutlets owner outlets).field? id name = s.field? id name := by
  induction outlets generalizing s with
  | nil => rfl
  | cons outlet rest ih =>
    refine (ih fun hId x hx => h hId x (List.mem_cons_of_mem outlet hx)).trans ?_
    have hNe : Cell.field id name ≠ .field owner outlet.1 := by
      rintro hSame
      cases hSame
      exact h rfl outlet List.mem_cons_self rfl
    exact Store.valueAt?_assign_ne hNe

/-- A commit changes no attribute of the owner that is not the name of an outlet. -/
theorem Assembly.field?_storeCommitted {a : Assembly} {q : Progress} {id : ObjectId} {name : String}
    (h : a.owner = some id → ∀ outlet ∈ q.outlets, outlet.1 ≠ name) :
    (a.storeCommitted q).field? id name = q.store.field? id name := by
  unfold storeCommitted committedOutlets
  cases hOwner : a.owner with
  | none => rfl
  | some owner =>
    refine Store.field?_setOutlets_of_not_mem fun hId outlet hMem => ?_
    exact h (hOwner.trans (congrArg some hId.symm)) outlet ((List.takeWhile_sublist _).mem hMem)

namespace Builder

/-- A built-in view that has been told of platforms without the one there is ends up hidden if the
build succeeds, whatever else happens to it: unless its property `hidden` is assigned after that, or
it is the owner itself and the document has an outlet of that name. -/
theorem outcome_hidden (b : Builder) (owner root : Option ObjectId) (origin : Origin) (w : World)
    (hcs : b.library.classes.Extends classes) {view : ObjectId} {p : Progress}
    (hRun : b.outcome owner root origin w = (.ok view, p)) {id : ObjectId} {cls : ClassId}
    (hClass : p.store.class? id = some cls) (hThere : (classes.get? cls).isSome = true)
    {pre post : List Step} {data : String}
    (hTold : p.journal = pre ++ .told id (.instruction "platform" data) :: post)
    (hNamed : platformsNamed data ≠ []) (hMiss : Text.lower b.platform ∉ platformsNamed data)
    (hLater : ∀ s ∈ post, ¬ s.Reveals id)
    (hOwner : owner = some id → ∀ outlet ∈ p.outlets, outlet.1 ≠ "hidden") :
    p.store.field? id "hidden" = some (.bool true) := by
  let a : Assembly := { b with owner }
  obtain ⟨view', q, hTree, hCommit⟩ := exists_of_run_bind_eq_ok
    (show a.build root origin { w with } = (.ok view, p) from hRun)
  have hEnd : Yields (do a.commit; return view') q
      (fun answer p => answer = view' ∧ p = { q with
        store := a.storeCommitted q
        bindings := (a.committedLinks q).foldl Bindings.record q.bindings }) fun _ => True :=
    .bind ((a.commit_yields q).weaken fun _ _ => trivial) fun _ _ h => .ofPure ⟨rfl, h⟩
  obtain ⟨rfl, rfl⟩ := hEnd.ok hCommit
  obtain ⟨cls', hBuilt, hHidden⟩ := Assembly.buildTree_shaded hcs rfl hTree
    ⟨pre, data, post, hTold, hNamed, hMiss, hLater⟩
  have hSame : (a.storeCommitted q).class? id = some cls' :=
    (Store.class?_of_type? ((a.writes_storeCommitted q).type id
      (Store.lt_size_of_class? hBuilt))).trans hBuilt
  obtain rfl : cls' = cls := Option.some.inj (hSame.symm.trans hClass)
  have hField : (a.storeCommitted q).field? id "hidden" = q.store.field? id "hidden" :=
    a.field?_storeCommitted hOwner
  exact hField.trans (hHidden hThere)

end Builder

namespace Sample

/-- A view that is to be shown, with an instruction in front of its element or inside of it. -/
def shown (leading trailing : List Instruction) : Document where
  root := .mk "View" [("hidden", "false")] [] leading trailing ""

/-- Instructions for another platform than the one there is. -/
def elsewhere : List Instruction := [⟨"platform", "nowhere"⟩]

end Sample

/-- An instruction inside of the element is told after the attributes of the element are assigned,
so the view ends up hidden. One in front of the element is told before, and the view appears. -/
theorem Builder.outcome_hidden_inside :
    ∃ p, Sample.views.outcome none none (.given (Sample.shown [] Sample.elsewhere))
        Sample.emptyWorld = (.ok 0, p) ∧
      p.store.field? 0 "hidden" = some (.bool true) ∧
      ((Sample.views.outcome none none (.given (Sample.shown Sample.elsewhere []))
        Sample.emptyWorld).2.store.field? 0 "hidden").map Value.isTrue = some false := by
  have hView : (Sample.views.outcome none none (.given (Sample.shown [] Sample.elsewhere))
      Sample.emptyWorld).1.toOption = some 0 := by decide +kernel
  have hClass : (Sample.views.outcome none none (.given (Sample.shown [] Sample.elsewhere))
      Sample.emptyWorld).2.store.class? 0 = some viewClass := by decide +kernel
  have hJournal : (Sample.views.outcome none none (.given (Sample.shown [] Sample.elsewhere))
      Sample.emptyWorld).2.journal =
        [.made 0, .assigned 0 "hidden" [0]] ++
          .told 0 (.instruction "platform" "nowhere") :: [] := by
    decide +kernel
  cases h : Sample.views.outcome none none (.given (Sample.shown [] Sample.elsewhere))
      Sample.emptyWorld with
  | mk answer p =>
    rw [h] at hView hClass hJournal
    obtain rfl : answer = .ok 0 := eq_ok_of_toOption_eq_some hView
    refine ⟨p, rfl, ?_, by decide +kernel⟩
    exact Builder.outcome_hidden Sample.views none none _ Sample.emptyWorld (.refl classes) h hClass
      (by decide) hJournal (by decide +kernel) (by decide +kernel) (fun _ h => nomatch h)
      fun h => nomatch h

end ViewMarkup
