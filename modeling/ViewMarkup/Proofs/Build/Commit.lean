import ViewMarkup.Build.Document
import ViewMarkup.Proofs.Object.Region
import ViewMarkup.Proofs.Outcome

/-!
# Giving the owner what is its own

When the tree of a document stands, the outlets of the owner are set one after the other, and then
the bindings are registered one after the other. The first of them that is refused ends it, and what
was committed before stays. `Assembly.committedOutlets` and `Assembly.committedLinks` say what that
is.

Whether an outlet is taken does not depend on the outlets in front of it, since those are taken
themselves (`accepts_setField`).

## Main results

* `Assembly.commit_yields` — what a commit has changed, whether it succeeds or not.
* `Assembly.commit_done` — a commit that succeeds has set all outlets and registered all bindings.
* `Store.field?_setOutlets`, `Bindings.of_foldl_record` — what the owner then has.
-/

namespace ViewMarkup

/-! ## Single outlets and links -/

/-- The store with some attributes of an object set to other objects. -/
def Store.setOutlets (s : Store) (id : ObjectId) (outlets : List (String × ObjectId)) : Store :=
  outlets.foldl (fun s (name, view) => s.setField id name (.object view)) s

/-- What an object is after its outlets were set depends on what it was before only. -/
theorem Store.get?_setOutlets_congr {s t : Store} {id : ObjectId} (h : s.get? id = t.get? id)
    (outlets : List (String × ObjectId)) :
    (s.setOutlets id outlets).get? id = (t.setOutlets id outlets).get? id := by
  induction outlets generalizing s t with
  | nil => exact h
  | cons outlet rest ih =>
    refine ih ?_
    rw [get?_setField_self, get?_setField_self, h]

/-- Setting the outlets of an owner changes no other object. -/
theorem Store.get?_setOutlets_ne {s : Store} {owner id : ObjectId} (hNe : id ≠ owner)
    (outlets : List (String × ObjectId)) : (s.setOutlets owner outlets).get? id = s.get? id := by
  induction outlets generalizing s with
  | nil => rfl
  | cons outlet rest ih => exact ih.trans (get?_modify_ne _ hNe)

/-- Setting outlets makes no object, and leaves all as what they are. -/
theorem Store.writes_setOutlets (s : Store) (id : ObjectId) (outlets : List (String × ObjectId)) :
    Writes (fun _ => True) s (s.setOutlets id outlets) := by
  induction outlets generalizing s with
  | nil => exact .refl _ s
  | cons outlet rest ih =>
    exact (Writes.setField s outlet.1 trivial fun _ _ => trivial).trans (ih _)

/-- Of the outlets with one name the last one counts. -/
theorem Store.field?_setOutlets {s : Store} {id : ObjectId} (h : (s.get? id).isSome)
    (outlets : List (String × ObjectId)) (name : String) :
    (s.setOutlets id outlets).field? id name =
      ((Table.get? outlets.reverse name).map Value.object).or (s.field? id name) := by
  induction outlets generalizing s with
  | nil => rfl
  | cons outlet rest ih =>
    obtain ⟨o, ho⟩ := Option.isSome_iff_exists.1 h
    have hPresent : ((s.setField id outlet.1 (.object outlet.2)).get? id).isSome := by
      simp [get?_setField_self, ho]
    have hRest : (s.setOutlets id (outlet :: rest)).field? id name =
        ((Table.get? rest.reverse name).map Value.object).or
          ((s.setField id outlet.1 (.object outlet.2)).field? id name) := ih hPresent
    rw [hRest, List.reverse_cons, Table.get?_append]
    by_cases hName : name = outlet.1
    · subst hName
      have hField : (s.setField id outlet.1 (.object outlet.2)).field? id outlet.1 =
          some (.object outlet.2) := by
        rw [field?_eq, get?_setField_self, ho]
        exact Table.get?_put_self _ _ _
      rw [hField]
      cases Table.get? rest.reverse outlet.1 <;> simp [Table.get?]
    · rw [field?_setField_ne s id _ hName]
      cases Table.get? rest.reverse name <;> simp [Table.get?, Ne.symm hName]

/-- Setting an attribute of an object changes nothing else. -/
theorem Scene.eq_setField_of_setAttribute {sc : Scene} {id : ObjectId} {attr : String} {new : Value}
    {s : Store} (h : sc.setAttribute (.object id) attr new = .ok s) :
    s = sc.store.setField id attr new := by
  unfold setAttribute at h
  dsimp only at h
  split at h
  · cases h
  · unfold change at h
    dsimp only at h
    split at h
    · split at h <;> cases h
      rfl
    · split at h <;> cases h
      rfl
    · cases h

/-- Whether a binding is registered does not depend on those that are there, and nothing else of
them changes. -/
theorem Bindings.register_eq (t : Bindings) (sc : Scene) (b : Binding) :
    t.register sc b = (Bindings.register [] sc b).map fun _ => t.record b := by
  unfold register
  cases sc.readPath (.object b.owner) b.ownerPath with
  | error e => rfl
  | ok v =>
    cases sc.readPath (.object b.view) b.viewPath with
    | error e => rfl
    | ok v' =>
      simp only [bind, Except.bind]
      cases [b.owner, b.view].find? (!sc.store.isReferable ·) with
      | none => rfl
      | some blocked => rfl

/-- How many bindings there are. -/
def Bindings.count (t : Bindings) : Nat := (t.flatMap fun e => e.2).length

private theorem Bindings.count_record (t : Bindings) (b : Binding) :
    (t.record b).count = t.count + 1 := by
  unfold record of count
  induction t with
  | nil => rfl
  | cons e t ih =>
    by_cases hOwner : e.1 = b.owner
    · simp only [Table.get?, Table.put, hOwner, if_true, Option.getD_some, List.flatMap_cons,
        List.length_append, List.length_singleton]
      omega
    · simp only [Table.get?, Table.put, hOwner, if_false, List.flatMap_cons, List.length_append]
      omega

/-- No binding is registered without a trace. -/
theorem Bindings.foldl_record_eq_self {t : Bindings} {links : List Binding} :
    links.foldl record t = t ↔ links = [] := by
  have hCount (links : List Binding) (t : Bindings) :
      (links.foldl record t).count = t.count + links.length := by
    induction links generalizing t with
    | nil => rfl
    | cons b links ih =>
      rw [List.foldl_cons, ih, count_record, List.length_cons]
      omega
  constructor
  · intro h
    have hLength := hCount links t
    rw [h] at hLength
    exact List.length_eq_zero_iff.1 (by omega)
  · rintro rfl
    rfl

theorem Bindings.of_foldl_record {t : Bindings} {links : List Binding} {owner : ObjectId}
    (h : ∀ b ∈ links, b.owner = owner) :
    (links.foldl record t).of owner = t.of owner ++ links ∧
      ∀ other, other ≠ owner → (links.foldl record t).of other = t.of other := by
  induction links generalizing t with
  | nil => exact ⟨(List.append_nil _).symm, fun _ _ => rfl⟩
  | cons b links ih =>
    have hOwner : b.owner = owner := h b List.mem_cons_self
    obtain ⟨hSelf, hOther⟩ := ih (t := t.record b) fun b' hb' => h b' (List.mem_cons_of_mem b hb')
    rw [List.foldl_cons]
    constructor
    · rw [hSelf, ← hOwner, of_record_self, List.append_assoc]
      rfl
    · intro other hNe
      rw [hOther other hNe, of_record_ne (hOwner ▸ hNe)]

namespace Assembly

/-- Whether an owner takes an outlet. -/
def accepts (a : Assembly) (s : Store) (owner : ObjectId) (outlet : String × ObjectId) : Bool :=
  (({ classes := a.library.classes, store := s } : Scene).setAttribute (.object owner) outlet.1
    (.object outlet.2)).toOption.isSome

/-- Whether a binding can be registered. -/
def registers (a : Assembly) (s : Store) (b : Binding) : Bool :=
  (Bindings.register [] { classes := a.library.classes, store := s } b).toOption.isSome

variable {a : Assembly} {owner : ObjectId}

theorem accepts_eq (a : Assembly) (s : Store) (owner : ObjectId) (outlet : String × ObjectId) :
    a.accepts s owner outlet =
      (outlet.1 != Scene.classAttribute &&
        match s.type? owner with
        | some (.component cls) => !(a.library.classes.computed? cls outlet.1).isSome
        | some (.host _ _ referable) => referable || (s.field? owner outlet.1).isSome
        | none => false) := by
  unfold accepts Scene.setAttribute Scene.change
  dsimp only
  by_cases hClass : outlet.1 = Scene.classAttribute
  · simp [hClass, Except.toOption]
  · rw [if_neg hClass]
    cases s.type? owner with
    | none => simp [Except.toOption]
    | some type =>
      cases type with
      | component cls =>
        dsimp only
        cases (a.library.classes.computed? cls outlet.1).isSome <;> simp [hClass, Except.toOption]
      | host name declared referable =>
        dsimp only
        cases referable <;> cases (s.field? owner outlet.1) <;> simp [hClass, Except.toOption]

/-- An outlet that was taken makes no difference to the others. -/
theorem accepts_setField {s : Store} {outlet : String × ObjectId}
    (h : a.accepts s owner outlet = true) (other : String × ObjectId) :
    a.accepts (s.setField owner outlet.1 (.object outlet.2)) owner other =
      a.accepts s owner other := by
  rw [accepts_eq] at h
  rw [accepts_eq, accepts_eq, Store.type?_setField]
  cases hType : s.type? owner with
  | none => rfl
  | some type =>
    cases type with
    | component cls => rfl
    | host name declared referable =>
      rw [hType] at h
      dsimp only at h ⊢
      by_cases hName : other.1 = outlet.1
      · -- What was taken once is taken again.
        have hNew :
            ((s.setField owner outlet.1 (.object outlet.2)).field? owner outlet.1).isSome := by
          have hExists : (s.get? owner).isSome := by
            unfold Store.type? at hType
            cases hGet : s.get? owner with
            | none => simp [hGet] at hType
            | some o => rfl
          rw [Store.field?_eq, Store.get?_setField_self]
          cases hGet : s.get? owner with
          | none => simp [hGet] at hExists
          | some o => simp [Table.get?_put_self]
        rw [Bool.and_eq_true, Bool.or_eq_true] at h
        rw [hName, hNew]
        rcases h.2 with hReferable | hOld
        · rw [hReferable]
          rfl
        · rw [hOld]
      · rw [Store.field?_setField_ne s owner _ hName]

/-! ## Whole commits -/

/-- Setting outlets goes as far as the owner takes them. -/
theorem commitOutlets_yields (a : Assembly) (owner : ObjectId)
    (outlets : List (String × ObjectId)) (p : Progress) :
    Yields (a.commitOutlets owner outlets) p
      (fun _ p' => outlets.takeWhile (a.accepts p.store owner) = outlets ∧
        p' = { p with store := p.store.setOutlets owner outlets })
      (fun p' => outlets.takeWhile (a.accepts p.store owner) ≠ outlets ∧
        p' = { p with
          store := p.store.setOutlets owner (outlets.takeWhile (a.accepts p.store owner)) }) := by
  induction outlets generalizing p with
  | nil => exact .ofPure ⟨rfl, rfl⟩
  | cons outlet rest ih =>
    unfold commitOutlets
    refine .bind (P := fun sc q => sc = { classes := a.library.classes, store := p.store } ∧ q = p)
      (.ofOk rfl ⟨rfl, rfl⟩) fun sc q h => ?_
    rw [h.1, h.2]
    cases hSet : ({ classes := a.library.classes, store := p.store } : Scene).setAttribute
        (.object owner) outlet.1 (.object outlet.2) with
    | error failure =>
      have hRefused : a.accepts p.store owner outlet = false := by
        unfold accepts
        rw [hSet]
        rfl
      rw [List.takeWhile_cons, hRefused]
      exact .bind (P := fun _ _ => False) (.ofError rfl ⟨by simp, rfl⟩) fun _ _ h => h.elim
    | ok store =>
      have hTaken : a.accepts p.store owner outlet = true := by
        unfold accepts
        rw [hSet]
        rfl
      have hStore : store = p.store.setField owner outlet.1 (.object outlet.2) :=
        Scene.eq_setField_of_setAttribute hSet
      have hSame : a.accepts store owner = a.accepts p.store owner := by
        funext other
        rw [hStore]
        exact accepts_setField hTaken other
      have hRest := ih { p with store }
      simp only [hSame] at hRest
      rw [List.takeWhile_cons, hTaken]
      refine (hRest.mono ?_ ?_).congr rfl
      · rintro _ p' ⟨hAll, hp'⟩
        refine ⟨congrArg (outlet :: ·) hAll, ?_⟩
        rw [hp', hStore]
        rfl
      · rintro p' ⟨hAll, hp'⟩
        refine ⟨fun h => hAll (List.cons.inj h).2, ?_⟩
        rw [hp', hStore]
        rfl

/-- Registering bindings goes as far as they can be registered. -/
theorem commitLinks_yields (a : Assembly) (links : List Binding) (p : Progress) :
    Yields (a.commitLinks links) p
      (fun _ p' => links.takeWhile (a.registers p.store) = links ∧
        p' = { p with bindings := links.foldl Bindings.record p.bindings })
      (fun p' => links.takeWhile (a.registers p.store) ≠ links ∧
        p' = { p with bindings :=
          (links.takeWhile (a.registers p.store)).foldl Bindings.record p.bindings }) := by
  induction links generalizing p with
  | nil => exact .ofPure ⟨rfl, rfl⟩
  | cons link rest ih =>
    unfold commitLinks
    refine .ofGetBind ?_
    refine .bind (P := fun sc q => sc = { classes := a.library.classes, store := p.store } ∧ q = p)
      (.ofOk rfl ⟨rfl, rfl⟩) fun sc q h => ?_
    rw [h.1, h.2, Bindings.register_eq]
    cases hRegister : Bindings.register []
        { classes := a.library.classes, store := p.store } link with
    | error failure =>
      have hRefused : a.registers p.store link = false := by
        unfold registers
        rw [hRegister]
        rfl
      rw [List.takeWhile_cons, hRefused]
      exact .bind (P := fun _ _ => False) (.ofError rfl ⟨by simp, rfl⟩) fun _ _ h => h.elim
    | ok bindings =>
      have hTaken : a.registers p.store link = true := by
        unfold registers
        rw [hRegister]
        rfl
      rw [List.takeWhile_cons, hTaken]
      refine ((ih { p with bindings := p.bindings.record link }).mono ?_ ?_).congr rfl
      · rintro _ p' ⟨hAll, hp'⟩
        exact ⟨congrArg (link :: ·) hAll, hp'⟩
      · rintro p' ⟨hAll, hp'⟩
        exact ⟨fun h => hAll (List.cons.inj h).2, hp'⟩

/-- The outlets that a commit sets: those in front of the first one that the owner does not take. -/
def committedOutlets (a : Assembly) (p : Progress) : List (String × ObjectId) :=
  match a.owner with
  | none => []
  | some owner => p.outlets.takeWhile (a.accepts p.store owner)

/-- The objects when a commit has set its outlets. -/
def storeCommitted (a : Assembly) (p : Progress) : Store :=
  match a.owner with
  | none => p.store
  | some owner => p.store.setOutlets owner (a.committedOutlets p)

/-- The bindings that a commit registers: none if an outlet was refused, otherwise those in front
of the first one that cannot be registered. -/
def committedLinks (a : Assembly) (p : Progress) : List Binding :=
  if a.owner.isSome ∧ a.committedOutlets p ≠ p.outlets then []
  else p.links.takeWhile (a.registers (a.storeCommitted p))

/-- A commit changes the owner and the bindings as far as it gets, and nothing else. -/
theorem commit_yields (a : Assembly) (p : Progress) :
    let p' := { p with
      store := a.storeCommitted p
      bindings := (a.committedLinks p).foldl Bindings.record p.bindings }
    Yields a.commit p (fun _ q => q = p') (fun q => q = p') := by
  intro p'
  unfold commit
  have hLinks (q : Progress) (hq : q = { p with store := a.storeCommitted p })
      (hAll : ¬ (a.owner.isSome ∧ a.committedOutlets p ≠ p.outlets)) :
      Yields (do a.commitLinks (← get).links) q (fun _ q => q = p') (fun q => q = p') := by
    have hCommitted : a.committedLinks p = p.links.takeWhile (a.registers (a.storeCommitted p)) :=
      if_neg hAll
    refine .ofGetBind ?_
    rw [hq]
    refine (a.commitLinks_yields p.links _).mono ?_ ?_
    · rintro _ r ⟨hLinks, hr⟩
      rw [hr]
      show _ = { p with store := _, bindings := (a.committedLinks p).foldl _ _ }
      rw [hCommitted, hLinks]
    · rintro r ⟨-, hr⟩
      rw [hr]
      show _ = { p with store := _, bindings := (a.committedLinks p).foldl _ _ }
      rw [hCommitted]
  cases hOwner : a.owner with
  | none =>
    have hStore : a.storeCommitted p = p.store := by
      unfold storeCommitted
      rw [hOwner]
    exact hLinks p (by rw [hStore]) (by simp [hOwner])
  | some owner =>
    have hOutlets : a.committedOutlets p = p.outlets.takeWhile (a.accepts p.store owner) := by
      unfold committedOutlets
      rw [hOwner]
    have hStore : a.storeCommitted p = p.store.setOutlets owner (a.committedOutlets p) := by
      unfold storeCommitted
      rw [hOwner]
    refine .ofGetBind ?_
    refine .bind ((a.commitOutlets_yields owner p.outlets p).weaken ?_) ?_
    · rintro q ⟨hNotAll, hq⟩
      rw [← hOutlets] at hNotAll hq
      have hNone : a.committedLinks p = [] := if_pos ⟨by rw [hOwner]; rfl, hNotAll⟩
      rw [hq, ← hStore]
      show _ = { p with store := _, bindings := (a.committedLinks p).foldl _ _ }
      rw [hNone]
      rfl
    · rintro _ q ⟨hAll, hq⟩
      rw [← hOutlets] at hAll
      refine hLinks q ?_ fun h => h.2 hAll
      rw [hq, hStore, hAll]

/-- A commit that succeeds has set all outlets and registered all bindings. -/
theorem commit_done {a : Assembly} {owner : ObjectId} (hOwner : a.owner = some owner)
    (p : Progress) :
    Yields a.commit p
      (fun _ q => q = { p with
        store := p.store.setOutlets owner p.outlets
        bindings := p.links.foldl Bindings.record p.bindings })
      fun _ => True := by
  unfold commit
  rw [hOwner]
  refine .ofGetBind ?_
  refine .bind ((a.commitOutlets_yields owner p.outlets p).weaken fun _ _ => trivial) ?_
  rintro _ q ⟨-, rfl⟩
  refine .ofGetBind ?_
  refine (a.commitLinks_yields p.links _).mono ?_ fun _ _ => trivial
  rintro _ r ⟨-, rfl⟩
  rfl

/-- A commit is no part of the journal. -/
theorem commit_keeps_journal (a : Assembly) (p : Progress) :
    Yields a.commit p (fun _ q => q.journal = p.journal) (fun q => q.journal = p.journal) := by
  refine (a.commit_yields p).mono ?_ ?_
  · rintro _ q rfl
    rfl
  · rintro q rfl
    rfl

/-- A commit changes no other object than the owner. -/
theorem get?_storeCommitted_ne {a : Assembly} {p : Progress} {id : ObjectId}
    (h : a.owner ≠ some id) : (a.storeCommitted p).get? id = p.store.get? id := by
  unfold storeCommitted
  split
  · rfl
  · next owner hOwner =>
    exact Store.get?_setOutlets_ne (fun hSame => h (hOwner.trans (congrArg some hSame.symm))) _

/-- A commit makes no object. -/
theorem writes_storeCommitted (a : Assembly) (p : Progress) :
    Store.Writes (fun _ => True) p.store (a.storeCommitted p) := by
  unfold storeCommitted
  split
  · exact .refl _ p.store
  · exact p.store.writes_setOutlets _ _

end Assembly

/-- A build ends where its tree has failed, or where a commit has led from the finished tree. -/
theorem Builder.outcome_state (b : Builder) (owner root : Option ObjectId) (origin : Origin)
    (w : World) :
    let a : Assembly := { b with owner }
    let tree := a.buildTree root origin { w with }
    (tree.1.isOk = false ∧ (b.outcome owner root origin w).2 = tree.2) ∨
      (tree.1.isOk = true ∧ (b.outcome owner root origin w).2 = { tree.2 with
        store := a.storeCommitted tree.2
        bindings := (a.committedLinks tree.2).foldl Bindings.record tree.2.bindings }) := by
  intro a tree
  have hBuild : b.outcome owner root origin w = a.build root origin { w with } := rfl
  rw [hBuild]
  unfold Assembly.build
  cases hTree : a.buildTree root origin { w with } with
  | mk answer q =>
    have hSame : tree = (answer, q) := hTree
    rw [hSame]
    cases answer with
    | error e =>
      rw [run_bind_of_eq_error hTree]
      exact .inl ⟨rfl, rfl⟩
    | ok view =>
      rw [run_bind_of_eq_ok hTree]
      refine .inr ⟨rfl, Yields.state (R := fun r => r = _) ?_⟩
      exact .bind (a.commit_yields q) fun _ r hr => .ofPure hr

/-- A build that succeeds has committed a finished tree. -/
theorem Builder.exists_of_outcome_eq_ok {b : Builder} {owner root : Option ObjectId}
    {origin : Origin} {w : World} {view : ObjectId} {p : Progress}
    (h : b.outcome owner root origin w = (.ok view, p)) :
    let a : Assembly := { b with owner }
    ∃ q, a.buildTree root origin { w with } = (.ok view, q) ∧ p = { q with
      store := a.storeCommitted q
      bindings := (a.committedLinks q).foldl Bindings.record q.bindings } := by
  intro a
  obtain ⟨view', q, hTree, hCommit⟩ := exists_of_run_bind_eq_ok
    (show a.build root origin { w with } = (.ok view, p) from h)
  have hEnd : Yields (do a.commit; return view') q
      (fun answer p => answer = view' ∧ p = { q with
        store := a.storeCommitted q
        bindings := (a.committedLinks q).foldl Bindings.record q.bindings }) fun _ => True :=
    .bind ((a.commit_yields q).weaken fun _ _ => trivial) fun _ _ h => .ofPure ⟨rfl, h⟩
  obtain ⟨rfl, hState⟩ := hEnd.ok hCommit
  exact ⟨q, hTree, hState⟩

/-- The journal of a build is that of its tree. -/
theorem Builder.outcome_journal_eq (b : Builder) (owner root : Option ObjectId) (origin : Origin)
    (w : World) : (b.outcome owner root origin w).2.journal =
    (({ b with owner } : Assembly).buildTree root origin { w with }).2.journal := by
  rcases b.outcome_state owner root origin w with ⟨-, hState⟩ | ⟨-, hState⟩ <;> rw [hState]

end ViewMarkup
