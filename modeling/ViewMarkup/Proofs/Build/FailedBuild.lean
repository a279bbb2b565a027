import ViewMarkup.Proofs.Build.Commit
import ViewMarkup.Proofs.Build.Nesting
import ViewMarkup.Proofs.Build.Sample

/-!
# What a failing build does to its owner

Building a tree touches only what can be reached from what the build starts from, and objects that
it makes itself (`Builder.territory`). An owner that is no part of this is left alone until the tree
stands, and so are the bindings.

A commit may still break off, since a bound path may lead through an attribute that an outlet has
just replaced, and an owner may refuse an outlet that it has a field for. What has been committed by
then stays.

## Main results

* `Assembly.buildTree_spares` — building a tree, whether it succeeds or not, leaves the owner alone.
* `Builder.outcome_spares_iff` — a build that fails has left the owner and the bindings alone
  exactly if it has failed before the commit, or the commit had changed nothing when it broke off.
-/

namespace ViewMarkup

/-! ## Reachable objects -/

/-- The objects to which references lead from some objects. -/
inductive Store.Reached (s : Store) (start : Region) : Region
  | start {id : ObjectId} : start id → s.Reached start id
  | field {id id' : ObjectId} {attr : String} {v : Value} : s.Reached start id →
      s.field? id attr = some v → id' ∈ v.objects → s.Reached start id'

/-- The objects that a build starts from: the root that is supplied, and what values bear and
classes give to their instances. -/
inductive Builder.Begins (b : Builder) (root : Option ObjectId) (s : Store) : Region
  | root {id : ObjectId} : root = some id → b.Begins root s id
  | borne {id : ObjectId} {x : Bearer} {attr : String} {v : Value} :
      s.borne? x attr = some v → id ∈ v.objects → b.Begins root s id
  | given {id : ObjectId} {c : ComponentClass} : c ∈ b.library.classes.all →
      id ∈ Blueprint.objectsOfFields c.starts → b.Begins root s id

/-- The objects that a build may change: those to which references lead from where it starts, and
those that are still to be made. -/
def Builder.territory (b : Builder) (root : Option ObjectId) (s : Store) : Region := fun id =>
  s.size ≤ id ∨ s.Reached (b.Begins root s) id

namespace Builder

variable {b : Builder} {root : Option ObjectId} {s : Store}

theorem begins_territory {id : ObjectId} (h : b.Begins root s id) : b.territory root s id :=
  .inr (.start h)

theorem covered_territory : b.library.classes.Covered (b.territory root s) :=
  fun _ hc _ hId => begins_territory (.given hc hId)

theorem ready_territory {p : Progress} (hStore : p.store = s) :
    p.Ready (b.territory root s) where
  closed := by
    rw [hStore]
    refine ⟨fun {id attr v} hId hField x hx => ?_, fun hBorne x hx => ?_⟩
    · rcases hId with hNew | hReached
      · -- An object that is still to be made has no attributes.
        have hNone : s.get? id = none := Array.getElem?_eq_none hNew
        rw [Store.field?_eq, hNone] at hField
        cases hField
      · exact .inr (.field hReached hField hx)
    · exact begins_territory (.borne hBorne hx)
  fresh n hn := .inl (hStore ▸ hn)

end Builder

/-- Building a tree leaves all objects alone that it cannot reach, and all bindings. -/
theorem Assembly.buildTree_spares (a : Assembly) (root : Option ObjectId) (origin : Origin)
    (p : Progress) :
    Yields (a.buildTree root origin) p
      (fun _ q => (∀ id, ¬ a.territory root p.store id → q.store.get? id = p.store.get? id) ∧
        q.bindings = p.bindings)
      (fun q => (∀ id, ¬ a.territory root p.store id → q.store.get? id = p.store.get? id) ∧
        q.bindings = p.bindings) := by
  have hTree : Yields (a.buildTree root origin) p
      (fun _ => p.Does a.files (a.territory root p.store) (Rooted root))
      (p.Does a.files (a.territory root p.store) (Rooted root)) :=
    buildTree_yields Builder.covered_territory (Builder.ready_territory rfl)
      (fun _ hr => Builder.begins_territory (.root hr)) origin
  have hSpares {q : Progress}
      (h : p.Does a.files (a.territory root p.store) (Rooted root) q) :
      (∀ id, ¬ a.territory root p.store id → q.store.get? id = p.store.get? id) ∧
        q.bindings = p.bindings := by
    obtain ⟨log, hExt, -⟩ := h
    exact ⟨hExt.store.outside, hExt.bindings⟩
  exact hTree.mono (fun _ _ => hSpares) fun _ => hSpares

/-- A commit gives the owner its outlets and keeps the bindings that it has registered. -/
theorem Assembly.committed_iff (a : Assembly) {p : Progress} {s : Store} {t : Bindings}
    (hStore : ∀ o, a.owner = some o → p.store.get? o = s.get? o) (hBindings : p.bindings = t) :
    ((∀ o, a.owner = some o → (a.storeCommitted p).get? o = s.get? o) ∧
      (a.committedLinks p).foldl Bindings.record p.bindings = t) ↔
    (∀ o, a.owner = some o → (s.setOutlets o (a.committedOutlets p)).get? o = s.get? o) ∧
      a.committedLinks p = [] := by
  have hSame (o : ObjectId) (ho : a.owner = some o) :
      (a.storeCommitted p).get? o = (s.setOutlets o (a.committedOutlets p)).get? o := by
    unfold storeCommitted
    rw [ho]
    exact Store.get?_setOutlets_congr (hStore o ho) _
  rw [hBindings, Bindings.foldl_record_eq_self]
  refine and_congr_left fun _ => forall₂_congr fun o ho => ?_
  rw [hSame o ho]

/-- What a build has changed of the owner and of the bindings is what its commit has changed. -/
theorem Assembly.build_spares_iff (a : Assembly) (root : Option ObjectId) (origin : Origin)
    (p : Progress) (hOwner : ∀ o, a.owner = some o → ¬ a.territory root p.store o) :
    ((∀ o, a.owner = some o →
        ((a.build root origin).run p).2.store.get? o = p.store.get? o) ∧
      ((a.build root origin).run p).2.bindings = p.bindings) ↔
    ∀ view q, (a.buildTree root origin).run p = (.ok view, q) →
      (∀ o, a.owner = some o →
        (p.store.setOutlets o (a.committedOutlets q)).get? o = p.store.get? o) ∧
      a.committedLinks q = [] := by
  have hTree := a.buildTree_spares root origin p
  unfold build
  cases hRun : a.buildTree root origin p with
  | mk r q =>
    rw [run_eq, run_eq, run_bind, hRun]
    cases r with
    | error failure =>
      obtain ⟨hStore, hBindings⟩ := hTree.error hRun
      constructor
      · rintro - view q' h
        cases h
      · rintro -
        exact ⟨fun o ho => hStore o (hOwner o ho), hBindings⟩
    | ok view =>
      obtain ⟨hStore, hBindings⟩ := hTree.ok hRun
      have hIff := a.committed_iff (fun o ho => hStore o (hOwner o ho)) hBindings
      have hEnd : ((do a.commit; return view : Building ObjectId) q).2 =
          { q with
            store := a.storeCommitted q
            bindings := (a.committedLinks q).foldl Bindings.record q.bindings } := by
        refine Yields.state (R := fun p => p = _) (.bind (a.commit_yields q) ?_)
        exact fun _ _ h => .ofPure h
      show ((∀ o, a.owner = some o →
          ((do a.commit; return view : Building ObjectId) q).2.store.get? o = _) ∧
        ((do a.commit; return view : Building ObjectId) q).2.bindings = _) ↔ _
      rw [hEnd]
      constructor
      · intro h view' q' hq
        cases hq
        exact hIff.1 h
      · intro h
        exact hIff.2 (h view q rfl)

/-- A build leaves the owner and the bindings as they were unless its tree stood and the commit then
changed something: it registered a binding, or set outlets to other objects than the owner had
there. For a build that fails, that is what it had committed before it broke off.

The owner is an object that is not reached from the root that was supplied, nor from anything else
that the build starts from. -/
theorem Builder.outcome_spares_iff (b : Builder) (owner root : Option ObjectId) (origin : Origin)
    (w : World) (hOwner : ∀ o : Nat, owner = some o →
      o < w.store.size ∧ ¬ w.store.Reached (b.Begins root w.store) o) :
    ((∀ o, owner = some o →
        (b.outcome owner root origin w).2.store.get? o = w.store.get? o) ∧
      (b.outcome owner root origin w).2.bindings = w.bindings) ↔
    ∀ view q, (({ b with owner } : Assembly).buildTree root origin).run { w with } = (.ok view, q) →
      (∀ o, owner = some o →
        (w.store.setOutlets o (({ b with owner } : Assembly).committedOutlets q)).get? o =
          w.store.get? o) ∧
      ({ b with owner } : Assembly).committedLinks q = [] := by
  refine ({ b with owner } : Assembly).build_spares_iff root origin { w with } ?_
  rintro o ho (hNew | hReached)
  · exact absurd (hOwner o ho).1 (Nat.not_lt.2 hNew)
  · exact (hOwner o ho).2 hReached

/-- The build of a page whose outlet takes the place of what its binding goes through fails, and yet
the owner refers to the new panel. -/
theorem Builder.outcome_spares_iff_rebound :
    (Sample.builder.outcome (some 0) none (.given Sample.rebound) Sample.world).1.isOk = false ∧
    (Sample.builder.outcome (some 0) none (.given Sample.rebound) Sample.world).2.store.references 0
      = [2] ∧ Sample.world.store.references 0 = [1] ∧
    (((∀ o, some 0 = some o →
        (Sample.builder.outcome (some 0) none (.given Sample.rebound) Sample.world).2.store.get? o =
          Sample.world.store.get? o) ∧
      (Sample.builder.outcome (some 0) none (.given Sample.rebound) Sample.world).2.bindings =
        Sample.world.bindings) ↔
    ∀ view q, (({ Sample.builder with owner := some 0 } : Assembly).buildTree none
        (.given Sample.rebound)).run { Sample.world with } = (.ok view, q) →
      (∀ o, some 0 = some o →
        (Sample.world.store.setOutlets o
          (({ Sample.builder with owner := some 0 } : Assembly).committedOutlets q)).get? o =
          Sample.world.store.get? o) ∧
      ({ Sample.builder with owner := some 0 } : Assembly).committedLinks q = []) := by
  refine ⟨by decide +kernel, by decide +kernel, by decide +kernel, ?_⟩
  refine Sample.builder.outcome_spares_iff (some 0) none (.given Sample.rebound) Sample.world ?_
  intro o ho
  refine ⟨Option.some.inj ho ▸ by decide, fun hReached => ?_⟩
  clear ho
  -- Nothing is reached: no root is supplied, and neither values nor classes have any objects.
  induction hReached with
  | field _ _ _ ih => exact ih
  | start hBegins =>
    cases hBegins with
    | root h => cases h
    | borne h _ => simp [Store.borne?, Sample.world, Table.get?] at h
    | @given _ c hc hId =>
      have hPanel : c = Sample.panel := by simpa [Sample.builder] using hc
      rw [hPanel] at hId
      cases hId

end ViewMarkup
