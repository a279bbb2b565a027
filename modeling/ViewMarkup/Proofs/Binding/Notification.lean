import ViewMarkup.Proofs.Binding.Acceptance
import ViewMarkup.View.Catalog

/-!
# Notifications of views

A host that has changed something in a view says so, for the whole view or for one path, and the
values are copied to the owners along the bindings of the view. One attribute may go by several
paths, since each segment can be the name of a property in markup or that of its attribute. Reading
makes no difference between them. A notification does: it goes by the text of the path. So it
reaches the bindings that are spelled the same way, and passes over those to the same attributes
that are spelled otherwise.

## Main results

* `Bindings.Kept.ofView_filter_owner` — the bindings of a view are those that its owners have, each
  of them once.
* `Memory.Run.kept` — along every history, every owner has one entry with its own bindings.
* `Scene.readPath_congr` — paths to the same attributes are read alike.
* `propagate_pulls` — which copies a notification makes, and how it ends.
* `Working.changed_spellings` — which bindings a notification for one of several spellings reaches.
-/

namespace ViewMarkup

open Text

/-! ## The bindings of a view -/

namespace Bindings

variable {t : Bindings} {owner : ObjectId} {b : Binding} {bs : List Binding}

/-- Every owner has one entry, and all bindings in it are its own. -/
structure Kept (t : Bindings) : Prop where
  once : t.keys.Nodup
  own : ∀ e ∈ t, ∀ b ∈ e.2, b.owner = e.1

namespace Kept

private theorem nil : Kept [] where
  once := List.nodup_nil
  own := by simp

private theorem tail {e : ObjectId × List Binding} (h : Kept (e :: t)) : Kept t where
  once := (List.nodup_cons.1 h.once).2
  own := fun e' he' => h.own e' (List.mem_cons_of_mem e he')

private theorem owner_of_mem (h : t.Kept) (hMem : b ∈ t.of owner) : b.owner = owner := by
  unfold Bindings.of at hMem
  cases hGet : t.get? owner with
  | none => simp [hGet] at hMem
  | some bs =>
    rw [hGet, Option.getD_some] at hMem
    exact h.own _ (Table.mem_of_get? hGet) b hMem

theorem put (h : t.Kept) (hOwn : ∀ b ∈ bs, b.owner = owner) : Kept (t.put owner bs) where
  once := by
    by_cases hMem : owner ∈ t.keys
    · rw [Table.keys_put_of_mem bs hMem]
      exact h.once
    · rw [Table.keys_put_of_not_mem bs hMem, List.nodup_append]
      refine ⟨h.once, List.nodup_singleton owner, fun k hk l hl hEq => hMem ?_⟩
      rwa [← List.mem_singleton.1 hl, ← hEq]
  own e he := by
    rcases Table.eq_or_mem_of_mem_put he with rfl | he
    · exact hOwn
    · exact h.own e he

private theorem record (h : t.Kept) (b : Binding) : (t.record b).Kept := by
  refine h.put fun b' hb' => ?_
  rcases List.mem_append.1 hb' with hb' | hb'
  · exact h.owner_of_mem hb'
  · rw [List.mem_singleton.1 hb']

private theorem release (h : t.Kept) (owner : ObjectId) : (t.release owner).Kept := by
  have hSublist (t : Bindings) : List.Sublist (t.without owner) t := by
    induction t with
    | nil => exact .slnil
    | cons e t ih =>
      unfold Table.without
      split
      · exact ih.cons e
      · exact ih.cons_cons e
  exact ⟨h.once.sublist ((hSublist t).map _), fun e he => h.own e ((hSublist t).subset he)⟩

private theorem weed (h : t.Kept) (living : ObjectId → Bool) (owner : ObjectId) :
    (t.weed living owner).Kept := by
  unfold Bindings.weed
  split
  · next bs hGet =>
    exact h.put fun b hb => h.own _ (Table.mem_of_get? hGet) b (List.mem_filter.1 hb).1
  · exact h

/-- The bindings of a view that belong to an owner are those of the owner that are to the view. -/
theorem ofView_filter_owner (h : t.Kept) (view owner : ObjectId) :
    (t.ofView view none).filter (·.owner == owner) = (t.of owner).filter (·.view == view) := by
  induction t with
  | nil => rfl
  | cons e t ih =>
    have hCut : ofView (e :: t) view none = e.2.filter (·.view == view) ++ ofView t view none := by
      simp [ofView]
    rw [hCut, List.filter_append, ih h.tail]
    by_cases hOwner : e.1 = owner
    · -- All bindings of the entry belong to the owner, who has no entry after this one.
      have hAll : (e.2.filter (·.view == view)).filter (·.owner == owner) =
          e.2.filter (·.view == view) :=
        List.filter_eq_self.2 fun b hb => by
          simp [h.own e List.mem_cons_self b (List.mem_filter.1 hb).1, hOwner]
      have hNone : Table.get? t owner = none :=
        Table.get?_eq_none_iff.2 (hOwner ▸ (List.nodup_cons.1 h.once).1)
      simp [hAll, Bindings.of, hNone, Table.get?, hOwner]
    · have hNone : (e.2.filter (·.view == view)).filter (·.owner == owner) = [] :=
        List.filter_eq_nil_iff.2 fun b hb => by
          simp [h.own e List.mem_cons_self b (List.mem_filter.1 hb).1, hOwner]
      simp [hNone, Bindings.of, Table.get?, hOwner]

end Kept

/-- The bindings for one path are those of the view that are spelled like it. -/
theorem ofView_some (t : Bindings) (view : ObjectId) (path : String) :
    t.ofView view (some path) = (t.ofView view none).filter (·.viewPath == path) := by
  have hEntry (bs : List Binding) :
      bs.filter (fun b => b.view == view && (some path).all (· == b.viewPath)) =
        (bs.filter fun b => b.view == view && none.all (· == b.viewPath)).filter
          (·.viewPath == path) := by
    rw [List.filter_filter]
    refine List.filter_congr fun b _ => ?_
    simp [Bool.and_comm, Bool.beq_comm]
  unfold ofView
  rw [List.filter_flatMap]
  simp only [hEntry]

end Bindings

/-- One event leaves every owner with one entry for its own bindings. -/
theorem Memory.Step.kept {number : ObjectId → Identity} {m m' : Memory} {e : Event}
    (hStep : Memory.Step number m e m') (h : m.table.Kept) : m'.table.Kept := by
  cases hStep with
  | register hOwner hView hLedger hTable =>
    obtain ⟨rfl, -⟩ := Bindings.register_eq_ok hTable
    exact h.record _
  | release => exact h.release _
  | @begin task hAlive =>
    cases task with
    | ofOwner direction owner => exact h.weed _ _
    | ofView view path => exact h
  | _ => exact h

/-- Along every history, every owner has one entry with its own bindings. -/
theorem Memory.Run.kept {number : ObjectId → Identity} {past : List Event} {m : Memory}
    (h : Memory.Run number past m) : m.table.Kept := by
  induction h with
  | start => exact .nil
  | step _ hStep ih => exact hStep.kept ih

/-! ## Spellings -/

namespace Scene

variable {sc : Scene} {v x : Value} {p q : String} {names names' attrs : List String}

/-- The attributes that some segments stand for, each of them an attribute of what those before it
lead to. -/
def attributesAlong? (sc : Scene) : Value → List String → Option (List String)
  | _, [] => some []
  | v, name :: rest =>
    match sc.attribute? v (sc.attributeNamed v name) with
    | .ok (some next) => (sc.attributesAlong? next rest).map (sc.attributeNamed v name :: ·)
    | _ => none

/-- The attributes that the segments of a path stand for, if it leads somewhere. -/
def attributesOf? (sc : Scene) (v : Value) (path : String) : Option (List String) :=
  match pathSegments path with
  | .ok names => sc.attributesAlong? v names
  | .error _ => none

private theorem attributesAlong?_cons {name : String} :
    sc.attributesAlong? v (name :: names) = some attrs ↔ ∃ next rest,
      sc.attribute? v (sc.attributeNamed v name) = .ok (some next) ∧
        sc.attributesAlong? next names = some rest ∧ attrs = sc.attributeNamed v name :: rest := by
  constructor
  · intro h
    unfold attributesAlong? at h
    split at h
    · next next hNext =>
      obtain ⟨rest, hRest, rfl⟩ := Option.map_eq_some_iff.1 h
      exact ⟨next, rest, hNext, hRest, rfl⟩
    · cases h
  · rintro ⟨next, rest, hNext, hRest, rfl⟩
    rw [attributesAlong?, hNext]
    exact congrArg (Option.map _) hRest

/-- Segments that stand for attributes can be read, and those that stand for the same attributes
lead to the same value. -/
theorem readSegments_congr (path path' : String) (h : sc.attributesAlong? v names = some attrs)
    (h' : sc.attributesAlong? v names' = some attrs) :
    ∃ x, sc.readSegments path v names = .ok x ∧ sc.readSegments path' v names' = .ok x := by
  induction attrs generalizing v names names' with
  | nil =>
    cases names with
    | cons name names =>
      obtain ⟨_, _, -, -, hCons⟩ := attributesAlong?_cons.1 h
      cases hCons
    | nil =>
      cases names' with
      | cons name names' =>
        obtain ⟨_, _, -, -, hCons⟩ := attributesAlong?_cons.1 h'
        cases hCons
      | nil => exact ⟨v, rfl, rfl⟩
  | cons attr attrs ih =>
    cases names with
    | nil => cases h
    | cons name names =>
      cases names' with
      | nil => cases h'
      | cons name' names' =>
        obtain ⟨next, rest, hNext, hRest, hEq⟩ := attributesAlong?_cons.1 h
        obtain ⟨next', rest', hNext', hRest', hEq'⟩ := attributesAlong?_cons.1 h'
        obtain ⟨hAttr, rfl⟩ := List.cons.inj hEq
        obtain ⟨hAttr', rfl⟩ := List.cons.inj hEq'
        rw [← hAttr', hAttr, hNext] at hNext'
        cases hNext'
        obtain ⟨x, hRead, hRead'⟩ := ih hRest hRest'
        refine ⟨x, ?_, ?_⟩
        · rw [readSegments, hNext]
          exact hRead
        · rw [readSegments, ← hAttr', hAttr, hNext]
          exact hRead'

/-- Paths that stand for the same attributes can be read, and lead to the same value. -/
theorem readPath_congr (hp : sc.attributesOf? v p = some attrs)
    (hq : sc.attributesOf? v q = some attrs) :
    ∃ x, sc.readPath v p = .ok x ∧ sc.readPath v q = .ok x := by
  unfold attributesOf? at hp hq
  split at hp
  · next names hNames =>
    split at hq
    · next names' hNames' =>
      unfold readPath
      rw [hNames, hNames']
      exact readSegments_congr p q hp hq
    · cases hq
  · cases hp

end Scene

/-! ## Copies to owners -/

/-- The scene after copies from views to owners, one after the other. -/
def pullAll (bs : List Binding) (sc : Scene) : Except Failure Scene :=
  bs.foldlM (fun sc b => (b.pull sc).map fun store => { sc with store }) sc

/-- Values have been copied to owners along some bindings, each of them once and in turn, but for
those whose owner was out of reach at some moment on the way. -/
structure Pulled (roots : List ObjectId) (bs done passed : List Binding) (sc sc' : Scene) :
    Prop where
  turn : done.Sublist bs
  all : (done ++ passed).Perm bs
  copied : pullAll done sc = .ok sc'
  lost : ∀ b ∈ passed, ∃ n sc₁, pullAll (done.take n) sc = .ok sc₁ ∧
    ¬ sc₁.store.Reach roots b.owner

namespace Pulled

variable {roots : List ObjectId} {bs done passed : List Binding} {sc sc' : Scene} {b : Binding}

private theorem nil : Pulled roots [] [] [] sc sc where
  turn := .slnil
  all := .refl []
  copied := rfl
  lost := by simp

private theorem copy {store : Store} (hCopy : b.pull sc = .ok store)
    (h : Pulled roots bs done passed { sc with store } sc') :
    Pulled roots (b :: bs) (b :: done) passed sc sc' := by
  have hFirst (bs : List Binding) : pullAll (b :: bs) sc = pullAll bs { sc with store } := by
    unfold pullAll
    rw [List.foldlM_cons, hCopy]
    rfl
  refine ⟨h.turn.cons_cons b, h.all.cons b, (hFirst done).trans h.copied, fun b' hb' => ?_⟩
  obtain ⟨n, sc₁, hTaken, hOut⟩ := h.lost b' hb'
  exact ⟨n + 1, sc₁, (hFirst _).trans hTaken, hOut⟩

private theorem pass (hOut : ¬ sc.store.Reach roots b.owner)
    (h : Pulled roots bs done passed sc sc') :
    Pulled roots (b :: bs) done (b :: passed) sc sc' := by
  refine ⟨h.turn.cons b, List.perm_middle.trans (h.all.cons b), h.copied, fun b' hb' => ?_⟩
  rcases List.mem_cons.1 hb' with rfl | hb'
  · exact ⟨0, sc, rfl, hOut⟩
  · exact h.lost b' hb'

end Pulled

/-- What copies to owners come to: all of the bindings have had their turn and the copies are
counted, or the first copy that fails has ended them. -/
def PullEnds (roots : List ObjectId) (bs : List Binding) (sc : Scene) :
    Except Failure Nat × Scene → Prop
  | (.ok n, sc') => ∃ done passed, n = done.length ∧ Pulled roots bs done passed sc sc'
  | (.error failure, sc') => ∃ front b rest done passed, bs = front ++ b :: rest ∧
      Pulled roots front done passed sc sc' ∧ b.pull sc' = .error failure

private theorem propagate_add (roots : List ObjectId)
    (move : Binding → Scene → Except Failure Store)
    (far : Binding → ObjectId) (bs : List Binding) (held : List ObjectId) (n : Nat) (sc : Scene) :
    propagate roots move far bs held n sc =
      ((propagate roots move far bs held 0 sc).1.map (n + ·),
        (propagate roots move far bs held 0 sc).2) := by
  induction bs generalizing held n sc with
  | nil => rfl
  | cons b bs ih =>
    unfold propagate
    split
    · split
      · next store hMove =>
        rw [ih [far b] (n + 1), ih [far b] (0 + 1)]
        cases (propagate roots move far bs [far b] 0 { sc with store }).1 with
        | ok m => simp [Except.map, Nat.add_assoc]
        | error failure => rfl
      · rfl
    · exact ih [] n sc

/-- Copies to owners end as they should. -/
theorem propagate_pulls (roots : List ObjectId) (bs : List Binding) (held : List ObjectId)
    (sc : Scene) :
    PullEnds roots bs sc (propagate roots Binding.pull (·.owner) bs held 0 sc) := by
  induction bs generalizing held sc with
  | nil => exact ⟨[], [], rfl, .nil⟩
  | cons b bs ih =>
    by_cases hAlive : sc.store.isAlive (held ++ roots) b.owner = true
    · rw [propagate, if_pos hAlive]
      cases hCopy : b.pull sc with
      | error failure => exact ⟨[], b, bs, [], [], rfl, .nil, hCopy⟩
      | ok store =>
        dsimp only
        rw [propagate_add]
        have hRest := ih [b.owner] { sc with store }
        cases hRun : propagate roots Binding.pull (·.owner) bs [b.owner] 0 { sc with store } with
        | mk answer sc' =>
          rw [hRun] at hRest
          cases answer with
          | ok n =>
            obtain ⟨done, passed, rfl, hPulled⟩ := hRest
            exact ⟨b :: done, passed, by simp [Nat.add_comm], hPulled.copy hCopy⟩
          | error failure =>
            obtain ⟨front, b', rest, done, passed, rfl, hPulled, hFails⟩ := hRest
            exact ⟨b :: front, b', rest, b :: done, passed, rfl, hPulled.copy hCopy, hFails⟩
    · have hOut : ¬ sc.store.Reach roots b.owner := fun hReach =>
        hAlive (Store.isAlive_iff.2
          (hReach.of_roots fun r hr => .root (List.mem_append_right _ hr)))
      rw [propagate, if_neg hAlive]
      have hRest := ih [] sc
      cases hRun : propagate roots Binding.pull (·.owner) bs [] 0 sc with
      | mk answer sc' =>
        rw [hRun] at hRest
        cases answer with
        | ok n =>
          obtain ⟨done, passed, rfl, hPulled⟩ := hRest
          exact ⟨done, b :: passed, rfl, hPulled.pass hOut⟩
        | error failure =>
          obtain ⟨front, b', rest, done, passed, rfl, hPulled, hFails⟩ := hRest
          exact ⟨b :: front, b', rest, done, b :: passed, rfl, hPulled.pass hOut, hFails⟩

/-! ## Notifications -/

namespace Working

variable {w : Workspace} {ref p q : String} {view : ObjectId} {attrs : List String}

/-- A notification for a view makes the copies of some bindings. It changes nothing but objects. -/
def Spreads (w : Workspace) (ref : String) (path : Option String) (view : ObjectId)
    (bs : List Binding) : Prop :=
  ∃ answer sc', PullEnds (view :: w.roots) bs w.scene (answer, sc') ∧
    changed ref path w = ofExcept answer { w with world := { w.world with store := sc'.store } }

private theorem changed_spreads (hFind : w.find? ref = .ok (some view)) (path : Option String) :
    Spreads w ref path view (w.world.bindings.ofView view path) := by
  refine ⟨_, _,
    propagate_pulls (view :: w.roots) (w.world.bindings.ofView view path) [] w.scene, ?_⟩
  unfold changed
  rw [run_bind_of_eq_ok (find_of_find? hFind)]
  rfl

/-- Let two paths stand for the same attributes of a view. Then they are read alike, but a
notification for the one reaches just the bindings of the view that are spelled like it: all those
to these attributes if and only if they are all spelled so, and the same ones as for the other if
and only if the paths are one or no binding is spelled like either. A notification for the whole
view reaches all of its bindings, whoever their owners are. -/
theorem changed_spellings (hKept : w.world.bindings.Kept)
    (hFind : w.find? ref = .ok (some view))
    (hp : w.scene.attributesOf? (.object view) p = some attrs)
    (hq : w.scene.attributesOf? (.object view) q = some attrs) :
    let bound := w.world.bindings.ofView view none
    let spelled path := bound.filter (·.viewPath == path)
    let meant := bound.filter fun b =>
      w.scene.attributesOf? (.object view) b.viewPath == some attrs
    (∃ x, w.scene.readPath (.object view) p = .ok x ∧ w.scene.readPath (.object view) q = .ok x) ∧
    (∀ owner, bound.filter (·.owner == owner) =
      (w.world.bindings.of owner).filter (·.view == view)) ∧
    Spreads w ref none view bound ∧
    (∀ path, Spreads w ref (some path) view (spelled path)) ∧
    (spelled p).Sublist meant ∧
    (spelled p = meant ↔ ∀ b ∈ meant, b.viewPath = p) ∧
    (spelled p = spelled q ↔ p = q ∨ spelled p = [] ∧ spelled q = []) := by
  intro bound spelled meant
  have hSome (path : String) : w.world.bindings.ofView view (some path) = spelled path :=
    w.world.bindings.ofView_some view path
  -- What is spelled like the one path is meant by it, and what is meant is of the view.
  have hCut : spelled p = meant.filter (·.viewPath == p) := by
    rw [List.filter_filter]
    refine List.filter_congr fun b _ => ?_
    by_cases hPath : b.viewPath = p
    · simp [hPath, hp]
    · simp [hPath]
  refine ⟨Scene.readPath_congr hp hq, fun owner => hKept.ofView_filter_owner view owner,
    changed_spreads hFind none, fun path => hSome path ▸ changed_spreads hFind (some path), ?_, ?_,
    ?_⟩
  · rw [hCut]
    exact List.filter_sublist
  · rw [hCut, List.filter_eq_self]
    simp
  · constructor
    · intro hSame
      by_cases hPath : p = q
      · exact .inl hPath
      · have hNone : spelled p = [] := by
          refine List.eq_nil_iff_forall_not_mem.2 fun b hb => hPath ?_
          have hAtP : b.viewPath = p := eq_of_beq (List.mem_filter.1 hb).2
          have hMem : b ∈ spelled q := hSame ▸ hb
          have hAtQ : b.viewPath = q := eq_of_beq (List.mem_filter.1 hMem).2
          exact hAtP.symm.trans hAtQ
        exact .inr ⟨hNone, hSame ▸ hNone⟩
    · rintro (rfl | ⟨hNone, hNone'⟩)
      · rfl
      · rw [hNone, hNone']

end Working

namespace Sample

/-- The color of an owner is bound to the color of a label under its name in markup. -/
def tinted : Binding := ⟨0, "color", 1, "textColor"⟩

/-- A workspace with a label whose color has been changed, which its owner has not been told yet. -/
def tinting : Workspace where
  builder := { library := { classes := View.Catalog.classes } }
  world := {
    store := {
      objects := #[item "Owner" [("color", .color Color.clear)],
        { type := .component View.Catalog.labelClass,
          fields := [("text_color", .color { red := 9, green := 9, blue := 9 })] }] }
    bindings := [(0, [tinted])] }
  held := [("o", 0), ("v", 1)]

end Sample

namespace Working

open Sample

/-- The color of a label goes by two names. The owner gets it by a notification for the one under
which it is bound, and not by one for the other. -/
theorem changed_spellings_textColor :
    (∃ x, tinting.scene.readPath (.object 1) "textColor" = .ok x ∧
      tinting.scene.readPath (.object 1) "text_color" = .ok x) ∧
    tinting.world.bindings.ofView 1 none = [tinted] ∧
    Spreads tinting "v" (some "textColor") 1 [tinted] ∧
    Spreads tinting "v" (some "text_color") 1 [] := by
  have hKept : tinting.world.bindings.Kept := ⟨by decide, by decide⟩
  have hMarkup : tinting.scene.attributesOf? (.object 1) "textColor" = some ["text_color"] := by
    decide +kernel
  have hAttribute : tinting.scene.attributesOf? (.object 1) "text_color" =
      some ["text_color"] := by decide +kernel
  have hFind : tinting.find? "v" = .ok (some 1) := rfl
  obtain ⟨hRead, -, -, hSpreads, -⟩ := changed_spellings hKept hFind hMarkup hAttribute
  exact ⟨hRead, rfl, hSpreads "textColor", hSpreads "text_color"⟩

end Working
end ViewMarkup
