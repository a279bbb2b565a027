import Mathlib.Data.List.TakeWhile
import ViewMarkup.Proofs.Build.Attributes
import ViewMarkup.Proofs.Object.Footprint

/-!
# What is owed in twins

Whether an owner can be given what it is owed depends on the values of attributes, so it makes no
difference which one of two twins it is asked in. Nor does the order of the bindings: all of them
have to be registered, and each one is, whether others are or not.

## Main results

* `Assembly.takesOutlet_twin`, `Assembly.takesLink_twin` — what is noted down in twins.
* `Assembly.commit_gives` — a commit succeeds if everything is taken.
* `Assembly.commits_shuffled` — commits from twins that owe the same succeed together.
-/

namespace ViewMarkup

open Text

/-! ## Bindings in another order -/

/-- The same bindings in another order, where those of one view stay together. -/
structure Binding.Shuffled (bs bs' : List Binding) : Prop where
  perm : bs'.Perm bs
  ends : bs'.map (fun b => (b.owner, b.view)) = bs.map fun b => (b.owner, b.view)

namespace Binding.Shuffled

variable {bs bs' cs cs' : List Binding}

theorem refl (bs : List Binding) : Shuffled bs bs := ⟨.refl bs, rfl⟩

theorem append (h : Shuffled bs bs') (h' : Shuffled cs cs') : Shuffled (bs ++ cs) (bs' ++ cs') :=
  ⟨h.perm.append h'.perm, by rw [List.map_append, List.map_append, h.ends, h'.ends]⟩

/-- The bindings of one view can stand in any order. -/
theorem ofBinds {binds binds' : List (String × String)} (h : binds'.Perm binds)
    {owner view : ObjectId} :
    Shuffled (binds.map fun bind => ⟨owner, bind.2, view, bind.1⟩)
      (binds'.map fun bind => ⟨owner, bind.2, view, bind.1⟩) where
  perm := h.map _
  ends := by
    simp only [List.map_map, Function.comp_def, List.map_const', h.length_eq]

theorem ofOwner (h : Shuffled bs bs') (owner : ObjectId) :
    Shuffled (bs.filter (·.owner = owner)) (bs'.filter (·.owner = owner)) where
  perm := h.perm.filter _
  ends := by
    have hFilter (bs : List Binding) :
        (bs.filter (·.owner = owner)).map (fun b => (b.owner, b.view)) =
          (bs.map fun b => (b.owner, b.view)).filter (·.1 = owner) := by
      rw [List.filter_map]
      rfl
    rw [hFilter, hFilter, h.ends]

end Binding.Shuffled

/-- The bindings of an owner after some were recorded. -/
theorem Bindings.of_foldl_record_filter (t : Bindings) (bs : List Binding) (owner : ObjectId) :
    (bs.foldl record t).of owner = t.of owner ++ bs.filter (·.owner = owner) := by
  induction bs generalizing t with
  | nil => exact (List.append_nil _).symm
  | cons b bs ih =>
    rw [List.foldl_cons, ih]
    by_cases hOwner : b.owner = owner
    · subst hOwner
      rw [of_record_self, List.filter_cons_of_pos (by simp), List.append_assoc]
      rfl
    · rw [of_record_ne (Ne.symm hOwner), List.filter_cons_of_neg (by simpa using hOwner)]

/-! ## Twins -/

namespace Scene

variable {sc : Scene} {t : Store} (h : sc.store.Twin t)
include h

private theorem register_twin (bindings : Bindings) (b : Binding) :
    bindings.register { sc with store := t } b = bindings.register sc b := by
  unfold Bindings.register
  simp only [readPath_twin h, typeName_twin h, h.isReferable]

private theorem hasField_twin (owner : ObjectId) (name : String) :
    Assembly.hasField { sc with store := t } owner name = Assembly.hasField sc owner name := by
  unfold Assembly.hasField
  simp only [attribute?_twin h, h.type]

end Scene

private theorem Store.Twin.setOutlets {s t : Store} (h : s.Twin t) (owner : ObjectId)
    (outlets : List (String × ObjectId)) :
    (s.setOutlets owner outlets).Twin (t.setOutlets owner outlets) := by
  induction outlets generalizing s t with
  | nil => exact h
  | cons outlet outlets ih => exact ih (h.setField owner outlet.1 (.object outlet.2))

namespace Assembly

variable {a : Assembly} {s t : Store} {id : ObjectId}

theorem registers_twin (h : s.Twin t) (b : Binding) : a.registers t b = a.registers s b := by
  have hScene : (Scene.mk a.library.classes s).store.Twin t := h
  unfold registers
  rw [Scene.register_twin hScene]

private theorem accepts_twin (h : s.Twin t) (owner : ObjectId) (outlet : String × ObjectId) :
    a.accepts t owner outlet = a.accepts s owner outlet := by
  rw [accepts_eq, accepts_eq, h.type, h.field?]

theorem takesOutlet_twin (h : s.Twin t) (name : String) :
    a.takesOutlet t name = a.takesOutlet s name := by
  have hScene : (Scene.mk a.library.classes s).store.Twin t := h
  unfold takesOutlet
  simp only [Scene.hasField_twin hScene]

theorem takesLink_twin (h : s.Twin t) (bind : String × String) :
    a.takesLink id t bind = a.takesLink id s bind := by
  unfold takesLink
  simp only [registers_twin h]

/-! ## Commits -/

/-- The objects when the owner has been given all of its outlets. -/
def storeGiven (a : Assembly) (p : Progress) : Store :=
  a.owner.elim p.store fun owner => p.store.setOutlets owner p.outlets

/-- The owner takes all of its outlets, and all bindings can be registered then. -/
def Commits (a : Assembly) (p : Progress) : Prop :=
  (∀ owner ∈ a.owner, ∀ outlet ∈ p.outlets, a.accepts p.store owner outlet = true) ∧
    ∀ b ∈ p.links, a.registers (a.storeGiven p) b = true

/-- A commit succeeds if everything is taken. -/
theorem commit_gives (a : Assembly) (p : Progress) :
    Yields a.commit p
      (fun _ q => a.Commits p ∧ q = { p with
        store := a.storeGiven p
        bindings := p.links.foldl Bindings.record p.bindings })
      fun _ => ¬ a.Commits p := by
  have hLinks (q : Progress) (hq : q = { p with store := a.storeGiven p })
      (hOutlets : ∀ owner ∈ a.owner, ∀ outlet ∈ p.outlets, a.accepts p.store owner outlet = true) :
      Yields (do a.commitLinks (← get).links) q
        (fun _ q => a.Commits p ∧ q = { p with
          store := a.storeGiven p
          bindings := p.links.foldl Bindings.record p.bindings })
        fun _ => ¬ a.Commits p := by
    refine .ofGetBind ?_
    rw [hq]
    refine (a.commitLinks_yields p.links _).mono ?_ ?_
    · rintro _ q ⟨hAll, rfl⟩
      exact ⟨⟨hOutlets, List.takeWhile_eq_self_iff.1 hAll⟩, rfl⟩
    · rintro q ⟨hNotAll, -⟩ hCommits
      exact hNotAll (List.takeWhile_eq_self_iff.2 hCommits.2)
  unfold commit
  cases hOwner : a.owner with
  | none =>
    refine hLinks p ?_ ?_
    · simp [storeGiven, hOwner]
    · simp [hOwner]
  | some owner =>
    refine .ofGetBind (.bind ((a.commitOutlets_yields owner p.outlets p).weaken ?_) ?_)
    · rintro q ⟨hNotAll, -⟩ hCommits
      exact hNotAll (List.takeWhile_eq_self_iff.2 (hCommits.1 owner hOwner))
    · rintro _ q ⟨hAll, rfl⟩
      refine hLinks _ ?_ ?_
      · simp [storeGiven, hOwner]
      · rintro _ h
        cases hOwner.symm.trans h
        exact List.takeWhile_eq_self_iff.1 hAll

theorem commit_eq_ok_iff {p q : Progress} : a.commit p = (.ok (), q) ↔
    a.Commits p ∧ q = { p with
      store := a.storeGiven p
      bindings := p.links.foldl Bindings.record p.bindings } := by
  refine ⟨fun h => (a.commit_gives p).ok h, ?_⟩
  rintro ⟨hCommits, rfl⟩
  have hGives := a.commit_gives p
  cases hRun : a.commit p with
  | mk answer q =>
    cases answer with
    | error e => exact absurd hCommits (hGives.error hRun)
    | ok _ => rw [(hGives.ok hRun).2]

/-- Commits from twins that owe the same succeed together. -/
theorem commits_shuffled {p q : Progress} (hStore : p.store.Twin q.store)
    (hOutlets : q.outlets = p.outlets) (hLinks : Binding.Shuffled p.links q.links) :
    (a.storeGiven p).Twin (a.storeGiven q) ∧ (a.Commits q ↔ a.Commits p) := by
  have hGiven : (a.storeGiven p).Twin (a.storeGiven q) := by
    unfold storeGiven
    rw [hOutlets]
    cases a.owner with
    | none => exact hStore
    | some owner => exact hStore.setOutlets owner p.outlets
  refine ⟨hGiven, ?_⟩
  unfold Commits
  simp only [hOutlets, accepts_twin hStore, registers_twin hGiven, hLinks.perm.mem_iff]

end Assembly
end ViewMarkup
