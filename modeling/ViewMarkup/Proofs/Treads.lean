import Mathlib.Logic.Relation
import ViewMarkup.Proofs.Outcome

/-!
# Runs made of moves

An action that may fail keeps what was done before. So it has led from one state to another by some
moves, one after the other; an action that fails may have made a slip at its end. What every move
keeps is kept by an action that succeeds, and what every slip keeps besides by any action.

## Main results

* `Treads.bind`, `Treads.forM` — an action is made of the moves of its parts.
* `Treads.keeps`, `Treads.keeps_of_ok` — what moves keep is kept by all that is made of them.
-/

namespace ViewMarkup

open Relation

/-- However an action ends, it has led to a state by moves; if it fails there may have been a slip
after them. -/
def Treads {ε α σ : Type} (R E : σ → σ → Prop) (x : ExceptT ε (StateM σ) α) : Prop :=
  ∀ s, ∃ t, ReflTransGen R s t ∧ ((x s).2 = t ∨ (∃ e, (x s).1 = .error e) ∧ E t (x s).2)

namespace Treads

variable {ε α β σ : Type} {R E : σ → σ → Prop} {x : ExceptT ε (StateM σ) α}
  {f : α → ExceptT ε (StateM σ) β} {s t : σ}

theorem ofPure {r : α} : Treads R E (pure r : ExceptT ε (StateM σ) α) :=
  fun s => ⟨s, .refl, .inl rfl⟩

theorem ofThrow {e : ε} : Treads R E (throw e : ExceptT ε (StateM σ) α) :=
  fun s => ⟨s, .refl, .inl rfl⟩

theorem ofGet : Treads R E (get : ExceptT ε (StateM σ) σ) := fun s => ⟨s, .refl, .inl rfl⟩

theorem single (h : ∀ s, R s (x s).2) : Treads R E x := fun s => ⟨_, .single (h s), .inl rfl⟩

theorem bind (hx : Treads R E x) (hf : ∀ r, Treads R E (f r)) : Treads R E (x >>= f) := by
  intro s
  rw [run_bind]
  obtain ⟨t, hMoves, hEnd⟩ := hx s
  generalize x s = first at hEnd
  obtain ⟨answer, u⟩ := first
  cases answer with
  | error e => exact ⟨t, hMoves, hEnd.imp_right fun h => ⟨⟨e, rfl⟩, h.2⟩⟩
  | ok r =>
    have hEq : u = t := hEnd.resolve_right fun h => nomatch h.1
    subst hEq
    obtain ⟨t', hMoves', hEnd'⟩ := hf r u
    exact ⟨t', hMoves.trans hMoves', hEnd'⟩

theorem ite {c : Prop} [Decidable c] {y : ExceptT ε (StateM σ) α} (hx : Treads R E x)
    (hy : Treads R E y) : Treads R E (if c then x else y) := by
  split
  · exact hx
  · exact hy

/-- What comes after a failure is not done. -/
theorem ofThrowBind {e : ε} : Treads R E ((throw e : ExceptT ε (StateM σ) α) >>= f) :=
  fun s => ⟨s, .refl, .inl rfl⟩

/-- A check in front of an action. -/
theorem check {c : Prop} [Decidable c] {e : ε} (hx : Treads R E x) :
    Treads R E (if c then (do throw e; x) else x) :=
  ite ofThrowBind hx

/-- An action, and another one in its place that may go on with it. -/
theorem guarded {c : Prop} [Decidable c] {y : ExceptT ε (StateM σ) α} (hx : Treads R E x)
    (hy : Treads R E x → Treads R E y) : Treads R E (if c then y else x) :=
  ite (hy hx) hx

theorem forM {ι : Type} {g : ι → ExceptT ε (StateM σ) Unit} {is : List ι}
    (h : ∀ i ∈ is, Treads R E (g i)) : Treads R E (is.forM g) := by
  induction is with
  | nil => exact ofPure
  | cons i is ih =>
    exact (h i List.mem_cons_self).bind fun _ => ih fun j hj => h j (List.mem_cons_of_mem i hj)

/-- What moves keep is kept by a run of them. -/
theorem keeps_of_moves {I : σ → Prop} (hMove : ∀ s t, I s → R s t → I t)
    (h : ReflTransGen R s t) (hs : I s) : I t := by
  induction h with
  | refl => exact hs
  | tail _ hLast ih => exact hMove _ _ ih hLast

/-- What moves and slips keep is kept by all that is made of them. -/
theorem keeps {I : σ → Prop} (h : Treads R E x) (hMove : ∀ s t, I s → R s t → I t)
    (hSlip : ∀ s t, I s → E s t → I t) (hs : I s) : I (x s).2 := by
  obtain ⟨t, hMoves, hEnd | ⟨-, hEnd⟩⟩ := h s
  · rw [hEnd]
    exact keeps_of_moves hMove hMoves hs
  · exact hSlip t _ (keeps_of_moves hMove hMoves hs) hEnd

/-- What moves keep is kept by an action that succeeds. -/
theorem keeps_of_ok {I : σ → Prop} {r : α} (h : Treads R E x)
    (hMove : ∀ s t, I s → R s t → I t) (hRun : x s = (.ok r, t)) (hs : I s) : I t := by
  obtain ⟨u, hMoves, hEnd⟩ := h s
  rw [hRun] at hEnd
  have hEq : t = u := hEnd.resolve_right fun hFailed => nomatch hFailed.1
  subst hEq
  exact keeps_of_moves hMove hMoves hs

end Treads

end ViewMarkup
