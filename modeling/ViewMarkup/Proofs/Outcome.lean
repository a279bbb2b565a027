import Mathlib.Data.List.Forall2

/-!
# Outcomes of actions

Everything that may fail here is an `Except`, and everything that also keeps what was done before a
failure is an `ExceptT` over a state. This module opens both.

The first part inverts answers: how one that is no failure has come about. The second part is a
small calculus for actions: `Yields x s P B` says what holds when `x` has been run from `s`,
after a success and after a failure alike. Nothing is assumed of the outcome, so a statement of this
kind covers runs that break off. The third part compares two actions that start from related states:
`Alike` for all runs, `Refines` for those in which the first one succeeds.

## Main results

* `exists_of_bind_eq_ok`, `exists_of_run_bind_eq_ok` — a success went through both halves.
* `Yields.bind` — what the first half yields is what the second half starts from.
* `Alike.bind`, `Refines.bind` — agreement of two actions is agreement of their halves.
-/

namespace ViewMarkup

variable {ε ε' α β σ : Type}

/-! ## Answers -/

theorem exists_of_bind_eq_ok {x : Except ε α} {f : α → Except ε β} {b : β}
    (h : (x >>= f) = .ok b) : ∃ a, x = .ok a ∧ f a = .ok b := by
  cases x with
  | error _ => cases h
  | ok a => exact ⟨a, rfl, h⟩

theorem exists_of_map_eq_ok {x : Except ε α} {f : α → β} {b : β} (h : x.map f = .ok b) :
    ∃ a, x = .ok a ∧ f a = b := by
  cases x with
  | error _ => cases h
  | ok a => exact ⟨a, rfl, Except.ok.inj h⟩

/-- An action on a list succeeds if and only if it does so for every element. -/
theorem mapM_eq_ok_iff {f : α → Except ε β} {xs : List α} {ys : List β} :
    xs.mapM f = .ok ys ↔ List.Forall₂ (fun x y => f x = .ok y) xs ys := by
  induction xs generalizing ys with
  | nil =>
    rw [List.mapM_nil, List.forall₂_nil_left_iff]
    exact ⟨fun h => (Except.ok.inj h).symm, fun h => congrArg Except.ok h.symm⟩
  | cons x xs ih =>
    rw [List.mapM_cons, List.forall₂_cons_left_iff]
    constructor
    · intro h
      obtain ⟨y, hHead, hRest⟩ := exists_of_bind_eq_ok h
      obtain ⟨ys', hTail, hEnd⟩ := exists_of_bind_eq_ok hRest
      exact ⟨y, ys', hHead, ih.1 hTail, (Except.ok.inj hEnd).symm⟩
    · rintro ⟨y, ys', hHead, hTail, rfl⟩
      rw [hHead, ih.2 hTail]
      rfl

theorem eq_error_of_bind_eq_error {x : Except ε α} {f : α → Except ε β} {e : ε}
    (h : (x >>= f) = .error e) : x = .error e ∨ ∃ a, x = .ok a ∧ f a = .error e := by
  cases x with
  | error _ =>
    cases h
    exact .inl rfl
  | ok a => exact .inr ⟨a, rfl, h⟩

theorem eq_error_of_map_eq_error {x : Except ε α} {f : α → β} {e : ε}
    (h : x.map f = .error e) : x = .error e := by
  cases x with
  | error _ =>
    cases h
    rfl
  | ok _ => cases h

theorem eq_of_elim_eq_error {o : Option α} {f : α → β} {e e' : ε}
    (h : o.elim (.error e) (fun a => .ok (f a)) = (.error e' : Except ε β)) : e' = e := by
  cases o with
  | none =>
    cases h
    rfl
  | some _ => cases h

theorem eq_ok_of_mapError_eq_ok {x : Except ε α} {f : ε → ε'} {a : α}
    (h : x.mapError f = .ok a) : x = .ok a := by
  cases x with
  | error _ => cases h
  | ok _ => exact congrArg Except.ok (Except.ok.inj h)

theorem eq_ok_of_toOption_eq_some {x : Except ε α} {a : α} (h : x.toOption = some a) :
    x = .ok a := by
  cases x with
  | error _ => cases h
  | ok _ => exact congrArg Except.ok (Option.some.inj h)

/-! ## Runs of actions -/

section Run

variable {x : ExceptT ε (StateM σ) α} {f : α → ExceptT ε (StateM σ) β}

theorem run_eq (x : ExceptT ε (StateM σ) α) (s : σ) : x.run s = x s := rfl

theorem run_get (s : σ) : (get : ExceptT ε (StateM σ) σ) s = (.ok s, s) := rfl

theorem run_liftM (y : Except ε α) (s : σ) :
    (liftM y : ExceptT ε (StateM σ) α) s = (y, s) := by
  cases y <;> rfl

/-- A run of two halves, the second of which starts where the first one ends. -/
theorem run_bind (x : ExceptT ε (StateM σ) α) (f : α → ExceptT ε (StateM σ) β) (s : σ) :
    (x >>= f) s =
      match x s with
      | (.ok a, t) => f a t
      | (.error e, t) => (.error e, t) := by
  show (match x s with | (r, t) => ExceptT.bindCont f r t) = _
  cases x s with
  | mk r t => cases r <;> rfl

theorem run_bind_of_eq_ok {a : α} {s t : σ} (h : x s = (.ok a, t)) : (x >>= f) s = f a t := by
  rw [run_bind, h]

theorem run_bind_of_eq_error {e : ε} {s t : σ} (h : x s = (.error e, t)) :
    (x >>= f) s = (.error e, t) := by
  rw [run_bind, h]

theorem run_map (f : α → β) (x : ExceptT ε (StateM σ) α) (s : σ) :
    (f <$> x) s = ((x s).1.map f, (x s).2) := by
  rw [map_eq_pure_bind, run_bind]
  cases x s with
  | mk r t => cases r <;> rfl

/-- A run with a handler, which takes over where a failure has left off. -/
theorem run_tryCatch (x : ExceptT ε (StateM σ) α) (handle : ε → ExceptT ε (StateM σ) α) (s : σ) :
    tryCatch x handle s =
      match x s with
      | (.ok a, t) => (.ok a, t)
      | (.error e, t) => handle e t := by
  have hRun : tryCatch x handle s =
      (match (x s).1 with
        | .ok a => pure (.ok a)
        | .error e => handle e : StateM σ (Except ε α)) (x s).2 := rfl
  rw [hRun]
  cases x s with
  | mk r t => cases r <;> rfl

theorem exists_of_run_bind_eq_ok {b : β} {s u : σ} (h : (x >>= f) s = (.ok b, u)) :
    ∃ a t, x s = (.ok a, t) ∧ f a t = (.ok b, u) := by
  rw [run_bind] at h
  cases hx : x s with
  | mk r t =>
    rw [hx] at h
    cases r with
    | error _ => cases h
    | ok a => exact ⟨a, t, rfl, h⟩

/-- A run that keeps its failures under other names ends as before. -/
theorem run_adapt_eq_ok_iff {g : ε → ε'} {a : α} {s t : σ} :
    ExceptT.adapt g x s = (.ok a, t) ↔ x s = (.ok a, t) := by
  have hRun : ExceptT.adapt g x s = ((x s).1.mapError g, (x s).2) := rfl
  rw [hRun]
  cases x s with
  | mk r u =>
    constructor
    · intro h
      cases r <;> cases h
      rfl
    · intro h
      cases h
      rfl

theorem exists_of_adapt_eq_error {g : ε → ε'} {e : ε'} {s t : σ}
    (h : ExceptT.adapt g x s = (.error e, t)) : ∃ e', x s = (.error e', t) ∧ e = g e' := by
  have hRun : ExceptT.adapt g x s = ((x s).1.mapError g, (x s).2) := rfl
  rw [hRun] at h
  cases hx : x s with
  | mk r u =>
    rw [hx] at h
    cases r with
    | ok _ => cases h
    | error e' =>
      cases h
      exact ⟨e', rfl, rfl⟩

end Run

/-! ## What actions yield -/

/-- What holds after a run, whether it has succeeded or failed. -/
structure Yields (x : ExceptT ε (StateM σ) α) (s : σ) (P : α → σ → Prop) (B : σ → Prop) :
    Prop where
  ok : ∀ {a t}, x s = (.ok a, t) → P a t
  error : ∀ {e t}, x s = (.error e, t) → B t

namespace Yields

variable {x : ExceptT ε (StateM σ) α} {f : α → ExceptT ε (StateM σ) β} {s t : σ}
  {P P' : α → σ → Prop} {Q : β → σ → Prop} {B B' : σ → Prop}

theorem ofOk {a : α} (hRun : x s = (.ok a, t)) (h : P a t) : Yields x s P B := by
  constructor
  · intro b u hb
    rw [hRun] at hb
    cases hb
    exact h
  · intro e u he
    rw [hRun] at he
    cases he

theorem ofError {e : ε} (hRun : x s = (.error e, t)) (h : B t) : Yields x s P B := by
  constructor
  · intro b u hb
    rw [hRun] at hb
    cases hb
  · intro e u he
    rw [hRun] at he
    cases he
    exact h

/-- Whatever an action does, it does something. -/
theorem always (x : ExceptT ε (StateM σ) α) (s : σ) :
    Yields x s (fun _ _ => True) fun _ => True := by
  cases hRun : x s with
  | mk answer t =>
    cases answer with
    | ok a => exact ofOk hRun trivial
    | error e => exact ofError hRun trivial

theorem ofPure {a : α} (h : P a s) : Yields (pure a : ExceptT ε (StateM σ) α) s P B :=
  ofOk rfl h

theorem ofThrow {e : ε} (h : B s) : Yields (throw e : ExceptT ε (StateM σ) α) s P B :=
  ofError rfl h

theorem ofGet {P : σ → σ → Prop} (h : P s s) :
    Yields (get : ExceptT ε (StateM σ) σ) s P B :=
  ofOk rfl h

theorem ofModify {g : σ → σ} {P : Unit → σ → Prop} (h : P () (g s)) :
    Yields (modify g : ExceptT ε (StateM σ) Unit) s P B :=
  ofOk rfl h

theorem ofLift {y : Except ε α} (hOk : ∀ a, y = .ok a → P a s) (hBad : B s) :
    Yields (liftM y : ExceptT ε (StateM σ) α) s P B := by
  cases y with
  | error e => exact ofError rfl hBad
  | ok a => exact ofOk rfl (hOk a rfl)

theorem bind (hx : Yields x s P B) (hf : ∀ a t, P a t → Yields (f a) t Q B) :
    Yields (x >>= f) s Q B := by
  cases h : x s with
  | mk r t =>
    have hRun := run_bind x f s
    rw [h] at hRun
    cases r with
    | error e => exact ofError hRun (hx.error h)
    | ok a =>
      have hNext := hf a t (hx.ok h)
      constructor
      · intro b u hb
        exact hNext.ok (hRun.symm.trans hb)
      · intro e u he
        exact hNext.error (hRun.symm.trans he)

theorem mono (hx : Yields x s P B) (hOk : ∀ a t, P a t → P' a t)
    (hBad : ∀ t, B t → B' t) : Yields x s P' B' :=
  ⟨fun h => hOk _ _ (hx.ok h), fun h => hBad _ (hx.error h)⟩

theorem weaken (hx : Yields x s P B) (hBad : ∀ t, B t → B' t) : Yields x s P B' :=
  hx.mono (fun _ _ h => h) hBad

theorem and (hx : Yields x s P B) (hx' : Yields x s P' B') :
    Yields x s (fun a t => P a t ∧ P' a t) (fun t => B t ∧ B' t) :=
  ⟨fun h => ⟨hx.ok h, hx'.ok h⟩, fun h => ⟨hx.error h, hx'.error h⟩⟩

/-- A check in front of an action. -/
theorem check {c : Prop} [Decidable c] {e : ε} (hThrow : B s) (hx : Yields x s P B) :
    Yields (if c then (do throw e; x) else x) s P B := by
  split
  · exact bind (P := fun _ _ => False) (ofThrow hThrow) fun _ _ h => h.elim
  · exact hx

theorem ofCatch {handle : ε → ExceptT ε (StateM σ) α} (hx : Yields x s P B')
    (hHandle : ∀ e t, B' t → Yields (handle e) t P B) :
    Yields (tryCatch x handle) s P B := by
  have hRun := run_tryCatch x handle s
  cases h : x s with
  | mk r t =>
    rw [h] at hRun
    cases r with
    | ok a => exact ofOk hRun (hx.ok h)
    | error e =>
      have hNext := hHandle e t (hx.error h)
      constructor
      · intro b u hb
        exact hNext.ok (hRun.symm.trans hb)
      · intro e u he
        exact hNext.error (hRun.symm.trans he)

theorem map {g : α → β} (hx : Yields x s (fun a t => Q (g a) t) B) :
    Yields (g <$> x) s Q B := by
  have hRun : (g <$> x) s =
      (match (x s).1 with
        | .ok a => pure (.ok (g a))
        | .error e => pure (.error e) : StateM σ (Except ε β)) (x s).2 := rfl
  cases h : x s with
  | mk r t =>
    rw [h] at hRun
    cases r with
    | ok a => exact ofOk hRun (hx.ok h)
    | error e => exact ofError hRun (hx.error h)

theorem adapt {g : ε → ε'} (hx : Yields x s P B) : Yields (ExceptT.adapt g x) s P B := by
  have hRun : ExceptT.adapt g x s = ((x s).1.mapError g, (x s).2) := rfl
  cases h : x s with
  | mk r t =>
    rw [h] at hRun
    cases r with
    | ok a => exact ofOk hRun (hx.ok h)
    | error e => exact ofError hRun (hx.error h)

/-- What holds of a run holds of another one that ends in the same way. -/
theorem congr {y : ExceptT ε (StateM σ) α} (hx : Yields x s P B) (h : y t = x s) :
    Yields y t P B :=
  ⟨fun hRun => hx.ok (h.symm.trans hRun), fun hRun => hx.error (h.symm.trans hRun)⟩

/-- Reading the state, and going on with it. -/
theorem ofGetBind {f : σ → ExceptT ε (StateM σ) β} (h : Yields (f s) s Q B) :
    Yields (get >>= f) s Q B :=
  h.congr rfl

/-- Changing the state, and going on from there. -/
theorem ofModifyBind {g : σ → σ} {f : Unit → ExceptT ε (StateM σ) β}
    (h : Yields (f ()) (g s) Q B) : Yields (modify g >>= f) s Q B :=
  h.congr rfl

/-- What holds either way holds of the state in the end. -/
theorem state {R : σ → Prop} (hx : Yields x s (fun _ => R) R) : R (x s).2 := by
  cases h : x s with
  | mk r t =>
    cases r with
    | ok a => exact hx.ok h
    | error e => exact hx.error h

end Yields

/-! ## Actions that agree -/

/-- Two actions that answer alike from related states, and leave related states behind. -/
def Alike (R : σ → σ → Prop) (x y : ExceptT ε (StateM σ) α) : Prop :=
  ∀ s t, R s t → (x s).1 = (y t).1 ∧ R (x s).2 (y t).2

/-- An action that succeeds with the same answer wherever another one does, from related states, and
leaves related states behind. -/
def Refines (R : σ → σ → Prop) (x y : ExceptT ε (StateM σ) α) : Prop :=
  ∀ s t a s', R s t → x s = (.ok a, s') → ∃ t', y t = (.ok a, t') ∧ R s' t'

namespace Alike

variable {R : σ → σ → Prop} {x y : ExceptT ε (StateM σ) α}
  {f g : α → ExceptT ε (StateM σ) β}

theorem ofPure (a : α) : Alike R (pure a : ExceptT ε (StateM σ) α) (pure a) :=
  fun _ _ h => ⟨rfl, h⟩

theorem ofThrow (e : ε) : Alike R (throw e : ExceptT ε (StateM σ) α) (throw e) :=
  fun _ _ h => ⟨rfl, h⟩

theorem ofLift (y : Except ε α) :
    Alike R (liftM y : ExceptT ε (StateM σ) α) (liftM y) := by
  intro s t h
  rw [run_liftM, run_liftM]
  exact ⟨rfl, h⟩

theorem ofModify {k : σ → σ} (h : ∀ s t, R s t → R (k s) (k t)) :
    Alike R (modify k : ExceptT ε (StateM σ) PUnit) (modify k) := fun s t hR => ⟨rfl, h s t hR⟩

/-- Reading the state is fine as long as what follows makes nothing of the difference. -/
theorem ofGet {f g : σ → ExceptT ε (StateM σ) β}
    (h : ∀ s t, R s t → (f s s).1 = (g t t).1 ∧ R (f s s).2 (g t t).2) :
    Alike R (get >>= f) (get >>= g) := by
  intro s t hR
  rw [run_bind, run_bind, run_get, run_get]
  exact h s t hR

theorem bind (hx : Alike R x y) (hf : ∀ a, Alike R (f a) (g a)) :
    Alike R (x >>= f) (y >>= g) := by
  intro s t hR
  obtain ⟨hAnswer, hState⟩ := hx s t hR
  rw [run_bind, run_bind]
  revert hAnswer hState
  cases x s with
  | mk r s' =>
    cases y t with
    | mk r' t' =>
      rintro ⟨⟩ hState
      cases r with
      | error _ => exact ⟨rfl, hState⟩
      | ok a => exact hf a s' t' hState

theorem ofCatch {handle : ε → ExceptT ε (StateM σ) α} (hx : Alike R x y)
    (hHandle : ∀ e, Alike R (handle e) (handle e)) :
    Alike R (tryCatch x handle) (tryCatch y handle) := by
  intro s t hR
  obtain ⟨hAnswer, hState⟩ := hx s t hR
  rw [run_tryCatch, run_tryCatch]
  revert hAnswer hState
  cases x s with
  | mk r s' =>
    cases y t with
    | mk r' t' =>
      rintro ⟨⟩ hState
      cases r with
      | ok a => exact ⟨rfl, hState⟩
      | error e => exact hHandle e s' t' hState

theorem adapt {ε' : Type} {k : ε → ε'} (hx : Alike R x y) :
    Alike R (ExceptT.adapt k x) (ExceptT.adapt k y) := by
  intro s t hR
  obtain ⟨hAnswer, hState⟩ := hx s t hR
  exact ⟨congrArg (Except.mapError k) hAnswer, hState⟩

theorem refines (h : Alike R x y) : Refines R x y := by
  intro s t a s' hR hx
  obtain ⟨hAnswer, hState⟩ := h s t hR
  rw [hx] at hAnswer hState
  exact ⟨(y t).2, Prod.ext hAnswer.symm rfl, hState⟩

end Alike

namespace Refines

variable {R : σ → σ → Prop} {x y : ExceptT ε (StateM σ) α}
  {f g : α → ExceptT ε (StateM σ) β}

theorem bind (hx : Refines R x y) (hf : ∀ a, Refines R (f a) (g a)) :
    Refines R (x >>= f) (y >>= g) := by
  intro s t b u hR h
  obtain ⟨a, s', hx', hf'⟩ := exists_of_run_bind_eq_ok h
  obtain ⟨t', hy, hR'⟩ := hx s t a s' hR hx'
  obtain ⟨u', hg, hR''⟩ := hf a s' t' b u hR' hf'
  exact ⟨u', (run_bind_of_eq_ok hy).trans hg, hR''⟩

/-- Under which names failures are kept makes no difference to a success. -/
theorem adapt {k k' : ε → ε} (h : Refines R x y) :
    Refines R (ExceptT.adapt k x) (ExceptT.adapt k' y) := by
  intro s t a s' hR hx
  obtain ⟨t', hy, hR'⟩ := h s t a s' hR (run_adapt_eq_ok_iff.1 hx)
  exact ⟨t', run_adapt_eq_ok_iff.2 hy, hR'⟩

end Refines
end ViewMarkup
