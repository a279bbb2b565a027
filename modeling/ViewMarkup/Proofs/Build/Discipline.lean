import ViewMarkup.Proofs.Build.Tour

/-!
# Disciplines of tours

A discipline tells which visits are due in a state, and which state a visit leads to. A tour that
keeps to a discipline makes visits that are due, one after the other.

## Main results

* `Orderly.append` — visits that are in their order go on where others have ended.
* `Orderly.invariant` — what visits that are due keep holds all along them.
* `Touring.Moves.bind`, `Touring.Moves.forM`, `Touring.Moves.visit` — a tour keeps to a discipline
  part by part.
* `Assembly.tourTree_orderly` — a tour does if that of its root element does.
-/

namespace ViewMarkup

/-- Which visits are due in a state, and which state one leads to that does not fail. -/
structure Discipline (σ : Type) where
  Due : σ → Visit → Prop
  next : σ → (v : Visit) → v.attempt.Answer → σ

variable {σ : Type}

/-- Visits that are due one after the other, from one state on. They lead to another state if none
of them fails. -/
inductive Orderly (a : Assembly) (d : Discipline σ) : σ → List Visit → Option σ → Prop
  | done {s : σ} : Orderly a d s [] (some s)
  | failed {s : σ} {v : Visit} {e : Failure} {q : Progress} : d.Due s v → v.run a = (.error e, q) →
      Orderly a d s [v] none
  | passed {s : σ} {v : Visit} {answer : v.attempt.Answer} {p : Progress} {vs : List Visit}
      {s'? : Option σ} : d.Due s v → v.run a = (.ok answer, p) →
      Orderly a d (d.next s v answer) vs s'? → Orderly a d s (v :: vs) s'?

theorem Orderly.append {a : Assembly} {d : Discipline σ} {s s' : σ} {vs vs' : List Visit}
    {s''? : Option σ} (h : Orderly a d s vs (some s')) (h' : Orderly a d s' vs' s''?) :
    Orderly a d s (vs ++ vs') s''? := by
  generalize hEnd : some s' = end? at h
  induction h with
  | done =>
    cases hEnd
    exact h'
  | failed _ _ => cases hEnd
  | passed hDue hRun _ ih => exact .passed hDue hRun (ih hEnd)

/-- What attempts that are due keep when they do not fail holds before each visit of a tour, and at
its end if none of them has failed. -/
theorem Orderly.invariant {a : Assembly} {d : Discipline σ}
    {I : List Visit → σ → Progress → Prop}
    (hStep : ∀ {pre s v answer q}, I pre s v.before → d.Due s v → v.run a = (.ok answer, q) →
      I (pre ++ [v]) (d.next s v answer) q)
    {s : σ} {vs : List Visit} {s? : Option σ} {f : Option Failure} {p q : Progress}
    (pre : List Visit) (h : Orderly a d s vs s?) (hLinked : Linked a p vs f q)
    (hStart : I pre s p) :
    (∀ front v back, vs = front ++ v :: back → ∃ s', d.Due s' v ∧ I (pre ++ front) s' v.before) ∧
      (f = none → ∃ s', s? = some s' ∧ I (pre ++ vs) s' q) := by
  induction h generalizing p pre with
  | done =>
    cases hLinked
    refine ⟨fun front v back hCut => by simp at hCut, fun _ => ⟨_, rfl, ?_⟩⟩
    rwa [List.append_nil]
  | @failed s w e r hDue hRun =>
    have hFirst : Linked a p ([] ++ w :: []) f q := hLinked
    obtain ⟨-, hFailure, -⟩ := hFirst.stops hRun
    rw [hLinked.before_eq] at hStart
    refine ⟨fun front v back hCut => ?_, fun hNone => by rw [hNone] at hFailure; cases hFailure⟩
    rcases List.cons_eq_append_iff.1 hCut with ⟨rfl, hHead⟩ | ⟨rest, rfl, hRest⟩
    · cases hHead
      rw [List.append_nil]
      exact ⟨s, hDue, hStart⟩
    · simp at hRest
  | @passed s w answer r vs s? hDue hRun _ ih =>
    rw [hLinked.before_eq] at hStart
    obtain ⟨hCuts, hEnd⟩ := ih _ (hLinked.tail hRun) (hStep hStart hDue hRun)
    refine ⟨fun front v back hCut => ?_, fun hNone => ?_⟩
    · -- The visit is this one, which the hypothesis is about, or it is behind this one.
      rcases List.cons_eq_append_iff.1 hCut with ⟨rfl, hHead⟩ | ⟨rest, rfl, hTail⟩
      · cases hHead
        rw [List.append_nil]
        exact ⟨s, hDue, hStart⟩
      · obtain ⟨s', hDue', hHolds⟩ := hCuts rest v back hTail
        rw [List.append_assoc] at hHolds
        exact ⟨s', hDue', hHolds⟩
    · obtain ⟨s', hs', hHolds⟩ := hEnd hNone
      rw [List.append_assoc] at hHolds
      exact ⟨s', hs', hHolds⟩

/-- Touring something makes visits in their order, from one state to another of some kind. -/
def Touring.Moves {α : Type} (a : Assembly) (d : Discipline σ) (x : Touring α) (s : σ)
    (F : α → σ → Prop) : Prop :=
  ∀ t : Tour, ∃ vs s'?, (x t).2.visits = t.visits ++ vs ∧ Orderly a d s vs s'? ∧
    ∀ r, (x t).1 = .ok r → ∃ s', s'? = some s' ∧ F r s'

namespace Touring.Moves

variable {α β : Type} {a : Assembly} {d : Discipline σ} {x : Touring α} {f : α → Touring β} {s : σ}
  {F : α → σ → Prop} {G : β → σ → Prop}

theorem ofPure {r : α} (h : F r s) : Moves a d (pure r) s F := by
  intro t
  refine ⟨[], some s, (List.append_nil t.visits).symm, .done, ?_⟩
  intro r' hr
  cases hr
  exact ⟨s, rfl, h⟩

theorem ofThrow {e : Failure} : Moves a d (throw e) s F := by
  intro t
  refine ⟨[], some s, (List.append_nil t.visits).symm, .done, ?_⟩
  intro r hr
  cases hr

theorem bind (hx : Moves a d x s F) (hf : ∀ r s', F r s' → Moves a d (f r) s' G) :
    Moves a d (x >>= f) s G := by
  intro t
  obtain ⟨vs, s'?, hVisits, hOrderly, hEnd⟩ := hx t
  rw [run_bind]
  generalize x t = first at hVisits hEnd
  obtain ⟨answer, t'⟩ := first
  cases answer with
  | error e =>
    refine ⟨vs, s'?, hVisits, hOrderly, ?_⟩
    intro r hr
    cases hr
  | ok r =>
    obtain ⟨s', rfl, hF⟩ := hEnd r rfl
    obtain ⟨vs', s''?, hVisits', hOrderly', hEnd'⟩ := hf r s' hF t'
    refine ⟨vs ++ vs', s''?, ?_, hOrderly.append hOrderly', hEnd'⟩
    rw [← List.append_assoc]
    exact hVisits ▸ hVisits'

theorem mono {F' : α → σ → Prop} (hx : Moves a d x s F) (h : ∀ r s', F r s' → F' r s') :
    Moves a d x s F' := by
  intro t
  obtain ⟨vs, s'?, hVisits, hOrderly, hEnd⟩ := hx t
  refine ⟨vs, s'?, hVisits, hOrderly, fun r hr => ?_⟩
  obtain ⟨s', hs, hF⟩ := hEnd r hr
  exact ⟨s', hs, h r s' hF⟩

/-- What is kept by each of some parts is kept by all of them. -/
theorem forM {ι : Type} {g : ι → Touring Unit} {is : List ι} {I : σ → Prop}
    (h : ∀ i ∈ is, ∀ s, I s → Moves a d (g i) s fun _ => I) (hs : I s) :
    Moves a d (is.forM g) s fun _ => I := by
  induction is generalizing s with
  | nil => exact ofPure hs
  | cons i is ih =>
    refine (h i List.mem_cons_self s hs).bind fun _ s' hs' => ?_
    exact ih (fun j hj => h j (List.mem_cons_of_mem i hj)) hs'

/-- A visit that is due leads to the next state. -/
theorem visit {spot : Place} {t : Attempt} (h : ∀ p, d.Due s ⟨spot, t, p⟩) :
    Moves a d (a.visit spot t) s fun answer s' => ∃ p q,
      Visit.run a ⟨spot, t, p⟩ = (.ok answer, q) ∧ s' = d.next s ⟨spot, t, p⟩ answer := by
  intro tour
  let v : Visit := ⟨spot, t, tour.toProgress⟩
  have hRun : (a.visit spot t tour).1 = (v.run a).1.mapError (Failure.withPath spot.path) := rfl
  rw [hRun]
  cases hAct : v.run a with
  | mk answer q =>
    cases answer with
    | error e =>
      refine ⟨[v], none, rfl, .failed (h tour.toProgress) hAct, ?_⟩
      intro r hr
      cases hr
    | ok r =>
      refine ⟨[v], some (d.next s v r), rfl, .passed (h tour.toProgress) hAct .done, ?_⟩
      intro r' hr
      cases hr
      exact ⟨_, rfl, tour.toProgress, q, hAct, rfl⟩

end Touring.Moves

/-- A tour keeps to a discipline if that of its root element does, however deep it may go, and leads
to where that one does. -/
theorem Assembly.tourTree_orderly {a : Assembly} {d : Discipline σ} {given : Option ObjectId}
    {s : σ} {F : ObjectId → σ → Prop}
    (hRoot : ∀ depth stack e, Touring.Moves a d (a.tourRoot depth stack e given) s F)
    (origin : Origin) (p : Progress) :
    ∃ s?, Orderly a d s (a.tourTree given origin ⟨p, []⟩).2.visits s? ∧
      ∀ view, (a.tourTree given origin ⟨p, []⟩).1 = .ok view → ∃ s', s? = some s' ∧ F view s' := by
  have hDocument (stack : List String) (document : Document) (q : Progress) :
      ∃ s?, Orderly a d s (a.tourDocument stack document given ⟨q, []⟩).2.visits s? ∧
        ∀ view, (a.tourDocument stack document given ⟨q, []⟩).1 = .ok view →
          ∃ s', s? = some s' ∧ F view s' := by
    have hTour : a.tourDocument stack document given ⟨q, []⟩ =
        a.tourRoot (includeDepth a.files q.loader document.root) stack document.root given
          ⟨q, []⟩ := by
      unfold tourDocument
      rw [run_bind, run_get]
    obtain ⟨vs, s?, hVisits, hOrderly, hEnd⟩ := hRoot _ stack document.root ⟨q, []⟩
    rw [hTour]
    refine ⟨s?, ?_, hEnd⟩
    rw [hVisits]
    exact hOrderly
  cases origin with
  | given document => exact hDocument [] document p
  | named name =>
    cases hLoad : Building.loading (loadDocument a.files name) p with
    | mk answer q =>
      cases answer with
      | error e =>
        rw [run_tourTree_of_error hLoad]
        exact ⟨_, .done, fun view hView => by cases hView⟩
      | ok document =>
        rw [run_tourTree_of_ok hLoad]
        exact hDocument [name] document q

end ViewMarkup
