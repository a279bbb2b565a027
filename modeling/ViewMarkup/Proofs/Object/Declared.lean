import ViewMarkup.Object.Assign
import ViewMarkup.Proofs.Outcome
import ViewMarkup.View.Catalog

/-!
# Declared paths

A dotted name is a chain of names. Each name but the last one has to be declared by the object
reached so far, as a property that holds an object, and an object has to be set there; the last one
has to be declared as a property that can be set. `Scene.Declares` says so without following the
name. Following it finds the declared paths, and nothing else, except that one dot behind a name is
passed over: what is followed are the names *up to* that dot.

## Main results

* `Scene.locate_eq_ok_iff` — what a dotted name is found to stand for is what it is declared as.
* `Scene.locate_fails` — a name that is no declared path fails as a property, or as a read-only
  attribute on its way does.
* `Scene.assign_declared` — which names are assigned to, and how all others are refused.
* `Scene.assign_closing_dot` — a name that is assigned to and is no declared path.
-/

namespace ViewMarkup

open Text

/-- A failure to find a property that can be set. -/
def Failure.IsProperty : Failure → Prop
  | .markup (.property _) _ => True
  | _ => False

/-! ## Names -/

/-- The names in front of a dot that stands at the end, if it has a name in front of it. -/
def upToClosingDot : List String → List String
  | [] => []
  | name :: rest => if rest = [""] then [name] else name :: upToClosingDot rest

/-- Only an empty name at the end is left away, and never a name that is all there is. -/
theorem upToClosingDot_cases (names : List String) :
    upToClosingDot names = names ∨
      upToClosingDot names ≠ [] ∧ names = upToClosingDot names ++ [""] := by
  induction names with
  | nil => exact .inl rfl
  | cons name rest ih =>
    unfold upToClosingDot
    by_cases hRest : rest = [""]
    · simp [hRest]
    · rw [if_neg hRest]
      rcases ih with hSame | ⟨-, hClosed⟩
      · exact .inl (by rw [hSame])
      · exact .inr ⟨List.cons_ne_nil _ _, congrArg (name :: ·) hClosed⟩

theorem upToClosingDot_prefix (names : List String) : upToClosingDot names <+: names := by
  rcases upToClosingDot_cases names with hSame | ⟨-, hClosed⟩
  · exact ⟨[], by rw [List.append_nil, hSame]⟩
  · exact ⟨_, hClosed.symm⟩

theorem upToClosingDot_ne_nil {names : List String} (h : names ≠ []) :
    upToClosingDot names ≠ [] := by
  rcases upToClosingDot_cases names with hSame | ⟨hNe, -⟩
  · rwa [hSame]
  · exact hNe

/-- Where no name is empty, all of them count. -/
theorem upToClosingDot_eq_self {names : List String} (h : "" ∉ names) :
    upToClosingDot names = names := by
  rcases upToClosingDot_cases names with hSame | ⟨-, hClosed⟩
  · exact hSame
  · exact absurd (hClosed ▸ List.mem_append_right _ List.mem_cons_self) h

namespace Scene

variable {sc : Scene} {v w owner inner : Value} {name : String} {names front : List String}
  {p : Property} {e : Failure}

/-! ## What is declared -/

/-- Only components have properties, and these are those of their classes. -/
theorem exists_component_of_get? (h : (sc.propertiesOf v).get? name = some p) :
    ∃ id cls, v = .object id ∧ sc.store.type? id = some (.component cls) ∧
      (sc.classes.properties cls).get? name = some p := by
  cases v with
  | object id =>
    cases hType : sc.store.type? id with
    | none =>
      simp only [propertiesOf, hType] at h
      cases h
    | some type =>
      simp only [propertiesOf, hType] at h
      cases type with
      | host typeName declared referable => cases h
      | component cls => exact ⟨id, cls, rfl, hType, h⟩
  | _ => cases h

/-- The declared properties that hold objects lead from one value to another, each of them set. -/
inductive Leads (sc : Scene) : Value → List String → Value → Prop where
  | here {v : Value} : Leads sc v [] v
  | through {v inner w : Value} {name : String} {names : List String} {p : Property}
      (hFound : (sc.propertiesOf v).get? name = some p) (hNested : p.kind = .object)
      (hInner : sc.attribute? v p.target = .ok (some inner)) (hSet : inner ≠ .none)
      (hRest : Leads sc inner names w) : Leads sc v (name :: names) w

/-- Some names are the declared path of a property that can be set, which `owner` has. -/
def Declares (sc : Scene) (v : Value) (names : List String) (owner : Value) (p : Property) : Prop :=
  ∃ front last, names = front ++ [last] ∧ sc.Leads v front owner ∧
    (sc.propertiesOf owner).get? last = some p ∧ p.settable = true

/-- On the way of some names, a property that holds an object cannot be read. -/
def Breaks (sc : Scene) (v : Value) (names : List String) (e : Failure) : Prop :=
  ∃ front name rest w p, names = front ++ name :: rest ∧ rest ≠ [] ∧ sc.Leads v front w ∧
    (sc.propertiesOf w).get? name = some p ∧ p.kind = .object ∧
    sc.attribute? w p.target = .error e

private theorem not_declares_nil : ¬ sc.Declares v [] owner p := by
  rintro ⟨front, last, hNames, -⟩
  simp at hNames

/-- A single name is declared by the value itself. -/
theorem declares_singleton :
    sc.Declares v [name] owner p ↔
      owner = v ∧ (sc.propertiesOf v).get? name = some p ∧ p.settable = true := by
  constructor
  · rintro ⟨front, last, hNames, hLeads, hFound, hSettable⟩
    cases front with
    | nil =>
      cases hLeads
      cases hNames
      exact ⟨rfl, hFound, hSettable⟩
    | cons first front => simp at hNames
  · rintro ⟨rfl, hFound, hSettable⟩
    exact ⟨[], name, rfl, .here, hFound, hSettable⟩

/-- Of several names the first one leads to what declares the others. -/
theorem declares_cons (hNames : names ≠ []) :
    sc.Declares v (name :: names) owner p ↔ ∃ q inner,
      (sc.propertiesOf v).get? name = some q ∧ q.kind = .object ∧
        sc.attribute? v q.target = .ok (some inner) ∧ inner ≠ .none ∧
        sc.Declares inner names owner p := by
  constructor
  · rintro ⟨front, last, hEq, hLeads, hLast⟩
    cases hLeads with
    | here => exact absurd (List.cons.inj hEq).2 hNames
    | through hFound hNested hInner hSet hRest =>
      obtain ⟨rfl, hTail⟩ := List.cons.inj hEq
      exact ⟨_, _, hFound, hNested, hInner, hSet, _, last, hTail, hRest, hLast⟩
  · rintro ⟨q, inner, hFound, hNested, hInner, hSet, front, last, rfl, hLeads, hLast⟩
    exact ⟨name :: front, last, rfl, .through hFound hNested hInner hSet hLeads, hLast⟩

/-- What cannot be read behind the first name cannot be read on the way of all of them. -/
theorem Breaks.cons {q : Property} (hFound : (sc.propertiesOf v).get? name = some q)
    (hNested : q.kind = .object) (hInner : sc.attribute? v q.target = .ok (some inner))
    (hSet : inner ≠ .none) (h : sc.Breaks inner names e) : sc.Breaks v (name :: names) e := by
  obtain ⟨front, name', rest, w, p, rfl, hRest, hLeads, hBroken⟩ := h
  exact ⟨name :: front, name', rest, w, p, rfl, hRest,
    .through hFound hNested hInner hSet hLeads, hBroken⟩

/-! ## What is found -/

/-- The last name is found if the value declares it as a property that can be set. A property in
front of others is gone through. -/
theorem locate_cons_eq_ok_iff {rest : List String} :
    sc.locate v (name :: rest) = .ok (owner, p) ↔
      if rest = [] ∨ rest = [""] then
        owner = v ∧ (sc.propertiesOf v).get? name = some p ∧ p.settable = true
      else
        ∃ q inner, (sc.propertiesOf v).get? name = some q ∧ q.kind = .object ∧
          sc.attribute? v q.target = .ok (some inner) ∧ inner ≠ .none ∧
          sc.locate inner rest = .ok (owner, p) := by
  simp only [locate, List.isEmpty_iff]
  cases hFound : (sc.propertiesOf v).get? name with
  | none =>
    dsimp only
    split <;> simp
  | some q =>
    dsimp only
    split
    · by_cases hSettable : q.settable = true
      · rw [if_pos hSettable]
        constructor
        · intro h
          cases h
          exact ⟨rfl, rfl, hSettable⟩
        · rintro ⟨rfl, hSame, -⟩
          cases hSame
          rfl
      · rw [if_neg hSettable]
        constructor
        · intro h
          cases h
        · rintro ⟨-, hSame, hCan⟩
          cases hSame
          exact absurd hCan hSettable
    · by_cases hNested : q.kind = .object
      · rw [if_neg (not_not_intro hNested)]
        cases hInner : sc.attribute? v q.target with
        | error failure => simp [hInner, bind, Except.bind]
        | ok inner? =>
          cases inner? with
          | none => simp [hInner, bind, Except.bind]
          | some inner => cases inner <;> simp [hInner, hNested, bind, Except.bind]
      · simp [hNested]

/-- Names that are not found are refused as a property, unless what is behind the first one is to
blame. -/
theorem locate_cons_fails {rest : List String} (h : sc.locate v (name :: rest) = .error e) :
    e.IsProperty ∨ (rest ≠ [] ∧ rest ≠ [""]) ∧
      ∃ q, (sc.propertiesOf v).get? name = some q ∧ q.kind = .object ∧
        (sc.attribute? v q.target = .error e ∨ ∃ inner, inner ≠ .none ∧
          sc.attribute? v q.target = .ok (some inner) ∧ sc.locate inner rest = .error e) := by
  unfold locate at h
  split at h
  · cases h
    exact .inl trivial
  · next q hFound =>
    split at h
    · split at h <;> cases h
      exact .inl trivial
    · next hEnd =>
      have hRest : rest ≠ [] ∧ rest ≠ [""] := by
        simpa using hEnd
      split at h
      · cases h
        exact .inl trivial
      · next hKind =>
        have hNested : q.kind = .object := by
          simpa using hKind
        cases hInner : sc.attribute? v q.target with
        | error failure =>
          rw [hInner] at h
          cases h
          exact .inr ⟨hRest, q, hFound, hNested, .inl hInner⟩
        | ok inner? =>
          rw [hInner] at h
          cases inner? with
          | none =>
            cases h
            exact .inl trivial
          | some inner =>
            by_cases hSet : inner = .none
            · subst hSet
              cases h
              exact .inl trivial
            · refine .inr ⟨hRest, q, hFound, hNested, .inr ⟨inner, hSet, hInner, ?_⟩⟩
              cases inner with
              | none => exact absurd rfl hSet
              | _ => exact h

/-- What names are found to stand for is what the names up to a closing dot are declared as. -/
theorem locate_eq_ok_iff :
    sc.locate v names = .ok (owner, p) ↔ sc.Declares v (upToClosingDot names) owner p := by
  -- By induction on the names, since each of them is looked up in what those before it lead to.
  induction names generalizing v with
  | nil => simp [locate, upToClosingDot, not_declares_nil]
  | cons name rest ih =>
    rw [locate_cons_eq_ok_iff]
    by_cases hEnd : rest = [] ∨ rest = [""]
    · have hLast : upToClosingDot (name :: rest) = [name] := by
        rcases hEnd with rfl | rfl <;> simp [upToClosingDot]
      rw [if_pos hEnd, hLast, declares_singleton]
    · obtain ⟨hSome, hOpen⟩ := not_or.1 hEnd
      have hMore : upToClosingDot (name :: rest) = name :: upToClosingDot rest := if_neg hOpen
      rw [if_neg hEnd, hMore, declares_cons (upToClosingDot_ne_nil hSome)]
      simp only [ih]

/-- Names that are not found are refused as a property, unless an attribute on the way cannot be
read. -/
theorem locate_fails (h : sc.locate v names = .error e) :
    e.IsProperty ∨ sc.Breaks v (upToClosingDot names) e := by
  induction names generalizing v with
  | nil =>
    cases h
    exact .inl trivial
  | cons name rest ih =>
    rcases locate_cons_fails h with hProperty | ⟨⟨hSome, hOpen⟩, q, hFound, hNested, hBehind⟩
    · exact .inl hProperty
    · have hMore : upToClosingDot (name :: rest) = name :: upToClosingDot rest := if_neg hOpen
      rw [hMore]
      rcases hBehind with hBroken | ⟨inner, hSet, hInner, hFails⟩
      · exact .inr ⟨[], name, _, v, q, rfl, upToClosingDot_ne_nil hSome, .here, hFound, hNested,
          hBroken⟩
      · exact (ih hFails).imp_right (.cons hFound hNested hInner hSet)

/-! ## Assigning -/

section Assign

variable (sc : Scene) (d : Decoder) (fs : Files) (target : Value) (raw : String)

/-- Assigning to a declared path is reading the text for the property and setting its attribute. -/
theorem assign_of_declares {name : String}
    (h : sc.Declares target (upToClosingDot (splitOn '.' name)) owner p) :
    sc.assign d fs target name raw = (do
      let v ← d.fetchProperty fs p raw
      liftM (sc.setAttribute owner p.target v)) := by
  unfold assign
  rw [locate_eq_ok_iff.2 h]
  rfl

/-- What has been assigned to was a declared path. -/
theorem exists_declares_of_assign {name : String} {s : Store} {l? l'? : Option Loader}
    (h : sc.assign d fs target name raw l? = (.ok s, l'?)) :
    ∃ owner p, sc.Declares target (upToClosingDot (splitOn '.' name)) owner p := by
  obtain ⟨found, t, hFound, -⟩ := exists_of_run_bind_eq_ok h
  have hLocate : sc.locate target (splitOn '.' name) = .ok found := by
    rw [run_liftM] at hFound
    exact congrArg Prod.fst hFound
  exact ⟨found.1, found.2, locate_eq_ok_iff.1 hLocate⟩

/-- Assigning to anything else fails before the text is read. -/
theorem assign_of_not_declares {name : String}
    (h : ∀ owner p, ¬ sc.Declares target (upToClosingDot (splitOn '.' name)) owner p)
    (l? : Option Loader) :
    ∃ e, sc.assign d fs target name raw l? = (.error e, l?) ∧
      (e.IsProperty ∨ sc.Breaks target (upToClosingDot (splitOn '.' name)) e) := by
  cases hLocate : sc.locate target (splitOn '.' name) with
  | ok found => exact absurd (locate_eq_ok_iff.1 hLocate) (h found.1 found.2)
  | error e =>
    refine ⟨e, ?_, locate_fails hLocate⟩
    unfold assign
    rw [hLocate]
    rfl

/-- Among all names, those of declared paths can be assigned to, and these names with one dot
behind them, which mean the same. For every other name assigning fails for want of such a property,
or as the first read-only attribute on the way does that cannot be read. -/
theorem assign_declared (name : String) (l? : Option Loader) :
    (upToClosingDot (splitOn '.' name) = splitOn '.' name ∨
      upToClosingDot (splitOn '.' name) ++ [""] = splitOn '.' name) ∧
    (∀ s l'?, sc.assign d fs target name raw l? = (.ok s, l'?) →
      ∃ owner p, sc.Declares target (upToClosingDot (splitOn '.' name)) owner p) ∧
    (∀ owner p, sc.Declares target (upToClosingDot (splitOn '.' name)) owner p →
      sc.assign d fs target name raw = (do
        let v ← d.fetchProperty fs p raw
        liftM (sc.setAttribute owner p.target v))) ∧
    ((∀ owner p, ¬ sc.Declares target (upToClosingDot (splitOn '.' name)) owner p) →
      ∃ e, sc.assign d fs target name raw l? = (.error e, l?) ∧
        (e.IsProperty ∨ sc.Breaks target (upToClosingDot (splitOn '.' name)) e)) := by
  refine ⟨?_, ?_, ?_, ?_⟩
  · exact (upToClosingDot_cases _).imp_right fun h => h.2.symm
  · intro s l'? h
    exact sc.exists_declares_of_assign d fs target raw h
  · intro owner p h
    exact sc.assign_of_declares d fs target raw h
  · intro h
    exact sc.assign_of_not_declares d fs target raw h l?

end Assign

end Scene

/-- A scene with one label. -/
def Sample.soleLabel : Scene where
  classes := View.Catalog.classes
  store := (View.Catalog.classes.instantiate View.Catalog.labelClass {}).2

set_option maxRecDepth 8000 in
/-- A name that ends with a dot assigns the property in front of it, though the label declares no
path with an empty name at its end. -/
theorem Scene.assign_closing_dot :
    (∃ s, Sample.soleLabel.assign {} {} (.object 0) "text." "Hello" none = (.ok s, none) ∧
      s.field? 0 "text" = some (.text "Hello")) ∧
    ∀ owner p, ¬ Sample.soleLabel.Declares (.object 0) (splitOn '.' "text.") owner p := by
  constructor
  · exact ⟨_, rfl, rfl⟩
  · intro owner p hDeclares
    have hNames : splitOn '.' "text." = ["text", ""] := by decide +kernel
    have hText : (Sample.soleLabel.propertiesOf (.object 0)).get? "text" =
        some (View.declare "text" .string) := by decide +kernel
    rw [hNames, declares_cons (List.cons_ne_nil _ _)] at hDeclares
    obtain ⟨q, -, hFound, hNested, -⟩ := hDeclares
    rw [hText] at hFound
    cases hFound
    cases hNested

end ViewMarkup
