import ViewMarkup.Build.Document
import ViewMarkup.Proofs.Build.Journal

/-!
# The include stack

The names of the documents that are being included stand on a stack. `Turn` is what happens at an
include, with the stack as it then is, and `Course` says which turns are possible while a root
element is built: an include is reached and refused, or it is reached, entered and left, and in
between the turns of the included document have their place.

From the shape of a course follows what the stack is like at every moment.

## Main results

* `Course.keepsStack` — no name is on the stack twice, on it are the names of the documents that are
  being expanded, and it is restored after each include.
* `Course.expanding_length_le` — includes are not nested deeper than there are names to be included.
* `Course.nests` — where the name of an include is on the stack, a document is included through
  itself.
-/

namespace ViewMarkup

open Text

/-- What happens at an include: it is reached and, unless it is refused, its document is entered and
left again. The stack is the one that the turn leaves. -/
inductive Turn where
  | reached (name : String) (stack : List String)
  | entered (name : String) (stack : List String)
  | left (name : String) (stack : List String)
deriving DecidableEq, Repr

namespace Turn

/-- The include stack after a turn. -/
def stack : Turn → List String
  | reached _ stack | entered _ stack | left _ stack => stack

/-- The names of the documents that are being expanded after a turn, given those before it. -/
def expanding (opened : List String) : Turn → List String
  | reached _ _ => opened
  | entered name _ => opened ++ [name]
  | left _ _ => opened.dropLast

end Turn

/-- The names of the documents that are being expanded after some turns, given those before them:
the documents that were entered and not left, outermost first. -/
def expandingAfter (opened : List String) (turns : List Turn) : List String :=
  turns.foldl Turn.expanding opened

theorem expandingAfter_append (opened : List String) (turns turns' : List Turn) :
    expandingAfter opened (turns ++ turns') =
      expandingAfter (expandingAfter opened turns) turns' :=
  List.foldl_append

/-! ## Courses -/

/-- The turns that can be taken while a root element is built, where the stack is the one given and
`docs` are the documents that there are. -/
inductive Course (docs : String → Option Document) : Element → List String → List Turn → Prop
  | done {root : Element} {stack : List String} : Course docs root stack []
  | refused {root : Element} {stack : List String} {name : String} {turns : List Turn} :
      name ∈ root.included → Course docs root stack turns →
      Course docs root stack (.reached name stack :: turns)
  | expanded {root : Element} {stack : List String} {name : String} {d : Document}
      {inner turns : List Turn} :
      name ∈ root.included → name ∉ stack → docs name = some d →
      Course docs d.root (stack ++ [name]) inner → Course docs root stack turns →
      Course docs root stack
        (.reached name stack :: .entered name (stack ++ [name]) ::
          (inner ++ .left name stack :: turns))

/-- What the stack is like throughout some turns, if some names were on it before. -/
structure KeepsStack (base : List String) (turns : List Turn) : Prop where
  /-- No name is on the stack twice. -/
  nodup : ∀ turn ∈ turns, turn.stack.Nodup
  /-- On the stack are the names given and those of the documents that are being expanded. -/
  expanding : ∀ before turn after, turns = before ++ turn :: after →
    turn.stack = base ++ expandingAfter [] (before ++ [turn])
  /-- A document that is entered is left again. The stack is then what it was when the include was
  reached, and until then it only grows above the name of the document. -/
  restored : ∀ before name stack after, turns = before ++ .entered name stack :: after →
    ∃ front old inner rest, before = front ++ [.reached name old] ∧ stack = old ++ [name] ∧
      after = inner ++ .left name old :: rest ∧ ∀ turn ∈ inner, stack <+: turn.stack

/-- One document includes another one, each by its name. -/
def Includes (docs : String → Option Document) (name other : String) : Prop :=
  ∃ d, docs name = some d ∧ other ∈ d.root.included

namespace Course

variable {docs : String → Option Document} {root : Element} {base stack opened : List String}
  {turns turns' : List Turn}

theorem append (h : Course docs root stack turns) (h' : Course docs root stack turns') :
    Course docs root stack (turns ++ turns') := by
  induction h with
  | done => exact h'
  | refused hName _ ih => exact .refused hName (ih h')
  | expanded hName hFresh hFound hInner _ _ ih =>
    rw [List.cons_append, List.cons_append, List.append_assoc, List.cons_append]
    exact .expanded hName hFresh hFound hInner (ih h')

/-- Where the turns of an include and those after it are cut: at one of its three turns, inside of
the included document, or after it. -/
theorem cut_expanded {reached entered left turn : Turn} {inner rest before after : List Turn}
    (h : reached :: entered :: (inner ++ left :: rest) = before ++ turn :: after) :
    before = [] ∧ turn = reached ∨
      before = [reached] ∧ turn = entered ∧ after = inner ++ left :: rest ∨
      (∃ front post, before = reached :: entered :: front ∧ inner = front ++ turn :: post ∧
        after = post ++ left :: rest) ∨
      before = reached :: entered :: inner ∧ turn = left ∨
      ∃ front, before = reached :: entered :: (inner ++ left :: front) ∧
        rest = front ++ turn :: after := by
  match before with
  | [] => exact .inl ⟨rfl, (List.cons.inj h).1.symm⟩
  | [x] =>
    obtain ⟨rfl, hTail⟩ := List.cons.inj h
    obtain ⟨rfl, rfl⟩ := List.cons.inj hTail
    exact .inr (.inl ⟨rfl, rfl, rfl⟩)
  | x :: y :: before =>
    obtain ⟨rfl, hTail⟩ := List.cons.inj h
    obtain ⟨rfl, hRest⟩ := List.cons.inj hTail
    rcases cut_append hRest with ⟨post, hInner, hAfter⟩ | ⟨front, rfl, hLeft⟩
    · exact .inr (.inr (.inl ⟨before, post, rfl, hInner, hAfter⟩))
    · cases front with
      | nil => exact .inr (.inr (.inr (.inl ⟨by simp, (List.cons.inj hLeft).1.symm⟩)))
      | cons z front =>
        obtain ⟨rfl, hAfter⟩ := List.cons.inj hLeft
        exact .inr (.inr (.inr (.inr ⟨front, rfl, hAfter⟩)))

/-! ## The stack at every moment -/

private theorem stack_prefix (h : Course docs root stack turns) :
    ∀ turn ∈ turns, stack <+: turn.stack := by
  induction h with
  | done => simp
  | refused _ _ ih => simpa [Turn.stack] using ih
  | @expanded root stack name d inner turns _ _ _ _ _ ihInner ih =>
    intro turn hTurn
    simp only [List.mem_cons, List.mem_append] at hTurn
    rcases hTurn with rfl | rfl | hTurn | rfl | hTurn
    · exact List.prefix_refl stack
    · exact List.prefix_append stack [name]
    · exact (List.prefix_append stack [name]).trans (ihInner turn hTurn)
    · exact List.prefix_refl stack
    · exact ih turn hTurn

theorem stack_nodup (h : Course docs root stack turns) (hStack : stack.Nodup) :
    ∀ turn ∈ turns, turn.stack.Nodup := by
  induction h with
  | done => simp
  | refused _ _ ih => simpa [Turn.stack, hStack] using ih hStack
  | @expanded root stack name d inner turns _ hFresh _ _ _ ihInner ih =>
    have hPushed : (stack ++ [name]).Nodup := by
      refine List.nodup_append.2 ⟨hStack, by simp, fun x hx y hy => ?_⟩
      rintro rfl
      exact hFresh (List.mem_singleton.1 hy ▸ hx)
    intro turn hTurn
    simp only [List.mem_cons, List.mem_append] at hTurn
    rcases hTurn with rfl | rfl | hTurn | rfl | hTurn
    · exact hStack
    · exact hPushed
    · exact ihInner hPushed turn hTurn
    · exact hStack
    · exact ih hStack turn hTurn

/-- In the end no document is being expanded but those that were before. -/
theorem expandingAfter_eq (h : Course docs root stack turns) (opened : List String) :
    expandingAfter opened turns = opened := by
  induction h generalizing opened with
  | done => rfl
  | refused _ _ ih => exact ih opened
  | @expanded root stack name d inner turns _ _ _ _ _ ihInner ih =>
    have hEnd : expandingAfter opened (.reached name stack :: .entered name (stack ++ [name]) ::
        (inner ++ .left name stack :: turns)) =
        expandingAfter (expandingAfter (opened ++ [name]) inner).dropLast turns :=
      expandingAfter_append (opened ++ [name]) inner (.left name stack :: turns)
    rw [hEnd, ihInner, List.dropLast_concat, ih]

theorem stack_eq (h : Course docs root stack turns) (hStack : stack = base ++ opened)
    {before after : List Turn} {turn : Turn} (hCut : turns = before ++ turn :: after) :
    turn.stack = base ++ expandingAfter opened (before ++ [turn]) := by
  induction h generalizing opened before after with
  | done => simp at hCut
  | refused _ _ ih =>
    cases before with
    | nil =>
      obtain ⟨rfl, -⟩ := List.cons.inj hCut
      exact hStack
    | cons first before =>
      obtain ⟨rfl, hRest⟩ := List.cons.inj hCut
      have hLater := ih hStack hRest
      exact hLater
  | @expanded root stack name d inner turns _ _ _ hInner _ ihInner ih =>
    have hPushed : stack ++ [name] = base ++ (opened ++ [name]) := by
      rw [hStack, List.append_assoc]
    -- When the document is left, what was opened before is open again.
    have hLeft (later : List Turn) : expandingAfter opened (.reached name stack ::
        .entered name (stack ++ [name]) :: (inner ++ .left name stack :: later)) =
        expandingAfter opened later := by
      have hSplit : expandingAfter opened (.reached name stack ::
          .entered name (stack ++ [name]) :: (inner ++ .left name stack :: later)) =
          expandingAfter (expandingAfter (opened ++ [name]) inner).dropLast later :=
        expandingAfter_append (opened ++ [name]) inner (.left name stack :: later)
      rw [hSplit, hInner.expandingAfter_eq, List.dropLast_concat]
    rcases cut_expanded hCut with ⟨rfl, rfl⟩ | ⟨rfl, rfl, -⟩ | ⟨front, post, rfl, hInnerCut, -⟩ |
      ⟨rfl, rfl⟩ | ⟨front, rfl, hRestCut⟩
    · exact hStack
    · exact hPushed
    · exact ihInner hPushed hInnerCut
    · rw [List.cons_append, List.cons_append, hLeft []]
      exact hStack
    · rw [List.cons_append, List.cons_append, List.append_assoc, List.cons_append, hLeft]
      exact ih hStack hRestCut

private theorem restored (h : Course docs root stack turns) {before after : List Turn}
    {name : String}
    {pushed : List String} (hCut : turns = before ++ .entered name pushed :: after) :
    ∃ front old inner rest, before = front ++ [.reached name old] ∧ pushed = old ++ [name] ∧
      after = inner ++ .left name old :: rest ∧ ∀ turn ∈ inner, pushed <+: turn.stack := by
  induction h generalizing before after with
  | done => simp at hCut
  | refused _ _ ih =>
    obtain ⟨front, rfl, hRestCut⟩ := cut_cons hCut (by simp)
    obtain ⟨front', old, inner, rest, rfl, hRest⟩ := ih hRestCut
    exact ⟨_ :: front', old, inner, rest, rfl, hRest⟩
  | @expanded root stack name' d inner turns _ _ _ hInner _ ihInner ih =>
    rcases cut_expanded hCut with ⟨-, hTurn⟩ | ⟨rfl, hTurn, rfl⟩ |
      ⟨front, post, rfl, hInnerCut, rfl⟩ | ⟨-, hTurn⟩ | ⟨front, rfl, hRestCut⟩
    · cases hTurn
    · cases hTurn
      exact ⟨[], stack, inner, turns, rfl, rfl, rfl, hInner.stack_prefix⟩
    · obtain ⟨front', old, inner', rest, rfl, hStack, rfl, hGrows⟩ := ihInner hInnerCut
      refine ⟨_ :: _ :: front', old, inner', rest ++ .left name' stack :: turns, rfl, hStack, ?_,
        hGrows⟩
      rw [List.append_assoc, List.cons_append]
    · cases hTurn
    · obtain ⟨front', old, inner', rest, rfl, hRest⟩ := ih hRestCut
      refine ⟨.reached name' stack :: .entered name' (stack ++ [name']) ::
        (inner ++ .left name' stack :: front'), old, inner', rest, ?_, hRest⟩
      rw [List.cons_append, List.cons_append, List.append_assoc, List.cons_append]

theorem keepsStack (h : Course docs root base turns) (hBase : base.Nodup) :
    KeepsStack base turns where
  nodup := h.stack_nodup hBase
  expanding _ _ _ hCut := h.stack_eq (List.append_nil base).symm hCut
  restored _ _ _ _ hCut := h.restored hCut

/-! ## What is on the stack -/

/-- Every name on the stack was there before, or is included by the root element or by one of the
documents. -/
theorem mem_stack {names : List String} (h : Course docs root stack turns)
    (hRoot : ∀ n ∈ root.included, n ∈ names)
    (hDocs : ∀ name d, docs name = some d → ∀ n ∈ d.root.included, n ∈ names) :
    ∀ turn ∈ turns, ∀ n ∈ turn.stack, n ∈ stack ∨ n ∈ names := by
  induction h with
  | done => simp
  | refused _ _ ih =>
    intro turn hTurn n hn
    rcases List.mem_cons.1 hTurn with rfl | hTurn
    · exact .inl hn
    · exact ih hRoot turn hTurn n hn
  | @expanded root stack name d inner turns hName _ hFound _ _ ihInner ih =>
    have hPushed (n : String) (hn : n ∈ stack ++ [name]) : n ∈ stack ∨ n ∈ names := by
      rcases List.mem_append.1 hn with hn | hn
      · exact .inl hn
      · exact .inr (List.mem_singleton.1 hn ▸ hRoot name hName)
    intro turn hTurn n hn
    simp only [List.mem_cons, List.mem_append] at hTurn
    rcases hTurn with rfl | rfl | hTurn | rfl | hTurn
    · exact .inl hn
    · exact hPushed n hn
    · rcases ihInner (hDocs name d hFound) turn hTurn n hn with hn | hn
      · exact hPushed n hn
      · exact .inr hn
    · exact .inl hn
    · exact ih hRoot turn hTurn n hn

/-- Includes are not nested deeper than there are names to be included. -/
theorem expanding_length_le {names : List String} (h : Course docs root base turns)
    (hBase : base.Nodup) (hRoot : ∀ n ∈ root.included, n ∈ names)
    (hDocs : ∀ name d, docs name = some d → ∀ n ∈ d.root.included, n ∈ names)
    {before after : List Turn} (hCut : turns = before ++ after) :
    (expandingAfter [] before).length ≤ names.length := by
  rcases List.eq_nil_or_concat before with rfl | ⟨front, turn, rfl⟩
  · exact Nat.zero_le _
  · rw [List.concat_eq_append] at hCut ⊢
    rw [List.append_assoc] at hCut
    have hTurn : turn ∈ turns := hCut ▸ by simp
    have hStack := h.stack_eq (List.append_nil base).symm hCut
    have hNodup := h.stack_nodup hBase turn hTurn
    rw [hStack] at hNodup
    obtain ⟨-, hExpanding, hApart⟩ := List.nodup_append.1 hNodup
    refine hExpanding.length_le_of_subset fun n hn => ?_
    have hMem : n ∈ turn.stack := hStack ▸ List.mem_append_right base hn
    rcases h.mem_stack hRoot hDocs turn hTurn n hMem with hOld | hNew
    · exact absurd rfl (hApart n hOld n hn)
    · exact hNew

/-- Where the name of an include is on the stack, the document with this name is included through
itself. -/
theorem nests (h : Course docs root stack turns)
    (hStack : ∀ n ∈ stack, ∀ m ∈ root.included, Relation.TransGen (Includes docs) n m)
    {name : String} {old : List String} (hReached : .reached name old ∈ turns)
    (hOld : name ∈ old) : Relation.TransGen (Includes docs) name name := by
  induction h with
  | done => simp at hReached
  | refused hName _ ih =>
    rcases List.mem_cons.1 hReached with hTurn | hReached
    · cases hTurn
      exact hStack name hOld name hName
    · exact ih hStack hReached
  | @expanded root stack name' d inner turns hName hFresh hFound _ _ ihInner ih =>
    simp only [List.mem_cons, List.mem_append, reduceCtorEq, false_or] at hReached
    rcases hReached with hTurn | hReached | hReached
    · cases hTurn
      exact absurd hOld hFresh
    · refine ihInner (fun n hn m hm => ?_) hReached
      have hStep : Includes docs name' m := ⟨d, hFound, hm⟩
      rcases List.mem_append.1 hn with hn | hn
      · exact .tail (hStack n hn name' hName) hStep
      · exact List.mem_singleton.1 hn ▸ .single hStep
    · exact ih hStack hReached

end Course
end ViewMarkup
