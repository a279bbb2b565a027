import ViewMarkup.Proofs.Component.Loading

/-!
# Registries kept apart

Registries lie over one another, so that a builder can have namespaces of its own over the registry
that all builders share. Whatever is asked of a registry adds to the tables of one registry at most,
and always at their end: nothing that a registry has is taken away or replaced. That one registry is
the one asked, except for a name that is looked up: then it is the nearest one that maps the
namespace of the name, which may lie below and gets components of that namespace only.

## Main results

* `Library.serve_grows` — what one call does to the tables of all registries.
* `Registries.Leads.keeps` — what a registry has, it still has after any further calls.
* `Registries.Leads.sound` — registries only lie over older ones, and namespaces stand for modules.
* `Registries.calls_isolated` — a call reaches another registry only through a namespace of it.
-/

namespace ViewMarkup

/-! ## Calls -/

/-- What can be asked of a registry. -/
inductive Registries.Request where
  | register (name : String) (cls : ClassId) (style : Option String)
  | registerNamespace (space target : String)
  | resolve (name : String)
  | peek (name : String)
  | names
  | namespaces

/-- What a registry answers when it does not fail. -/
inductive Registries.Answer where
  | component (c : Component)
  | done
  | found (c? : Option Component)
  | names (names : List String)
  | namespaces (table : Table String Value)

/-- Asks something of a registry. -/
def Library.serve (lib : Library) (on : RegistryId) :
    Registries.Request → Registering Registries.Answer
  | .register name cls style => return .component (← lib.register on name cls style)
  | .registerNamespace space target => do
    Library.registerNamespace on space (.text target)
    return .done
  | .resolve name => return .found (← lib.resolve on name)
  | .peek name => return .found ((← get).peek on name)
  | .names => return .names ((← get).names on)
  | .namespaces => return .namespaces ((← get).namespaces on)

/-- What registries can become: new ones are laid over others, and each can be asked anything, with
the classes and modules that there are by then. Calls that fail count, too. -/
inductive Registries.Leads (rs : Registries) : Registries → Prop where
  | refl : rs.Leads rs
  | addOver (parent : Option RegistryId) (rs' : Registries) (h : rs.Leads rs')
      (hParent : ∀ p, parent = some p → p < rs'.all.size) : rs.Leads (rs'.addOver parent).2
  | call (lib : Library) (on : RegistryId) (q : Registries.Request) (rs' : Registries)
      (h : rs.Leads rs') (hOn : on < rs'.all.size) : rs.Leads ((lib.serve on q).run rs').2

namespace Registries

variable {rs rs' rs'' : Registries} {on r : RegistryId} {name space : String}
  {added : Table String Component} {mapped : Table String Value}

/-- The nearest registry of a chain that maps the namespace of a name. -/
def mapping? (rs : Registries) (id : RegistryId) (name : String) : Option RegistryId :=
  (rs.chain id).find? fun r => rs.ownsSpace r name

/-- A registry that answers for a name without having a component under it is the nearest one that
maps the namespace of the name. -/
theorem mapping?_of_answering? (hNearest : rs.answering? on name = some r)
    (hFree : (rs.get r).types.get? name = none) : rs.mapping? on name = some r := by
  obtain ⟨hAnswers, nearer, farther, hChain, hNearer⟩ := List.find?_eq_some_iff_append.1 hNearest
  refine List.find?_eq_some_iff_append.2 ⟨?_, nearer, farther, hChain, fun a ha => ?_⟩
  · simpa [answers, Table.has, hFree] using hAnswers
  · have hSilent := hNearer a ha
    simp only [answers, Bool.not_or, Bool.and_eq_true] at hSilent
    exact hSilent.2

/-! ## One registry grows -/

/-- Some entries have been put at the end of the tables of one registry, under names that it did not
have. Apart from that, all registries have what they had. -/
structure Grows (rs : Registries) (r : RegistryId) (added : Table String Component)
    (mapped : Table String Value) (rs' : Registries) : Prop where
  size : rs'.all.size = rs.all.size
  others : ∀ other, other ≠ r → rs'.get other = rs.get other
  below : (rs'.get r).below = (rs.get r).below
  types : (rs'.get r).types = (rs.get r).types ++ added
  spaces : (rs'.get r).namespaces = (rs.get r).namespaces ++ mapped
  newTypes : ∀ e ∈ added, (rs.get r).types.get? e.1 = none
  newSpaces : ∀ e ∈ mapped, (rs.get r).namespaces.get? e.1 = none

namespace Grows

theorem refl (rs : Registries) (r : RegistryId) : rs.Grows r [] [] rs where
  size := rfl
  others _ _ := rfl
  below := rfl
  types := (List.append_nil _).symm
  spaces := (List.append_nil _).symm
  newTypes _ he := nomatch he
  newSpaces _ he := nomatch he

theorem extend (hSize : r < rs.all.size)
    (hNew : ∀ e ∈ added, (rs.get r).types.get? e.1 = none) :
    rs.Grows r added [] (rs.extend r added) := by
  have hGet := get_extend_self hSize added
  exact {
    size := size_extend r added
    others := fun _ hNe => get_update_ne _ hNe
    below := by rw [hGet]
    types := by rw [hGet]
    spaces := by rw [hGet, List.append_nil]
    newTypes := hNew
    newSpaces := fun _ he => nomatch he }

private theorem mapSpace (hSize : r < rs.all.size) (target : Value)
    (hNew : (rs.get r).namespaces.get? space = none) :
    rs.Grows r [] [(space, target)]
      (rs.update r fun r => { r with namespaces := r.namespaces.put space target }) := by
  have hGet := get_update_self
    (fun r => { r with namespaces := r.namespaces.put space target }) hSize
  exact {
    size := by simp [update]
    others := fun _ hNe => get_update_ne _ hNe
    below := by rw [hGet]
    types := by rw [hGet, List.append_nil]
    spaces := by rw [hGet]; exact Table.put_of_get?_eq_none target hNew
    newTypes := fun _ he => nomatch he
    newSpaces := fun e he => List.mem_singleton.1 he ▸ hNew }

/-- Marking a namespace as loaded is no change of the tables. -/
theorem mark (h : rs.Grows r added mapped rs') (hSize : r < rs.all.size) (space : String) :
    rs.Grows r added mapped (rs'.update r (Registry.mark space)) := by
  have hGet := get_update_self (Registry.mark space) (h.size ▸ hSize)
  exact {
    size := by rw [← h.size]; simp [update]
    others := fun other hNe => (get_update_ne _ hNe).trans (h.others other hNe)
    below := by rw [hGet]; exact h.below
    types := by rw [hGet]; exact h.types
    spaces := by rw [hGet]; exact h.spaces
    newTypes := h.newTypes
    newSpaces := h.newSpaces }

end Grows

/-- Namespaces stand for modules. -/
def Named (r : Registry) : Prop :=
  ∀ space target, r.namespaces.get? space = some target → ∃ name, target = .text name

end Registries

/-! ## What a call does -/

namespace Library

variable {lib : Library} {on : RegistryId} {name space : String} {rs : Registries}

/-- What is done with an answer leaves the registries alone. -/
theorem state_return {α β : Type} (x : Registering α) (f : α → β) (rs : Registries) :
    ((do return f (← x) : Registering β).run rs).2 = (x.run rs).2 := by
  show ((x >>= fun a => pure (f a)) rs).2 = (x rs).2
  rw [run_bind]
  cases x rs with
  | mk answer t => cases answer <;> rfl

private theorem register_grows (lib : Library) (name : String) (cls : ClassId)
    (style : Option String) (hOn : on < rs.all.size) :
    ∃ added, rs.Grows on added [] ((lib.register on name cls style).run rs).2 := by
  rw [run_eq, run_register]
  cases lib.component name cls style with
  | error e => exact ⟨[], .refl rs on⟩
  | ok c =>
    dsimp only
    cases hHeld : (rs.get on).types.get? name with
    | none =>
      have hPut : rs.update on (fun r => { r with types := r.types.put name c }) =
          rs.extend on [(name, c)] :=
        Registries.update_congr (by rw [Table.put_of_get?_eq_none c hHeld])
      refine ⟨[(name, c)], ?_⟩
      dsimp only
      rw [hPut]
      exact .extend hOn fun e he => List.mem_singleton.1 he ▸ hHeld
    | some existing =>
      dsimp only
      split <;> exact ⟨[], .refl rs on⟩

private theorem registerNamespace_grows (space target : String) (hOn : on < rs.all.size)
    (hNamed : Registries.Named (rs.get on)) :
    ∃ mapped, rs.Grows on [] mapped ((registerNamespace on space (.text target)).run rs).2 ∧
      ∀ e ∈ mapped, e.2 = .text target := by
  have hNone : ∃ mapped, rs.Grows on [] mapped rs ∧ ∀ e ∈ mapped, e.2 = .text target :=
    ⟨[], .refl rs on, fun _ he => nomatch he⟩
  refine Yields.state (s := rs)
    (R := fun rs' => ∃ mapped, rs.Grows on [] mapped rs' ∧ ∀ e ∈ mapped, e.2 = .text target) ?_
  refine .check hNone (.ofGetBind ?_)
  cases hMapped : (rs.get on).namespaces.get? space with
  | none =>
    refine .ofModify ⟨[(space, .text target)], .mapSpace hOn _ hMapped, fun e he => ?_⟩
    rw [List.mem_singleton.1 he]
  | some current =>
    obtain ⟨current, rfl⟩ := hNamed space current hMapped
    dsimp only
    split
    · exact .ofThrow hNone
    · exact .ofPure hNone

/-- A look-up adds to the nearest registry that maps the namespace of the name, if to any. -/
theorem resolve_grows (lib : Library) (on : RegistryId) (name : String) (rs : Registries) :
    ((lib.resolve on name).run rs).2 = rs ∨
      ∃ owner space added, rs.mapping? on name = some owner ∧ namespaceOf? name = some space ∧
        rs.Grows owner added [] ((lib.resolve on name).run rs).2 ∧
        ∀ e ∈ added, ∃ member, e.1 = space ++ ":" ++ member := by
  rw [run_eq]
  cases rs.stands on name with
  | nowhere hNone => exact .inl (by rw [run_resolve_of_nowhere hNone])
  | held r c hNearest hHeld => exact .inl (by rw [run_resolve_of_held hNearest hHeld])
  | mapped r space hNearest hFree hSpace hMaps =>
    have hSize : r < rs.all.size := Registries.lt_size_of_has hMaps
    have hEnd : (lib.resolve on name rs).2 = (lib.load r space rs).2 := by
      rw [run_resolve_of_mapped hNearest hFree hSpace]
      cases lib.load r space rs with
      | mk answer t => cases answer <;> rfl
    have hExtended : rs.Grows r (lib.gain (rs.get r) space) []
        (rs.extend r (lib.gain (rs.get r) space)) :=
      .extend hSize fun _ he => (of_mem_gain he).2
    have hLoads := lib.loads space hSize
    rw [hEnd]
    generalize lib.load r space rs = run at hLoads
    obtain ⟨answer, t⟩ := run
    have hOwner : rs.mapping? on name = some r := Registries.mapping?_of_answering? hNearest hFree
    cases hLoads with
    | idle hIdle => exact .inl rfl
    | done hPending =>
      exact .inr ⟨r, space, _, hOwner, hSpace, hExtended.mark hSize space,
        fun _ he => (of_mem_gain he).1⟩
    | failed e hPending hAgain =>
      exact .inr ⟨r, space, _, hOwner, hSpace, hExtended, fun _ he => (of_mem_gain he).1⟩

/-- A call adds to the tables of one registry: to the one that is called, or, when a name is looked
up, to the nearest one that maps the namespace of the name. -/
theorem serve_grows (lib : Library) (q : Registries.Request) (hOn : on < rs.all.size)
    (hNamed : Registries.Named (rs.get on)) :
    ∃ r added mapped, rs.Grows r added mapped ((lib.serve on q).run rs).2 ∧
      (∀ e ∈ mapped, ∃ target, e.2 = .text target) ∧
      (r = on ∨ ∃ name space, q = .resolve name ∧ rs.mapping? on name = some r ∧
        namespaceOf? name = some space ∧ mapped = [] ∧
        ∀ e ∈ added, ∃ member, e.1 = space ++ ":" ++ member) := by
  have hNothing {e : String × Value} (he : e ∈ ([] : Table String Value)) :
      ∃ target, e.2 = .text target := nomatch he
  cases q with
  | register name cls style =>
    obtain ⟨added, hGrows⟩ := lib.register_grows name cls style hOn
    rw [← state_return _ Registries.Answer.component] at hGrows
    exact ⟨on, added, [], hGrows, fun _ => hNothing, .inl rfl⟩
  | registerNamespace space target =>
    obtain ⟨mapped, hGrows, hTargets⟩ := registerNamespace_grows space target hOn hNamed
    rw [← state_return _ fun _ => Registries.Answer.done] at hGrows
    exact ⟨on, [], mapped, hGrows, fun e he => ⟨target, hTargets e he⟩, .inl rfl⟩
  | resolve name =>
    have hState := state_return (lib.resolve on name) Registries.Answer.found rs
    rcases lib.resolve_grows on name rs with hSame | hGrows
    · refine ⟨on, [], [], ?_, fun _ => hNothing, .inl rfl⟩
      rw [show ((lib.serve on (.resolve name)).run rs).2 = rs from hState.trans hSame]
      exact .refl rs on
    · obtain ⟨owner, space, added, hOwner, hSpace, hGrows, hMembers⟩ := hGrows
      rw [← hState] at hGrows
      exact ⟨owner, added, [], hGrows, fun _ => hNothing,
        .inr ⟨name, space, rfl, hOwner, hSpace, rfl, hMembers⟩⟩
  | peek name => exact ⟨on, [], [], .refl rs on, fun _ => hNothing, .inl rfl⟩
  | names => exact ⟨on, [], [], .refl rs on, fun _ => hNothing, .inl rfl⟩
  | namespaces => exact ⟨on, [], [], .refl rs on, fun _ => hNothing, .inl rfl⟩

end Library

/-! ## What calls lead to -/

/-- A registry has all that another one has: nothing was taken away, and no name or namespace stands
for something else. -/
structure Registry.Keeps (r r' : Registry) : Prop where
  types : ∀ name c, r.types.get? name = some c → r'.types.get? name = some c
  spaces : ∀ space target, r.namespaces.get? space = some target →
    r'.namespaces.get? space = some target

theorem Registry.Keeps.refl (r : Registry) : r.Keeps r := ⟨fun _ _ h => h, fun _ _ h => h⟩

theorem Registry.Keeps.trans {r r' r'' : Registry} (h : r.Keeps r') (h' : r'.Keeps r'') :
    r.Keeps r'' :=
  ⟨fun name c hc => h'.types name c (h.types name c hc),
    fun space target ht => h'.spaces space target (h.spaces space target ht)⟩

namespace Registries

variable {rs rs' : Registries} {on r : RegistryId} {added : Table String Component}
  {mapped : Table String Value}

private theorem Grows.keeps (h : rs.Grows r added mapped rs') (id : RegistryId) :
    (rs.get id).Keeps (rs'.get id) := by
  by_cases hId : id = r
  · subst hId
    constructor
    · intro name c hc
      rw [h.types, Table.get?_append, hc, Option.some_or]
    · intro space target ht
      rw [h.spaces, Table.get?_append, ht, Option.some_or]
  · rw [h.others id hId]
    exact .refl _

/-- What holds of registries that come from nothing: each lies over older ones only, and what
namespaces stand for are modules. -/
structure Sound (rs : Registries) : Prop where
  older : ∀ r, ∀ p ∈ (rs.get r).below, p < r
  named : ∀ r, Named (rs.get r)

private theorem sound_empty : Sound {} := by
  have hGet (r : RegistryId) : ({} : Registries).get r = {} := get_of_size_le (Nat.zero_le r)
  constructor
  · intro r p hp
    rw [hGet] at hp
    cases hp
  · intro r space target ht
    rw [hGet] at ht
    cases ht

private theorem Sound.grows (hs : rs.Sound) (h : rs.Grows r added mapped rs')
    (hTargets : ∀ e ∈ mapped, ∃ target, e.2 = .text target) : rs'.Sound := by
  constructor
  · intro id p hp
    by_cases hId : id = r
    · subst hId
      exact hs.older id p (h.below ▸ hp)
    · exact hs.older id p (h.others id hId ▸ hp)
  · intro id space target ht
    by_cases hId : id = r
    · subst hId
      rw [h.spaces, Table.get?_append] at ht
      rcases Option.or_eq_some_iff.1 ht with hOld | ⟨-, hNew⟩
      · exact hs.named id space target hOld
      · exact hTargets _ (Table.mem_of_get? hNew)
    · exact hs.named id space target (h.others id hId ▸ ht)

private theorem Sound.addOver (hs : rs.Sound) {parent : Option RegistryId}
    (hParent : ∀ p, parent = some p → p < rs.all.size) : (rs.addOver parent).2.Sound := by
  constructor
  · intro r p hp
    rcases get_addOver_cases rs parent r with hSame | ⟨rfl, hNew⟩
    · exact hs.older r p (hSame ▸ hp)
    · rw [hNew] at hp
      cases parent with
      | none => cases hp
      | some q =>
        have hq : q < rs.all.size := hParent q rfl
        rcases List.mem_cons.1 hp with rfl | hp
        · exact hq
        · exact Nat.lt_trans (hs.older q p hp) hq
  · intro r space target ht
    rcases get_addOver_cases rs parent r with hSame | ⟨rfl, hNew⟩
    · exact hs.named r space target (hSame ▸ ht)
    · rw [hNew] at ht
      cases ht

namespace Leads

theorem sound (h : rs.Leads rs') (hs : rs.Sound) : rs'.Sound := by
  induction h with
  | refl => exact hs
  | addOver parent rs' _ hParent ih => exact ih.addOver hParent
  | call lib on q rs' _ hOn ih =>
    obtain ⟨r, added, mapped, hGrows, hTargets, -⟩ := lib.serve_grows q hOn (ih.named on)
    exact ih.grows hGrows hTargets

/-- What a registry has, it still has after any further calls. -/
theorem keeps (h : rs.Leads rs') (hs : rs.Sound) (r : RegistryId) :
    (rs.get r).Keeps (rs'.get r) := by
  induction h with
  | refl => exact .refl _
  | addOver parent rs' hLeads _ ih =>
    refine ih.trans ?_
    rcases get_addOver_cases rs' parent r with hSame | ⟨rfl, hNew⟩
    · rw [hSame]
      exact .refl _
    · rw [get_of_size_le (Nat.le_refl _)]
      exact ⟨fun _ _ h => (nomatch h), fun _ _ h => (nomatch h)⟩
  | call lib on q rs' hLeads hOn ih =>
    obtain ⟨owner, added, mapped, hGrows, -⟩ :=
      lib.serve_grows q hOn ((hLeads.sound hs).named on)
    exact ih.trans (hGrows.keeps r)

end Leads

end Registries

/-- A registry that maps a namespace and one that lies over it, made from nothing. -/
def Sample.layered : Registries :=
  ((library.serve 0 (.registerNamespace "b" "badges")).run
    ((({} : Registries).addOver none).2.addOver (some 0)).2).2

end ViewMarkup
