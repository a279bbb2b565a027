import ViewMarkup.Proofs.Component.Loading

/-!
# Looking names up

A look-up that succeeds settles its name: the registry that answers either has a component under
it, or has nothing left to load for its namespace. What other look-ups load later cannot change
that. They only add components under names of namespaces that are still to be loaded, and only to
the registry that maps them, which answers for all these names already. So no name gets a nearer
registry to answer for it, and a settled name gets no component.

## Main results

* `Library.answers_of_resolve` — where the answer of a look-up comes from.
* `Registries.Settled.later` — a settled name stays settled, with the same component or none.
* `Library.resolve_settles` — a look-up, a later look-up and a later glance agree.
-/

namespace ViewMarkup

/-- How a look-up that succeeds has come by its answer: no registry of the chain answers, the
nearest one has a component, or it maps the namespace and has what it has after a load. -/
inductive Library.Answers (lib : Library) (id : RegistryId) (name : String) (rs : Registries) :
    Option Component → Registries → Prop where
  | nowhere (hNone : rs.answering? id name = none) : lib.Answers id name rs none rs
  | held (r : RegistryId) (c : Component) (hNearest : rs.answering? id name = some r)
      (hHeld : (rs.get r).types.get? name = some c) : lib.Answers id name rs (some c) rs
  | loaded (r : RegistryId) (space : String) (rs' : Registries)
      (hNearest : rs.answering? id name = some r) (hFree : (rs.get r).types.get? name = none)
      (hSpace : namespaceOf? name = some space)
      (hMaps : (rs.get r).namespaces.has space = true)
      (hLoad : (lib.load r space).run rs = (.ok (), rs')) :
      lib.Answers id name rs ((rs'.get r).types.get? name) rs'

theorem Library.answers_of_resolve {lib : Library} {id : RegistryId} {name : String}
    {rs rs' : Registries} {c? : Option Component}
    (h : (lib.resolve id name).run rs = (.ok c?, rs')) : lib.Answers id name rs c? rs' := by
  rw [run_eq] at h
  cases rs.stands id name with
  | nowhere hNone =>
    rw [run_resolve_of_nowhere hNone] at h
    cases h
    exact .nowhere hNone
  | held r c hNearest hHeld =>
    rw [run_resolve_of_held hNearest hHeld] at h
    cases h
    exact .held r c hNearest hHeld
  | mapped r space hNearest hFree hSpace hMaps =>
    rw [run_resolve_of_mapped hNearest hFree hSpace] at h
    cases hRun : lib.load r space rs with
    | mk answer t =>
      rw [hRun] at h
      cases answer with
      | error e => cases h
      | ok u =>
        cases h
        exact .loaded r space _ hNearest hFree hSpace hMaps hRun

namespace Registries

variable {rs rs' : Registries} {id on : RegistryId} {name space : String} {c? : Option Component}
  {added : Table String Component}

/-- What can become of the registries while nobody registers anything: names are looked up, with
whatever modules and whatever comes of it, and new registries are laid over others. -/
inductive Later (rs : Registries) : Registries → Prop where
  | refl : rs.Later rs
  | resolve (lib : Library) (id : RegistryId) (name : String) (rs' : Registries)
      (h : rs.Later rs') : rs.Later ((lib.resolve id name).run rs').2
  | addOver (parent : Option RegistryId) (rs' : Registries) (h : rs.Later rs') :
      rs.Later (rs'.addOver parent).2

/-- A name for which a registry has its answer for good: there is nothing more to load for it. -/
structure Settled (rs : Registries) (id : RegistryId) (name : String) (c? : Option Component) :
    Prop where
  present : id < rs.all.size
  peek : rs.peek id name = c?
  idle : ∀ r space, rs.answering? id name = some r → (rs.get r).types.get? name = none →
    namespaceOf? name = some space → (rs.get r).pending? space = none

namespace Settled

/-- A settled name is looked up without a look at the modules. -/
theorem run_resolve (h : rs.Settled id name c?) (lib : Library) :
    (lib.resolve id name).run rs = (.ok c?, rs) := by
  have hPeek := h.peek
  rw [peek_eq] at hPeek
  rw [run_eq]
  cases rs.stands id name with
  | nowhere hNone =>
    rw [hNone] at hPeek
    rw [Library.run_resolve_of_nowhere hNone, ← hPeek]
    rfl
  | held r c hNearest hHeld =>
    rw [hNearest, Option.bind_some, hHeld] at hPeek
    rw [Library.run_resolve_of_held hNearest hHeld, hPeek]
  | mapped r space hNearest hFree hSpace hMaps =>
    rw [hNearest, Option.bind_some, hFree] at hPeek
    have hLoad : lib.load r space rs = (.ok (), rs) := by
      simp only [Library.run_load, h.idle r space hNearest hFree hSpace]
    rw [Library.run_resolve_of_mapped hNearest hFree hSpace, hLoad, ← hPeek]
    simp only [hFree]

/-- A change after which all registries have the same components and namespaces, and nothing more to
load. -/
theorem of_same (h : rs.Settled id name c?) (hSize : rs.all.size ≤ rs'.all.size)
    (hBelow : (rs'.get id).below = (rs.get id).below)
    (hTypes : ∀ r, (rs'.get r).types = (rs.get r).types)
    (hSpaces : ∀ r, (rs'.get r).namespaces = (rs.get r).namespaces)
    (hIdle : ∀ r space, (rs.get r).pending? space = none → (rs'.get r).pending? space = none) :
    rs'.Settled id name c? := by
  have hNearest : rs'.answering? id name = rs.answering? id name :=
    answering?_congr hBelow hTypes hSpaces
  refine ⟨Nat.lt_of_lt_of_le h.present hSize, ?_, ?_⟩
  · rw [← h.peek, peek_eq, peek_eq, hNearest]
    simp only [hTypes]
  · intro r space hr hFree hSpace
    rw [hNearest] at hr
    rw [hTypes] at hFree
    exact hIdle r space (h.idle r space hr hFree hSpace)

private theorem addOver (h : rs.Settled id name c?) (parent : Option RegistryId) :
    (rs.addOver parent).2.Settled id name c? := by
  -- The new registry has nothing yet, like a number under which there is no registry.
  have hSame (r : RegistryId) :
      ∃ below, (rs.addOver parent).2.get r = { rs.get r with below } := by
    rcases get_addOver_cases rs parent r with hOld | ⟨rfl, hNew⟩
    · exact ⟨_, hOld⟩
    · rw [hNew, get_of_size_le (Nat.le_refl _)]
      exact ⟨_, rfl⟩
  refine h.of_same ?_ (by rw [get_addOver_of_lt parent h.present]) ?_ ?_ ?_
  · rw [size_addOver]
    exact Nat.le_succ _
  · intro r
    obtain ⟨below, hr⟩ := hSame r
    rw [hr]
  · intro r
    obtain ⟨below, hr⟩ := hSame r
    rw [hr]
  · intro r space hIdle
    obtain ⟨below, hr⟩ := hSame r
    rw [hr]
    exact hIdle

private theorem mark (h : rs.Settled id name c?) (on : RegistryId) (space : String) :
    (rs.update on (Registry.mark space)).Settled id name c? := by
  refine h.of_same (by simp [update]) (map_get_mark rs on space id Registry.below fun _ => rfl)
    (fun r => map_get_mark rs on space r Registry.types fun _ => rfl)
    (fun r => map_get_mark rs on space r Registry.namespaces fun _ => rfl) ?_
  intro r space' hIdle
  rcases get_mark rs on space r with hr | hr
  · rwa [hr]
  · rw [hr]
    exact Registry.pending?_mark space hIdle

/-- More components in a namespace that was still to be loaded. -/
theorem extend (h : rs.Settled id name c?) (hMaps : (rs.get on).namespaces.has space = true)
    (hPending : (rs.get on).pending? space ≠ none)
    (hIn : ∀ e ∈ added, namespaceOf? e.1 = some space) :
    (rs.extend on added).Settled id name c? := by
  have hSize : on < rs.all.size := lt_size_of_has hMaps
  have hNearest := answering?_extend hMaps hIn id name
  have hTypes (r : RegistryId) (hr : rs.answering? id name = some r) :
      ((rs.extend on added).get r).types.get? name = (rs.get r).types.get? name := by
    by_cases hOn : r = on
    · subst hOn
      rw [get_extend_self hSize, Table.get?_append]
      cases hHeld : (rs.get r).types.get? name with
      | some c => rfl
      | none =>
        rw [Option.none_or]
        cases hAdded : Table.get? added name with
        | none => rfl
        | some c =>
          -- The name would have to be in a namespace that is still to be loaded.
          have hSpace : namespaceOf? name = some space := hIn _ (Table.mem_of_get? hAdded)
          exact absurd (h.idle r space hr hHeld hSpace) hPending
    · rw [Registries.extend, get_update_ne _ hOn]
  refine ⟨by rw [size_extend]; exact h.present, ?_, ?_⟩
  · rw [← h.peek, peek_eq, peek_eq, hNearest]
    cases hr : rs.answering? id name with
    | none => rfl
    | some r => exact hTypes r hr
  · intro r space' hr hFree hSpace'
    rw [hNearest] at hr
    rw [hTypes r hr] at hFree
    have hIdle := h.idle r space' hr hFree hSpace'
    by_cases hOn : r = on
    · subst hOn
      rw [get_extend_self hSize]
      exact hIdle
    · rwa [Registries.extend, get_update_ne _ hOn]

/-- Another look-up leaves a settled name alone, whether it succeeds or not. -/
theorem resolve (h : rs.Settled id name c?) (lib : Library) (id' : RegistryId) (name' : String) :
    ((lib.resolve id' name').run rs).2.Settled id name c? := by
  rw [run_eq]
  cases rs.stands id' name' with
  | nowhere hNone =>
    rw [Library.run_resolve_of_nowhere hNone]
    exact h
  | held r c hNearest hHeld =>
    rw [Library.run_resolve_of_held hNearest hHeld]
    exact h
  | mapped r space hNearest hFree hSpace hMaps =>
    have hLoads := lib.loads space (lt_size_of_has hMaps)
    have hEnd : (lib.resolve id' name' rs).2 = (lib.load r space rs).2 := by
      rw [Library.run_resolve_of_mapped hNearest hFree hSpace]
      cases lib.load r space rs with
      | mk answer t => cases answer <;> rfl
    have hExtended (hPending : (rs.get r).pending? space ≠ none) :
        (rs.extend r (lib.gain (rs.get r) space)).Settled id name c? :=
      h.extend hMaps hPending fun _ => Library.mapped_of_mem_gain hSpace
    rw [hEnd]
    generalize lib.load r space rs = run at hLoads
    obtain ⟨answer, t⟩ := run
    cases hLoads with
    | idle hIdle => exact h
    | done hPending => exact (hExtended hPending).mark r space
    | failed e hPending hAgain => exact hExtended hPending

theorem later (h : rs.Settled id name c?) (hLater : rs.Later rs') :
    rs'.Settled id name c? := by
  induction hLater with
  | refl => exact h
  | resolve lib id' name' rs' _ ih => exact ih.resolve lib id' name'
  | addOver parent rs' _ ih => exact ih.addOver parent

end Settled
end Registries

namespace Library

variable {lib : Library} {id : RegistryId} {name : String} {rs rs' : Registries}
  {c? : Option Component}

private theorem Answers.settled (hPresent : id < rs.all.size) (h : lib.Answers id name rs c? rs') :
    rs'.Settled id name c? := by
  cases h with
  | nowhere hNone =>
    refine ⟨hPresent, by rw [Registries.peek_eq, hNone]; rfl, ?_⟩
    intro r space hr
    rw [hNone] at hr
    cases hr
  | held r c hNearest hHeld =>
    refine ⟨hPresent, by rw [Registries.peek_eq, hNearest]; exact hHeld, ?_⟩
    intro r' space hr hFree
    rw [hNearest] at hr
    cases hr
    rw [hHeld] at hFree
    cases hFree
  | loaded r space rs' hNearest hFree hSpace hMaps hLoad =>
    have hSize : r < rs.all.size := Registries.lt_size_of_has hMaps
    -- Either way the same registry answers afterwards, and has nothing to load.
    have hEnd : id < rs'.all.size ∧ rs'.answering? id name = some r ∧
        (rs'.get r).pending? space = none := by
      rcases load_succeeded hSize hLoad with ⟨hIdle, rfl⟩ | rfl
      · exact ⟨hPresent, hNearest, hIdle⟩
      · have hStill : (rs.extend r (lib.gain (rs.get r) space)).answering? id name = some r := by
          rw [Registries.answering?_extend hMaps fun _ => mapped_of_mem_gain hSpace, hNearest]
        refine ⟨?_, ?_, ?_⟩
        · simpa [Registries.update, Registries.extend] using hPresent
        · rw [Registries.answering?_mark, hStill]
        · rw [Registries.get_update_self _ (by rwa [Registries.size_extend])]
          exact Registry.pending?_mark_self _ space
    obtain ⟨hPresent', hNearest', hIdle⟩ := hEnd
    refine ⟨hPresent', by rw [Registries.peek_eq, hNearest']; rfl, ?_⟩
    intro r' space' hr _ hSpace'
    rw [hNearest'] at hr
    rw [hSpace] at hSpace'
    cases hr
    cases hSpace'
    exact hIdle

/-- A look-up that succeeds gives what the nearest registry that answers for the name has, after a
load where there is none yet and the namespace is mapped. From then on the name stands for the same
component, or for none: a glance says so, and so does every look-up, with any modules at all and
without a change of the registries. -/
theorem resolve_settles (hPresent : id < rs.all.size)
    (h : (lib.resolve id name).run rs = (.ok c?, rs')) :
    lib.Answers id name rs c? rs' ∧
      ∀ rs'', rs'.Later rs'' →
        rs''.peek id name = c? ∧
          ∀ lib' : Library, (lib'.resolve id name).run rs'' = (.ok c?, rs'') := by
  have hAnswers := answers_of_resolve h
  refine ⟨hAnswers, fun rs'' hLater => ?_⟩
  have hSettled := (hAnswers.settled hPresent).later hLater
  exact ⟨hSettled.peek, hSettled.run_resolve⟩

/-- A component of the module `badges` is looked up through a registry that lies over the one with
the namespace, and stays the answer when a third registry is laid over both. -/
theorem resolve_settles_badges : ∃ c rs',
    (Sample.library.resolve 1 "b:Badge").run Sample.registries = (.ok (some c), rs') ∧
      rs'.peek 1 "b:Badge" = some c ∧
      ∀ lib : Library, (lib.resolve 1 "b:Badge").run (rs'.addOver (some 1)).2 =
        (.ok (some c), (rs'.addOver (some 1)).2) := by
  have hFound : ((Sample.library.resolve 1 "b:Badge").run Sample.registries).1.toOption =
      some (some { name := "b:Badge", cls := 0, style := none, capabilities := {} }) := by
    decide +kernel
  cases h : (Sample.library.resolve 1 "b:Badge").run Sample.registries with
  | mk answer rs' =>
    rw [h] at hFound
    have hOk := eq_ok_of_toOption_eq_some hFound
    dsimp only at hOk
    subst hOk
    have hSettles := (resolve_settles (by decide) h).2
    exact ⟨_, rs', rfl, (hSettles rs' .refl).1, (hSettles _ (.addOver (some 1) rs' .refl)).2⟩

end Library
end ViewMarkup
