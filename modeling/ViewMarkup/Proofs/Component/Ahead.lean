import Mathlib.Logic.Basic
import ViewMarkup.Proofs.Component.Resolution

/-!
# Looking names up ahead of time

A look-up loads a namespace when it meets a name of it for the first time. What it adds are
components under names of that namespace, so nothing changes for the names of other namespaces, and
the names of this one are answered afterwards as they would have been answered anyway. If all
namespaces of a chain can be loaded, it therefore makes no difference to the answers of the chain
which names have been looked up before.

## Main results

* `Library.load_alike` — a load depends on the names of its own namespace only.
* `Registries.answer_load`, `Registries.answer_resolve` — neither a load nor a look-up changes what
  a chain answers, unless it fails.
* `Registries.Loadable.resolve` — a look-up leaves a chain loadable, and its answers the same.
* `Registries.Loadable.akin_lookedUp` — so names may be looked up ahead of time.
* `Registries.Akin.resolve` — chains with the same answers are left with the same answers.
* `Library.knows_resolve` — no look-up changes which names are known, not even one that fails.
-/

namespace ViewMarkup

/-! ## Registries as far as a namespace goes -/

/-- Two registries that are the same as far as a namespace goes. -/
structure Registry.AlikeIn (space : String) (r r' : Registry) : Prop where
  pending : r'.pending? space = r.pending? space
  types {name : String} : namespaceOf? name = some space → r'.types.get? name = r.types.get? name

namespace Registry.AlikeIn

variable {space space' : String} {r r' r'' : Registry}

theorem refl (space : String) (r : Registry) : AlikeIn space r r := ⟨rfl, fun _ => rfl⟩

theorem trans (h : AlikeIn space r r') (h' : AlikeIn space r' r'') : AlikeIn space r r'' :=
  ⟨h'.pending.trans h.pending, fun hSpace => (h'.types hSpace).trans (h.types hSpace)⟩

/-- Components of another namespace do not count. -/
theorem ofExtended (hNe : space ≠ space') {added : Table String Component}
    (hIn : ∀ e ∈ added, namespaceOf? e.1 = some space') :
    AlikeIn space r { r with types := r.types ++ added } where
  pending := rfl
  types {name} hSpace := by
    have hNone : Table.get? added name = none := by
      cases hAdded : Table.get? added name with
      | none => rfl
      | some c =>
        have hOther := hIn _ (Table.mem_of_get? hAdded)
        exact absurd (Option.some.inj (hSpace.symm.trans hOther)) hNe
    rw [Table.get?_append, hNone, Option.or_none]

/-- Nor does it that another namespace is marked as loaded. -/
theorem ofMarked (hNe : space ≠ space') : AlikeIn space r (r.mark space') where
  pending := by simp [Registry.pending?, Registry.mark, hNe]
  types _ := rfl

end Registry.AlikeIn

namespace Library

variable {lib : Library} {on : RegistryId} {space : String} {rs rs' : Registries}

private theorem admitted_congr {types types' : Table String Component}
    (h : ∀ member, types'.get? (space ++ ":" ++ member) = types.get? (space ++ ":" ++ member))
    (entries : List (String × ClassId × Option String)) :
    lib.admitted space types' entries = lib.admitted space types entries := by
  induction entries generalizing types types' with
  | nil => rfl
  | cons entry rest ih =>
    obtain ⟨member, cls, style⟩ := entry
    rw [admitted, admitted]
    cases lib.component (space ++ ":" ++ member) cls style with
    | error e => rfl
    | ok c =>
      have hMore (other : String) :
          Table.get? (types' ++ [(space ++ ":" ++ member, c)]) (space ++ ":" ++ other) =
            Table.get? (types ++ [(space ++ ":" ++ member, c)]) (space ++ ":" ++ other) := by
        rw [Table.get?_append, Table.get?_append, h]
      simp only [h, ih h, ih hMore]

private theorem registerAll_answer (hSize : on < rs.all.size) (hSize' : on < rs'.all.size)
    (h : ∀ member, (rs'.get on).types.get? (space ++ ":" ++ member) =
      (rs.get on).types.get? (space ++ ":" ++ member))
    (entries : List (String × ClassId × Option String)) :
    (lib.registerAll on space entries rs').1 = (lib.registerAll on space entries rs).1 := by
  induction entries generalizing rs rs' with
  | nil => rfl
  | cons entry rest ih =>
    obtain ⟨member, cls, style⟩ := entry
    rw [run_registerAll_cons, run_registerAll_cons, h]
    cases lib.component (space ++ ":" ++ member) cls style with
    | error e => rfl
    | ok c =>
      dsimp only
      cases (rs.get on).types.get? (space ++ ":" ++ member) with
      | none =>
        refine ih (by rwa [Registries.size_extend]) (by rwa [Registries.size_extend])
          fun other => ?_
        rw [Registries.get_extend_self hSize, Registries.get_extend_self hSize',
          Table.get?_append, Table.get?_append, h]
      | some existing =>
        dsimp only
        split
        · exact ih hSize hSize' h
        · rfl

/-- A load depends on the registry only as far as the namespace goes. -/
theorem load_alike (lib : Library) {name : String} (hSpace : namespaceOf? name = some space)
    (hSize : on < rs.all.size) (hSize' : on < rs'.all.size)
    (h : Registry.AlikeIn space (rs.get on) (rs'.get on)) :
    (lib.load on space rs').1 = (lib.load on space rs).1 ∧
      lib.gain (rs'.get on) space = lib.gain (rs.get on) space := by
  have hTypes (member : String) : (rs'.get on).types.get? (space ++ ":" ++ member) =
      (rs.get on).types.get? (space ++ ":" ++ member) :=
    h.types (namespaceOf?_member hSpace member)
  have hAnswer (entries : List (String × ClassId × Option String)) :
      (lib.registerAll on space entries rs').1 = (lib.registerAll on space entries rs).1 :=
    registerAll_answer hSize hSize' hTypes entries
  rw [run_load, run_load, gain, gain, h.pending]
  cases (rs.get on).pending? space with
  | none => exact ⟨rfl, rfl⟩
  | some target =>
    cases target with
    | text target =>
      dsimp only
      cases lib.findModule space target with
      | error e => exact ⟨rfl, rfl⟩
      | ok m =>
        refine ⟨?_, admitted_congr hTypes _⟩
        have hEntries := hAnswer (lib.entries target m)
        dsimp only
        revert hEntries
        cases lib.registerAll on space (lib.entries target m) rs with
        | mk answer t =>
          cases lib.registerAll on space (lib.entries target m) rs' with
          | mk answer' t' =>
            rintro ⟨⟩
            cases answer <;> rfl
    | _ => exact ⟨rfl, rfl⟩

/-- A load changes nothing about other namespaces, nor about other registries. -/
theorem alikeIn_load {r : RegistryId} {name space' : String}
    (hMaps : (rs.get on).namespaces.has space' = true) (hSpace' : namespaceOf? name = some space')
    (hNe : r ≠ on ∨ space ≠ space') :
    Registry.AlikeIn space (rs.get r) ((lib.load on space' rs).2.get r) := by
  have hSize := Registries.lt_size_of_has hMaps
  have hLoads := lib.loads space' hSize
  have hExtended :
      Registry.AlikeIn space (rs.get r) ((rs.extend on (lib.gain (rs.get on) space')).get r) := by
    by_cases hr : r = on
    · subst hr
      rw [Registries.get_extend_self hSize]
      exact .ofExtended (hNe.resolve_left fun h => h rfl) fun _ => mapped_of_mem_gain hSpace'
    · rw [Registries.extend, Registries.get_update_ne _ hr]
      exact .refl space _
  generalize lib.load on space' rs = run at hLoads
  obtain ⟨answer, t⟩ := run
  cases hLoads with
  | idle _ => exact .refl space _
  | failed _ _ _ => exact hExtended
  | done _ =>
    refine hExtended.trans ?_
    show Registry.AlikeIn space _
      (((rs.extend on (lib.gain (rs.get on) space')).update on (Registry.mark space')).get r)
    by_cases hr : r = on
    · subst hr
      rw [Registries.get_update_self _ (by rwa [Registries.size_extend])]
      exact .ofMarked (hNe.resolve_left fun h => h rfl)
    · rw [Registries.get_update_ne _ hr]
      exact .refl space _

theorem load_of_idle (h : (rs.get on).pending? space = none) :
    lib.load on space rs = (.ok (), rs) := by
  simp only [run_load, h]

/-- A load that succeeds leaves nothing to load. -/
theorem idle_load (hSize : on < rs.all.size) (hOk : lib.load on space rs = (.ok (), rs')) :
    (rs'.get on).pending? space = none := by
  rcases load_succeeded hSize hOk with ⟨hIdle, rfl⟩ | rfl
  · exact hIdle
  · rw [Registries.get_update_self _ (by rwa [Registries.size_extend])]
    exact Registry.pending?_mark_self _ space

/-- What a load that succeeds has added is what is found afterwards. -/
theorem types_load (hSize : on < rs.all.size) (hOk : lib.load on space rs = (.ok (), rs')) :
    (rs'.get on).types = (rs.get on).types ++ lib.gain (rs.get on) space := by
  rcases load_succeeded hSize hOk with ⟨hIdle, rfl⟩ | rfl
  · rw [gain, hIdle, List.append_nil]
  · exact (Registries.map_get_mark _ on space on Registry.types fun _ => rfl).trans
      (congrArg Registry.types (Registries.get_extend_self hSize _))

/-- A load keeps the components that there are. -/
theorem held_load {r : RegistryId} {name : String} {c : Component}
    (hMaps : (rs.get on).namespaces.has space = true)
    (hHeld : (rs.get r).types.get? name = some c) :
    ((lib.load on space rs).2.get r).types.get? name = some c := by
  have hSize := Registries.lt_size_of_has hMaps
  have hLoads := lib.loads space hSize
  have hExtended :
      ((rs.extend on (lib.gain (rs.get on) space)).get r).types.get? name = some c := by
    by_cases hr : r = on
    · subst hr
      rw [Registries.get_extend_self hSize, Table.get?_append, hHeld, Option.some_or]
    · rwa [Registries.extend, Registries.get_update_ne _ hr]
  generalize lib.load on space rs = run at hLoads
  obtain ⟨answer, t⟩ := run
  cases hLoads with
  | idle _ => exact hHeld
  | failed _ _ _ => exact hExtended
  | done _ =>
    exact (congrArg (Table.get? · name)
      (Registries.map_get_mark _ on space r Registry.types fun _ => rfl)).trans hExtended

end Library

/-! ## Chains that can be loaded -/

namespace Registries

variable {lib : Library} {id : RegistryId} {rs rs' : Registries}

/-- Every namespace that a registry of a chain maps can be loaded without an error. -/
def Loadable (rs : Registries) (lib : Library) (id : RegistryId) : Prop :=
  ∀ r ∈ rs.chain id, ∀ name space, namespaceOf? name = some space →
    (rs.get r).namespaces.has space = true → ((lib.load r space).run rs).1 = .ok ()

/-- What a load leaves as it was: who answers for a name, and which namespaces are mapped. -/
theorem load_frame (lib : Library) {on : RegistryId} {name space : String}
    (hMaps : (rs.get on).namespaces.has space = true) (hSpace : namespaceOf? name = some space) :
    (∀ other, (lib.load on space rs).2.chain other = rs.chain other) ∧
      (∀ r, ((lib.load on space rs).2.get r).namespaces = (rs.get r).namespaces) ∧
      ∀ other n, (lib.load on space rs).2.answering? other n = rs.answering? other n := by
  have hSize := lt_size_of_has hMaps
  have hLoads := lib.loads space hSize
  have hChain (other : RegistryId) := chain_extend hSize (lib.gain (rs.get on) space) other
  have hSpaces (r : RegistryId) :
      ((rs.extend on (lib.gain (rs.get on) space)).get r).namespaces = (rs.get r).namespaces := by
    by_cases hr : r = on
    · subst hr
      rw [get_extend_self hSize]
    · rw [extend, get_update_ne _ hr]
  have hAnswering (other : RegistryId) (n : String) :
      (rs.extend on (lib.gain (rs.get on) space)).answering? other n = rs.answering? other n :=
    answering?_extend hMaps (fun _ => Library.mapped_of_mem_gain hSpace) other n
  generalize lib.load on space rs = run at hLoads
  obtain ⟨answer, t⟩ := run
  cases hLoads with
  | idle _ => exact ⟨fun _ => rfl, fun _ => rfl, fun _ _ => rfl⟩
  | failed _ _ _ => exact ⟨hChain, hSpaces, hAnswering⟩
  | done _ =>
    refine ⟨fun other => ?_, fun r => ?_, fun other n => ?_⟩
    · exact (map_get_mark _ on space other (fun r => other :: r.below) fun _ => rfl).trans
        (hChain other)
    · exact (map_get_mark _ on space r Registry.namespaces fun _ => rfl).trans (hSpaces r)
    · exact (answering?_mark on space other n).trans (hAnswering other n)

/-- What is found under a name whose namespace is mapped and where there is nothing yet. -/
theorem answer_of_mapped {r : RegistryId} {name space : String}
    (hNearest : rs.answering? id name = some r) (hFree : (rs.get r).types.get? name = none)
    (hSpace : namespaceOf? name = some space) (hMaps : (rs.get r).namespaces.has space = true) :
    ((lib.resolve id name).run rs).1 =
      (lib.load r space rs).1.map fun _ => Table.get? (lib.gain (rs.get r) space) name := by
  rw [run_eq, Library.run_resolve_of_mapped hNearest hFree hSpace]
  cases hRun : lib.load r space rs with
  | mk answer t =>
    cases answer with
    | error e => rfl
    | ok u =>
      have hTypes := Library.types_load (lt_size_of_has hMaps) hRun
      exact congrArg Except.ok (by rw [hTypes, Table.get?_append, hFree, Option.none_or])

/-- The answer for a name is not changed by a load, unless the name waits for this load and the load
fails. -/
theorem answer_load {on : RegistryId} {name space : String}
    (hMaps : (rs.get on).namespaces.has space = true) (hSpace : namespaceOf? name = some space)
    {other : String} (hOk : rs.answering? id other = some on →
      (rs.get on).types.get? other = none → namespaceOf? other = some space →
        (lib.load on space rs).1 = .ok ()) :
    ((lib.resolve id other).run (lib.load on space rs).2).1 =
      ((lib.resolve id other).run rs).1 := by
  obtain ⟨-, hSpaces, hAnswering⟩ := load_frame lib hMaps hSpace
  have hStill := hAnswering id other
  cases rs.stands id other with
  | nowhere hNone =>
    rw [run_eq, run_eq, Library.run_resolve_of_nowhere hNone,
      Library.run_resolve_of_nowhere (hStill.trans hNone)]
  | held r c hNearest hHeld =>
    rw [run_eq, run_eq, Library.run_resolve_of_held hNearest hHeld,
      Library.run_resolve_of_held (hStill.trans hNearest) (Library.held_load hMaps hHeld)]
  | mapped r space' hNearest hFree hSpace' hMaps' =>
    have hMapsNext : ((lib.load on space rs).2.get r).namespaces.has space' = true := by
      rwa [hSpaces]
    rw [answer_of_mapped hNearest hFree hSpace' hMaps']
    by_cases hSame : r = on ∧ space' = space
    · obtain ⟨rfl, rfl⟩ := hSame
      have hLoaded := hOk hNearest hFree hSpace'
      have hRun : lib.load r space' rs = (.ok (), (lib.load r space' rs).2) :=
        Prod.ext hLoaded rfl
      have hFound : ((lib.load r space' rs).2.get r).types.get? other =
          Table.get? (lib.gain (rs.get r) space') other := by
        rw [Library.types_load (lt_size_of_has hMaps) hRun, Table.get?_append, hFree,
          Option.none_or]
      rw [hLoaded]
      cases hGain : Table.get? (lib.gain (rs.get r) space') other with
      | some c =>
        rw [run_eq, Library.run_resolve_of_held (hStill.trans hNearest) (hFound.trans hGain)]
        rfl
      | none =>
        -- The module has no such member, and is not loaded again.
        have hIdle := Library.idle_load (lt_size_of_has hMaps) hRun
        rw [answer_of_mapped (hStill.trans hNearest) (hFound.trans hGain) hSpace' hMapsNext,
          Library.gain, hIdle, Library.load_of_idle hIdle]
        rfl
    · have hAlike : Registry.AlikeIn space' (rs.get r) ((lib.load on space rs).2.get r) :=
        Library.alikeIn_load hMaps hSpace (not_and_or.1 hSame)
      obtain ⟨hLoad, hGain⟩ := lib.load_alike hSpace' (lt_size_of_has hMaps')
        (lt_size_of_has hMapsNext) hAlike
      rw [answer_of_mapped (hStill.trans hNearest) ((hAlike.types hSpace').trans hFree) hSpace'
        hMapsNext, hLoad, hGain]

/-- A look-up leaves everything as it is, or it loads a namespace that is mapped. -/
theorem resolve_cases (lib : Library) (id : RegistryId) (name : String) (rs : Registries) :
    ((lib.resolve id name).run rs).2 = rs ∨ ∃ r space, namespaceOf? name = some space ∧
      (rs.get r).namespaces.has space = true ∧
      ((lib.resolve id name).run rs).2 = (lib.load r space rs).2 := by
  rw [run_eq]
  cases rs.stands id name with
  | nowhere hNone => exact .inl (by rw [Library.run_resolve_of_nowhere hNone])
  | held r c hNearest hHeld => exact .inl (by rw [Library.run_resolve_of_held hNearest hHeld])
  | mapped r space hNearest hFree hSpace hMaps =>
    refine .inr ⟨r, space, hSpace, hMaps, ?_⟩
    rw [Library.run_resolve_of_mapped hNearest hFree hSpace]
    cases lib.load r space rs with
    | mk answer t => cases answer <;> rfl

/-- A look-up that succeeds changes no answer, whether the other namespaces can be loaded or not. -/
theorem answer_resolve {name : String} {c? : Option Component}
    (hOk : ((lib.resolve id name).run rs).1 = .ok c?) (other : String) :
    ((lib.resolve id other).run ((lib.resolve id name).run rs).2).1 =
      ((lib.resolve id other).run rs).1 := by
  rw [run_eq (lib.resolve id name)] at hOk ⊢
  cases rs.stands id name with
  | nowhere hNone => rw [Library.run_resolve_of_nowhere hNone]
  | held r c hNearest hHeld => rw [Library.run_resolve_of_held hNearest hHeld]
  | mapped r space hNearest hFree hSpace hMaps =>
    rw [Library.run_resolve_of_mapped hNearest hFree hSpace] at hOk ⊢
    have hKept (hLoads : (lib.load r space rs).1 = .ok ()) :
        ((lib.resolve id other).run (lib.load r space rs).2).1 =
          ((lib.resolve id other).run rs).1 := answer_load hMaps hSpace fun _ _ _ => hLoads
    cases hLoad : lib.load r space rs with
    | mk answer t =>
      rw [hLoad] at hOk hKept
      cases answer with
      | error e => cases hOk
      | ok _ => exact hKept rfl

namespace Loadable

variable {on : RegistryId} {name space : String}

/-- After a load the namespaces of the chain can still be loaded. -/
theorem load (h : rs.Loadable lib id) (hMaps : (rs.get on).namespaces.has space = true)
    (hSpace : namespaceOf? name = some space) : (lib.load on space rs).2.Loadable lib id := by
  obtain ⟨hChain, hSpaces, -⟩ := load_frame lib hMaps hSpace
  intro r hr name' space' hSpace' hMaps'
  rw [hChain] at hr
  rw [hSpaces] at hMaps'
  have hLoad := h r hr name' space' hSpace' hMaps'
  by_cases hSame : r = on ∧ space' = space
  · obtain ⟨rfl, rfl⟩ := hSame
    have hIdle := Library.idle_load (lt_size_of_has hMaps) (Prod.ext hLoad rfl)
    exact congrArg Prod.fst (Library.load_of_idle hIdle)
  · have hAlike : Registry.AlikeIn space' (rs.get r) ((lib.load on space rs).2.get r) :=
      Library.alikeIn_load hMaps hSpace (not_and_or.1 hSame)
    have hSize' : r < (lib.load on space rs).2.all.size := lt_size_of_has (by rwa [hSpaces])
    exact (lib.load_alike hSpace' (lt_size_of_has hMaps') hSize' hAlike).1.trans hLoad

/-- A look-up leaves a chain loadable, and its answers the same. -/
theorem resolve (h : rs.Loadable lib id) (id' : RegistryId) (name' : String) :
    ((lib.resolve id' name').run rs).2.Loadable lib id ∧
      ∀ name, ((lib.resolve id name).run ((lib.resolve id' name').run rs).2).1 =
        ((lib.resolve id name).run rs).1 := by
  rcases resolve_cases lib id' name' rs with hSame | ⟨r, space, hSpace, hMaps, hLoaded⟩
  · rw [hSame]
    exact ⟨h, fun _ => rfl⟩
  · rw [hLoaded]
    refine ⟨h.load hMaps hSpace, fun name => answer_load hMaps hSpace fun hNearest _ _ => ?_⟩
    exact h r (List.mem_of_find?_eq_some hNearest) name' space hSpace hMaps

end Loadable

/-- Registries in which the namespaces of a chain can be loaded, with the same answers. -/
structure Akin (lib : Library) (id : RegistryId) (rs rs' : Registries) : Prop where
  loadable : rs.Loadable lib id
  loadable' : rs'.Loadable lib id
  answer (name : String) :
    ((lib.resolve id name).run rs').1 = ((lib.resolve id name).run rs).1

/-- Looking up the same name on both sides leaves registries with the same answers. -/
theorem Akin.resolve (h : Akin lib id rs rs') (id' : RegistryId) (name' : String) :
    Akin lib id ((lib.resolve id' name').run rs).2 ((lib.resolve id' name').run rs').2 where
  loadable := (h.loadable.resolve id' name').1
  loadable' := (h.loadable'.resolve id' name').1
  answer name := by
    rw [(h.loadable.resolve id' name').2 name, (h.loadable'.resolve id' name').2 name, h.answer]

end Registries

/-- The registries after some names have been looked up in order, whatever was found. -/
def Library.lookedUp (lib : Library) : List (RegistryId × String) → Registries → Registries
  | [], rs => rs
  | (id, name) :: rest, rs => lib.lookedUp rest ((lib.resolve id name).run rs).2

/-- What has been looked up ahead of time does not show in the answers of a chain. -/
theorem Registries.Loadable.akin_lookedUp {lib : Library} {id : RegistryId} {rs : Registries}
    (h : rs.Loadable lib id) (asked : List (RegistryId × String)) :
    Akin lib id rs (lib.lookedUp asked rs) := by
  suffices ∀ rs', Akin lib id rs rs' → Akin lib id rs (lib.lookedUp asked rs') from
    this rs ⟨h, h, fun _ => rfl⟩
  induction asked with
  | nil => exact fun _ hAkin => hAkin
  | cons entry rest ih =>
    obtain ⟨id', name'⟩ := entry
    intro rs' hAkin
    have hNext := hAkin.loadable'.resolve id' name'
    exact ih _ ⟨h, hNext.1, fun name => (hNext.2 name).trans (hAkin.answer name)⟩

/-! ## Names that are known -/

/-- Whether a name stands for a component, or is not settled because its look-up fails. -/
def Library.knows (lib : Library) (id : RegistryId) (rs : Registries) (name : String) : Bool :=
  match ((lib.resolve id name).run rs).1 with
  | .ok none => false
  | _ => true

theorem Library.knows_eq_false_iff {lib : Library} {id : RegistryId} {rs : Registries}
    {name : String} :
    lib.knows id rs name = false ↔ ((lib.resolve id name).run rs).1 = .ok none := by
  unfold knows
  split
  · next h => simp [h]
  · next h => simpa using h

open Registries in
/-- A load does not change which names are known, even if it fails. -/
theorem Library.knows_load {lib : Library} {id on : RegistryId} {rs : Registries}
    {name space : String} (hMaps : (rs.get on).namespaces.has space = true)
    (hSpace : namespaceOf? name = some space) (other : String) :
    lib.knows id (lib.load on space rs).2 other = lib.knows id rs other := by
  by_cases hOwn : rs.answering? id other = some on ∧ (rs.get on).types.get? other = none ∧
      namespaceOf? other = some space ∧ (lib.load on space rs).1 ≠ .ok ()
  · obtain ⟨hNearest, hFree, hSpace', hFails⟩ := hOwn
    cases hRun : lib.load on space rs with
    | mk answer t =>
      cases answer with
      | ok u => exact absurd (congrArg Prod.fst hRun) hFails
      | error e =>
        -- The name is not settled before. Afterwards it has a component, or its load fails again.
        obtain ⟨-, hSpaces, hAnswering⟩ := load_frame lib hMaps hSpace
        rw [hRun] at hSpaces hAnswering
        have hAgain := (load_failed (lt_size_of_has hMaps) hRun).2
        have hBefore : lib.knows id rs other = true := by
          rw [knows, answer_of_mapped hNearest hFree hSpace' hMaps, hRun]
          rfl
        rw [hBefore, knows]
        cases hHeld : (t.get on).types.get? other with
        | some c => rw [run_eq, run_resolve_of_held ((hAnswering id other).trans hNearest) hHeld]
        | none =>
          rw [answer_of_mapped ((hAnswering id other).trans hNearest) hHeld hSpace'
            (by rwa [hSpaces]), hAgain]
          rfl
  · rw [knows, knows, answer_load hMaps hSpace fun hNearest hFree hSpace' => ?_]
    exact Classical.byContradiction fun hFails => hOwn ⟨hNearest, hFree, hSpace', hFails⟩

/-- Looking a name up does not change which names are known, whatever comes of it. -/
theorem Library.knows_resolve (lib : Library) (id id' : RegistryId) (name name' : String)
    (rs : Registries) :
    lib.knows id ((lib.resolve id' name').run rs).2 name = lib.knows id rs name := by
  rcases Registries.resolve_cases lib id' name' rs with hSame | ⟨r, space, hSpace, hMaps, hLoaded⟩
  · rw [hSame]
  · rw [hLoaded]
    exact knows_load hMaps hSpace name

end ViewMarkup
