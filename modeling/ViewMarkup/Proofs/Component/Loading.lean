import ViewMarkup.Component.Registry
import ViewMarkup.Proofs.Outcome

/-!
# Loading a namespace

A name is answered by the nearest registry of a chain that has a component under it or maps its
namespace. If that registry only maps the namespace, its module is loaded first: the components of
the module are registered one after the other, and the namespace is marked as loaded at the end.

What a load adds is a function of the registry and the module (`Library.gain`): all that comes
before the first entry that is refused. The namespace is not marked in that case, so the next load
starts again, finds the first entries as it has left them and is refused at the same entry. The
components that have been added stay, and are found from then on.

## Main results

* `Registries.stands` — the three ways in which a chain can answer for a name.
* `Library.run_registerAll` — registering the entries of a module, and doing it once more.
* `Library.loads` — what a load does to the registries, whether it succeeds or breaks off.
* `Library.resolve_failed` — what a failed look-up leaves, and what repeating it gives.
-/

namespace ViewMarkup

/-! ## Who answers for a name -/

namespace Registries

variable {rs rs' : Registries} {id r : RegistryId} {name space : String}
  {added : Table String Component}

/-- Whether a registry has a component under a name, or maps the namespace of the name. -/
def answers (rs : Registries) (name : String) (r : RegistryId) : Bool :=
  (rs.get r).types.has name || rs.ownsSpace r name

/-- The nearest registry of a chain that answers for a name. -/
def answering? (rs : Registries) (id : RegistryId) (name : String) : Option RegistryId :=
  (rs.chain id).find? (rs.answers name)

/-- How a chain answers for a name: not at all, by a component, or by a namespace in which there may
be one. -/
inductive Stands (rs : Registries) (id : RegistryId) (name : String) : Prop where
  | nowhere (hNone : rs.answering? id name = none)
  | held (r : RegistryId) (c : Component) (hNearest : rs.answering? id name = some r)
      (hHeld : (rs.get r).types.get? name = some c)
  | mapped (r : RegistryId) (space : String) (hNearest : rs.answering? id name = some r)
      (hFree : (rs.get r).types.get? name = none) (hSpace : namespaceOf? name = some space)
      (hMaps : (rs.get r).namespaces.has space = true)

theorem ownsSpace_of_namespaceOf? (hSpace : namespaceOf? name = some space) :
    rs.ownsSpace r name = (rs.get r).namespaces.has space := by
  simp [ownsSpace, hSpace]

theorem exists_of_ownsSpace (h : rs.ownsSpace r name = true) :
    ∃ space, namespaceOf? name = some space ∧ (rs.get r).namespaces.has space = true := by
  cases hSpace : namespaceOf? name with
  | none => simp [ownsSpace, hSpace] at h
  | some space => exact ⟨space, rfl, ownsSpace_of_namespaceOf? hSpace ▸ h⟩

theorem stands (rs : Registries) (id : RegistryId) (name : String) : rs.Stands id name := by
  cases hNearest : rs.answering? id name with
  | none => exact .nowhere hNearest
  | some r =>
    cases hHeld : (rs.get r).types.get? name with
    | some c => exact .held r c hNearest hHeld
    | none =>
      have hAnswers : rs.answers name r = true := List.find?_some hNearest
      have hOwns : rs.ownsSpace r name = true := by
        simpa [answers, Table.has, hHeld] using hAnswers
      obtain ⟨space, hSpace, hMaps⟩ := exists_of_ownsSpace hOwns
      exact .mapped r space hNearest hHeld hSpace hMaps

/-- What a list of registries has under a name is what the first one of them has that answers. -/
theorem peekIn_eq (ids : List RegistryId) :
    rs.peekIn name ids =
      (ids.find? (rs.answers name)).bind fun r => (rs.get r).types.get? name := by
  induction ids with
  | nil => rfl
  | cons r below ih =>
    cases hHeld : (rs.get r).types.get? name with
    | some c => simp [peekIn, answers, Table.has, hHeld]
    | none =>
      cases hOwns : rs.ownsSpace r name <;> simp [peekIn, answers, Table.has, hHeld, hOwns, ih]

theorem peek_eq (rs : Registries) (id : RegistryId) (name : String) :
    rs.peek id name = (rs.answering? id name).bind fun r => (rs.get r).types.get? name :=
  peekIn_eq _

/-- Who answers for a name depends on the components and namespaces only. -/
theorem answering?_congr (hBelow : (rs'.get id).below = (rs.get id).below)
    (hTypes : ∀ r, (rs'.get r).types = (rs.get r).types)
    (hSpaces : ∀ r, (rs'.get r).namespaces = (rs.get r).namespaces) :
    rs'.answering? id name = rs.answering? id name := by
  have hAnswers : rs'.answers = rs.answers := by
    funext name r
    simp only [answers, ownsSpace, hTypes, hSpaces]
  simp only [answering?, chain, hBelow, hAnswers]

/-- A registry that maps a namespace answers itself for the names in it. -/
theorem answering?_self (hSpace : namespaceOf? name = some space)
    (hMaps : (rs.get r).namespaces.has space = true) : rs.answering? r name = some r := by
  have hAnswers : rs.answers name r = true := by
    simp [answers, ownsSpace_of_namespaceOf? hSpace, hMaps]
  exact List.find?_cons_of_pos hAnswers

/-- Only a registry that there is maps a namespace. -/
theorem lt_size_of_has (h : (rs.get r).namespaces.has space = true) : r < rs.all.size := by
  refine Nat.lt_of_not_le fun hSize => ?_
  have hNone : rs.all[r]? = none := Array.getElem?_eq_none hSize
  simp [get, hNone, Table.has, Table.get?] at h

/-! ## More components in one registry -/

/-- The registries with more components in one of them. -/
def extend (rs : Registries) (on : RegistryId) (added : Table String Component) : Registries :=
  rs.update on fun r => { r with types := r.types ++ added }

private theorem update_update (f g : Registry → Registry) :
    (rs.update id f).update id g = rs.update id (g ∘ f) := by
  refine congrArg Registries.mk (Array.ext (by simp [update]) fun i _ _ => ?_)
  by_cases h : id = i <;> simp [update, Array.getElem_modify, h]

/-- A change counts by what it makes of the registry that is there. -/
theorem update_congr {f g : Registry → Registry} (h : f (rs.get id) = g (rs.get id)) :
    rs.update id f = rs.update id g := by
  refine congrArg Registries.mk (Array.ext (by simp) fun i hi _ => ?_)
  have hSize : i < rs.all.size := by simpa using hi
  by_cases hId : id = i
  · subst hId
    simpa [Array.getElem_modify, get, hSize] using h
  · simp [Array.getElem_modify, hId]

theorem extend_nil (rs : Registries) (on : RegistryId) : rs.extend on [] = rs := by
  refine congrArg Registries.mk (Array.ext (by simp) fun i _ _ => ?_)
  by_cases h : on = i <;> simp [Array.getElem_modify, h]

private theorem extend_extend (on : RegistryId) (a b : Table String Component) :
    (rs.extend on a).extend on b = rs.extend on (a ++ b) := by
  rw [extend, extend, update_update]
  simp [extend, Function.comp_def]

theorem get_extend_self (hSize : r < rs.all.size) (added : Table String Component) :
    (rs.extend r added).get r = { rs.get r with types := (rs.get r).types ++ added } :=
  get_update_self _ hSize

/-- More components under the names of a namespace that the registry maps change nothing about who
answers for a name. -/
theorem answers_extend (hMaps : (rs.get r).namespaces.has space = true)
    (hIn : ∀ e ∈ added, namespaceOf? e.1 = some space) :
    (rs.extend r added).answers = rs.answers := by
  have hSize : r < rs.all.size := lt_size_of_has hMaps
  funext name r'
  by_cases hr : r' = r
  · subst hr
    have hGet := get_extend_self hSize added
    cases hAdded : Table.get? added name with
    | none =>
      simp only [answers, ownsSpace, hGet, Table.has, Table.get?_append, hAdded, Option.or_none]
    | some c =>
      have hSpace : namespaceOf? name = some space := hIn _ (Table.mem_of_get? hAdded)
      have hOwns : rs.ownsSpace r' name = true := by rwa [ownsSpace_of_namespaceOf? hSpace]
      have hOwns' : (rs.extend r' added).ownsSpace r' name = true := by
        rwa [ownsSpace_of_namespaceOf? hSpace, hGet]
      simp only [answers, hOwns, hOwns', Bool.or_true]
  · have hGet : (rs.extend r added).get r' = rs.get r' := get_update_ne _ hr
    simp only [answers, ownsSpace, hGet]

theorem chain_extend (hSize : r < rs.all.size) (added : Table String Component)
    (id : RegistryId) : (rs.extend r added).chain id = rs.chain id := by
  by_cases hr : id = r
  · subst hr
    simp only [chain, get_extend_self hSize]
  · simp only [chain, extend, get_update_ne _ hr]

theorem answering?_extend (hMaps : (rs.get r).namespaces.has space = true)
    (hIn : ∀ e ∈ added, namespaceOf? e.1 = some space) (id : RegistryId) (name : String) :
    (rs.extend r added).answering? id name = rs.answering? id name := by
  rw [answering?, answering?, chain_extend (lt_size_of_has hMaps), answers_extend hMaps hIn]

theorem size_extend (on : RegistryId) (added : Table String Component) :
    (rs.extend on added).all.size = rs.all.size := by
  simp [extend, update]

end Registries

/-! ## What a load adds -/

/-- What a namespace stands for, if it is still to be loaded. A namespace that stands for nothing
never is. -/
def Registry.pending? (r : Registry) (space : String) : Option Value :=
  if r.loaded.contains space then none
  else
    match r.namespaces.get? space with
    | some .none => none
    | target => target

/-- The registry with a namespace marked as loaded. -/
def Registry.mark (space : String) (r : Registry) : Registry :=
  { r with loaded := space :: r.loaded }

theorem Registry.pending?_mark {r : Registry} {space : String} (marked : String)
    (h : r.pending? space = none) : (r.mark marked).pending? space = none := by
  by_cases hMarked : space = marked <;> simp_all [pending?, mark]

theorem Registry.pending?_mark_self (r : Registry) (space : String) :
    (r.mark space).pending? space = none := by
  simp [pending?, mark]

namespace Registries

variable {rs : Registries}

/-- A registry is as it was after a change of some registry, or it has changed. -/
theorem get_update (rs : Registries) (on r : RegistryId) (f : Registry → Registry) :
    (rs.update on f).get r = rs.get r ∨ (rs.update on f).get r = f (rs.get r) := by
  by_cases hr : r = on
  · subst hr
    by_cases hSize : r < rs.all.size
    · exact .inr (get_update_self f hSize)
    · have hNone : rs.all[r]? = none := Array.getElem?_eq_none (Nat.le_of_not_lt hSize)
      exact .inl (by simp [get, update, Array.getElem?_modify, hNone])
  · exact .inl (get_update_ne f hr)

theorem get_mark (rs : Registries) (on : RegistryId) (space : String) (r : RegistryId) :
    (rs.update on (Registry.mark space)).get r = rs.get r ∨
      (rs.update on (Registry.mark space)).get r = (rs.get r).mark space :=
  get_update rs on r (Registry.mark space)

/-- What does not depend on the loaded namespaces stays as it was. -/
theorem map_get_mark {β : Type} (rs : Registries) (on : RegistryId) (space : String)
    (r : RegistryId) (f : Registry → β) (h : ∀ r', f (r'.mark space) = f r') :
    f ((rs.update on (Registry.mark space)).get r) = f (rs.get r) := by
  rcases get_mark rs on space r with hr | hr
  · rw [hr]
  · rw [hr, h]

theorem answering?_mark (on : RegistryId) (space : String) (id : RegistryId) (name : String) :
    (rs.update on (Registry.mark space)).answering? id name = rs.answering? id name :=
  answering?_congr (map_get_mark rs on space id Registry.below fun _ => rfl)
    (fun r => map_get_mark rs on space r Registry.types fun _ => rfl)
    fun r => map_get_mark rs on space r Registry.namespaces fun _ => rfl

end Registries

namespace Library

variable {lib : Library} {on : RegistryId} {name space : String} {rs : Registries}

/-- What registering entries of a module adds to some components: those before the first entry that
is refused. -/
def admitted (lib : Library) (space : String) :
    Table String Component → List (String × ClassId × Option String) → Table String Component
  | _, [] => []
  | types, (member, cls, style) :: rest =>
    match lib.component (space ++ ":" ++ member) cls style with
    | .error _ => []
    | .ok c =>
      match types.get? (space ++ ":" ++ member) with
      | none =>
        (space ++ ":" ++ member, c) ::
          lib.admitted space (types ++ [(space ++ ":" ++ member, c)]) rest
      | some existing => if existing = c then lib.admitted space types rest else []

/-- What loading a namespace adds to the components of a registry, whether the load succeeds or
breaks off. -/
def gain (lib : Library) (r : Registry) (space : String) : Table String Component :=
  match r.pending? space with
  | some (.text target) =>
    match lib.findModule space target with
    | .ok m => lib.admitted space r.types (lib.entries target m)
    | .error _ => []
  | _ => []

/-- All that is added is in the namespace, and is new. -/
theorem of_mem_admitted {types : Table String Component}
    {entries : List (String × ClassId × Option String)} {e : String × Component}
    (h : e ∈ lib.admitted space types entries) :
    (∃ member, e.1 = space ++ ":" ++ member) ∧ types.get? e.1 = none := by
  induction entries generalizing types with
  | nil => simp [admitted] at h
  | cons entry rest ih =>
    obtain ⟨member, cls, style⟩ := entry
    rw [admitted] at h
    split at h
    · simp at h
    · next c _ =>
      split at h
      · next hFree =>
        rcases List.mem_cons.1 h with rfl | h
        · exact ⟨⟨member, rfl⟩, hFree⟩
        · obtain ⟨hMember, hNone⟩ := ih h
          rw [Table.get?_append] at hNone
          exact ⟨hMember, (Option.or_eq_none_iff.1 hNone).1⟩
      · split at h
        · exact ih h
        · simp at h

theorem of_mem_gain {r : Registry} {e : String × Component} (h : e ∈ lib.gain r space) :
    (∃ member, e.1 = space ++ ":" ++ member) ∧ r.types.get? e.1 = none := by
  unfold gain at h
  split at h
  · split at h
    · exact of_mem_admitted h
    · simp at h
  · simp at h

theorem mapped_of_mem_gain {r : Registry} {e : String × Component}
    (hSpace : namespaceOf? name = some space) (h : e ∈ lib.gain r space) :
    namespaceOf? e.1 = some space := by
  obtain ⟨⟨member, hName⟩, -⟩ := of_mem_gain h
  exact hName ▸ namespaceOf?_member hSpace member

/-! ## Runs of a load -/

theorem run_register (lib : Library) (on : RegistryId) (name : String) (cls : ClassId)
    (style : Option String) (rs : Registries) :
    lib.register on name cls style rs =
      match lib.component name cls style with
      | .error e => (.error e, rs)
      | .ok c =>
        match (rs.get on).types.get? name with
        | none => (.ok c, rs.update on fun r => { r with types := r.types.put name c })
        | some existing =>
          if existing = c then (.ok c, rs)
          else (.error (.invalid (.componentTaken name (lib.classes.name existing.cls))), rs) := by
  rw [register, run_bind, run_liftM]
  cases lib.component name cls style with
  | error e => rfl
  | ok c =>
    show (_ >>= _ : Registering Component) rs = _
    rw [run_bind, run_get]
    dsimp only
    cases (rs.get on).types.get? name with
    | none => rfl
    | some existing =>
      dsimp only
      split <;> rfl

theorem run_registerAll_cons (member : String) (cls : ClassId) (style : Option String)
    (rest : List (String × ClassId × Option String)) :
    lib.registerAll on space ((member, cls, style) :: rest) rs =
      match lib.component (space ++ ":" ++ member) cls style with
      | .error e => (.error e, rs)
      | .ok c =>
        match (rs.get on).types.get? (space ++ ":" ++ member) with
        | none => lib.registerAll on space rest (rs.extend on [(space ++ ":" ++ member, c)])
        | some existing =>
          if existing = c then lib.registerAll on space rest rs
          else (.error (.invalid (.componentTaken (space ++ ":" ++ member)
            (lib.classes.name existing.cls))), rs) := by
  rw [registerAll, run_bind, run_register]
  cases lib.component (space ++ ":" ++ member) cls style with
  | error e => rfl
  | ok c =>
    dsimp only
    cases hFree : (rs.get on).types.get? (space ++ ":" ++ member) with
    | none =>
      have hPut :
          rs.update on (fun r => { r with types := r.types.put (space ++ ":" ++ member) c }) =
            rs.extend on [(space ++ ":" ++ member, c)] :=
        Registries.update_congr (by rw [Table.put_of_get?_eq_none c hFree])
      dsimp only
      rw [hPut]
    | some existing =>
      dsimp only
      by_cases hSame : existing = c
      · rw [if_pos hSame, if_pos hSame]
      · rw [if_neg hSame, if_neg hSame]

/-- Registering the entries of a module adds what is admitted. Doing it once more gives the same
answer and adds nothing: the entries up to the refused one are there already. -/
theorem run_registerAll (lib : Library) (space : String) (hSize : on < rs.all.size)
    (entries : List (String × ClassId × Option String)) :
    ∃ answer, lib.registerAll on space entries rs =
        (answer, rs.extend on (lib.admitted space (rs.get on).types entries)) ∧
      lib.registerAll on space entries
          (rs.extend on (lib.admitted space (rs.get on).types entries)) =
        (answer, rs.extend on (lib.admitted space (rs.get on).types entries)) := by
  induction entries generalizing rs with
  | nil =>
    refine ⟨.ok (), ?_, rfl⟩
    rw [admitted, Registries.extend_nil]
    rfl
  | cons entry rest ih =>
    obtain ⟨member, cls, style⟩ := entry
    rw [run_registerAll_cons, run_registerAll_cons, admitted]
    cases lib.component (space ++ ":" ++ member) cls style with
    | error e => exact ⟨.error e, by rw [Registries.extend_nil], rfl⟩
    | ok c =>
      dsimp only
      rw [Registries.get_extend_self hSize]
      cases hHeld : (rs.get on).types.get? (space ++ ":" ++ member) with
      | none =>
        have hGet := Registries.get_extend_self hSize [(space ++ ":" ++ member, c)]
        have hSize' : on < (rs.extend on [(space ++ ":" ++ member, c)]).all.size := by
          rwa [Registries.size_extend]
        obtain ⟨answer, hFirst, hAgain⟩ := ih hSize'
        rw [hGet, Registries.extend_extend] at hFirst hAgain
        refine ⟨answer, hFirst, ?_⟩
        simpa [Table.get?_append, hHeld, Table.get?] using hAgain
      | some existing =>
        dsimp only
        by_cases hSame : existing = c
        · simp only [if_pos hSame]
          obtain ⟨answer, hFirst, hAgain⟩ := ih hSize
          refine ⟨answer, hFirst, ?_⟩
          simpa [Table.get?_append, hHeld, hSame] using hAgain
        · simp only [if_neg hSame, Registries.extend_nil, List.append_nil, hHeld]
          exact ⟨_, rfl, rfl⟩

/-- A load and how it ends: there was nothing to do, the whole module has been registered, or the
load has broken off. A load that has broken off does so again and adds nothing more. -/
inductive Loads (lib : Library) (on : RegistryId) (space : String) (rs : Registries) :
    Except Failure Unit → Registries → Prop where
  | idle (hIdle : (rs.get on).pending? space = none) : lib.Loads on space rs (.ok ()) rs
  | done (hPending : (rs.get on).pending? space ≠ none) :
      lib.Loads on space rs (.ok ())
        ((rs.extend on (lib.gain (rs.get on) space)).update on (Registry.mark space))
  | failed (e : Failure) (hPending : (rs.get on).pending? space ≠ none)
      (hAgain : lib.load on space (rs.extend on (lib.gain (rs.get on) space)) =
        (.error e, rs.extend on (lib.gain (rs.get on) space))) :
      lib.Loads on space rs (.error e) (rs.extend on (lib.gain (rs.get on) space))

theorem run_load (lib : Library) (on : RegistryId) (space : String) (rs : Registries) :
    lib.load on space rs =
      match (rs.get on).pending? space with
      | none => (.ok (), rs)
      | some (.text target) =>
        match lib.findModule space target with
        | .error e => (.error e, rs)
        | .ok m =>
          match lib.registerAll on space (lib.entries target m) rs with
          | (.ok (), t) => (.ok (), t.update on (Registry.mark space))
          | (.error e, t) => (.error e, t)
      | some _ => (.error .noAttribute, rs) := by
  rw [load, run_bind, run_get]
  dsimp only
  unfold Registry.pending?
  by_cases hLoaded : (rs.get on).loaded.contains space = true
  · rw [if_pos hLoaded, if_pos hLoaded]
    rfl
  · rw [if_neg hLoaded, if_neg hLoaded]
    cases hTarget : (rs.get on).namespaces.get? space with
    | none => rfl
    | some target =>
      cases target with
      | text target =>
        dsimp only
        rw [run_bind, run_liftM]
        cases lib.findModule space target with
        | error e => rfl
        | ok m =>
          dsimp only
          rw [run_bind]
          cases lib.registerAll on space (lib.entries target m) rs with
          | mk answer t => cases answer <;> rfl
      | _ => rfl

/-- A load that fails before anything is registered. -/
theorem Loads.ofUnchanged {e : Failure} (hPending : (rs.get on).pending? space ≠ none)
    (hGain : lib.gain (rs.get on) space = []) (hRun : lib.load on space rs = (.error e, rs)) :
    lib.Loads on space rs (.error e) rs := by
  have hSelf : rs.extend on (lib.gain (rs.get on) space) = rs := by
    rw [hGain, Registries.extend_nil]
  have hFailed := Loads.failed e hPending (by rw [hSelf, hRun])
  rwa [hSelf] at hFailed

theorem loads (lib : Library) (space : String) (hSize : on < rs.all.size) :
    lib.Loads on space rs (lib.load on space rs).1 (lib.load on space rs).2 := by
  cases hPending : (rs.get on).pending? space with
  | none =>
    have hRun : lib.load on space rs = (.ok (), rs) := by simp only [run_load, hPending]
    rw [hRun]
    exact .idle hPending
  | some target =>
    have hSome : (rs.get on).pending? space ≠ none := by simp [hPending]
    have hStill (added : Table String Component) :
        ((rs.extend on added).get on).pending? space = some target := by
      rw [Registries.get_extend_self hSize]
      exact hPending
    cases target with
    | text target =>
      cases hModule : lib.findModule space target with
      | error e =>
        have hRun : lib.load on space rs = (.error e, rs) := by
          simp only [run_load, hPending, hModule]
        rw [hRun]
        exact .ofUnchanged hSome (by simp only [gain, hPending, hModule]) hRun
      | ok m =>
        have hGain : lib.gain (rs.get on) space =
            lib.admitted space (rs.get on).types (lib.entries target m) := by
          simp only [gain, hPending, hModule]
        obtain ⟨answer, hFirst, hAgain⟩ :=
          run_registerAll lib space hSize (lib.entries target m)
        rw [← hGain] at hFirst hAgain
        cases answer with
        | ok u =>
          have hRun : lib.load on space rs = (.ok (),
              (rs.extend on (lib.gain (rs.get on) space)).update on (Registry.mark space)) := by
            simp only [run_load, hPending, hModule, hFirst]
          rw [hRun]
          exact .done hSome
        | error e =>
          have hRun : lib.load on space rs =
              (.error e, rs.extend on (lib.gain (rs.get on) space)) := by
            simp only [run_load, hPending, hModule, hFirst]
          rw [hRun]
          refine .failed e hSome ?_
          simp only [run_load, hStill, hModule, hAgain]
    | _ =>
      have hRun : lib.load on space rs = (.error .noAttribute, rs) := by
        simp only [run_load, hPending]
      rw [hRun]
      exact .ofUnchanged hSome (by simp only [gain, hPending]) hRun

variable {id r : RegistryId} {e : Failure} {rs' : Registries}

/-- A load that has broken off leaves what it has added, and breaks off again from there. -/
theorem load_failed (hSize : on < rs.all.size) (h : lib.load on space rs = (.error e, rs')) :
    rs' = rs.extend on (lib.gain (rs.get on) space) ∧ lib.load on space rs' = (.error e, rs') := by
  have hLoads := lib.loads space hSize
  rw [h] at hLoads
  cases hLoads with
  | failed _ _ hAgain => exact ⟨rfl, hAgain⟩

theorem load_succeeded (hSize : on < rs.all.size) (h : lib.load on space rs = (.ok (), rs')) :
    ((rs.get on).pending? space = none ∧ rs' = rs) ∨
      rs' = (rs.extend on (lib.gain (rs.get on) space)).update on (Registry.mark space) := by
  have hLoads := lib.loads space hSize
  rw [h] at hLoads
  cases hLoads with
  | idle hIdle => exact .inl ⟨hIdle, rfl⟩
  | done _ => exact .inr rfl

/-! ## Runs of a look-up -/

theorem run_resolveIn (lib : Library) (name : String) (ids : List RegistryId) (rs : Registries) :
    lib.resolveIn name ids rs =
      match ids.find? (rs.answers name) with
      | none => (.ok none, rs)
      | some r =>
        match (rs.get r).types.get? name, namespaceOf? name with
        | some c, _ => (.ok (some c), rs)
        | none, none => (.ok none, rs)
        | none, some space =>
          match lib.load r space rs with
          | (.ok (), t) => (.ok ((t.get r).types.get? name), t)
          | (.error e, t) => (.error e, t) := by
  induction ids with
  | nil => rfl
  | cons r below ih =>
    rw [resolveIn, run_bind, run_get]
    dsimp only
    rw [Registries.peekIn_eq]
    cases hHeld : (rs.get r).types.get? name with
    | some c =>
      have hFind : (r :: below).find? (rs.answers name) = some r :=
        List.find?_cons_of_pos (by simp [Registries.answers, Table.has, hHeld])
      simp only [hFind, hHeld, Option.bind_some]
      rfl
    | none =>
      by_cases hOwns : rs.ownsSpace r name = true
      · have hFind : (r :: below).find? (rs.answers name) = some r :=
          List.find?_cons_of_pos (by simp [Registries.answers, hOwns])
        obtain ⟨space, hSpace, -⟩ := Registries.exists_of_ownsSpace hOwns
        simp only [hFind, hHeld, hSpace, Option.bind_some, if_pos hOwns]
        rw [run_bind]
        cases lib.load r space rs with
        | mk answer t => cases answer <;> rfl
      · have hFind : (r :: below).find? (rs.answers name) = below.find? (rs.answers name) :=
          List.find?_cons_of_neg (by simp [Registries.answers, Table.has, hHeld, hOwns])
        rw [hFind]
        -- What lies below is asked twice: for a component that is there, and then to load.
        cases hPeek : (below.find? (rs.answers name)).bind fun r => (rs.get r).types.get? name with
        | some c =>
          obtain ⟨r', hNearest, hHeld'⟩ := Option.bind_eq_some_iff.1 hPeek
          simp only [hNearest, hHeld']
          rfl
        | none =>
          cases hSpace : namespaceOf? name with
          | none =>
            cases hNearest : below.find? (rs.answers name) with
            | none => rfl
            | some r' =>
              have hFree : (rs.get r').types.get? name = none := by simpa [hNearest] using hPeek
              simp only [hFree]
              rfl
          | some space =>
            simp only [if_neg hOwns]
            rw [ih, hSpace]

theorem run_resolve_of_nowhere (hNone : rs.answering? id name = none) :
    lib.resolve id name rs = (.ok none, rs) := by
  show lib.resolveIn name (rs.chain id) rs = _
  rw [run_resolveIn]
  simp only [show (rs.chain id).find? (rs.answers name) = none from hNone]

theorem run_resolve_of_held {c : Component} (hNearest : rs.answering? id name = some r)
    (hHeld : (rs.get r).types.get? name = some c) :
    lib.resolve id name rs = (.ok (some c), rs) := by
  show lib.resolveIn name (rs.chain id) rs = _
  rw [run_resolveIn]
  simp only [show (rs.chain id).find? (rs.answers name) = some r from hNearest, hHeld]

theorem run_resolve_of_mapped (hNearest : rs.answering? id name = some r)
    (hFree : (rs.get r).types.get? name = none) (hSpace : namespaceOf? name = some space) :
    lib.resolve id name rs =
      match lib.load r space rs with
      | (.ok (), t) => (.ok ((t.get r).types.get? name), t)
      | (.error e, t) => (.error e, t) := by
  show lib.resolveIn name (rs.chain id) rs = _
  rw [run_resolveIn]
  simp only [show (rs.chain id).find? (rs.answers name) = some r from hNearest, hFree, hSpace]

/-- What a load has added can be seen at the registry that maps the namespace, so only a load that
has added nothing goes unnoticed. -/
theorem gain_eq_nil_iff (hNearest : rs.answering? id name = some r)
    (hSpace : namespaceOf? name = some space) (hMaps : (rs.get r).namespaces.has space = true) :
    (∀ other ∈ rs.chain id,
        (rs.extend r (lib.gain (rs.get r) space)).names other = rs.names other ∧
          ∀ n, (rs.extend r (lib.gain (rs.get r) space)).peek other n = rs.peek other n) ↔
      lib.gain (rs.get r) space = [] := by
  constructor
  · intro hSame
    refine List.eq_nil_iff_forall_not_mem.2 fun e hMem => ?_
    obtain ⟨-, hFree⟩ := of_mem_gain hMem
    have hIn : namespaceOf? e.1 = some space := mapped_of_mem_gain hSpace hMem
    have hSelf : rs.answering? r e.1 = some r := Registries.answering?_self hIn hMaps
    have hBefore : rs.peek r e.1 = none := by
      rw [Registries.peek_eq, hSelf]
      exact hFree
    have hAfter : (rs.extend r (lib.gain (rs.get r) space)).peek r e.1 =
        Table.get? (lib.gain (rs.get r) space) e.1 := by
      rw [Registries.peek_eq, Registries.answering?_extend hMaps fun _ => mapped_of_mem_gain hSpace,
        hSelf, Option.bind_some, Registries.get_extend_self (Registries.lt_size_of_has hMaps),
        Table.get?_append, hFree, Option.none_or]
    have hRead := (hSame r (List.mem_of_find?_eq_some hNearest)).2 e.1
    rw [hAfter, hBefore, Table.get?_eq_none_iff] at hRead
    exact hRead (List.mem_map_of_mem hMem)
  · intro hNone other _
    rw [hNone, Registries.extend_nil]
    exact ⟨rfl, fun _ => rfl⟩

/-- What a failed look-up leaves behind. Its module was loaded up to the first entry that is
refused, and what had been registered by then stays. Unless nothing had, this can be seen: names and
components of the chain are others than before. The same look-up then fails in the same way as long
as the name is not among those that have stayed, and else answers with the component. -/
theorem resolve_failed (h : (lib.resolve id name).run rs = (.error e, rs')) :
    ∃ owner space, rs.answering? id name = some owner ∧ namespaceOf? name = some space ∧
      rs' = rs.extend owner (lib.gain (rs.get owner) space) ∧
      ((∀ other ∈ rs.chain id,
          rs'.names other = rs.names other ∧ ∀ n, rs'.peek other n = rs.peek other n) ↔
        lib.gain (rs.get owner) space = []) ∧
      (lib.resolve id name).run rs' =
        match Table.get? (lib.gain (rs.get owner) space) name with
        | some c => (.ok (some c), rs')
        | none => (.error e, rs') := by
  rw [run_eq] at h
  cases rs.stands id name with
  | nowhere hNone =>
    rw [run_resolve_of_nowhere hNone] at h
    cases h
  | held r c hNearest hHeld =>
    rw [run_resolve_of_held hNearest hHeld] at h
    cases h
  | mapped r space hNearest hFree hSpace hMaps =>
    have hSize : r < rs.all.size := Registries.lt_size_of_has hMaps
    rw [run_resolve_of_mapped hNearest hFree hSpace] at h
    have hRun : lib.load r space rs = (.error e, rs') := by
      cases hRun : lib.load r space rs with
      | mk answer t =>
        rw [hRun] at h
        cases answer with
        | ok u => cases h
        | error e' =>
          cases h
          rfl
    obtain ⟨hLeft, hAgain⟩ := load_failed hSize hRun
    have hStill : rs'.answering? id name = some r := by
      rw [hLeft, Registries.answering?_extend hMaps fun _ => mapped_of_mem_gain hSpace, hNearest]
    have hGet : (rs'.get r).types.get? name = Table.get? (lib.gain (rs.get r) space) name := by
      rw [hLeft, Registries.get_extend_self hSize, Table.get?_append, hFree, Option.none_or]
    refine ⟨r, space, hNearest, hSpace, hLeft, ?_, ?_⟩
    · rw [hLeft]
      exact gain_eq_nil_iff hNearest hSpace hMaps
    · rw [run_eq]
      cases hMember : Table.get? (lib.gain (rs.get r) space) name with
      | some c => rw [run_resolve_of_held hStill (hGet.trans hMember)]
      | none => rw [run_resolve_of_mapped hStill (hGet.trans hMember) hSpace, hAgain]

end Library

/-! ## A module with a flaw -/

namespace Sample

/-- Two modules. The second class of the first one takes text and has no hook for it. -/
def library : Library where
  classes := { all := #[
    { name := "Badge", lineage := [0], properties := some [] },
    { name := "Chart", lineage := [1], properties := some [],
      declared := some (.capabilities { text := true }) }] }
  modules := [
    ("kit", { registers := some [("Badge", 0, none), ("Chart", 1, none)] }),
    ("badges", { registers := some [("Badge", 0, none)] })]

/-- A registry that maps a namespace to each module, and one that lies over it. -/
def registries : Registries where
  all := #[{ namespaces := [("k", .text "kit"), ("b", .text "badges")] }, { below := [0] }]

end Sample

/-- A component that has been registered before the load broke off is found when it is looked up
again. -/
theorem Library.resolve_failed_kit : ∃ e rs' c,
    (Sample.library.resolve 1 "k:Badge").run Sample.registries = (.error e, rs') ∧
      ¬(∀ other ∈ Sample.registries.chain 1, rs'.names other = Sample.registries.names other ∧
        ∀ n, rs'.peek other n = Sample.registries.peek other n) ∧
      (Sample.library.resolve 1 "k:Badge").run rs' = (.ok (some c), rs') := by
  have hGain : Sample.library.gain (Sample.registries.get 0) "k" =
      [("k:Badge", { name := "k:Badge", cls := 0, style := none, capabilities := {} })] := by
    decide +kernel
  have hFails : ((Sample.library.resolve 1 "k:Badge").run Sample.registries).1.toOption = none := by
    decide +kernel
  cases h : (Sample.library.resolve 1 "k:Badge").run Sample.registries with
  | mk answer rs' =>
    rw [h] at hFails
    cases answer with
    | ok c? => cases hFails
    | error e =>
      obtain ⟨owner, space, hOwner, hSpace, -, hSame, hAgain⟩ := resolve_failed h
      have hZero : owner = 0 :=
        Option.some.inj (hOwner.symm.trans (by decide +kernel :
          Sample.registries.answering? 1 "k:Badge" = some 0))
      have hKey : space = "k" :=
        Option.some.inj (hSpace.symm.trans (by decide +kernel : namespaceOf? "k:Badge" = some "k"))
      subst hZero hKey
      rw [hGain] at hSame hAgain
      exact ⟨e, rs', _, rfl, fun hAll => List.cons_ne_nil _ _ (hSame.1 hAll), hAgain⟩

end ViewMarkup
