import ViewMarkup.Proofs.Component.Extension
import ViewMarkup.Proofs.Component.Isolation
import ViewMarkup.Proofs.Component.Resolution
import ViewMarkup.Proofs.Treads

/-!
# Capabilities that have their hooks

The capabilities of a class are looked at once, when it is registered, and the hooks that they call
for have to be there then. That a class has them lasts: classes defined later change nothing, and a
class that builds on this one finds them along its own lineage.

## Main results

* `Classes.capabilities_eq_ok_iff` — a class has its capabilities if and only if it has the hooks
  that they call for.
* `Classes.Supports.subclass` — a class has the hooks of those that it builds on.
* `Library.register_of_missing` — without such a hook there is no component to be registered.
* `Registries.Backed.serve`, `Registries.Backed.resolve` — whatever a registry is asked, all that is
  registered has the capabilities of its class.
-/

namespace ViewMarkup

namespace Classes

variable {cs ds : Classes} {cls base : ClassId} {c : Capabilities}

/-- A class has the hooks that capabilities call for. -/
def Supports (cs : Classes) (cls : ClassId) (c : Capabilities) : Prop :=
  ∀ h : Hook, c.uses h = true → (cs.hook? cls h).isSome = true

/-- The capabilities that a class declares itself, or takes over. -/
def declaredCapabilities? (cs : Classes) (cls : ClassId) : Option Capabilities :=
  match cs.nearest? cls (·.declared) with
  | none => some {}
  | some (.capabilities c) => some c
  | some .other => none

/-- What is left of capabilities when a class is looked at for the hooks that they call for. -/
def checkHooks (cs : Classes) (cls : ClassId) (c : Capabilities) :
    Except Mistyped Capabilities := do
  for h in [Hook.instruction, .raw, .text] do
    if c.uses h && (cs.hook? cls h).isNone then
      throw (.hookMissing (cs.name cls) h.capability h.name)
  if c.uses .append && (cs.hook? cls .append).isNone then throw (.appendMissing (cs.name cls))
  return c

theorem capabilities_eq : cs.capabilities cls =
    match cs.nearest? cls (·.declared) with
    | none => cs.checkHooks cls {}
    | some (.capabilities c) => cs.checkHooks cls c
    | some .other => .error (.capabilities (cs.name cls)) := by
  unfold capabilities checkHooks
  cases cs.nearest? cls (·.declared) with
  | none => rfl
  | some d => cases d <;> rfl

private theorem supports_iff : cs.Supports cls c ↔
    ∀ h ∈ [Hook.instruction, .raw, .text, .append],
      (c.uses h && (cs.hook? cls h).isNone) = false := by
  constructor
  · intro hSupports h _
    cases hUses : c.uses h with
    | false => rfl
    | true => simp [hSupports h hUses]
  · intro hNone h hUses
    have hHook := hNone h (by cases h <;> simp)
    rw [hUses] at hHook
    simpa [Option.isSome_iff_ne_none] using hHook

private theorem checkHooks_eq_ok_iff {c' : Capabilities} :
    cs.checkHooks cls c = .ok c' ↔ c = c' ∧ cs.Supports cls c := by
  rw [supports_iff]
  unfold checkHooks
  simp only [bind, Except.bind, pure, Except.pure, throw, throwThe, MonadExceptOf.throw, forIn,
    ForIn.forIn, List.forIn'_cons, List.forIn'_nil, List.forall_mem_cons]
  -- Each of the four looks either fails or leads on to the next.
  cases c.uses .instruction && (cs.hook? cls .instruction).isNone <;>
    cases c.uses .raw && (cs.hook? cls .raw).isNone <;>
    cases c.uses .text && (cs.hook? cls .text).isNone <;>
    cases c.uses .append && (cs.hook? cls .append).isNone <;> simp

/-- The capabilities of a class are those that it declares, if it has the hooks for them. -/
theorem capabilities_eq_ok_iff :
    cs.capabilities cls = .ok c ↔ cs.declaredCapabilities? cls = some c ∧ cs.Supports cls c := by
  have hSome {c' : Capabilities} : cs.checkHooks cls c' = .ok c ↔ c' = c ∧ cs.Supports cls c := by
    rw [checkHooks_eq_ok_iff]
    refine and_congr_right fun hEq => ?_
    rw [hEq]
  rw [capabilities_eq, declaredCapabilities?]
  split
  · rw [hSome, Option.some.injEq]
  · rw [hSome, Option.some.injEq]
  · simp

theorem supports_of_capabilities (h : cs.capabilities cls = .ok c) : cs.Supports cls c :=
  (capabilities_eq_ok_iff.1 h).2

/-- A class that declares a capability without its hook has no capabilities. -/
theorem capabilities_of_missing {h : Hook} (hDeclared : cs.declaredCapabilities? cls = some c)
    (hUses : c.uses h = true) (hMissing : cs.hook? cls h = none) (c' : Capabilities) :
    cs.capabilities cls ≠ .ok c' := by
  intro hOk
  obtain ⟨hSame, hSupports⟩ := capabilities_eq_ok_iff.1 hOk
  rw [hDeclared] at hSame
  cases hSame
  simpa [hMissing] using hSupports h hUses

/-! ## Hooks last -/

/-- Among more classes, a class has the same capabilities. -/
theorem Extends.capabilities (h : cs.Extends ds) (hds : ds.Complete) (hId : (ds.get? cls).isSome) :
    cs.capabilities cls = ds.capabilities cls := by
  have hHooks : cs.hook? cls = ds.hook? cls := by
    funext hook
    rw [hook?, hook?, hookFrom?, hookFrom?, h.nearest? hds hId]
  have hName : cs.name cls = ds.name cls := by
    rw [name, name, h.get?_eq hId]
  rw [capabilities_eq, capabilities_eq, h.nearest? hds hId]
  simp only [checkHooks, hHooks, hName]

/-- A class has the hooks of those that it builds on. -/
theorem Supports.subclass (hSupports : cs.Supports base c) (hcs : cs.Transitive)
    (h : cs.isA cls base = true) : cs.Supports cls c := by
  intro hook hUses
  have hBase : base ∈ cs.ancestry cls := isA_iff.1 h
  obtain ⟨rule, hRule⟩ := Option.isSome_iff_exists.1 (hSupports hook hUses)
  obtain ⟨found, hFound, -⟩ := Option.map_eq_some_iff.1 hRule
  obtain ⟨d, hd, hHook⟩ := List.exists_of_findSome?_eq_some hFound
  obtain ⟨x, hx, hGet⟩ := List.mem_filterMap.1 hd
  -- What the base finds in its lineage is in this one, which has that lineage.
  have hIn : d ∈ cs.lineage cls := List.mem_filterMap.2 ⟨x, hcs cls base hBase hx, hGet⟩
  rw [hook?, Option.isSome_map, hookFrom?, nearest?, List.findSome?_isSome_iff]
  exact ⟨d, hIn, by rw [hHook]; rfl⟩

end Classes

/-! ## What is registered -/

/-- Whether a request or a library names classes that there are. -/
def Registries.Request.Known (cs : Classes) : Registries.Request → Prop
  | .register _ cls _ => (cs.get? cls).isSome = true
  | _ => True

/-- The modules register classes that there are. -/
def Library.Known (lib : Library) : Prop :=
  ∀ m ∈ lib.modules, ∀ entries, m.2.registers = some entries →
    ∀ e ∈ entries, (lib.classes.get? e.2.1).isSome = true

/-- A component has the capabilities of its class. -/
def Component.Backed (cs : Classes) (c : Component) : Prop :=
  (cs.get? c.cls).isSome = true ∧ cs.capabilities c.cls = .ok c.capabilities

theorem Component.Backed.supports {cs : Classes} {c : Component} (h : c.Backed cs) :
    cs.Supports c.cls c.capabilities :=
  Classes.supports_of_capabilities h.2

namespace Registries

/-- All that is registered has the capabilities of its class. -/
def Backed (cs : Classes) (rs : Registries) : Prop :=
  ∀ r, ∀ e ∈ (rs.get r).types, e.2.Backed cs

/-- What registering does at once: a component of a class is put under a name, or nothing changes
about the components. -/
inductive Move (cs : Classes) : Registries → Registries → Prop
  | put {rs : Registries} {c : Component} (on : RegistryId) (name : String) (h : c.Backed cs) :
      Move cs rs (rs.update on fun r => { r with types := r.types.put name c })
  | keep {rs rs' : Registries} (h : ∀ r, (rs'.get r).types = (rs.get r).types ∨
      (rs'.get r).types = []) : Move cs rs rs'

variable {cs : Classes} {rs rs' : Registries}

theorem Backed.move (h : rs.Backed cs) (hMove : Move cs rs rs') : rs'.Backed cs := by
  intro r e he
  cases hMove with
  | put on name hBacked =>
    rcases get_update rs on r _ with hGet | hGet
    · exact h r e (hGet ▸ he)
    · rw [hGet] at he
      rcases Table.eq_or_mem_of_mem_put he with rfl | he
      · exact hBacked
      · exact h r e he
  | keep hTypes =>
    rcases hTypes r with hSame | hNone
    · exact h r e (hSame ▸ he)
    · rw [hNone] at he
      cases he

/-- A change that leaves the components as they are. -/
theorem Move.update (on : RegistryId) {f : Registry → Registry} (hf : ∀ r, (f r).types = r.types) :
    Move cs rs (rs.update on f) := by
  refine .keep fun r => .inl ?_
  rcases get_update rs on r f with hGet | hGet
  · rw [hGet]
  · rw [hGet, hf]

theorem Backed.addOver (h : rs.Backed cs) (parent : Option RegistryId) :
    (rs.addOver parent).2.Backed cs := by
  refine h.move (.keep fun r => ?_)
  rcases get_addOver_cases rs parent r with hGet | ⟨-, hGet⟩
  · exact .inl (by rw [hGet])
  · exact .inr (by rw [hGet])

/-- Classes that are defined later change nothing about what is registered. -/
theorem Backed.extends {cs' : Classes} (h : rs.Backed cs) (hcs : cs.Complete)
    (hExtends : cs'.Extends cs) : rs.Backed cs' := by
  intro r e he
  obtain ⟨hKnown, hCapabilities⟩ := h r e he
  exact ⟨hExtends.isSome_get? hKnown, (hExtends.capabilities hcs hKnown).trans hCapabilities⟩

/-- What is found under a name is registered. -/
theorem Backed.get? {r : RegistryId} {name : String} {c : Component} (h : rs.Backed cs)
    (hHeld : (rs.get r).types.get? name = some c) : c.Backed cs :=
  h r _ (Table.mem_of_get? hHeld)

end Registries

namespace Library

variable {lib : Library} {on : RegistryId} {name space : String} {cls : ClassId}
  {style : Option String} {c : Component} {rs : Registries}

theorem component_eq_ok (h : lib.component name cls style = .ok c) :
    c.cls = cls ∧ lib.classes.capabilities cls = .ok c.capabilities := by
  unfold component at h
  dsimp only at h
  by_cases hName : (name.isEmpty || Text.trim name != name) = true
  · rw [if_pos hName] at h
    cases h
  · rw [if_neg hName] at h
    by_cases hStyle : (style.isSome && (lib.classes.factory? cls).isNone) = true
    · rw [if_pos hStyle] at h
      cases h
    · rw [if_neg hStyle] at h
      obtain ⟨capabilities, hCapabilities, h⟩ := exists_of_bind_eq_ok h
      cases h
      exact ⟨rfl, eq_ok_of_mapError_eq_ok hCapabilities⟩

/-- Nothing is registered for a class that declares a capability without its hook. -/
theorem register_of_missing {own : Capabilities} {h : Hook}
    (hDeclared : lib.classes.declaredCapabilities? cls = some own) (hUses : own.uses h = true)
    (hMissing : lib.classes.hook? cls h = none) (on : RegistryId) (name : String)
    (style : Option String) (rs : Registries) :
    ∃ e, (lib.register on name cls style).run rs = (.error e, rs) := by
  rw [run_eq, run_register]
  cases hComponent : lib.component name cls style with
  | error e => exact ⟨e, rfl⟩
  | ok c =>
    have hCapabilities := (component_eq_ok hComponent).2
    exact absurd hCapabilities (Classes.capabilities_of_missing hDeclared hUses hMissing _)

private theorem component_backed (h : lib.component name cls style = .ok c)
    (hKnown : (lib.classes.get? cls).isSome = true) : c.Backed lib.classes := by
  obtain ⟨rfl, hCapabilities⟩ := component_eq_ok h
  exact ⟨hKnown, hCapabilities⟩

theorem register_treads (hKnown : (lib.classes.get? cls).isSome = true) :
    Treads (Registries.Move lib.classes) (Registries.Move lib.classes)
      (lib.register on name cls style) := by
  intro rs
  rw [run_register]
  cases hComponent : lib.component name cls style with
  | error e => exact ⟨rs, .refl, .inl rfl⟩
  | ok c =>
    dsimp only
    split
    · exact ⟨_, .single (.put on name (component_backed hComponent hKnown)), .inl rfl⟩
    · split <;> exact ⟨rs, .refl, .inl rfl⟩

private theorem registerAll_treads {entries : List (String × ClassId × Option String)}
    (hKnown : ∀ e ∈ entries, (lib.classes.get? e.2.1).isSome = true) :
    Treads (Registries.Move lib.classes) (Registries.Move lib.classes)
      (lib.registerAll on space entries) := by
  induction entries with
  | nil => exact .ofPure
  | cons e entries ih =>
    refine (register_treads (hKnown e List.mem_cons_self)).bind fun _ => ?_
    exact ih fun e' he' => hKnown e' (List.mem_cons_of_mem e he')

/-- What a module registers without saying so are classes that there are. -/
theorem Known.entries (hLib : lib.Known) {m : ComponentModule}
    (hModule : (name, m) ∈ lib.modules) :
    ∀ e ∈ lib.entries name m, (lib.classes.get? e.2.1).isSome = true := by
  intro e he
  unfold Library.entries at he
  cases hRegisters : m.registers with
  | some entries =>
    rw [hRegisters] at he
    exact hLib _ hModule entries hRegisters e he
  | none =>
    rw [hRegisters] at he
    obtain ⟨⟨member, cls⟩, -, hEntry⟩ := List.mem_filterMap.1 he
    dsimp only at hEntry
    split at hEntry
    · next found hFound =>
      split at hEntry
      · cases hEntry
        exact Option.isSome_iff_exists.2 ⟨found, hFound⟩
      · cases hEntry
    · cases hEntry

private theorem findModule_eq_ok {m : ComponentModule} (h : lib.findModule space name = .ok m) :
    (name, m) ∈ lib.modules := by
  unfold findModule at h
  split at h
  · next hModule =>
    cases h
    exact Table.mem_of_get? hModule
  · split at h
    · cases h
    · split at h <;> cases h

private theorem load_treads (hLib : lib.Known) :
    Treads (Registries.Move lib.classes) (Registries.Move lib.classes) (lib.load on space) := by
  unfold load
  refine Treads.ofGet.bind fun rs => .ite .ofPure ?_
  split
  · exact .ofPure
  · exact .ofPure
  · next target _ =>
    intro rs
    rw [run_bind, run_liftM]
    cases hModule : lib.findModule space target with
    | error e => exact ⟨rs, .refl, .inl rfl⟩
    | ok m =>
      refine Treads.bind (registerAll_treads (hLib.entries (findModule_eq_ok hModule)))
        (fun _ => .single fun t => ?_) rs
      exact .update on fun _ => rfl
  · exact .ofThrow

private theorem resolveIn_treads (hLib : lib.Known) (ids : List RegistryId) :
    Treads (Registries.Move lib.classes) (Registries.Move lib.classes)
      (lib.resolveIn name ids) := by
  induction ids with
  | nil => exact .ofPure
  | cons id below ih =>
    unfold resolveIn
    refine Treads.ofGet.bind fun rs => ?_
    split
    · exact .ofPure
    · exact .ofPure
    · refine .ite ((load_treads hLib).bind fun _ => Treads.ofGet.bind fun _ => .ofPure) ih

theorem resolve_treads (hLib : lib.Known) :
    Treads (Registries.Move lib.classes) (Registries.Move lib.classes) (lib.resolve on name) :=
  Treads.ofGet.bind fun _ => resolveIn_treads hLib _

theorem registerNamespace_treads {cs : Classes} (target : Value) :
    Treads (Registries.Move cs) (Registries.Move cs) (registerNamespace on space target) := by
  unfold registerNamespace
  refine .check (Treads.ofGet.bind fun rs => ?_)
  split
  · exact .ite .ofThrow .ofPure
  · exact .ofThrow
  · exact .single fun rs => .update on fun _ => rfl

private theorem serve_treads (hLib : lib.Known) {q : Registries.Request}
    (hq : q.Known lib.classes) :
    Treads (Registries.Move lib.classes) (Registries.Move lib.classes) (lib.serve on q) := by
  cases q with
  | register name cls style => exact (register_treads hq).bind fun _ => .ofPure
  | registerNamespace space target =>
    exact (registerNamespace_treads (.text target)).bind fun _ => .ofPure
  | resolve name => exact (resolve_treads hLib).bind fun _ => .ofPure
  | peek name => exact Treads.ofGet.bind fun _ => .ofPure
  | names => exact Treads.ofGet.bind fun _ => .ofPure
  | namespaces => exact Treads.ofGet.bind fun _ => .ofPure

end Library

namespace Registries.Backed

variable {lib : Library} {on : RegistryId} {name : String} {rs : Registries}

theorem treads {α : Type} {x : Registering α} {cs : Classes} (h : rs.Backed cs)
    (hx : Treads (Move cs) (Move cs) x) : (x.run rs).2.Backed cs :=
  hx.keeps (fun _ _ h hMove => h.move hMove) (fun _ _ h hMove => h.move hMove) h

/-- Whatever a registry is asked, all that is registered has the capabilities of its class. -/
theorem serve (h : rs.Backed lib.classes) (hLib : lib.Known) {q : Request}
    (hq : q.Known lib.classes) (on : RegistryId) :
    ((lib.serve on q).run rs).2.Backed lib.classes :=
  h.treads (Library.serve_treads hLib hq)

/-- What a name is looked up as has the capabilities of its class. -/
theorem resolve (h : rs.Backed lib.classes) (hLib : lib.Known) {c : Component} {rs' : Registries}
    (hRun : (lib.resolve on name).run rs = (.ok (some c), rs')) : c.Backed lib.classes := by
  have hAfter : ((lib.resolve on name).run rs).2.Backed lib.classes :=
    h.treads (Library.resolve_treads hLib)
  rw [hRun] at hAfter
  have hAnswers := Library.answers_of_resolve hRun
  generalize hFound : some c = c? at hAnswers
  cases hAnswers with
  | nowhere _ => cases hFound
  | held r _ _ hHeld =>
    cases hFound
    exact h.get? hHeld
  | loaded r space _ _ _ _ _ _ => exact hAfter.get? hFound.symm

end Registries.Backed

end ViewMarkup
