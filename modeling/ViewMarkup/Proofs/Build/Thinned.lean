import ViewMarkup.Proofs.Build.Includes
import ViewMarkup.Proofs.Build.Termination

/-!
# Documents without idle instructions

An instruction is idle for an object that takes no instructions, if it is inert: the build passes it
over. Which objects take instructions is settled before the build. An element stands for what its
name is looked up as, and the element `root` for the object that is supplied.

A document is thinned out when idle instructions are deleted: in front of an element and after its
last child, where they are for its own instance, and in front of a raw element, where they are for
the instance around it. The documents that it includes may be thinned out as well.

## Main results

* `Assembly.deliver_idle` — nothing comes of an idle instruction.
* `Assembly.deliverAll_thinned`, `Assembly.takeTrailing_thinned` — so nothing changes when some of
  the instructions for an instance are deleted.
* `Element.Thinned.included_iff` — the same documents are included.
-/

namespace ViewMarkup

open Text

/-! ## Idle instructions -/

/-- An instruction that nothing comes of, where an object may contain what is given. Includes are
carried out even if they are inert. -/
def Settings.Idle (s : Settings) (caps : Capabilities) (i : Instruction) : Prop :=
  i.target ≠ includeTarget ∧ caps.instruction = false ∧ s.inert.contains i.target = true

/-- Instructions for an object, and those that are left when some idle ones are deleted. -/
inductive Instruction.Thinned (s : Settings) (caps : Capabilities) :
    List Instruction → List Instruction → Prop
  | nil : Thinned s caps [] []
  | keep {is js : List Instruction} (i : Instruction) : Thinned s caps is js →
      Thinned s caps (i :: is) (i :: js)
  | drop {is js : List Instruction} {i : Instruction} : s.Idle caps i → Thinned s caps is js →
      Thinned s caps (i :: is) js

namespace Instruction.Thinned

variable {s : Settings} {caps : Capabilities} {is js : List Instruction}

theorem refl (is : List Instruction) : Thinned s caps is is := by
  induction is with
  | nil => exact .nil
  | cons i is ih => exact .keep i ih

/-- What is done for each instruction comes to the same, if nothing comes of the idle ones. -/
theorem forM_eq (h : Thinned s caps is js) {g : Instruction → Building Unit}
    (hIdle : ∀ i, s.Idle caps i → g i = pure ()) : is.forM g = js.forM g := by
  induction h with
  | nil => rfl
  | @keep is js i _ ih =>
    show (g i >>= fun _ => is.forM g) = g i >>= fun _ => js.forM g
    rw [ih]
  | @drop is js i hi _ ih =>
    show (g i >>= fun _ => is.forM g) = js.forM g
    rw [hIdle i hi, pure_bind, ih]

theorem includes_eq (h : Thinned s caps is js) : includes js = includes is := by
  induction h with
  | nil => rfl
  | keep i _ ih =>
    unfold includes at ih ⊢
    rw [List.filter_cons, List.filter_cons, ih]
  | drop hi _ ih => exact ih.trans (List.filter_cons_of_neg (by simpa using hi.1)).symm

theorem delivered (h : Thinned s caps is js) :
    Thinned s caps (ViewMarkup.delivered is) (ViewMarkup.delivered js) := by
  unfold ViewMarkup.delivered
  induction h with
  | nil => exact .nil
  | keep i _ ih =>
    rw [List.filter_cons, List.filter_cons]
    split
    · exact .keep i ih
    · exact ih
  | @drop is js i hi _ ih =>
    have hKept : decide (i.target ≠ includeTarget) = true := decide_eq_true hi.1
    rw [List.filter_cons, if_pos hKept]
    exact .drop hi ih

theorem mem_include_iff (h : Thinned s caps is js) {i : Instruction}
    (hi : i.target = includeTarget) : i ∈ js ↔ i ∈ is := by
  have hMem (ks : List Instruction) : i ∈ includes ks ↔ i ∈ ks := by
    simp [includes, hi]
  rw [← hMem js, h.includes_eq, hMem is]

end Instruction.Thinned

namespace Assembly

variable {a : Assembly} {id : ObjectId} {caps : Capabilities} {is js : List Instruction}

theorem deliver_idle {i : Instruction} (h : a.settings.Idle caps i) :
    a.deliver id caps i = pure () := by
  obtain ⟨-, hTakes, hInert⟩ := h
  unfold deliver
  rw [hTakes, hInert]
  rfl

theorem deliverAll_thinned (h : Instruction.Thinned a.settings caps is js) :
    a.deliverAll id caps is = a.deliverAll id caps js :=
  h.forM_eq fun _ => deliver_idle

theorem takeTrailing_thinned (h : Instruction.Thinned a.settings caps is js) (expand : Expansion)
    (stack : List String) (path : String) : a.takeTrailing expand stack id caps path is =
      a.takeTrailing expand stack id caps path js := by
  refine h.forM_eq fun i hi => ?_
  rw [if_neg hi.1, deliver_idle hi]
  rfl

end Assembly

/-! ## Thinned elements -/

/-- What a name stands for when it is looked up with some registries. -/
def Builder.settled (b : Builder) (rs : Registries) (name : String) :
    Except Failure (Option Component) :=
  ((b.library.resolve b.registry name).run rs).1

mutual

/-- An element for an instance that may contain what is given, and what is left of it when idle
instructions are deleted. -/
inductive Element.Thinned (b : Builder) (rs : Registries) : Capabilities → Element → Element → Prop
  | mk {own : Capabilities} {name : String} {attributes : Table String String}
      {children children' : List Element} {leading leading' trailing trailing' : List Instruction}
      {text : String} : Instruction.Thinned b.settings own leading leading' →
      Element.ThinnedAll b rs own children children' →
      Instruction.Thinned b.settings own trailing trailing' →
      Thinned b rs own (.mk name attributes children leading trailing text)
        (.mk name attributes children' leading' trailing' text)

/-- The same of a child of an instance that may contain what is given. A child with a component has
an instance of its own. Of a raw one, the instructions in front of it are for the instance around
it. -/
inductive Element.ThinnedChild (b : Builder) (rs : Registries) :
    Capabilities → Element → Element → Prop
  | made {parent : Capabilities} {c : Component} {e e' : Element} :
      b.settled rs e.name = .ok (some c) → Element.Thinned b rs c.capabilities e e' →
      ThinnedChild b rs parent e e'
  | raw {parent : Capabilities} {name : String} {attributes : Table String String}
      {children : List Element} {leading leading' trailing : List Instruction} {text : String} :
      b.settled rs name = .ok none → Instruction.Thinned b.settings parent leading leading' →
      ThinnedChild b rs parent (.mk name attributes children leading trailing text)
        (.mk name attributes children leading' trailing text)
  | same {parent : Capabilities} (e : Element) : ThinnedChild b rs parent e e

/-- The same of children in order. -/
inductive Element.ThinnedAll (b : Builder) (rs : Registries) :
    Capabilities → List Element → List Element → Prop
  | nil {parent : Capabilities} : ThinnedAll b rs parent [] []
  | cons {parent : Capabilities} {e e' : Element} {es es' : List Element} :
      Element.ThinnedChild b rs parent e e' → ThinnedAll b rs parent es es' →
      ThinnedAll b rs parent (e :: es) (e' :: es')

end

namespace Element

variable {b : Builder} {rs : Registries} {own parent : Capabilities} {e e' : Element}
  {es es' : List Element}

theorem ThinnedAll.refl (es : List Element) : ThinnedAll b rs parent es es := by
  induction es with
  | nil => exact .nil
  | cons e es ih => exact .cons (.same e) ih

theorem Thinned.refl (e : Element) : Thinned b rs own e e := by
  cases e with
  | mk name attributes children leading trailing text =>
    exact .mk (.refl leading) (.refl children) (.refl trailing)

theorem Thinned.name_eq (h : Thinned b rs own e e') : e'.name = e.name := by
  cases h with
  | mk _ _ _ => rfl

theorem Thinned.leading (h : Thinned b rs own e e') :
    Instruction.Thinned b.settings own e.leading e'.leading := by
  cases h with
  | mk hLeading _ _ => exact hLeading

namespace ThinnedChild

theorem name_eq (h : ThinnedChild b rs parent e e') : e'.name = e.name := by
  cases h with
  | made _ hThinned => exact hThinned.name_eq
  | raw _ _ => rfl
  | same _ => rfl

theorem includes_eq (h : ThinnedChild b rs parent e e') :
    includes e'.leading = includes e.leading := by
  cases h with
  | made _ hThinned => exact hThinned.leading.includes_eq
  | raw _ hLeading => exact hLeading.includes_eq
  | same _ => rfl

theorem of_made {c : Component} (h : ThinnedChild b rs parent e e')
    (hMade : b.settled rs e.name = .ok (some c)) : Thinned b rs c.capabilities e e' := by
  cases h with
  | made hMade' hThinned =>
    cases hMade.symm.trans hMade'
    exact hThinned
  | raw hRaw _ => cases hMade.symm.trans hRaw
  | same _ => exact .refl e

theorem of_raw (h : ThinnedChild b rs parent e e') (hRaw : b.settled rs e.name = .ok none) :
    ∃ leading', e' = .mk e.name e.attributes e.children leading' e.trailing e.text ∧
      Instruction.Thinned b.settings parent e.leading leading' := by
  cases h with
  | made hMade _ => cases hRaw.symm.trans hMade
  | raw _ hLeading => exact ⟨_, rfl, hLeading⟩
  | same _ =>
    cases e with
    | mk name attributes children leading trailing text => exact ⟨leading, rfl, .refl leading⟩

end ThinnedChild

mutual

/-- The same documents are included. -/
theorem Thinned.included_iff : ∀ {own : Capabilities} {e e' : Element}, Thinned b rs own e e' →
    ∀ n, n ∈ e'.included ↔ n ∈ e.included
  | _, _, _, .mk hLeading hChildren hTrailing, n => by
    rw [mem_included, mem_included]
    refine or_congr (exists_congr fun i => and_congr_left fun hi => ?_)
      (ThinnedAll.included_iff hChildren n)
    rw [List.mem_append, List.mem_append]
    exact or_congr (hLeading.mem_include_iff hi.1) (hTrailing.mem_include_iff hi.1)

theorem ThinnedChild.included_iff : ∀ {parent : Capabilities} {e e' : Element},
    ThinnedChild b rs parent e e' → ∀ n, n ∈ e'.included ↔ n ∈ e.included
  | _, _, _, .made _ hThinned, n => Thinned.included_iff hThinned n
  | _, _, _, .raw _ hLeading, n => by
    rw [mem_included, mem_included]
    refine or_congr_left (exists_congr fun i => and_congr_left fun hi => ?_)
    rw [List.mem_append, List.mem_append]
    exact or_congr_left (hLeading.mem_include_iff hi.1)
  | _, _, _, .same _, _ => .rfl

theorem ThinnedAll.included_iff : ∀ {parent : Capabilities} {es es' : List Element},
    ThinnedAll b rs parent es es' → ∀ n, (∃ e ∈ es', n ∈ e.included) ↔ ∃ e ∈ es, n ∈ e.included
  | _, _, _, .nil, _ => .rfl
  | _, _, _, .cons hHead hTail, n => by
    simp only [List.exists_mem_cons_iff, ThinnedChild.included_iff hHead n,
      ThinnedAll.included_iff hTail n]

end

end Element

/-! ## Thinned documents -/

/-- What the object that a root element describes may contain, if it can be had: what is supplied
for `root`, and else an instance of a component. -/
def Builder.rootCapabilities? (b : Builder) (w : World) (root : Option ObjectId) (name : String) :
    Option Capabilities :=
  if name = Assembly.rootName then root.bind fun r =>
    match w.store.class? r with
    | some cls => (b.library.classes.capabilities cls).toOption
    | none => some {}
  else (b.settled w.registries name).toOption.join.map (·.capabilities)

/-- A root element, and what is left of it when idle instructions are deleted. -/
inductive Element.ThinnedRoot (b : Builder) (w : World) (root : Option ObjectId) :
    Element → Element → Prop
  | made {own : Capabilities} {e e' : Element} : b.rootCapabilities? w root e.name = some own →
      Element.Thinned b w.registries own e e' → ThinnedRoot b w root e e'
  | same (e : Element) : ThinnedRoot b w root e e

/-- What becomes of asking for a document, before and after it was thinned out. -/
inductive Document.Thinned (b : Builder) (w : World) (root : Option ObjectId) :
    Except Failure Document → Except Failure Document → Prop
  | found {d d' : Document} : Element.ThinnedRoot b w root d.root d'.root →
      Thinned b w root (.ok d) (.ok d')
  | failed (e : Failure) : Thinned b w root (.error e) (.error e)

namespace Element.ThinnedRoot

variable {b : Builder} {w : World} {root : Option ObjectId} {e e' : Element}

theorem name_eq (h : ThinnedRoot b w root e e') : e'.name = e.name := by
  cases h with
  | made _ hThinned => exact hThinned.name_eq
  | same _ => rfl

theorem includes_eq (h : ThinnedRoot b w root e e') : includes e'.leading = includes e.leading := by
  cases h with
  | made _ hThinned => exact hThinned.leading.includes_eq
  | same _ => rfl

theorem included_iff (h : ThinnedRoot b w root e e') (n : String) :
    n ∈ e'.included ↔ n ∈ e.included := by
  cases h with
  | made _ hThinned => exact hThinned.included_iff n
  | same _ => rfl

theorem of_made {own : Capabilities} (h : ThinnedRoot b w root e e')
    (hMade : b.rootCapabilities? w root e.name = some own) :
    Element.Thinned b w.registries own e e' := by
  cases h with
  | made hMade' hThinned =>
    cases hMade.symm.trans hMade'
    exact hThinned
  | same _ => exact .refl e

end Element.ThinnedRoot

/-- Two origins of a document: given, and what is left of it; or the name that resources have it
under, before and after it was thinned out. -/
inductive Origin.Thinned (b : Builder) (w : World) (root : Option ObjectId)
    (docs docs' : String → Except Failure Document) : Origin → Origin → Prop
  | given {d d' : Document} : Element.ThinnedRoot b w root d.root d'.root →
      Thinned b w root docs docs' (.given d) (.given d')
  | named {name : String} : Document.Thinned b w root (docs name) (docs' name) →
      Thinned b w root docs docs' (.named name) (.named name)

/-- A world, and what is left of the document at an origin and of the other documents that can be
included, when idle instructions are deleted from some of them. The resources may be kept in other
files, or be others altogether, as long as they have the same strings and images. -/
structure World.Thinned (b : Builder) (w : World) (root : Option ObjectId) (origin : Origin)
    (files : Files) (loader : Loader) (origin' : Origin) : Prop where
  strings : ((loadStrings files).run loader).1 = ((loadStrings b.files).run w.loader).1
  image (name : String) : loader.image files name = w.loader.image b.files name
  document {name : String} : name ∉ origin.names → Document.Thinned b w none
    ((loadDocument b.files name).run w.loader).1 ((loadDocument files name).run loader).1
  origin : origin.Thinned b w root (fun name => ((loadDocument b.files name).run w.loader).1)
    (fun name => ((loadDocument files name).run loader).1) origin'

end ViewMarkup
