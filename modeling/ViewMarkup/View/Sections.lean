import ViewMarkup.Failure
import ViewMarkup.Value

/-!
# Sections of a table

A table starts with one section that has nothing in it. A raw element starts a section, or announces
that the next view is the header or the footer of the section declared last; every other view is a
row of that section. An announcement holds for one view.

## Main results

- `Sections.addPart_length_le`: no raw element takes a section away.
-/

namespace ViewMarkup

/-- The place that is announced for the next view. -/
inductive Slot where
  | row
  | header
  | footer
deriving DecidableEq, Repr

/-- The sections of a table and the place of its next view. -/
structure Sections where
  all : List TableSection := [{}]
  slot : Slot := .row
deriving Repr

/-- Whether a text is there and not empty. -/
def isNonEmptyText (s : Option String) : Bool := s.any (!·.isEmpty)

/-- Whether anything has been put into a section, or it goes by a name or title. -/
def TableSection.isBegun (s : TableSection) : Bool :=
  !s.rows.isEmpty || s.header.isSome || s.footer.isSome || isNonEmptyText s.name ||
    isNonEmptyText s.title

/-- A list with its last element changed. -/
def changeLast {α : Type} (f : α → α) : List α → List α
  | [] => []
  | [x] => [f x]
  | x :: xs => x :: changeLast f xs

theorem length_changeLast {α : Type} (f : α → α) (xs : List α) :
    (changeLast f xs).length = xs.length := by
  fun_induction changeLast f xs <;> simp_all

theorem forall_mem_changeLast {α : Type} {P : α → Prop} {f : α → α} {xs : List α}
    (h : ∀ x ∈ xs, P x) (hf : ∀ x, P x → P (f x)) : ∀ x ∈ changeLast f xs, P x := by
  fun_induction changeLast f xs <;> simp_all

namespace Sections

/-- Starts a section: the last one, if nothing has been done to it, or else a new one. -/
def start (t : Sections) (name title : Option String) : List TableSection :=
  let named (s : TableSection) : TableSection := { s with name, title }
  if t.all.getLast?.any (·.isBegun) then t.all ++ [named {}] else changeLast named t.all

/-- What a raw element does to a table. -/
def addPart (t : Sections) (cls name : String) (attributes : Table String String) :
    Except ElementFault Sections :=
  match name with
  | "section" =>
    .ok { all := t.start (attributes.get? "name") (attributes.get? "title"), slot := .row }
  | "sectionHeader" => .ok { t with slot := .header }
  | "sectionFooter" => .ok { t with slot := .footer }
  | _ => .error (.rawRefused cls name)

/-- A section with a view at a place. -/
def put (slot : Slot) (view : ObjectId) (s : TableSection) : TableSection :=
  match slot with
  | .row => { s with rows := s.rows ++ [view] }
  | .header => { s with header := some view }
  | .footer => { s with footer := some view }

/-- Puts a view at the announced place of the last section. -/
def addView (t : Sections) (view : ObjectId) : Sections where
  all := changeLast (put t.slot view) t.all
  slot := .row

/-- The views of all sections: headers before rows before footers. -/
def views (sections : List TableSection) : List ObjectId := sections.flatMap Value.sectionObjects

/-- No raw element takes a section away. -/
theorem addPart_length_le {t u : Sections} {cls name : String} {attributes : Table String String}
    (h : t.addPart cls name attributes = .ok u) : t.all.length ≤ u.all.length := by
  unfold addPart at h
  split at h
  · cases h
    simp only [start]
    split <;> simp [length_changeLast]
  all_goals cases h <;> exact Nat.le_refl _

end Sections
end ViewMarkup
