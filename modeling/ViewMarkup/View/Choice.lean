import ViewMarkup.Enumeration

/-!
# Choices

The enumerations that properties of the built-in views take their values from.
-/

namespace ViewMarkup.View

/-- How the lines of a text are aligned. -/
def textAlignment : Enumeration where
  name := "TextAlignment"
  entries := [("LEFT", 0), ("CENTER", 1), ("RIGHT", 2), ("JUSTIFIED", 3), ("NATURAL", 4)]

/-- Where the content of a control stands. -/
def contentAlignment : Enumeration where
  name := "ContentAlignment"
  entries := [
    ("CENTER", 0), ("LEFT", 1), ("RIGHT", 2), ("FILL", 3), ("LEADING", 4), ("TRAILING", 5)]

/-- How an image fills its view. -/
def contentMode : Enumeration where
  name := "ContentMode"
  entries := [
    ("SCALE_TO_FILL", 0), ("SCALE_ASPECT_FIT", 1), ("SCALE_ASPECT_FILL", 2), ("CENTER", 4)]

/-- Where the views of a box stand across its axis. -/
def boxAlignment : Enumeration where
  name := "BoxAlignment"
  entries := [
    ("TOP", 0), ("BOTTOM", 1), ("LEFT", 2), ("RIGHT", 3), ("LEADING", 4), ("TRAILING", 5),
    ("CENTER", 6), ("BASELINE", 7), ("FILL", 8)]

/-- The enumerations that are always there. -/
def choices : List Enumeration := [contentAlignment, contentMode, boxAlignment, textAlignment]

/-- A member of an enumeration by name; the first one stands in for a name that is not there. -/
def memberNamed (e : Enumeration) (name : String) : Member :=
  (e.members.find? (·.name == name)).getD ⟨e.name, name, 0⟩

end ViewMarkup.View
