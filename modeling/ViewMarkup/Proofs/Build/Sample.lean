import ViewMarkup.Build.Document
import ViewMarkup.View.Catalog

/-!
# A small library to build from

One component, a panel that records what it is told, two host objects, one of which has a place for
an outlet, and some documents. The general statements about builds are instantiated here, or for the
built-in views.
-/

namespace ViewMarkup.Sample

/-- What a panel may contain. -/
def capabilities : Capabilities :=
  { instruction := true, raw := true, text := true, append := .multi }

/-- Panels record all calls. -/
def panel : ComponentClass where
  name := "Panel"
  lineage := [0]
  properties := some []
  declared := some (.capabilities capabilities)
  hooks := [(.instruction, .record), (.raw, .record), (.text, .record), (.append, .record)]
  starts := [("events", .list []), ("text", .value (.text ""))]

/-- A builder that knows panels. -/
def builder : Builder := { library := { classes := { all := #[panel] } } }

/-- The document that is included. -/
def side : Document := { root := .mk "Panel" [] [] [] [] " aside " }

/-- The document that includes it, in front of a child and after the last one. -/
def page : Document where
  root := .mk "Panel" [("id", "main")]
    [.mk "Panel" [] [] [⟨"note", "1"⟩, ⟨"include", " side"⟩] [] "first",
      .mk "rule" [("width", "2")] [] [⟨"note", "2"⟩] [] ""]
    [⟨"note", "0"⟩] [⟨"include", "side"⟩, ⟨"note", "3"⟩] ""

/-- A document whose outlet takes the place of what its binding goes through. -/
def rebound : Document where
  root := .mk "Panel" [("id", "main"), ("bind.text", "main.caption")] [] [] [] ""

/-- A world with an owner, which has a caption under the name of the outlet `main`. -/
def world : World where
  store := { objects := #[{ type := .host "Owner" [] true, fields := [("main", .object 1)] },
    { type := .host "Caption" [] true, fields := [("caption", .text "hello")] }] }
  registries := { all := #[{ types := [("Panel", ⟨"Panel", 0, none, capabilities⟩)] }] }
  loader := .tables [] [] [("side", .parsed side)]

/-- A document that cannot be built: its second child is raw and has text inside of it. -/
def crooked : Document where
  root := .mk "Panel" []
    [.mk "Panel" [] [] [] [] "", .mk "rule" [] [] [] [] "text"] [] [] ""

/-- A document that includes it. -/
def frame : Document where
  root := .mk "Panel" [] [] [] [⟨"include", "crooked"⟩] ""

/-- A world where there is such a document to include. -/
def crookedWorld : World := { world with loader := .tables [] [] [("crooked", .parsed crooked)] }

/-- What a slot may contain: raw elements, and a single view. -/
def slotCapabilities : Capabilities := { raw := true, append := .single }

/-- Slots record all calls. -/
def slot : ComponentClass where
  name := "Slot"
  lineage := [1]
  properties := some []
  declared := some (.capabilities slotCapabilities)
  hooks := [(.raw, .record), (.append, .record)]
  starts := [("events", .list [])]

/-- A builder that knows slots as well. -/
def slots : Builder := { library := { classes := { all := #[panel, slot] } } }

/-- A slot with a panel and a raw element. An include would be another view. -/
def crowded : Document where
  root := .mk "Slot" []
    [.mk "Panel" [] [] [] [] "first", .mk "rule" [] [] [] [] "",
      .mk "Panel" [] [] [⟨"include", "side"⟩] [] "second"] [] [] ""

/-- A world where slots are registered, too. -/
def slotWorld : World where
  store := world.store
  registries := { all := #[{ types := [("Panel", ⟨"Panel", 0, none, capabilities⟩),
    ("Slot", ⟨"Slot", 1, none, slotCapabilities⟩)] }] }
  loader := world.loader

/-- A builder of the built-in views. -/
def views : Builder := { library := { classes := View.Catalog.classes } }

/-- A world where nothing has been made yet. -/
def emptyWorld : World where
  registries := View.Catalog.registries

/-- A world with one view. -/
def viewWorld : World where
  store := (View.Catalog.classes.instantiate View.Catalog.viewClass {}).2
  registries := View.Catalog.registries

end ViewMarkup.Sample
