import ViewMarkup.Decoder
import ViewMarkup.Resource

/-!
# Fetching what a text stands for

A text that was read may stand for something in the resources, of which there may be none. Here a
reading becomes a value.
-/

namespace ViewMarkup

/-- Looking something up where there may be no resources at all. -/
abbrev Fetching := ExceptT Failure (StateM (Option Loader))

/-- A look-up in the resources, which fails as given when there are none. -/
def withResources {α : Type} (missing : Failure) (act : Loading α) : Fetching α := fun loader? =>
  match loader? with
  | none => (.error missing, none)
  | some loader =>
    let (answer, loader) := act.run loader
    (answer, some loader)

/-- The value that a reading stands for. A picture is missed under the name of `property`. -/
def Reading.fetch (fs : Files) (property : String) : Reading → Fetching Value
  | .value v => pure v
  | .localized raw key =>
    withResources (.of (.decode (.noStringTable raw))) (Value.text <$> loadText fs key)
  | .picture name =>
    withResources (.of (.decode (.noImageLoader property))) do
      let image ← ((← get).image fs name : Except Failure Image)
      return .image image.width image.height

namespace Decoder

/-- The value that a text stands for as a value of a kind. -/
def fetch (d : Decoder) (fs : Files) (raw : String) (kind : Kind)
    (enumeration : Option Enumeration) : Fetching Value := do
  (← (d.read raw kind enumeration : Except Failure Reading)).fetch fs ""

/-- The value that a text stands for as the value of a property. What goes wrong in reading the
text, and in looking up a text for it, names the property. -/
def fetchProperty (d : Decoder) (fs : Files) (p : Property) (raw : String) : Fetching Value := do
  match ← (d.readProperty p raw : Except Failure Reading) with
  | .localized raw key =>
    ExceptT.adapt (inProperty p.name) ((Reading.localized raw key).fetch fs p.name)
  | reading => reading.fetch fs p.name

end Decoder
end ViewMarkup
