import ViewMarkup.Color.Literal
import ViewMarkup.Files
import ViewMarkup.Text.Identifier
import ViewMarkup.Toml.Reader
import ViewMarkup.Value

/-!
# Settings

How documents are built: which attributes name outlets and bindings, which instructions may be
ignored, and the names of colors, constants and namespaces. Settings are checked when they are made,
and may be read from a file.
-/

namespace ViewMarkup

open Text

/-- Checked settings. -/
structure Settings where
  outletAttribute : String := "id"
  bindPrefix : String := "bind."
  inert : List String := ["comment", "xml-stylesheet"]
  namespaces : Table String Value := []
  colors : Table String String := []
  constants : Table String Number := []
  resourceRoot : Option Path := none
  stringsFile : String := "strings.json"

/-- Whether a text can name an outlet attribute or a color: a letter or underscore, then letters,
digits, underscores, dots and hyphens of ASCII. One line feed may close it. -/
def isSettingName (s : String) : Bool :=
  match withoutClosingFeed s.toList with
  | [] => false
  | c :: cs =>
    (c.isAlpha || c == '_') && cs.all fun c => c.isAlphanum || c == '_' || c == '.' || c == '-'

/-- Checks one entry of a table of colors: it is a color in hexadecimal digits or the name of an
entry. -/
def checkColor (names : List String) (key : String) (v : Value) :
    Except Invalid (String × String) :=
  if !isSettingName key then .error (.colorName key)
  else
    match v with
    | .text s =>
      if Color.isHex s.toList || names.contains s then .ok (key, s) else .error (.colorTarget key)
    | _ => .error (.colorNotText key)

/-- Checks a table of colors. -/
def checkColors (colors : Table String Value) : Except Invalid (Table String String) :=
  colors.mapM fun (key, v) => checkColor colors.keys key v

/-- Checks one named constant: it is a number, and truth values are none. -/
def checkConstant (key : String) (v : Value) : Except Invalid (String × Number) :=
  if !isIdentifier key then .error (.constantName key)
  else
    match v with
    | .int n => .ok (key, .int n)
    | .float x => .ok (key, .float x)
    | _ => .error (.constantNotNumeric key)

/-- Checks a table of constants. -/
def checkConstants (constants : Table String Value) : Except Invalid (Table String Number) :=
  constants.mapM fun (key, v) => checkConstant key v

/-- Settings as they are given; what is not given has its default. -/
structure GivenSettings where
  outletAttribute : Option Value := none
  bindPrefix : Option Value := none
  inert : Option Value := none
  namespaces : Table String Value := []
  colors : Table String Value := []
  constants : Table String Value := []
  resourceRoot : Option Path := none
  stringsFile : Option Value := none

/-- A text that is matched with a pattern. -/
def matchable : Value → Except Failure String
  | .text s => .ok s
  | v => .error (.mistyped (.notText v.plainTypeName))

/-- A text whose blanks do not count. -/
def strippable : Value → Except Failure String
  | .text s => .ok s
  | _ => .error .noAttribute

/-- A target of instructions, if it is a text. A collection could not even be looked for. -/
def target? : Value → Except Failure (Option String)
  | .text s => .ok (some s)
  | .list items => .error (.mistyped (.noKey (Value.list items).plainTypeName))
  | .selection rows => .error (.mistyped (.noKey (Value.selection rows).plainTypeName))
  | _ => .ok none

/-- The targets of instructions that are listed; what is no text is the target of none. -/
def targetsIn : Value → Except Failure (List String)
  | .list items => items.filterMapM target?
  | .text s => .ok (s.toList.map String.singleton)
  | v => .error (.mistyped (.notIterable v.plainTypeName))

/-- What is given, or else a default. -/
def givenOr {α : Type} (read : Value → Except Failure α) (default : α) :
    Option Value → Except Failure α
  | some v => read v
  | none => .ok default

/-- Checks settings. -/
def GivenSettings.check (g : GivenSettings) : Except Failure Settings := do
  let defaults : Settings := {}
  let outletAttribute ← givenOr matchable defaults.outletAttribute g.outletAttribute
  if !isSettingName outletAttribute then throw (.invalid .outletAttribute)
  let bindPrefix ← givenOr strippable defaults.bindPrefix g.bindPrefix
  if isBlankText bindPrefix || bindPrefix == outletAttribute then throw (.invalid .bindPrefix)
  let stringsFile ← givenOr strippable defaults.stringsFile g.stringsFile
  if isBlankText stringsFile then throw (.invalid .stringsFile)
  let inert ← givenOr targetsIn defaults.inert g.inert
  let colors ← (checkColors g.colors).mapError .invalid
  let constants ← (checkConstants g.constants).mapError .invalid
  return {
    outletAttribute, bindPrefix, stringsFile, inert, colors, constants
    namespaces := g.namespaces
    resourceRoot := g.resourceRoot }

namespace Settings

/-- A setting that has to be a text with something in it. -/
def requireText (key : String) : Toml → Except Failure String
  | .text s => if isBlankText s then .error (.invalid (.settingEmpty key)) else .ok s
  | _ => .error (.invalid (.settingEmpty key))

/-- A setting that has to be a table, if it is there. -/
def requireTable (t : List (String × Toml)) (key : String) :
    Except Failure (List (String × Toml)) :=
  match Table.get? (α := Toml) t key with
  | none => .ok []
  | some (.table entries) => .ok entries
  | some _ => .error (.invalid (.settingNotTable key))

/-- A value of a settings file as a value; what is neither text nor number or truth value is told
apart no further. -/
def valueOf : Toml → Value
  | .text s => .text s
  | .int n => .int n
  | .float x => .float x
  | .bool b => .bool b
  | _ => .none

/-- The texts of a list of texts. -/
def textsOf? : Toml → Option (List String)
  | .array items => items.mapM fun
    | .text s => some s
    | _ => none
  | _ => none

/-- The settings in the table `markup` of a settings file that stands in `folder`. -/
def given (folder : Path) (t : List (String × Toml)) : Except Failure GivenSettings := do
  let textSetting (key : String) : Except Failure (Option String) :=
    match Table.get? (α := Toml) t key with
    | none => .ok none
    | some v => (requireText key v).map some
  let given (key : String) : Except Failure (Option Value) := do
    return (← textSetting key).map .text
  let outletAttribute ← given "outlet_attribute"
  let bindPrefix ← given "bind_prefix"
  let stringsFile ← given "strings_file"
  let inert ←
    match Table.get? (α := Toml) t "inert_instructions" with
    | none => pure none
    | some v =>
      match textsOf? v with
      | some texts => pure (some (Value.list (texts.map .text)))
      | none => throw (.invalid .inertNotTexts)
  let namespaces ← requireTable t "namespaces"
  let colors ← requireTable t "colors"
  let constants ← requireTable t "constants"
  let namespaces ← namespaces.mapM fun (key, v) => do
    return (key, Value.text (← requireText ("namespaces." ++ key) v))
  let resourceRoot := (← textSetting "resource_root").map fun s => (folder.join s).resolve
  return {
    outletAttribute, bindPrefix, stringsFile, inert, namespaces, resourceRoot
    colors := colors.map fun (key, v) => (key, valueOf v)
    constants := constants.map fun (key, v) => (key, valueOf v) }

/-- The settings in the text of a settings file, which goes by `name` in messages. -/
def readText (folder : Path) (name text : String) : Except Failure Settings := do
  let given ←
    match Table.get? (α := Toml) (← Toml.read text) "markup" with
    | none => pure {}
    | some (.table t) => given folder t
    | some _ => throw (.invalid (.settingsNotTable name))
  given.check

/-- The settings in a file, which stands in `folder`. -/
def load (fs : Files) (folder : Path) (file : String) : Except Failure Settings := do
  let p := folder.join file
  match ofUtf8 (← fs.read p) with
  | .ok text => readText folder (p.render fs.root) text
  | .error flaw => throw (.invalid (.encoding flaw))

end Settings
end ViewMarkup
