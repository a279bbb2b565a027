import ViewMarkup.Text.Quoted
import ViewMarkup.Text.Split
import ViewMarkup.Text.Utf8

/-!
# Failures

Every way in which reading, registering or building can fail is a constructor, and the wording
stands in one function per family. Failures of markup carry the path of the element that they
belong to, once it is known; the others do not come from an element.

## Main results

- `Failure.withPath_withPath`: the first path given to a failure stays.
-/

namespace ViewMarkup

open Text

/-! ## Values that are refused -/

/-- The bytes that have a flaw and their place. Of a single byte the value is told, too. -/
def Text.Flaw.place (f : Flaw) : String :=
  if f.first = f.last then
    "byte 0x" ++ String.ofList (hexDigits 2 f.byte.toNat) ++ " in position " ++ toString f.first
  else "bytes in position " ++ toString f.first ++ "-" ++ toString f.last

/-- Why a value handed to the library is refused. -/
inductive Invalid where
  | colorChannel
  | fontFamily
  | fontWeight
  | fontSize
  | tooManyDigits (count : Nat)
  | propertyName (name : String)
  | enumProperty (name : String)
  | outletAttribute
  | bindPrefix
  | stringsFile
  | colorName (key : String)
  | colorNotText (key : String)
  | colorTarget (key : String)
  | constantName (key : String)
  | constantNotNumeric (key : String)
  | settingsNotTable (path : String)
  | inertNotTexts
  | settingNotTable (key : String)
  | settingEmpty (key : String)
  | componentName (name : String)
  | componentTaken (name owner : String)
  | namespaceName (name : String)
  | namespaceTaken (name target : String)
  | buttonStyle (style : String)
  | boxAxis (style : String)
  | cellStyle (style : String)
  | stringsShape (path : String)
  | stringsText (problem : String)
  | encoding (flaw : Flaw)
  | fromComponent (message : String)
  | emptyModuleName
  | channelNotWhole
  | multiByteEncoding
  | nullInPath
deriving DecidableEq, Repr

/-- The wording of a refusal. -/
def Invalid.message : Invalid → String
  | colorChannel => "color channels must be in [0, 255]"
  | fontFamily => "FontDescriptor requires a non-empty `family`"
  | fontWeight => "FontDescriptor `weight` must be in [1, 1000]"
  | fontSize => "Font `size` must be > 0"
  | tooManyDigits count =>
    "Exceeds the limit (4300 digits) for integer string conversion: value has " ++ toString count ++
      " digits; use sys.set_int_max_str_digits() to increase the limit"
  | propertyName name => "invalid property name: " ++ quoted name
  | enumProperty name => s!"enum property `{name}` requires enum_type"
  | outletAttribute => "`outlet_attribute` must be a valid attribute name"
  | bindPrefix => "`bind_prefix` must be non-empty and differ from `outlet_attribute`"
  | stringsFile => "`strings_file` must be non-empty"
  | colorName key => s!"Color name `{key}` must be an identifier"
  | colorNotText key => s!"Color `{key}` must be a string"
  | colorTarget key =>
    s!"Color `{key}` must be a hex color (#RRGGBB or #AARRGGBB) or another color name"
  | constantName key => s!"Constant name `{key}` must be an identifier"
  | constantNotNumeric key => s!"Constant `{key}` must be numeric"
  | settingsNotTable path => s!"{path}: [markup] must be a table"
  | inertNotTexts => "`inert_instructions` must be a list of strings"
  | settingNotTable key => s!"[markup.{key}] must be a table"
  | settingEmpty key => s!"`{key}` must be a non-empty string"
  | componentName name => "invalid component name: " ++ quoted name
  | componentTaken name owner => s!"component `{name}` is already registered to {owner}"
  | namespaceName name => "invalid namespace prefix: " ++ quoted name
  | namespaceTaken name target => s!"namespace `{name}` is already mapped to `{target}`"
  | buttonStyle style => s!"unknown button style: {style}"
  | boxAxis style => s!"unknown box axis: {style}"
  | cellStyle style => s!"unknown cell style: {style}"
  | stringsShape path => s!"{path} must contain a JSON object of strings"
  | stringsText problem => problem
  | encoding flaw => "'utf-8' codec can't decode " ++ flaw.place ++ ": " ++ flaw.kind.message
  | fromComponent message => message
  | emptyModuleName => "Empty module name"
  | channelNotWhole => "Unknown format code 'X' for object of type 'float'"
  | multiByteEncoding => "multi-byte encodings are not supported"
  | nullInPath => "embedded null byte"

/-- Why a class or an object does not have the shape that an operation needs. -/
inductive Mistyped where
  | capabilities (cls : String)
  | hookMissing (cls flag hook : String)
  | appendMissing (cls : String)
  | factoryMissing (cls : String)
  | duplicateBase (cls : String)
  | noLinearization (bases : List String)
  | relativeModule (name : String)
  | notIndexable (type : String)
  | notIterable (type : String)
  | indexNotInteger (container type : String)
  | textIndexNotInteger (type : String)
  | unordered (operator left right : String)
  | noLength (type : String)
  | notText (type : String)
  | notCallable (type : String)
  | noKey (type : String)
  | notClass (type : String)
  | fixedElements (type : String)
  | tooManyArguments (operation : String) (least most given : Nat)
  | missingArguments (operation : String) (names : List String)
  | unexpectedArgument (operation name : String)
deriving DecidableEq, Repr

/-- Names in quotes as the end of a sentence. -/
def enumerated : List String → String
  | [] => ""
  | [a] => quoted a
  | [a, b] => quoted a ++ " and " ++ quoted b
  | [a, b, c] => quoted a ++ ", " ++ quoted b ++ ", and " ++ quoted c
  | a :: rest => quoted a ++ ", " ++ enumerated rest

/-- The ending of a word for several things. -/
def plural (n : Nat) : String := if n = 1 then "" else "s"

/-- The wording of a shape failure. -/
def Mistyped.message : Mistyped → String
  | capabilities cls => s!"{cls}.MARKUP_CAPABILITIES must be a Capabilities instance"
  | hookMissing cls flag hook => s!"{cls} declares {flag} but does not define {hook}()"
  | appendMissing cls =>
    s!"{cls} accepts child views but does not define append_markup_element_view()"
  | factoryMissing cls => s!"{cls} must define create_for_markup() to be registered with a style"
  | duplicateBase cls => s!"duplicate base class {cls}"
  | noLinearization bases =>
    "Cannot create a consistent method resolution\norder (MRO) for bases " ++ joined ", " bases
  | relativeModule name =>
    "the 'package' argument is required to perform a relative import for " ++ quoted name
  | notIndexable type => s!"'{type}' object is not subscriptable"
  | notIterable type => s!"'{type}' object is not iterable"
  | indexNotInteger container type =>
    s!"{container} indices must be integers or slices, not {type}"
  | textIndexNotInteger type => s!"string indices must be integers, not '{type}'"
  | unordered operator left right =>
    s!"'{operator}' not supported between instances of '{left}' and '{right}'"
  | noLength type => s!"object of type '{type}' has no len()"
  | notText type => s!"expected string or bytes-like object, got '{type}'"
  | notCallable type => s!"'{type}' object is not callable"
  | noKey type => s!"unhashable type: '{type}'"
  | notClass type => s!"__class__ must be set to a class, not '{type}' object"
  | fixedElements type => s!"'{type}' object does not support item assignment"
  | tooManyArguments operation least most given =>
    let taken :=
      if least = most then toString most ++ " positional argument" ++ plural most
      else s!"from {least} to {most} positional arguments"
    s!"{operation}() takes {taken} but {given} " ++
      (if given = 1 then "was" else "were") ++ " given"
  | missingArguments operation names =>
    s!"{operation}() missing {names.length} required positional argument" ++
      plural names.length ++ ": " ++ enumerated names
  | unexpectedArgument operation name =>
    s!"{operation}() got an unexpected keyword argument '{name}'"

/-! ## Failures of markup -/

/-- Why a raw text is no value of the kind that is wanted. -/
inductive DecodeFault where
  | notInteger (raw : String)
  | notNumber (raw : String)
  | notBoolean (raw : String)
  | notColor (raw : String)
  | notFont (raw : String)
  | notFontSize (raw : String)
  | noFamily
  | sizeNotPositive
  | aliasCycle (chain : List String)
  | noEnumeration
  | notLiteral (kind : String)
  | noStringTable (raw : String)
  | noImageLoader (property : String)
  | notMember (token enumeration : String)
  | unknownMember (raw enumeration : String) (choices : List String)
  | segmentIncomplete
  | rowIncomplete
  | inProperty (name : String) (fault : DecodeFault)
  | refused (property : String) (why : Invalid)
deriving Repr

/-- The wording of a decoding failure. -/
def DecodeFault.message : DecodeFault → String
  | notInteger raw => s!"`{raw}` is not an integer"
  | notNumber raw => s!"`{raw}` is not a number"
  | notBoolean raw => s!"`{raw}` is not a boolean (expected true/false)"
  | notColor raw => s!"`{raw}` is not a color (expected #RRGGBB, #AARRGGBB or a color name)"
  | notFont raw => s!"`{raw}` is not a font (expected Family-Style,Size)"
  | notFontSize raw => s!"`{raw}` is not a font size"
  | noFamily => "font family must be non-empty"
  | sizeNotPositive => "font size must be > 0"
  | aliasCycle chain => "color alias cycle: " ++ joined " -> " chain
  | noEnumeration => "enum value requires an enumeration type"
  | notLiteral kind => s!"kind `{kind}` is not decoded from a literal"
  | noStringTable raw => s!"no string table available for localized value `{raw}`"
  | noImageLoader property => s!"no image loader available for `{property}`"
  | notMember token enumeration => s!"{token} is not a valid {enumeration}"
  | unknownMember raw enumeration choices =>
    s!"`{raw}` is not a {enumeration} (expected one of: " ++ joined ", " choices ++ ")"
  | segmentIncomplete => "`<segment>` requires a `title` or an `image`"
  | rowIncomplete => "`<row>` requires a `title`"
  | inProperty name fault => s!"`{name}`: " ++ fault.message
  | refused property why => s!"`{property}`: " ++ why.message

/-- Why a document is not one that can be read or built. -/
inductive SyntaxFault where
  | malformed (document : String) (line column : Nat) (problem : String)
  | rootless (document : String)
  | rawChildren (element : String)
  | rawInstructions (element : String)
  | includeUnnamed
deriving DecidableEq, Repr

/-- The wording of a structural failure. -/
def SyntaxFault.message : SyntaxFault → String
  | malformed document line column problem =>
    s!"{document}:{line}:{column}: {problem}: line {line}, column {column}"
  | rootless document => s!"{document}: document has no root element"
  | rawChildren element => s!"`{element}` may not contain nested elements"
  | rawInstructions element => s!"`{element}` may not contain processing instructions"
  | includeUnnamed => "`include` requires a document name"

/-- Why an element has no type here. -/
inductive ElementFault where
  | unknown (name : String)
  | noChildren (cls : String)
  | moduleMissing (name module problem : String)
  | rawRefused (cls element : String)
deriving DecidableEq, Repr

/-- The wording of an element failure. -/
def ElementFault.message : ElementFault → String
  | unknown name => s!"unknown element `{name}`"
  | noChildren cls => s!"{cls} does not accept child elements"
  | moduleMissing name module problem =>
    s!"cannot import namespace `{name}` module `{module}`: {problem}"
  | rawRefused cls element => s!"{cls} does not accept `<{element}>`"

/-- Why a property name is no settable property of an object. -/
inductive PropertyFault where
  | undeclared (cls name : String)
  | notNested (cls name : String)
  | unset (cls name : String)
  | readOnly (cls name : String)
deriving DecidableEq, Repr

/-- The wording of a property failure. -/
def PropertyFault.message : PropertyFault → String
  | undeclared cls name => s!"{cls} has no markup property `{name}`"
  | notNested cls name => s!"`{name}` of {cls} has no nested properties"
  | unset cls name => s!"`{name}` of {cls} is not set"
  | readOnly cls name => s!"`{name}` of {cls} is not settable"

/-- Why an instruction is not carried out. -/
inductive InstructionFault where
  | includeBeforeRoot
  | refused (cls target : String)
  | rejected (cls target : String)
  | noPlatform
deriving DecidableEq, Repr

/-- The wording of an instruction failure. -/
def InstructionFault.message : InstructionFault → String
  | includeBeforeRoot => "`include` cannot precede the root element"
  | refused cls target => s!"{cls} does not accept instruction <?{target}?>"
  | rejected cls target => s!"{cls} rejects <?{target}?>"
  | noPlatform => "<?platform?> requires at least one platform name"

/-- Why two properties cannot be bound. -/
inductive BindingFault where
  | invalidPath (path : String)
  | missing (type segment path : String)
  | noOwner (viewPath : String)
  | notReferenceable (viewPath type : String)
  | unbindable (owner view blocked : String)
deriving DecidableEq, Repr

/-- The wording of a binding failure. -/
def BindingFault.message : BindingFault → String
  | invalidPath path => "invalid property path: " ++ quoted path
  | missing type segment path => s!"{type} has no property `{segment}` (path `{path}`)"
  | noOwner viewPath => s!"cannot bind `{viewPath}` without an owner"
  | notReferenceable viewPath type =>
    s!"cannot bind `{viewPath}`: {type} is not weakly referenceable"
  | unbindable owner view blocked =>
    s!"cannot bind {owner} to {view}: cannot create weak reference to '{blocked}' object"

/-- Why a resource is not there. -/
inductive ResourceFault where
  | image (name : String)
  | imageUnder (name root : String)
  | imageUnreadable (path : String)
  | text (key : String)
  | document (name : String)
deriving DecidableEq, Repr

/-- The wording of a resource failure. -/
def ResourceFault.message : ResourceFault → String
  | image name => s!"image not found: {name}"
  | imageUnder name root => s!"image not found: {name} (searched under {root})"
  | imageUnreadable path => s!"image is not readable: {path}"
  | text key => s!"localized string not found: {key}"
  | document name => s!"document not found: {name}"

/-- Why a supplied root does not fit the document. -/
inductive RootFault where
  | missing
  | mismatch (given declared : String)
deriving DecidableEq, Repr

/-- The wording of a root failure. -/
def RootFault.message : RootFault → String
  | missing => "`root` element requires a root instance"
  | mismatch given declared => s!"root instance is {given}, document declares {declared}"

/-- Why one more child is one too many. -/
inductive ChildFault where
  | single (cls : String)
  | occupied (cls : String)
deriving DecidableEq, Repr

/-- The wording of a failure to take a child. -/
def ChildFault.message : ChildFault → String
  | single cls => s!"{cls} accepts a single child view"
  | occupied cls => s!"{cls} already has a content view"

/-- Where unexpected text stands. -/
inductive TextFault where
  | refused (element : String)
  | inRaw (element : String)
deriving DecidableEq, Repr

/-- The wording of unexpected text. -/
def TextFault.message : TextFault → String
  | refused element => s!"`{element}` does not accept text content"
  | inRaw element => s!"`{element}` may not contain text content"

/-- Everything that can be wrong with markup. -/
inductive Fault where
  | decode (why : DecodeFault)
  | malformed (why : SyntaxFault)
  | text (why : TextFault)
  | includeCycle (chain : List String)
  | element (why : ElementFault)
  | property (why : PropertyFault)
  | outlet (owner name : String)
  | child (why : ChildFault)
  | root (why : RootFault)
  | resource (why : ResourceFault)
  | instruction (why : InstructionFault)
  | binding (why : BindingFault)
deriving Repr

/-- The wording of a markup failure, without its place. -/
def Fault.message : Fault → String
  | decode why => why.message
  | malformed why => why.message
  | text why => why.message
  | includeCycle chain => "recursive include: " ++ joined " -> " chain
  | element why => why.message
  | property why => why.message
  | outlet owner name => s!"{owner} has no outlet field `{name}`"
  | child why => why.message
  | root why => why.message
  | resource why => why.message
  | instruction why => why.message
  | binding why => why.message

/-! ## All failures -/

/-- Every failure of an operation of the library. -/
inductive Failure where
  | markup (fault : Fault) (path : Option String)
  | invalid (why : Invalid)
  | mistyped (why : Mistyped)
  | numberTooLarge
  | noAttribute
  | frozen
  | indexOutOfRange
  | keyMissing
  | unknownEncoding
  | fileMissing
  | fileIsDirectory
  | fileInsideFile
  | fileNameTooLong
  | endlessTree
  | settingsSyntax
deriving Repr

/-- A markup failure whose place is not known yet. -/
def Failure.of (fault : Fault) : Failure := .markup fault none

/-- Places a failure of markup at an element, unless it has a place already. -/
def Failure.withPath (path : String) : Failure → Failure
  | .markup fault none => .markup fault (some path)
  | failure => failure

/-- The full wording: a failure of markup starts with its place. -/
def Failure.message : Failure → String
  | .markup fault none => fault.message
  | .markup fault (some path) =>
    if path.isEmpty then fault.message else s!"{path}: " ++ fault.message
  | .invalid why => why.message
  | .mistyped why => why.message
  | .numberTooLarge => "the number is beyond every double"
  | .noAttribute => "the object has no such attribute"
  | .frozen => "the value cannot be changed"
  | .indexOutOfRange => "the index is out of range"
  | .keyMissing => "nothing is under the key"
  | .unknownEncoding => "the encoding is not known"
  | .fileMissing => "the file does not exist"
  | .fileIsDirectory => "the path is a directory"
  | .fileInsideFile => "the path goes through a file"
  | .fileNameTooLong => "a part of the path is too long"
  | .endlessTree => "the tree has itself inside"
  | .settingsSyntax => "the settings file is not well formed"

/-- The place nearest to the failure wins. -/
theorem Failure.withPath_withPath (p q : String) (f : Failure) :
    (f.withPath p).withPath q = f.withPath p := by
  match f with
  | .markup _ none => rfl
  | .markup _ (some _) => rfl
  | .invalid _ | .mistyped _ | .numberTooLarge | .noAttribute | .frozen | .indexOutOfRange
  | .keyMissing | .unknownEncoding | .fileMissing | .fileIsDirectory | .fileInsideFile
  | .fileNameTooLong | .endlessTree | .settingsSyntax => rfl

end ViewMarkup
