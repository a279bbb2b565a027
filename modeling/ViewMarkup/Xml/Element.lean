import ViewMarkup.Xml.Doctype
import ViewMarkup.Xml.Event

/-!
# Start tags and namespaces

A start tag declares prefixes, and its own name and those of its attributes are expanded with the
declarations that are in force, its own included. The order of the checks is that of the attributes
in the tag; prefixes are looked up when all have been seen.
-/

namespace ViewMarkup.Xml

/-- The namespace that the prefix `xml` always stands for. -/
def reservedSpace : String := "http://www.w3.org/XML/1998/namespace"

/-- The namespace of declarations, which no prefix may stand for. -/
def declarationSpace : String := "http://www.w3.org/2000/xmlns/"

/-- Prefixes in force with their namespaces, innermost first. The empty prefix is the default. -/
abbrev Scope := List (String × String)

/-- The prefix before the colon of a name, and what stands after it. -/
def splitName (name : String) : Option String × String :=
  let cs := name.toList
  match cs.dropWhile (· != ':') with
  | _ :: tail => (some (String.ofList (cs.takeWhile (· != ':'))), String.ofList tail)
  | [] => (none, name)

/-- The prefix that an attribute declares, if it is a declaration; the default is empty. -/
def declaredPrefix? (name : String) : Option String :=
  if name == "xmlns" then some ""
  else
    match splitName name with
    | (some "xmlns", tail) => some tail
    | _ => none

/-- Checks a declaration. -/
def checkDeclaration (pre space : String) : Except Problem Unit :=
  if space.isEmpty && !pre.isEmpty then .error .undeclaredPrefix
  else if pre == "xmlns" then .error .reservedNamespacePrefix
  else if space.toList.contains '}' then .error .unexpected
  else if pre == "xml" then
    if space == reservedSpace then .ok () else .error .reservedPrefix
  else if space == reservedSpace || space == declarationSpace then .error .reservedNamespace
  else .ok ()

/-- The namespace of a prefix. An empty default is none. -/
def Scope.find? (s : Scope) (pre : String) : Option String :=
  match s.lookup pre with
  | some "" => none
  | other => other

/-- The state while the attributes of a tag are gone through. `charged` counts bytes of entities,
`recounted` bytes of the document that count a second time. -/
structure TagState where
  scope : Scope
  charged : Nat
  recounted : Nat
  declared : List (String × String) := []
  attributes : List (String × String) := []
  seen : List String := []

/-- What is known of a tag from around it. The text of its values counts again, unless the tag is an
empty element or nothing has to be replaced in them. -/
structure TagContext where
  doctype : Doctype
  alphabet : Alphabet
  /-- The entities that the tag is inside of. -/
  opened : List String
  meter : Meter
  recount : Recount

/-- Takes in one attribute whose value is known. -/
def TagState.add (t : TagState) (name value : String) : Except Problem TagState := do
  let t := { t with seen := name :: t.seen }
  match declaredPrefix? name with
  | some pre =>
    checkDeclaration pre value
    return { t with scope := (pre, value) :: t.scope, declared := t.declared ++ [(pre, value)] }
  | none => return { t with attributes := t.attributes ++ [(name, value)] }

/-- What counts again of the value of an attribute. -/
def TagContext.recountOf (c : TagContext) (a : RawAttribute) : Recount :=
  if isPlainValue a.quote a.inside then .never else c.recount

/-- Takes in an attribute of the tag. The problem comes with its place, if that is not the tag. -/
def TagState.addRaw (c : TagContext) (element : String) (t : TagState) (a : RawAttribute) :
    Except ValueProblem TagState := do
  if t.seen.contains a.name then throw (.duplicateAttribute, some a.place)
  let declared := ((c.doctype.defaults.get? element).getD []).find? (·.name == a.name)
  let keepsBlanks := (declared.map (·.keepsBlanks)).getD true
  let recount := c.recountOf a
  let recounted :=
    if recount = .direct then t.recounted + c.alphabet.textWidth (valueText a.quote a.inside)
    else t.recounted
  let meter := { c.meter with direct := Thunk.mk fun _ => c.meter.direct.get + recounted }
  let value ←
    c.doctype.value c.alphabet keepsBlanks c.opened meter recount a.quote a.inside t.charged
  ({ t with charged := value.charged, recounted }.add a.name value.text).mapError (·, none)

/-- Takes in the defaults of attributes that the tag does not have. -/
def TagState.addDefaults (d : Doctype) (element : String) (t : TagState) :
    Except ValueProblem TagState :=
  ((d.defaults.get? element).getD []).foldlM (fun t a =>
    match a.value with
    | some v =>
      if t.seen.contains a.name then .ok t
      else (t.add a.name v).mapError (·, none)
    | none => .ok t) t

/-- Expands the name of an attribute: without a prefix it is in no namespace. -/
def expandAttribute (s : Scope) (name : String) : Except Problem ExpandedName :=
  match splitName name with
  | (none, tail) => .ok ⟨none, tail⟩
  | (some pre, tail) =>
    match s.find? pre with
    | some space => .ok ⟨some space, tail⟩
    | none => .error .unboundPrefix

/-- Expands the name of an element: without a prefix it is in the default namespace. -/
def expandElement (s : Scope) (name : String) : Except Problem ExpandedName :=
  match splitName name with
  | (none, tail) => .ok ⟨s.find? "", tail⟩
  | (some pre, tail) =>
    match s.find? pre with
    | some space => .ok ⟨some space, tail⟩
    | none => .error .unboundPrefix

/-- Expands the names of attributes; no two with prefixes may come out the same. -/
def expandAttributes (s : Scope) (attributes : List (String × String)) :
    Except Problem (List (ExpandedName × String)) :=
  go [] attributes
where
  /-- `seen` holds the expanded names that had prefixes. -/
  go (seen : List ExpandedName) : List (String × String) →
      Except Problem (List (ExpandedName × String))
    | [] => .ok []
    | (name, value) :: rest => do
      let expanded ← expandAttribute s name
      if expanded.space.isSome && seen.contains expanded then throw .duplicateAttribute
      return (expanded, value) :: (← go (expanded :: seen) rest)

/-- What a start tag gives: its events, the declarations in force inside the element, and the bytes
that its values count. -/
structure OpenedTag where
  events : List Event
  scope : Scope
  charged : Nat
  recounted : Nat

/-- Goes through a start tag. -/
def TagContext.openTag (c : TagContext) (scope : Scope) (charged : Nat) (tag : RawTag) :
    Except ValueProblem OpenedTag := do
  let t ← tag.attributes.foldlM (TagState.addRaw c tag.name) { scope, charged, recounted := 0 }
  let t ← t.addDefaults c.doctype tag.name
  let attributes ← (expandAttributes t.scope t.attributes).mapError (·, none)
  let name ← (expandElement t.scope tag.name).mapError (·, none)
  let events := t.declared.map (fun (p, s) => .declares p s) ++ [.starts name attributes]
  return { events, scope := t.scope, charged := t.charged, recounted := t.recounted }

end ViewMarkup.Xml
