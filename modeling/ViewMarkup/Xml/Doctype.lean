import ViewMarkup.Table
import ViewMarkup.Xml.Amplification
import ViewMarkup.Xml.Token
import ViewMarkup.Xml.Value

/-!
# Document type declarations

`<!DOCTYPE name … [ … ]>` may declare entities and default values of attributes. Entities outside
of the document are never fetched; once a declaration might stand outside, references to entities
that are not declared are let pass.
-/

namespace ViewMarkup.Xml

/-- What an entity stands for. -/
inductive Entity where
  | text (cs : List Char)
  | external
  | binary

/-- A declared attribute of an element: whether blanks in its values count, and its default. -/
structure AttributeDefault where
  name : String
  keepsBlanks : Bool
  value : Option String

/-- What has been declared. -/
structure Doctype where
  entities : Table String Entity := []
  defaults : Table String (List AttributeDefault) := []
  standalone : Bool := false
  mayBeElsewhere : Bool := false
  ignoring : Bool := false

/-- An undeclared entity is a problem, unless it may be declared outside. -/
def Doctype.isStrict (d : Doctype) : Bool := !d.mayBeElsewhere || d.standalone

/-- A problem in an attribute value, with its place if that is not the tag itself. -/
abbrev ValueProblem := Problem × Option (List Char)

/-- An attribute value as far as it has been read, and how many bytes have been charged. -/
structure ValueProgress where
  text : String := ""
  charged : Nat

/-- Adds a blank, which does not count at the start or after another one unless blanks are kept. -/
def ValueProgress.blank (v : ValueProgress) (keepsBlanks : Bool) : ValueProgress :=
  if !keepsBlanks && (v.text.isEmpty || v.text.back == ' ') then v
  else { v with text := v.text.push ' ' }

/-- A text that is read as an attribute value or as a part of one. -/
structure ValueText where
  alphabet : Alphabet
  keepsBlanks : Bool
  /-- The closing quote; an entity has none. -/
  quote : Option Char
  /-- The place of a problem, given what was left of the text there. -/
  place : List Char → Option (List Char)
  /-- How many of the bytes that were charged are not read, given what is left of the text. -/
  unread : List Char → Nat
  /-- What the bytes charged are compared with at each token, if they are. -/
  meter : Option Meter

/-- Whether reading may go on at some place. -/
def ValueText.tolerates (t : ValueText) (charged : Nat) (rest : List Char) : Bool :=
  match t.meter with
  | none => true
  | some m => m.tolerates charged (Thunk.mk fun _ => t.unread rest)

/-- How an entity is read as a part of an attribute value: its name and text, how many of the bytes
around it are charged but unread, and the value so far. -/
abbrev ValueReplacement :=
  String → List Char → Thunk Nat → ValueProgress → Except Problem ValueProgress

/-- Adds a token to a value. `text` and `rest` are what was left of the text in front of the token
and behind it. -/
def Doctype.addToken (d : Doctype) (t : ValueText) (replace : ValueReplacement)
    (v : ValueProgress) (text rest : List Char) : ValueToken → Except ValueProblem ValueProgress
  | .run cs => .ok { v with text := v.text ++ String.ofList cs }
  | .blank | .number (some ' ') => .ok (v.blank t.keepsBlanks)
  | .number (some c) => .ok { v with text := v.text.push c }
  | .number none => .error (.badCharacterReference, t.place text)
  | .predefined c => .ok { text := v.text.push c, charged := v.charged + 1 }
  | .entity name =>
    match d.entities.get? name with
    | none => if d.isStrict then .error (.undefinedEntity, none) else .ok v
    | some .binary => .error (.binaryEntity, t.place text)
    | some .external => .error (.externalEntityInAttribute, t.place text)
    | some (.text cs) =>
      (replace name cs (Thunk.mk fun _ => t.unread rest) v).mapError (·, none)
  | .broken place => .error (.invalidToken, t.place place)

/-- Reads a text as a part of an attribute value. -/
def Doctype.addTokens (d : Doctype) (t : ValueText) (replace : ValueReplacement) :
    (fuel : Nat) → ValueProgress → List Char → Except ValueProblem ValueProgress
  | 0, v, _ => .ok v
  | fuel + 1, v, text =>
    match valueToken? t.alphabet t.quote text with
    | none => .ok v
    | some (.broken place, _) => .error (.invalidToken, t.place place)
    | some (token, rest) =>
      if t.tolerates v.charged rest then
        match d.addToken t replace v text rest token with
        | .ok v => d.addTokens t replace fuel v rest
        | .error e => .error e
      else .error (.amplification, none)

/-- Reads an entity as a part of an attribute value; `opened` lists the entities that are being
replaced around it. -/
def Doctype.entityValue (d : Doctype) (keepsBlanks : Bool) :
    (depth : Nat) → (opened : List String) → Meter → String → List Char → Thunk Nat →
      ValueProgress → Except Problem ValueProgress
  | 0, _, _, _, _, _, _ => .error .recursiveEntity
  | depth + 1, opened, meter, name, text, unread, v =>
    if opened.contains name then .error .recursiveEntity
    else
      let alphabet := Alphabet.replacement
      let meter := meter.inside unread
      let t : ValueText := {
        alphabet, keepsBlanks, quote := none, place := fun _ => none, unread := alphabet.textWidth,
        meter := some meter }
      let v := { v with charged := v.charged + alphabet.textWidth text }
      (d.addTokens t (d.entityValue keepsBlanks depth (name :: opened) meter) (text.length + 1) v
        text).mapError (·.1)

/-- How the bytes of a value count, which have been read as a part of a tag or declaration. -/
inductive Recount where
  | never
  | direct
  | expanded
deriving DecidableEq

/-- The attribute value in quotes, with what is charged after it. -/
def Doctype.value (d : Doctype) (a : Alphabet) (keepsBlanks : Bool) (opened : List String)
    (meter : Meter) (recount : Recount) (quote : Char) (inside : List Char) (charged : Nat) :
    Except ValueProblem ValueProgress := do
  let size (cs : List Char) : Nat := a.textWidth (valueText quote cs)
  let t : ValueText := {
    alphabet := a, keepsBlanks, quote := some quote, place := some
    unread := if recount = .expanded then size else fun _ => 0
    meter := if recount = .never then none else some meter }
  let charged := if recount = .expanded then charged + size inside else charged
  let v ← d.addTokens t (d.entityValue keepsBlanks (d.entities.length + 2) opened meter)
    ((valueText quote inside).length + 1) { charged } inside
  if !keepsBlanks && v.text.back == ' ' then
    return { v with text := String.ofList v.text.toList.dropLast }
  else return v

/-- What is read and what is left to read. -/
structure Cursor where
  alphabet : Alphabet
  /-- The text from the beginning. -/
  all : List Char
  rest : List Char
  /-- How many bytes behind the text make up no character of it. -/
  tail : Nat
  /-- How many bytes there are. -/
  total : Nat
  /-- How many bytes entities have been charged. -/
  charged : Nat := 0

/-- A step through the text. -/
abbrev Step (α : Type) := StateT Cursor (Except Stop) α

/-- A token with what was left of the text at its start. -/
structure Placed where
  token : Token
  start : List Char
  onlyAtEnd : Bool

/-- What the bytes of entities are compared with, once the last token has been read. -/
def Cursor.meter (c : Cursor) : Meter where
  bound := c.total
  direct := Thunk.mk fun _ => c.total - c.tail - c.alphabet.textWidth c.rest

/-- Gives up at a place, which the text's end alone may have shown. -/
def fail {α : Type} (problem : Problem) (place : List Char) (onlyAtEnd : Bool) : Step α := do
  let c ← get
  throw { problem, rest := place, again := if onlyAtEnd then none else some c.all }

/-- The next token; the end of the text is a problem here. -/
def nextRaw : Step Placed := do
  let c ← get
  match c.rest with
  | [] => fail (if c.tail = 0 then .noElement else .unclosedToken) [] true
  | start =>
    match scanToken c.alphabet start with
    | .error h => throw (h.stop start none (some c.all))
    | .ok (t, rest) =>
      set { c with rest, tail := if t.onlyAtEnd then 0 else c.tail }
      return ⟨t.token, start, t.onlyAtEnd⟩

/-- The next token that is not a blank, looking at no more than two. -/
def nextToken : Step Placed := do
  let t ← nextRaw
  match t.token with
  | .space => nextRaw
  | _ => return t

/-- The token does not belong here. -/
def unexpected {α : Type} (t : Placed) : Step α :=
  match t.token with
  | .parameterEntity => fail .parameterEntity t.start t.onlyAtEnd
  | .declaration => fail .misplacedDeclaration t.start t.onlyAtEnd
  | _ => fail .unexpected t.start t.onlyAtEnd

/-- A name, with a colon inside only where that may be. -/
def expectName (mayHaveColon : Bool) : Step String := do
  let t ← nextToken
  match t.token with
  | .name s hasColon => if hasColon && !mayHaveColon then unexpected t else return s
  | _ => unexpected t

/-- A literal: its quote and what was left of the text inside of it. -/
def expectLiteral : Step (Char × List Char) := do
  let t ← nextToken
  match t.token with
  | .literal q inside => return (q, inside)
  | _ => unexpected t

/-- The end of a declaration. -/
def expectClose : Step Unit := do
  let t ← nextToken
  match t.token with
  | .close => return
  | _ => unexpected t

/-- The characters of a public identifier. -/
def isPublicIdChar (c : Char) : Bool :=
  c.isAlphanum || "-'()+,./:=?;!*#@$_% \n\r".toList.contains c

/-- A literal that is a public identifier. -/
def expectPublicId : Step Unit := do
  let (q, inside) ← expectLiteral
  let bad := inside.dropWhile fun c => c != q && isPublicIdChar c
  match bad with
  | c :: _ => if c == q then return else fail .badPublicId bad false
  | [] => return

/-- The replacement text of an entity: references to characters are replaced, references to entities
stay. `out` holds what is read, last character first. -/
def entityText (q : Char) (inside : List Char) : Step (List Char) := do
  let c ← get
  go c.alphabet ((valueText q inside).length + 1) [] inside
where
  /-- The text up to the closing quote. -/
  go (a : Alphabet) : (fuel : Nat) → (out : List Char) → List Char → Step (List Char)
    | 0, out, _ | _, out, [] => return out.reverse
    | fuel + 1, out, c :: cs => do
      if c == q then return out.reverse
      else if c == '%' then
        match afterPercent a cs with
        | .ok (.parameterEntity, _) => fail .parameterEntity (c :: cs) false
        | .ok _ => fail .invalidToken cs false
        | .error (.invalid rest) =>
          fail .invalidToken (if rest.head? == some q then c :: cs else rest) false
        | .error _ => fail .invalidToken (c :: cs) false
      else if c == '&' then
        let outcome := reference a cs
        match referenceToken (some q) (c :: cs) outcome with
        | (.number none, _) => fail .badCharacterReference (c :: cs) false
        | (.number (some x), rest) => go a fuel (x :: out) rest
        | (.broken place, _) => fail .invalidToken place false
        | (_, rest) =>
          let kept := (c :: cs).takeWhile (· != ';')
          go a fuel (';' :: kept.reverseAux out) rest
      else if c == '\r' then
        go a fuel ('\n' :: out) (if cs.head? == some '\n' then cs.drop 1 else cs)
      else go a fuel (c :: out) cs

/-- A literal as the replacement text of an entity. It is only looked at as long as declarations
count. -/
def replacementText (d : Doctype) (q : Char) (inside : List Char) : Step (List Char) :=
  if d.ignoring then return [] else entityText q inside

/-- `SYSTEM "…"` or `PUBLIC "…" "…"` after its first word. -/
def externalId (t : Placed) : Step Unit := do
  match t.token with
  | .name "SYSTEM" false => let _ ← expectLiteral
  | .name "PUBLIC" false =>
    expectPublicId
    let _ ← expectLiteral
  | _ => unexpected t

/-- `<!ENTITY …>`. The first declaration of a name counts. -/
def entityDeclaration (d : Doctype) : Step Doctype := do
  let declare (name : String) (e : Entity) : Doctype :=
    if d.ignoring || d.entities.has name || (predefinedEntity? name).isSome then d
    else { d with entities := d.entities.put name e }
  let t ← nextToken
  match t.token with
  | .percent =>
    let _ ← expectName false
    let t ← nextToken
    match t.token with
    | .literal q inside =>
      let _ ← replacementText d q inside
    | _ => externalId t
    expectClose
    return d
  | .name name false =>
    let t ← nextToken
    match t.token with
    | .literal q inside =>
      let text ← replacementText d q inside
      expectClose
      return declare name (.text text)
    | _ =>
      externalId t
      let t ← nextToken
      match t.token with
      | .close => return declare name .external
      | .name "NDATA" false =>
        let _ ← expectName false
        expectClose
        return declare name .binary
      | _ => unexpected t
  | _ => unexpected t

/-- A choice of names in parentheses, after the opening one. -/
def nameGroup (mayBeToken : Bool) : (fuel : Nat) → Step Unit
  | 0 => return
  | fuel + 1 => do
    let t ← nextToken
    match t.token with
    | .name _ hasColon => if hasColon && !mayBeToken then unexpected t
    | .nameToken => if !mayBeToken then unexpected t
    | _ => unexpected t
    let t ← nextToken
    match t.token with
    | .bar => nameGroup mayBeToken fuel
    | .closeParen => return
    | _ => unexpected t

/-- The types of attributes whose values are names or lists of names. -/
def tokenizedTypes : List String :=
  ["ID", "IDREF", "IDREFS", "ENTITY", "ENTITIES", "NMTOKEN", "NMTOKENS"]

/-- The type of an attribute: whether blanks in its values are kept. -/
def attributeType : Step Bool := do
  let t ← nextToken
  match t.token with
  | .name "CDATA" false => return true
  | .name "NOTATION" false =>
    let t ← nextToken
    match t.token with
    | .openParen =>
      nameGroup false (t.start.length + 1)
      return false
    | _ => unexpected t
  | .name s false => if tokenizedTypes.contains s then return false else unexpected t
  | .openParen =>
    nameGroup true (t.start.length + 1)
    return false
  | _ => unexpected t

/-- The default of an attribute. -/
def attributeDefault (d : Doctype) (keepsBlanks : Bool) : Step (Option String) := do
  let value (t : Placed) (q : Char) (inside : List Char) : Step (Option String) := do
    if d.ignoring then return none
    let c ← get
    match d.value c.alphabet keepsBlanks [] c.meter .never q inside c.charged with
    | .ok v =>
      set { c with charged := v.charged }
      return some v.text
    | .error (problem, place) => fail problem (place.getD t.start) false
  let t ← nextToken
  match t.token with
  | .pound "IMPLIED" | .pound "REQUIRED" => return none
  | .pound "FIXED" =>
    let t ← nextToken
    match t.token with
    | .literal q inside => value t q inside
    | _ => unexpected t
  | .literal q inside => value t q inside
  | _ => unexpected t

/-- Records a declared attribute. A default for an attribute that is declared already is left
out. -/
def Doctype.declareAttribute (d : Doctype) (element : String) (a : AttributeDefault) : Doctype :=
  let declared := (d.defaults.get? element).getD []
  if d.ignoring || (a.value.isSome && declared.any (·.name == a.name)) then d
  else { d with defaults := d.defaults.put element (declared ++ [a]) }

/-- The attributes of `<!ATTLIST element …>`, after the name of the element. -/
def attributeDeclarations (element : String) : (fuel : Nat) → Doctype → Step Doctype
  | 0, d => return d
  | fuel + 1, d => do
    let t ← nextToken
    match t.token with
    | .close => return d
    | .name name _ =>
      let keepsBlanks ← attributeType
      let value ← attributeDefault d keepsBlanks
      attributeDeclarations element fuel (d.declareAttribute element { name, keepsBlanks, value })
    | _ => unexpected t

mutual

/-- The content model of an element, after an opening parenthesis or a connector. `connectors`
holds, for every open group, the connector that it uses. -/
def contentModel : (fuel : Nat) → (connectors : List (Option Char)) → Step Unit
  | 0, _ => return
  | fuel + 1, connectors => do
    let t ← nextToken
    match t.token with
    | .openParen => contentModel fuel (none :: connectors)
    | .name _ _ | .repeatedName => afterItem fuel connectors
    | _ => unexpected t

/-- After an item: a connector and the next item, or the end of the group. -/
def afterItem : (fuel : Nat) → (connectors : List (Option Char)) → Step Unit
  | 0, _ => return
  | fuel + 1, connectors => do
    let t ← nextToken
    match t.token with
    | .comma =>
      if connectors.head? == some (some '|') then unexpected t
      else contentModel fuel (some ',' :: connectors.drop 1)
    | .bar =>
      if connectors.head? == some (some ',') then unexpected t
      else contentModel fuel (some '|' :: connectors.drop 1)
    | .closeParen | .closeParenStar | .closeParenOther =>
      match connectors with
      | _ :: outer :: more => afterItem fuel (outer :: more)
      | _ => return
    | _ => unexpected t

end

/-- Mixed content after `#PCDATA`. -/
def mixedContent : (fuel : Nat) → (any : Bool) → Step Unit
  | 0, _ => return
  | fuel + 1, any => do
    let t ← nextToken
    match t.token with
    | .closeParenStar => return
    | .closeParen => if any then unexpected t
    | .bar =>
      let _ ← expectName true
      mixedContent fuel true
    | _ => unexpected t

/-- `<!ELEMENT …>`: only its form matters. -/
def elementDeclaration : Step Unit := do
  let _ ← expectName true
  let t ← nextToken
  match t.token with
  | .name "EMPTY" false | .name "ANY" false => return
  | .openParen =>
    let c ← get
    let t ← nextToken
    match t.token with
    | .pound "PCDATA" => mixedContent (t.start.length + 1) false
    | _ =>
      set c
      contentModel (c.rest.length + 1) [none]
  | _ => unexpected t
  expectClose

/-- `<!NOTATION …>`: only its form matters. -/
def notationDeclaration : Step Unit := do
  let _ ← expectName false
  let t ← nextToken
  match t.token with
  | .name "SYSTEM" false =>
    let _ ← expectLiteral
    expectClose
  | .name "PUBLIC" false =>
    expectPublicId
    let t ← nextToken
    match t.token with
    | .literal _ _ => expectClose
    | .close => return
    | _ => unexpected t
  | _ => unexpected t

/-- The declarations between the brackets, with the instructions among them in order. -/
def internalSubset : (fuel : Nat) → Doctype → List Instruction → Step (Doctype × List Instruction)
  | 0, d, is => return (d, is)
  | fuel + 1, d, is => do
    let t ← nextToken
    match t.token with
    | .closeBracket => return (d, is)
    | .comment => internalSubset fuel d is
    | .instruction i => internalSubset fuel d (is ++ [i])
    | .parameterEntity =>
      internalSubset fuel { d with mayBeElsewhere := true, ignoring := !d.standalone } is
    | .openDeclaration "ENTITY" => internalSubset fuel (← entityDeclaration d) is
    | .openDeclaration "ATTLIST" =>
      let element ← expectName true
      internalSubset fuel (← attributeDeclarations element (t.start.length + 1) d) is
    | .openDeclaration "ELEMENT" =>
      elementDeclaration
      internalSubset fuel d is
    | .openDeclaration "NOTATION" =>
      notationDeclaration
      internalSubset fuel d is
    | _ => unexpected t

/-- The declaration after `<!DOCTYPE`. -/
def doctype (standalone : Bool) : Step (Doctype × List Instruction) := do
  let _ ← expectName true
  let inside (d : Doctype) : Step (Doctype × List Instruction) := do
    let c ← get
    let r ← internalSubset (c.rest.length + 1) d []
    expectClose
    return r
  let t ← nextToken
  match t.token with
  | .close => return ({ standalone }, [])
  | .openBracket => inside { standalone }
  | _ =>
    externalId t
    let d : Doctype := { standalone, mayBeElsewhere := true }
    let t ← nextToken
    match t.token with
    | .close => return (d, [])
    | .openBracket => inside d
    | _ => unexpected t

end ViewMarkup.Xml
