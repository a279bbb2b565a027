import ViewMarkup.Xml.Element

/-!
# Content of elements

The text of an element with everything inside of it, up to its end tag. References to entities are
replaced by what the entities stand for, which is content again and has to be balanced by itself.

Content is read token by token. A problem inside of an entity is told at the reference in the
document that led there.
-/

namespace ViewMarkup.Xml

/-! ## Tokens of content -/

/-- A token of content. -/
inductive ContentToken where
  | characters (cs : List Char)
  | number (c : Option Char)
  | predefined (c : Char)
  | entity (name : String)
  | starts (tag : RawTag)
  | ends (name : String)
  | comment
  | verbatim (cs : List Char)
  | instruction (i : Instruction)

/-- The first character at which a text differs from the one that is wanted. -/
def firstDifference : List Char → List Char → Option (List Char)
  | [], _ => none
  | w :: ws, c :: cs => if w == c then firstDifference ws cs else some (c :: cs)
  | _ :: _, [] => some []

/-- Characters up to markup, to a line end that has to be folded, or to what is not allowed. `out`
holds those read, last one first. -/
def plainCharacters (a : Alphabet) (out : List Char) : List Char → List Char × List Char
  | [] => (out.reverse, [])
  | c :: cs =>
    if c == '<' || c == '&' || !isAllowed c || (c == '\r' && a.foldsLines) then
      (out.reverse, c :: cs)
    else
      match c, cs with
      | ']', ']' :: '>' :: _ => (out.reverse, c :: cs)
      | _, _ => plainCharacters a (c :: out) cs

/-- The text of a character data section up to `]]>`. The end of the text, or of all but one bracket
or two or a carriage return, leaves the section unclosed there. `out` holds what is read, last
character first. -/
def verbatimText (out : List Char) : List Char → Except Stop (List Char × List Char)
  | ']' :: ']' :: '>' :: rest => .ok (out.reverse, rest)
  | [']', ']'] => .error { problem := .unclosedSection, rest := [']', ']'] }
  | [']'] => .error { problem := .unclosedSection, rest := [']'] }
  | ['\r'] => .error { problem := .unclosedSection, rest := ['\r'] }
  | [] => .error { problem := .unclosedSection, rest := [] }
  | c :: cs =>
    if isAllowed c then verbatimText (c :: out) cs
    else if c == cutMark then .error { problem := .partialCharacter, rest := c :: cs }
    else .error { problem := .invalidToken, rest := c :: cs, again := some (c :: cs) }

/-- How many units of an encoding there are, up to six. -/
def unitsUpToSix (a : Alphabet) (tail : Nat) (cs : List Char) : Nat :=
  let bytes := (cs.take 6).foldl (fun n c => n + if c == cutMark then tail else a.width c) 0
  min 6 (bytes / a.unit)

/-- A character data section after `<![`. `start` is what was left of the text at its start. -/
def verbatim (a : Alphabet) (tail : Nat) (start cs : List Char) :
    Except Stop (ContentToken × List Char) :=
  if unitsUpToSix a tail cs < 6 then .error (Halt.ended.stop start none none)
  else
    match firstDifference "CDATA[".toList cs with
    | some other => .error ((Halt.invalid other).stop start none (some other))
    | none => do
      let (text, rest) ← verbatimText [] (cs.drop 6)
      return (.verbatim (if a.foldsLines then normalizeLines text else text), rest)

/-- The token that content starts with; there is some. A problem that does not only show at the end
of the text has a place for the second count to start, which is not the right one yet. -/
def contentToken (a : Alphabet) (tail bound : Nat) (text : List Char) :
    Except Stop (ContentToken × List Char) :=
  let scanned {α : Type} (make : α → ContentToken) (s : Scan (α × List Char)) :
      Except Stop (ContentToken × List Char) :=
    match s with
    | .ok (x, rest) => .ok (make x, rest)
    | .error h => .error (h.stop text none (some text))
  match text with
  | '<' :: '/' :: cs => scanned .ends (endTag a cs)
  | '<' :: '!' :: '-' :: cs =>
    scanned (fun _ => .comment) ((comment cs).map fun rest => ((), rest))
  | '<' :: '!' :: '[' :: cs => verbatim a tail text cs
  | '<' :: '!' :: cs => scanned .characters (halt cs)
  | '<' :: '?' :: cs => scanned .instruction (instruction a cs)
  | '<' :: cs => scanned .starts (startTag a bound cs)
  | '&' :: cs =>
    scanned (fun r =>
      match r with
      | .number c => .number c
      | .predefined c => .predefined c
      | .entity name => .entity name) (reference a cs)
  | ']' :: ']' :: '>' :: rest => scanned .characters (halt ('>' :: rest))
  | '\r' :: cs =>
    if a.foldsLines then
      match cs with
      | '\n' :: rest => .ok (.characters ['\n'], rest)
      | rest => .ok (.characters ['\n'], rest)
    else .ok (.characters ['\r'], cs)
  | cs =>
    match plainCharacters a [] cs with
    | ([], rest) => scanned .characters (haltClass rest)
    | (inside, rest) => .ok (.characters inside, rest)

/-! ## Reading -/

/-- What reading content needs to know of the document and never changes. -/
structure Surroundings where
  doctype : Doctype
  alphabet : Alphabet
  tail : Nat
  total : Nat

/-- An element that is open: its name in the text and the declarations in force around it. -/
structure OpenElement where
  name : String
  outer : Scope

/-- What has been read so far: events, last one first; where a second count would start; the first
reference that was let pass; the bytes that entities have been charged, and those of the document
that count twice; the elements that are open, innermost first; the declarations in force. -/
structure Progress where
  events : List Event := []
  again : List Char
  skipped : Option (String × List Char) := none
  charged : Nat := 0
  recounted : Nat := 0
  opened : List OpenElement := []
  scope : Scope

/-- Adds characters to the text that has been read. -/
def Progress.characters (p : Progress) (cs : List Char) : Progress :=
  if cs.isEmpty then p else { p with events := .characters (String.ofList cs) :: p.events }

/-- Adds events in order. -/
def Progress.add (p : Progress) (es : List Event) : Progress :=
  { p with events := es.reverse ++ p.events }

/-- Gives up at a place, where the text that was taken in showed the problem. -/
def Progress.stop (p : Progress) (problem : Problem) (rest : List Char) : Stop :=
  { problem, rest, first := p.skipped.map (·.2), again := some p.again }

/-- The text that is read: the document itself, or an entity. -/
structure ContentText where
  alphabet : Alphabet
  /-- What was left of the document at the reference to the entity. -/
  reference : Option (List Char) := none
  /-- The entities that are being replaced. -/
  opened : List String := []
  /-- What the bytes charged are compared with, given how many bytes of the document count twice and
  what is left of the text. -/
  meter : Nat → List Char → Meter
  recount : Recount

/-- How many bytes of the text are charged but not read, when so much of it is left. -/
def ContentText.unread (t : ContentText) (rest : List Char) : Thunk Nat :=
  if t.reference.isNone then Thunk.pure 0 else Thunk.mk fun _ => t.alphabet.textWidth rest

/-- Reads an entity in place of a reference: its name and text, what was left of the text at the
reference and behind it. -/
abbrev Replacement :=
  String → List Char → (start rest : List Char) → Progress → Except Problem Progress

/-- A reference to an entity. -/
def refer (env : Surroundings) (t : ContentText) (replace : Replacement) (p : Progress)
    (name : String) (text rest : List Char) : Except Stop Progress :=
  let skip : Progress :=
    { p with skipped := p.skipped.or (some (name, t.reference.getD text)) }
  match env.doctype.entities.get? name with
  | none => if env.doctype.isStrict then .error (p.stop .undefinedEntity text) else .ok skip
  | some .external => .ok skip
  | some .binary => .error (p.stop .binaryEntity text)
  | some (.text cs) =>
    if t.opened.contains name then .error (p.stop .recursiveEntity text)
    else if t.reference.isSome && rest.isEmpty && !p.opened.isEmpty then
      .error (p.stop .asynchronousEntity text)
    else
      match replace name cs text rest p with
      | .ok q => .ok (if t.reference.isNone then { q with again := rest } else q)
      | .error problem => .error { p.stop problem text with again := none }

/-- Takes in a token. `text` and `rest` are what was left of the text in front of it and behind
it. -/
def takeIn (env : Surroundings) (t : ContentText) (replace : Replacement) (p : Progress)
    (text rest : List Char) : ContentToken → Except Stop Progress
  | .characters cs => .ok (p.characters cs)
  | .number none => .error (p.stop .badCharacterReference text)
  | .number (some c) => .ok (p.characters [c])
  | .predefined c => .ok { p.characters [c] with charged := p.charged + 1 }
  | .entity name => refer env t replace p name text rest
  | .comment => .ok p
  | .verbatim cs =>
    let p := p.characters cs
    .ok (if t.reference.isNone then { p with again := rest } else p)
  | .instruction i =>
    if i.target == "xml".toList then .error (p.stop .misplacedDeclaration text)
    else .ok (p.add [.instructs (String.ofList i.target) (String.ofList i.data)])
  | .ends name =>
    match p.opened with
    | [] => .error (p.stop .asynchronousEntity text)
    | e :: outer =>
      if name == e.name then .ok { p.add [.ends] with opened := outer, scope := e.outer }
      else .error (p.stop .mismatchedTag (text.drop 2))
  | .starts tag =>
    let context : TagContext := {
      doctype := env.doctype, alphabet := t.alphabet, opened := t.opened
      meter := (t.meter p.recounted rest).inside (t.unread rest)
      recount := if tag.isEmpty then .never else t.recount }
    match context.openTag p.scope p.charged tag with
    | .error (problem, place) => .error (p.stop problem (place.getD text))
    | .ok o =>
      let q : Progress :=
        { p.add o.events with charged := o.charged, recounted := p.recounted + o.recounted }
      if tag.isEmpty then .ok (q.add [.ends])
      else
        .ok { q with
          opened := { name := tag.name, outer := p.scope } :: p.opened, scope := o.scope }

/-- Reads one token and takes it in. -/
def contentStep (env : Surroundings) (t : ContentText) (replace : Replacement) (bound : Nat)
    (p : Progress) (text : List Char) : Except Stop (Progress × List Char) :=
  match contentToken t.alphabet env.tail bound text with
  | .error s =>
    .error (if s.again.isSome then p.stop s.problem s.rest else s)
  | .ok (token, rest) =>
    if (t.meter p.recounted rest).tolerates p.charged (t.unread rest) then
      (takeIn env t replace p text rest token).map (·, rest)
    else .error (p.stop .amplification text)

/-- Reads the text of an entity up to its end, where no element may be open. -/
def entityContent (env : Surroundings) (t : ContentText) (replace : Replacement) :
    (fuel : Nat) → Progress → List Char → Except Problem Progress
  | 0, p, _ => .ok p
  | fuel + 1, p, text =>
    if text.isEmpty then
      if p.opened.isEmpty then .ok p else .error .asynchronousEntity
    else
      match contentStep env t replace (fuel + 1) p text with
      | .ok (p, rest) => entityContent env t replace fuel p rest
      | .error s => .error s.problem

/-- Reads the document from its first tag until no element is open. A carriage return at its end
might be half of a line end, so that nothing is taken in of it. -/
def documentContent (env : Surroundings) (t : ContentText) (replace : Replacement) :
    (fuel : Nat) → Progress → List Char → Except Stop (Progress × List Char)
  | 0, p, text => .ok (p, text)
  | fuel + 1, p, text =>
    match text with
    | [] => .error { problem := if env.tail = 0 then .noElement else .unclosedToken, rest := [] }
    | [']'] | [']', ']'] => .error { problem := .noElement, rest := [] }
    | ['\r'] => .error { problem := .noElement, rest := text }
    | _ =>
      match contentStep env t replace (fuel + 1) p text with
      | .error s => .error s
      | .ok (p, rest) =>
        if p.opened.isEmpty then .ok (p, rest) else documentContent env t replace fuel p rest

/-- Reads an entity in place of a reference. The elements that are open around it are no business
of its own. -/
def replacement (env : Surroundings) : (depth : Nat) → ContentText → Replacement
  | 0, _ => fun _ _ _ _ p => .ok p
  | depth + 1, outer => fun name cs start rest p =>
    let alphabet := Alphabet.replacement
    let around := (outer.meter p.recounted rest).inside (outer.unread rest)
    let t : ContentText := {
      alphabet, reference := some (outer.reference.getD start), opened := name :: outer.opened
      meter := fun _ _ => around, recount := .expanded }
    let inner := { p with opened := [], charged := p.charged + alphabet.textWidth cs }
    (entityContent { env with tail := 0 } t (replacement env depth t) (cs.length + 1) inner cs).map
      fun q => { q with opened := p.opened }

/-- Reads the root element. -/
def content (env : Surroundings) (p : Progress) (text : List Char) :
    Except Stop (Progress × List Char) :=
  let t : ContentText := {
    alphabet := env.alphabet
    meter := fun recounted rest => {
      bound := 2 * env.total
      direct := Thunk.mk fun _ =>
        env.total - env.tail - env.alphabet.textWidth rest + recounted }
    recount := .direct }
  documentContent env t (replacement env (env.doctype.entities.length + 2) t) (text.length + 1) p
    text

end ViewMarkup.Xml
