import ViewMarkup.Xml.Content
import ViewMarkup.Xml.Source

/-!
# Reading a document

A document is a declaration, then comments, instructions and at most one document type, then the
root element, then comments and instructions.
-/

namespace ViewMarkup.Xml

/-- What stands before the root element: the document type and the instructions in order. -/
structure Prolog where
  doctype : Doctype := {}
  instructions : List Instruction := []

/-- Reads on to the start of the root element. `atStart` holds at the very start only. -/
def prologFrom : (fuel : Nat) → (atStart hasType : Bool) → Prolog → Step Prolog
  | 0, _, _, p => return p
  | fuel + 1, atStart, hasType, p => do
    let t ← nextRaw
    match t.token with
    | .space | .comment => prologFrom fuel false hasType p
    | .instruction i =>
      prologFrom fuel false hasType { p with instructions := p.instructions ++ [i] }
    | .declaration =>
      if !atStart then unexpected t
      else
        match declarationText? t.start with
        | none => unexpected t
        | some (text, place) =>
          match declaration text with
          | .error rest => fail .malformedDeclaration (place.drop (text.length - rest.length)) false
          | .ok d =>
            prologFrom fuel false hasType { p with doctype := { standalone := d.standalone } }
    | .openDeclaration "DOCTYPE" =>
      if hasType then unexpected t
      else
        let (d, is) ← doctype p.doctype.standalone
        prologFrom fuel false true { doctype := d, instructions := p.instructions ++ is }
    | .rootStart =>
      modify fun c => { c with rest := t.start }
      return p
    | _ => unexpected t

/-- Reads what follows the root element; only comments, instructions and blanks may. -/
def epilog (env : Surroundings) (p : Progress) : (fuel : Nat) → List Char → Except Stop Unit
  | 0, _ => .ok ()
  | fuel + 1, text =>
    match text with
    | [] => if env.tail = 0 then .ok () else .error { problem := .unclosedToken, rest := [] }
    | _ =>
      match scanToken env.alphabet text with
      | .error h => .error (h.stop text (p.skipped.map (·.2)) (some p.again))
      | .ok (t, rest) =>
        match t.token with
        | .space | .comment | .instruction _ => epilog env p fuel rest
        | _ => .error (p.stop .junkAfterRoot text)

/-- The events of a document. -/
def Source.events (s : Source) : Except Stop (List Event) := do
  let alphabet := s.encoding.alphabet
  let (prolog, c) ←
    (prologFrom (s.text.length + 1) true false {}).run
      { alphabet, all := s.text, rest := s.body, tail := s.tail, total := s.total }
  let env : Surroundings := {
    doctype := prolog.doctype, alphabet, tail := s.tail, total := s.total }
  let leading := prolog.instructions.map fun i =>
    Event.instructs (String.ofList i.target) (String.ofList i.data)
  let start : Progress := {
    events := leading.reverse, again := s.text, charged := c.charged
    scope := [("xml", reservedSpace)] }
  let (p, rest) ← content env start c.rest
  epilog env p (rest.length + 1) rest
  match p.skipped with
  | some (name, place) => throw { problem := .skippedEntity name, rest := place }
  | none => return p.events.reverse

/-- A document as it is handed in. -/
inductive Input where
  | text (s : String)
  | bytes (bs : List UInt8)
deriving DecidableEq, Repr

/-- The events of a document, or the problem and its place. -/
def Input.events (i : Input) : Except (Problem × Place) (List Event) :=
  let source : Source :=
    match i with
    | .text s => Source.ofText s
    | .bytes bs => Source.detect bs
  let result : Except (Stop × Source) (List Event) :=
    match i with
    | .text _ => source.events.mapError (·, source)
    | .bytes bs =>
      match source.redeclared bs with
      | .error stop => .error (stop, source)
      | .ok source => source.events.mapError (·, source)
  result.mapError fun (stop, source) => (stop.problem, stop.place source.text)

end ViewMarkup.Xml
