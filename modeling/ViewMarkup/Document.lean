import ViewMarkup.Failure
import ViewMarkup.Table
import ViewMarkup.Text.Blank
import ViewMarkup.Xml.Reader

/-!
# Documents

A document is a tree of elements. Instructions belong to the element that they stand in front of,
or to the element at whose end they stand; instructions after the root belong to nothing. The text
of an element is everything that stands directly inside of it, in order.
-/

namespace ViewMarkup

open Text

/-- An instruction to a component: a target and trimmed data. -/
structure Instruction where
  target : String
  data : String := ""
deriving DecidableEq, Repr

/-- One element. `leading` holds the instructions between the element in front and this one,
`trailing` those between the last child and the end. -/
inductive Element where
  | mk (name : String) (attributes : Table String String) (children : List Element)
    (leading trailing : List Instruction) (text : String)
deriving Repr

namespace Element

/-- The name as a key of component types: with its prefix, if the namespace has one. -/
def name : Element → String
  | mk name .. => name

/-- The attributes in document order. -/
def attributes : Element → Table String String
  | mk _ attributes .. => attributes

/-- The elements inside. -/
def children : Element → List Element
  | mk _ _ children .. => children

/-- The instructions in front. -/
def leading : Element → List Instruction
  | mk _ _ _ leading .. => leading

/-- The instructions after the last child. -/
def trailing : Element → List Instruction
  | mk _ _ _ _ trailing _ => trailing

/-- The text directly inside. -/
def text : Element → String
  | mk _ _ _ _ _ text => text

/-- The part of the name before the first colon. -/
def prefix? (e : Element) : Option String :=
  (cutFirst? ':' e.name.toList).map fun (p, _) => String.ofList p

/-- The part of the name after the last colon. -/
def localName (e : Element) : String :=
  ((cutLast? ':' e.name.toList).map fun (_, tail) => String.ofList tail).getD e.name

mutual

/-- The element and all elements inside, in the order of their start tags. -/
def preorder : Element → List Element
  | mk name attributes children leading trailing text =>
    mk name attributes children leading trailing text :: preorderOfList children

/-- Some elements and all elements inside them, in order. -/
def preorderOfList : List Element → List Element
  | [] => []
  | e :: es => preorder e ++ preorderOfList es

end

end Element

/-- A root element with the name that problems are reported under. -/
structure Document where
  root : Element
  name : String := "<string>"
deriving Repr

namespace Document

/-- An element whose end has not been seen. The lists hold what has been seen, last one first. -/
structure Frame where
  name : String
  attributes : Table String String
  leading : List Instruction
  children : List Element := []
  pending : List Instruction := []
  text : List String := []

/-- What has been seen of a document. `spaces` holds the last prefix declared for each namespace
anywhere so far. -/
structure Partial where
  spaces : Table String String := []
  pending : List Instruction := []
  stack : List Frame := []
  root : Option Element := none

/-- The name that a namespace and a name in it are written as here: under the prefix that was last
declared for the namespace, wherever that was. -/
def qualifiedName (spaces : Table String String) (n : Xml.ExpandedName) : String :=
  match n.space with
  | none => n.tail
  | some space =>
    match spaces.get? space with
    | none | some "" => n.tail
    | some pre => pre ++ ":" ++ n.tail

/-- The instruction that a target and data stand for; blanks around the data do not count. -/
def instructionOf (target data : String) : Instruction := { target, data := trim data }

/-- The finished element. -/
def Frame.close (f : Frame) : Element :=
  .mk f.name f.attributes f.children.reverse f.leading f.pending.reverse
    (joined "" f.text.reverse)

/-- Takes in one event. Instructions after the root element, and ends without a start, are
passed over. -/
def Partial.step (p : Partial) : Xml.Event → Partial
  | .declares pre space => { p with spaces := p.spaces.put space pre }
  | .instructs target data =>
    let i := instructionOf target data
    match p.root, p.stack with
    | some _, _ => p
    | none, f :: fs => { p with stack := { f with pending := i :: f.pending } :: fs }
    | none, [] => { p with pending := i :: p.pending }
  | .starts name attributes =>
    let frame (leading : List Instruction) : Frame := {
      name := qualifiedName p.spaces name
      attributes := Table.ofList (attributes.map fun (n, v) => (qualifiedName p.spaces n, v))
      leading := leading.reverse }
    match p.stack with
    | f :: fs => { p with stack := frame f.pending :: { f with pending := [] } :: fs }
    | [] => { p with stack := [frame p.pending], pending := [] }
  | .ends =>
    match p.stack with
    | f :: parent :: fs =>
      { p with stack := { parent with children := f.close :: parent.children } :: fs }
    | [f] => { p with stack := [], root := some f.close }
    | [] => p
  | .characters s =>
    match p.stack with
    | f :: fs => { p with stack := { f with text := s :: f.text } :: fs }
    | [] => p

/-- The root element that some events describe. -/
def rootOf? (events : List Xml.Event) : Option Element :=
  (events.foldl Partial.step {}).root

/-- Reads a document. -/
def read (source : Xml.Input) (name : String) : Except Failure Document :=
  match source.events with
  | .error (.unknownEncoding, _) => .error .unknownEncoding
  | .error (.multiByteEncoding, _) => .error (.invalid .multiByteEncoding)
  | .error (problem, place) =>
    .error (.of (.malformed (.malformed name place.line place.column problem.message)))
  | .ok events =>
    match rootOf? events with
    | some root => .ok { root, name }
    | none => .error (.of (.malformed (.rootless name)))

end Document
end ViewMarkup
