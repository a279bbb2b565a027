import ViewMarkup.Document

/-!
# Documents in order

The events of a document are those of its root element, with the instructions around it. The root
that is read from them gives them back: walking over the elements passes the start tags, the end
tags and the instructions in the order of the source.

## Main results

* `Document.foldl_events` — what stands inside of an element is added to it, and nothing else
  changes.
* `Element.starts_walk` — the elements come in the order of their start tags.
* `Document.read_inOrder` — the walk over the root of a document is the source up to its end tag.
-/

namespace ViewMarkup

open Text

/-! ## Events of a document -/

namespace Xml

/-- What stands in a document, with the names that are reported: an element with the prefixes that
its start tag declares, an instruction or text. -/
inductive Node where
  | element (declared : List (String × String)) (name : ExpandedName)
    (attributes : List (ExpandedName × String)) (inside : List Node)
  | instruction (target data : String)
  | characters (text : String)

namespace Node

/-- The events of declarations. -/
def declarations (declared : List (String × String)) : List Event :=
  declared.map fun (pre, space) => .declares pre space

mutual

/-- The events in order. -/
def events : Node → List Event
  | element declared name attributes inside =>
    declarations declared ++ .starts name attributes :: eventsOfList inside ++ [.ends]
  | instruction target data => [.instructs target data]
  | characters text => [.characters text]

/-- The events of some nodes in order. -/
def eventsOfList : List Node → List Event
  | [] => []
  | n :: ns => events n ++ eventsOfList ns

end

/-- The text of a node that is text. -/
def direct? : Node → Option String
  | characters text => some text
  | _ => none

mutual

/-- The text directly inside of each element, in the order of the start tags. -/
def texts : Node → List String
  | element _ _ _ inside => joined "" (inside.filterMap direct?) :: textsOfList inside
  | _ => []

/-- The text directly inside of each element of some nodes, in the order of the start tags. -/
def textsOfList : List Node → List String
  | [] => []
  | n :: ns => texts n ++ textsOfList ns

end

end Node
end Xml

/-! ## Walks -/

/-- A name and attributes, as they are found in a document. -/
abbrev Tag := String × Table String String

/-- What is passed on the way through a document. -/
inductive Mark (α : Type) where
  | instruction (i : Instruction)
  | starts (tag : α)
  | ends
deriving DecidableEq

namespace Mark

variable {α β : Type}

/-- The mark with another tag. -/
def map (f : α → β) : Mark α → Mark β
  | instruction i => .instruction i
  | starts tag => .starts (f tag)
  | ends => .ends

/-- The tag of a start. -/
def start? : Mark α → Option α
  | starts tag => some tag
  | _ => none

private theorem filterMap_start?_map (f : α → β) (ms : List (Mark α)) :
    (ms.map (Mark.map f)).filterMap start? = (ms.filterMap start?).map f := by
  rw [List.filterMap_map, List.map_filterMap]
  congr
  funext m
  cases m <;> rfl

/-- No start tag is among instructions. -/
theorem filterMap_start?_instructions (is : List Instruction) :
    (is.map (instruction (α := α))).filterMap start? = [] := by
  induction is with
  | nil => rfl
  | cons i is ih => exact ih

end Mark

namespace Element

/-- Name and attributes. -/
def tag (e : Element) : Tag := (e.name, e.attributes)

mutual

/-- The way through an element: the instructions in front, the start, what is inside, the
instructions after the last child, the end. -/
def walk : Element → List (Mark Element)
  | mk name attributes children leading trailing text =>
    leading.map .instruction ++ .starts (mk name attributes children leading trailing text) ::
      walkOfList children ++ trailing.map .instruction ++ [.ends]

/-- The way through some elements. -/
def walkOfList : List Element → List (Mark Element)
  | [] => []
  | e :: es => walk e ++ walkOfList es

end

private theorem walkOfList_append (es es' : List Element) :
    walkOfList (es ++ es') = walkOfList es ++ walkOfList es' := by
  induction es with
  | nil => rfl
  | cons e es ih => rw [List.cons_append, walkOfList, walkOfList, ih, List.append_assoc]

private theorem preorderOfList_append (es es' : List Element) :
    preorderOfList (es ++ es') = preorderOfList es ++ preorderOfList es' := by
  induction es with
  | nil => rfl
  | cons e es ih => rw [List.cons_append, preorderOfList, preorderOfList, ih, List.append_assoc]

mutual

/-- The elements come in the order of their start tags. -/
theorem starts_walk : (e : Element) → e.walk.filterMap Mark.start? = e.preorder
  | mk name attributes children leading trailing text => by
    simp only [walk, preorder, List.filterMap_append, List.filterMap_cons, Mark.start?,
      Mark.filterMap_start?_instructions, starts_walkOfList children, List.nil_append,
      List.append_nil, List.filterMap_nil]

theorem starts_walkOfList :
    (es : List Element) → (walkOfList es).filterMap Mark.start? = preorderOfList es
  | [] => rfl
  | e :: es => by
    rw [walkOfList, preorderOfList, List.filterMap_append, starts_walk e, starts_walkOfList es]

end

end Element

namespace Document

/-- The prefixes of namespaces after some events. -/
def spacesAfter (spaces : Table String String) : List Xml.Event → Table String String
  | [] => spaces
  | .declares pre space :: es => spacesAfter (spaces.put space pre) es
  | _ :: es => spacesAfter spaces es

/-- The name and attributes that a start tag is read as. -/
def tagOf (spaces : Table String String) (name : Xml.ExpandedName)
    (attributes : List (Xml.ExpandedName × String)) : Tag :=
  (qualifiedName spaces name,
    Table.ofList (attributes.map fun (n, v) => (qualifiedName spaces n, v)))

/-- The start tags, end tags and instructions among some events. -/
def marks (spaces : Table String String) : List Xml.Event → List (Mark Tag)
  | [] => []
  | .declares pre space :: es => marks (spaces.put space pre) es
  | .starts name attributes :: es => .starts (tagOf spaces name attributes) :: marks spaces es
  | .ends :: es => .ends :: marks spaces es
  | .instructs target data :: es => .instruction (instructionOf target data) :: marks spaces es
  | .characters _ :: es => marks spaces es

theorem spacesAfter_append (spaces : Table String String) (es es' : List Xml.Event) :
    spacesAfter spaces (es ++ es') = spacesAfter (spacesAfter spaces es) es' := by
  induction es generalizing spaces with
  | nil => rfl
  | cons e es ih => cases e <;> exact ih _

theorem marks_append (spaces : Table String String) (es es' : List Xml.Event) :
    marks spaces (es ++ es') = marks spaces es ++ marks (spacesAfter spaces es) es' := by
  induction es generalizing spaces with
  | nil => rfl
  | cons e es ih => cases e <;> simp [marks, spacesAfter, ih]

/-! ## Frames -/

namespace Frame

/-- The frame of an element whose start tag has just been read. -/
def opened (tag : Tag) (leading : List Instruction) : Frame :=
  { name := tag.1, attributes := tag.2, leading }

/-- What has been passed inside of an open element. -/
def inside (f : Frame) : List (Mark Tag) :=
  (Element.walkOfList f.children.reverse).map (Mark.map Element.tag) ++
    f.pending.reverse.map .instruction

/-- The texts of the elements inside of an open element. -/
def texts (f : Frame) : List String :=
  (Element.preorderOfList f.children.reverse).map Element.text

private theorem map_instruction (is : List Instruction) :
    (is.map Mark.instruction).map (Mark.map Element.tag) = is.map .instruction := by
  rw [List.map_map]
  rfl

theorem walk_close (f : Frame) :
    f.close.walk.map (Mark.map Element.tag) =
      f.leading.map .instruction ++ .starts (f.name, f.attributes) :: f.inside ++ [.ends] := by
  simp only [close, Element.walk, inside, List.map_append, List.map_cons, map_instruction]
  simp [Mark.map, Element.tag, Element.name, Element.attributes]

theorem texts_close (f : Frame) :
    f.close.preorder.map Element.text = joined "" f.text.reverse :: f.texts := rfl

/-- What becomes of an open element while something inside of it is read: nothing but that is
added. -/
structure Grows (f g : Frame) (marks : List (Mark Tag)) (texts direct : List String) : Prop where
  name : g.name = f.name
  attributes : g.attributes = f.attributes
  leading : g.leading = f.leading
  inside : g.inside = f.inside ++ marks
  texts : g.texts = f.texts ++ texts
  text : g.text = direct.reverse ++ f.text

namespace Grows

variable {f g h : Frame} {ms ms' : List (Mark Tag)} {ts ts' ds ds' : List String}

theorem refl (f : Frame) : f.Grows f [] [] [] := by
  constructor <;> simp

theorem trans (hfg : f.Grows g ms ts ds) (hgh : g.Grows h ms' ts' ds') :
    f.Grows h (ms ++ ms') (ts ++ ts') (ds ++ ds') where
  name := hgh.name.trans hfg.name
  attributes := hgh.attributes.trans hfg.attributes
  leading := hgh.leading.trans hfg.leading
  inside := by rw [hgh.inside, hfg.inside, List.append_assoc]
  texts := by rw [hgh.texts, hfg.texts, List.append_assoc]
  text := by rw [hgh.text, hfg.text, List.reverse_append, List.append_assoc]

end Grows

private theorem grows_instruction (f : Frame) (i : Instruction) :
    f.Grows { f with pending := i :: f.pending } [.instruction i] [] [] := by
  constructor <;> simp [inside, texts]

private theorem grows_characters (f : Frame) (s : String) :
    f.Grows { f with text := s :: f.text } [] [] [s] := by
  constructor <;> simp [inside, texts]

/-- An element that is finished inside of another has taken up the instructions in front of it. -/
theorem grows_child (f : Frame) {g : Frame} {tag : Tag} {ms : List (Mark Tag)}
    {ts ds : List String} (h : (opened tag f.pending.reverse).Grows g ms ts ds) :
    f.Grows { f with pending := [], children := g.close :: f.children }
      (.starts tag :: ms ++ [.ends]) (joined "" ds :: ts) [] where
  name := rfl
  attributes := rfl
  leading := rfl
  inside := by
    have hTag : (g.name, g.attributes) = tag := by rw [h.name, h.attributes]; rfl
    have hWalk := walk_close g
    rw [h.leading, hTag, h.inside] at hWalk
    simp [inside, Element.walkOfList_append, Element.walkOfList, hWalk, opened]
  texts := by
    have hText : g.text.reverse = ds := by simp [h.text, opened]
    have hTexts : g.texts = ts := h.texts
    have hClose := texts_close g
    rw [hText, hTexts] at hClose
    simp [texts, Element.preorderOfList_append, Element.preorderOfList, hClose]
  text := rfl

end Frame

/-! ## Reading -/

variable (spaces : Table String String) (pending : List Instruction) (fs : List Frame)

private theorem foldl_declares (declared : List (String × String)) (p : Partial) :
    (Xml.Node.declarations declared).foldl Partial.step p =
      { p with spaces := spacesAfter p.spaces (Xml.Node.declarations declared) } := by
  induction declared generalizing p with
  | nil => rfl
  | cons d declared ih => exact ih _

theorem foldl_element (declared : List (String × String)) (name : Xml.ExpandedName)
    (attributes : List (Xml.ExpandedName × String)) (inside : List Xml.Node) (p : Partial) :
    (Xml.Node.element declared name attributes inside).events.foldl Partial.step p =
      ((Xml.Node.eventsOfList inside).foldl Partial.step
        (Partial.step { p with spaces := spacesAfter p.spaces (Xml.Node.declarations declared) }
          (.starts name attributes))).step .ends := by
  rw [Xml.Node.events, List.foldl_append, List.foldl_append, foldl_declares]
  rfl

private theorem step_starts (f : Frame) (name : Xml.ExpandedName)
    (attributes : List (Xml.ExpandedName × String)) :
    Partial.step ⟨spaces, pending, f :: fs, none⟩ (.starts name attributes) =
      ⟨spaces, pending, Frame.opened (tagOf spaces name attributes) f.pending.reverse ::
        { f with pending := [] } :: fs, none⟩ := rfl

private theorem marks_declares (declared : List (String × String)) :
    marks spaces (Xml.Node.declarations declared) = [] := by
  induction declared generalizing spaces with
  | nil => rfl
  | cons d declared ih => exact ih _

/-- The start and the end of an element lie around what is inside of it. -/
theorem marks_element (declared : List (String × String)) (name : Xml.ExpandedName)
    (attributes : List (Xml.ExpandedName × String)) (inside : List Xml.Node) :
    let within := spacesAfter spaces (Xml.Node.declarations declared)
    marks spaces (Xml.Node.element declared name attributes inside).events =
      .starts (tagOf within name attributes) ::
        marks within (Xml.Node.eventsOfList inside) ++ [.ends] := by
  simp [Xml.Node.events, marks_append, marks_declares, marks]

theorem spacesAfter_element (declared : List (String × String)) (name : Xml.ExpandedName)
    (attributes : List (Xml.ExpandedName × String)) (inside : List Xml.Node) :
    spacesAfter spaces (Xml.Node.element declared name attributes inside).events =
      spacesAfter (spacesAfter spaces (Xml.Node.declarations declared))
        (Xml.Node.eventsOfList inside) := by
  simp [Xml.Node.events, spacesAfter_append, spacesAfter]

mutual

/-- What stands inside of an element is added to it. The elements around it are left alone. -/
theorem foldl_events : (n : Xml.Node) → (spaces : Table String String) → (f : Frame) →
    (fs : List Frame) → ∃ g, f.Grows g (marks spaces n.events) n.texts n.direct?.toList ∧
      n.events.foldl Partial.step ⟨spaces, pending, f :: fs, none⟩ =
        ⟨spacesAfter spaces n.events, pending, g :: fs, none⟩
  | .element declared name attributes inside, spaces, f, fs => by
    obtain ⟨g, hGrows, hInside⟩ := foldl_eventsOfList inside
      (spacesAfter spaces (Xml.Node.declarations declared))
      (.opened (tagOf _ name attributes) f.pending.reverse) ({ f with pending := [] } :: fs)
    refine ⟨{ f with pending := [], children := g.close :: f.children }, ?_, ?_⟩
    · rw [marks_element]
      exact f.grows_child hGrows
    · rw [spacesAfter_element, foldl_element, step_starts, hInside]
      rfl
  | .instruction target data, spaces, f, fs =>
    ⟨_, f.grows_instruction (instructionOf target data), rfl⟩
  | .characters text, spaces, f, fs => ⟨_, f.grows_characters text, rfl⟩

private theorem foldl_eventsOfList : (ns : List Xml.Node) → (spaces : Table String String) →
    (f : Frame) → (fs : List Frame) →
    ∃ g, f.Grows g (marks spaces (Xml.Node.eventsOfList ns)) (Xml.Node.textsOfList ns)
        (ns.filterMap Xml.Node.direct?) ∧
      (Xml.Node.eventsOfList ns).foldl Partial.step ⟨spaces, pending, f :: fs, none⟩ =
        ⟨spacesAfter spaces (Xml.Node.eventsOfList ns), pending, g :: fs, none⟩
  | [], spaces, f, fs => ⟨f, .refl f, rfl⟩
  | n :: ns, spaces, f, fs => by
    obtain ⟨g, hg, hHead⟩ := foldl_events n spaces f fs
    obtain ⟨h, hh, hTail⟩ := foldl_eventsOfList ns (spacesAfter spaces n.events) g fs
    refine ⟨h, ?_, ?_⟩
    · have hDirect : (n :: ns).filterMap Xml.Node.direct? =
          n.direct?.toList ++ ns.filterMap Xml.Node.direct? := by
        cases hText : n.direct? <;> simp [hText]
      rw [Xml.Node.eventsOfList, marks_append, hDirect]
      exact hg.trans hh
    · rw [Xml.Node.eventsOfList, List.foldl_append, hHead, hTail, spacesAfter_append]

end

/-- The events of instructions, given by targets and data. -/
def instructions (is : List (String × String)) : List Xml.Event :=
  is.map fun (target, data) => .instructs target data

theorem spacesAfter_instructions (is : List (String × String)) :
    spacesAfter spaces (instructions is) = spaces := by
  induction is with
  | nil => rfl
  | cons i is ih => exact ih

theorem marks_instructions (is : List (String × String)) :
    marks spaces (instructions is) =
      (is.map fun (target, data) => instructionOf target data).map .instruction := by
  induction is with
  | nil => rfl
  | cons i is ih =>
    show _ :: marks spaces (instructions is) = _
    rw [ih]
    rfl

/-- Instructions in front of the root are kept for it. -/
theorem foldl_instructions (is : List (String × String)) :
    (instructions is).foldl Partial.step ⟨spaces, pending, [], none⟩ =
      ⟨spaces, (is.map fun (target, data) => instructionOf target data).reverse ++ pending,
        [], none⟩ := by
  induction is generalizing pending with
  | nil => rfl
  | cons i is ih =>
    show (instructions is).foldl Partial.step ⟨spaces, instructionOf i.1 i.2 :: pending, [], none⟩ =
      _
    rw [ih]
    simp

/-- Instructions after the root are passed over. -/
theorem foldl_instructions_of_root (is : List (String × String)) {p : Partial} {root : Element}
    (hRoot : p.root = some root) : (instructions is).foldl Partial.step p = p := by
  induction is with
  | nil => rfl
  | cons i is ih =>
    have hStep : p.step (.instructs i.1 i.2) = p := by simp [Partial.step, hRoot]
    show (instructions is).foldl Partial.step (p.step (.instructs i.1 i.2)) = p
    rw [hStep, ih]

/-- The root element takes up the instructions in front of it. -/
theorem foldl_root (declared : List (String × String)) (name : Xml.ExpandedName)
    (attributes : List (Xml.ExpandedName × String)) (inside : List Xml.Node) :
    let node := Xml.Node.element declared name attributes inside
    let within := spacesAfter spaces (Xml.Node.declarations declared)
    ∃ g, (Frame.opened (tagOf within name attributes) pending.reverse).Grows g
        (marks within (Xml.Node.eventsOfList inside)) (Xml.Node.textsOfList inside)
        (inside.filterMap Xml.Node.direct?) ∧
      node.events.foldl Partial.step ⟨spaces, pending, [], none⟩ =
        ⟨spacesAfter spaces node.events, [], [], some g.close⟩ := by
  intro node within
  obtain ⟨g, hGrows, hInside⟩ := foldl_eventsOfList [] inside within
    (.opened (tagOf within name attributes) pending.reverse) []
  have hStart : Partial.step ⟨within, pending, [], none⟩ (.starts name attributes) =
      ⟨within, [], [.opened (tagOf within name attributes) pending.reverse], none⟩ := rfl
  refine ⟨g, hGrows, ?_⟩
  rw [spacesAfter_element, foldl_element, hStart, hInside]
  rfl

/-- An element is what some events describe: it has been passed in the order of the events, and its
text and that of the elements inside is as given. -/
structure InOrder (root : Element) (events : List Xml.Event) (texts : List String) : Prop where
  walk : root.walk.map (Mark.map Element.tag) = marks [] events
  starts : root.walk.filterMap Mark.start? = root.preorder
  texts : root.preorder.map Element.text = texts

/-- The elements have the names and attributes of the start tags. -/
theorem InOrder.tags {root : Element} {events : List Xml.Event} {texts : List String}
    (h : InOrder root events texts) :
    root.preorder.map Element.tag = (marks [] events).filterMap Mark.start? := by
  rw [← h.walk, Mark.filterMap_start?_map, h.starts]

/-- The root that some events describe, if they are those of an element between instructions, is in
their order up to its end tag. -/
theorem rootOf_inOrder (before after : List (String × String)) (declared : List (String × String))
    (name : Xml.ExpandedName) (attributes : List (Xml.ExpandedName × String))
    (inside : List Xml.Node) :
    let node := Xml.Node.element declared name attributes inside
    ∃ root, InOrder root (instructions before ++ node.events) node.texts ∧
      rootOf? (instructions before ++ node.events ++ instructions after) = some root := by
  intro node
  obtain ⟨g, hGrows, hNode⟩ := foldl_root []
    ((before.map fun (target, data) => instructionOf target data).reverse ++ [])
    declared name attributes inside
  refine ⟨g.close, ?_, ?_⟩
  · constructor
    · rw [marks_append, marks_instructions, spacesAfter_instructions, marks_element,
        Frame.walk_close, hGrows.leading, hGrows.name, hGrows.attributes, hGrows.inside]
      simp [Frame.opened, Frame.inside, Element.walkOfList]
    · exact Element.starts_walk _
    · rw [Frame.texts_close, hGrows.text, hGrows.texts]
      simp [Frame.opened, Frame.texts, Element.preorderOfList, Xml.Node.texts, node]
  · rw [rootOf?, List.foldl_append, List.foldl_append, foldl_instructions, hNode,
      foldl_instructions_of_root _ rfl]

theorem read_of_events {source : Xml.Input} {events : List Xml.Event} {root : Element}
    (hSource : source.events = .ok events) (hRoot : rootOf? events = some root) (name : String) :
    Document.read source name = .ok { root, name } := by
  rw [Document.read, hSource]
  simp only [hRoot]

/-- Reading keeps the order of a document: the walk over the root passes every start tag, end tag
and instruction up to the end tag of the root once and in its place, and what stands after it is
found nowhere. -/
theorem read_inOrder (before after : List (String × String)) (declared : List (String × String))
    (name : Xml.ExpandedName) (attributes : List (Xml.ExpandedName × String))
    (inside : List Xml.Node) :
    let node := Xml.Node.element declared name attributes inside
    let events := instructions before ++ node.events ++ instructions after
    ∃ root, InOrder root (instructions before ++ node.events) node.texts ∧
      rootOf? events = some root ∧
      ∀ source document, source.events = .ok events →
        Document.read source document = .ok { root, name := document } := by
  intro node events
  obtain ⟨root, hOrder, hRoot⟩ := rootOf_inOrder before after declared name attributes inside
  exact ⟨root, hOrder, hRoot, fun source document hSource =>
    read_of_events hSource hRoot document⟩

/-- An instruction belongs to the element behind it, or else to the end of the one around it. -/
example :
    (rootOf? [.starts ⟨none, "Column"⟩ [], .instructs "platform" " macos ",
      .starts ⟨none, "Label"⟩ [], .ends, .instructs "include" "Footer", .ends]).map
        (fun root => (root.children.map Element.leading, root.trailing)) =
      some ([[⟨"platform", "macos"⟩]], [⟨"include", "Footer"⟩]) := by
  decide +kernel

end Document
end ViewMarkup
