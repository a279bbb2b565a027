import ViewMarkup.Proofs.Document.Order
import ViewMarkup.Proofs.Outcome

/-!
# Names of documents

A name is written with a prefix or without, and expanded with the declarations in force. A document
holds it under the prefix that was last declared for the namespace, anywhere in front of it: the
scope in which a prefix was declared plays no role, and the default namespace counts as a
declaration of the empty prefix. So a name is found as it was written only where the two agree.

## Main results

* `Xml.Written.nameFound_eq_iff` — when the name of an element is found as it was written.
* `Xml.Written.attributesFound_eq_iff` — when the attributes are, with their number and order.
* `Xml.Markup.marks_report` — the start tags that are found in the events of a document.
* `Xml.TagContext.report_of_openTag` — what the reader makes of a start tag is what is reported.
* `Document.rootOf_names` — the names of a document, and when they are the ones written.
-/

namespace ViewMarkup

open Document

namespace Xml

/-! ## Documents as they are written -/

/-- What stands in a document, with names and declarations as they are written. -/
inductive Markup where
  | element (name : String) (attributes : List (String × String)) (inside : List Markup)
  | instruction (target data : String)
  | characters (text : String)

/-- The declarations among the attributes of a tag. -/
def declarationsIn (attributes : List (String × String)) : List (String × String) :=
  attributes.filterMap fun (name, value) => (declaredPrefix? name).map (·, value)

/-- The attributes that are no declarations. -/
def attributesIn (attributes : List (String × String)) : List (String × String) :=
  attributes.filter fun (name, _) => (declaredPrefix? name).isNone

/-- Takes in an attribute whose value is known, unless there was one of its name. -/
def TagState.take (t : TagState) (a : String × String) : Except Problem TagState :=
  if t.seen.contains a.1 then .error .duplicateAttribute else t.add a.1 a.2

namespace Markup

mutual

/-- What is reported of a node where some declarations are in force, if its names are
well-formed. -/
def report (scope : Scope) : Markup → Except Problem Node
  | element name attributes inside => do
    let t ← attributes.foldlM TagState.take { scope, charged := 0, recounted := 0 }
    let expanded ← expandAttributes t.scope t.attributes
    let expandedName ← expandElement t.scope name
    return .element t.declared expandedName expanded (← reportOfList t.scope inside)
  | instruction target data => return .instruction target data
  | characters text => return .characters text

/-- What is reported of some nodes. -/
def reportOfList (scope : Scope) : List Markup → Except Problem (List Node)
  | [] => return []
  | m :: ms => return (← report scope m) :: (← reportOfList scope ms)

end

mutual

/-- All declarations in a node, in order. -/
def declarations : Markup → List (String × String)
  | element _ attributes inside => declarationsIn attributes ++ declarationsOfList inside
  | _ => []

/-- All declarations in some nodes, in order. -/
def declarationsOfList : List Markup → List (String × String)
  | [] => []
  | m :: ms => declarations m ++ declarationsOfList ms

end

end Markup

/-- The prefixes of namespaces after some declarations. -/
def declareAll (spaces : Table String String) (declared : List (String × String)) :
    Table String String :=
  spaces.putAll (declared.map fun (pre, space) => (space, pre))

/-- A start tag in its place: its name and its attributes, other than declarations, as they are
written; the declarations in force for it; the last prefix that was declared for each namespace
anywhere so far. -/
structure Written where
  name : String
  attributes : List (String × String)
  scope : Scope
  spaces : Table String String

namespace Markup

mutual

/-- The start tags of a node in order. -/
def tags (scope : Scope) (spaces : Table String String) : Markup → List Written
  | element name attributes inside =>
    let declared := declarationsIn attributes
    let inner := declared.reverse ++ scope
    let known := declareAll spaces declared
    { name, attributes := attributesIn attributes, scope := inner, spaces := known } ::
      tagsOfList inner known inside
  | _ => []

/-- The start tags of some nodes in order. -/
def tagsOfList (scope : Scope) (spaces : Table String String) : List Markup → List Written
  | [] => []
  | m :: ms => tags scope spaces m ++ tagsOfList scope (declareAll spaces (declarations m)) ms

end

end Markup

/-! ## Expanded names -/

/-- The expanded form of a name. Without a prefix it is in the namespace given. -/
def Scope.expand (s : Scope) (default : Option String) (name : String) : ExpandedName :=
  match splitName name with
  | (none, tail) => ⟨default, tail⟩
  | (some pre, tail) => ⟨s.find? pre, tail⟩

private theorem splitName_none {name tail : String} (h : splitName name = (none, tail)) :
    tail = name := by
  unfold splitName at h
  dsimp only at h
  split at h
  · cases h
  · exact (Prod.mk.inj h).2.symm

private theorem splitName_some {name pre tail : String} (h : splitName name = (some pre, tail)) :
    name = pre ++ ":" ++ tail := by
  unfold splitName at h
  dsimp only at h
  split at h
  case h_1 c cs hDrop =>
    obtain ⟨hPre, hTail⟩ := Prod.mk.inj h
    have hColon : c = ':' := by
      have hHead := List.head_dropWhile_not (p := (· != ':')) (l := name.toList)
        (by rw [hDrop]; simp)
      simpa [hDrop] using hHead
    have hName := List.takeWhile_append_dropWhile (p := (· != ':')) (l := name.toList)
    rw [hDrop, hColon] at hName
    apply String.toList_inj.1
    rw [← hName, ← Option.some.inj hPre, ← hTail]
    simp
  case h_2 => cases h

private theorem expandAttribute_eq_ok {s : Scope} {name : String} {n : ExpandedName}
    (h : expandAttribute s name = .ok n) : n = s.expand none name := by
  unfold expandAttribute at h
  unfold Scope.expand
  generalize splitName name = split at h ⊢
  obtain ⟨_ | pre, tail⟩ := split
  · exact (Except.ok.inj h).symm
  · cases hFind : s.find? pre with
    | none => simp [hFind] at h
    | some space => simpa [hFind] using h.symm

private theorem expandElement_eq_ok {s : Scope} {name : String} {n : ExpandedName}
    (h : expandElement s name = .ok n) : n = s.expand (s.find? "") name := by
  unfold expandElement at h
  unfold Scope.expand
  generalize splitName name = split at h ⊢
  obtain ⟨_ | pre, tail⟩ := split
  · exact (Except.ok.inj h).symm
  · cases hFind : s.find? pre with
    | none => simp [hFind] at h
    | some space => simpa [hFind] using h.symm

private theorem expandAttributes_eq_ok {s : Scope} {attributes : List (String × String)}
    {expanded : List (ExpandedName × String)} (h : expandAttributes s attributes = .ok expanded) :
    expanded = attributes.map fun (n, v) => (s.expand none n, v) := by
  unfold expandAttributes at h
  generalize [] = seen at h
  induction attributes generalizing seen expanded with
  | nil => exact (Except.ok.inj h).symm
  | cons a attributes ih =>
    obtain ⟨name, value⟩ := a
    rw [expandAttributes.go] at h
    obtain ⟨n, hName, h⟩ := exists_of_bind_eq_ok h
    dsimp only at h
    split at h
    case isTrue => cases h
    obtain ⟨rest, hRest, h⟩ := exists_of_bind_eq_ok h
    rw [← Except.ok.inj h, ih _ hRest, expandAttribute_eq_ok hName]
    rfl

/-! ## Start tags -/

/-- What has been taken in of a tag after some more attributes. -/
structure TagState.Took (t : TagState) (taken : List (String × String)) (t' : TagState) : Prop where
  declared : t'.declared = t.declared ++ declarationsIn taken
  scope : t'.scope = (declarationsIn taken).reverse ++ t.scope
  attributes : t'.attributes = t.attributes ++ attributesIn taken
  seen : t'.seen = (taken.map (·.1)).reverse ++ t.seen
  nodup : t.seen.Nodup → t'.seen.Nodup

private theorem TagState.took_take {t t' : TagState} {a : String × String} (h : t.take a = .ok t') :
    t.Took [a] t' := by
  obtain ⟨name, value⟩ := a
  unfold TagState.take at h
  split at h
  case isTrue => cases h
  case isFalse hSeen =>
    have hNew : name ∉ t.seen := by simpa using hSeen
    unfold TagState.add at h
    cases hPrefix : declaredPrefix? name with
    | some pre =>
      simp only [hPrefix] at h
      obtain ⟨_, _, h⟩ := exists_of_bind_eq_ok h
      cases h
      constructor <;> simp [declarationsIn, attributesIn, hPrefix, hNew]
    | none =>
      simp only [hPrefix] at h
      cases h
      constructor <;> simp [declarationsIn, attributesIn, hPrefix, hNew]

theorem TagState.Took.trans {t u v : TagState} {taken taken' : List (String × String)}
    (h : t.Took taken u) (h' : u.Took taken' v) : t.Took (taken ++ taken') v where
  declared := by simp [h'.declared, h.declared, declarationsIn]
  scope := by simp [h'.scope, h.scope, declarationsIn]
  attributes := by simp [h'.attributes, h.attributes, attributesIn]
  seen := by simp [h'.seen, h.seen]
  nodup := h'.nodup ∘ h.nodup

theorem TagState.took_foldlM {taken : List (String × String)} {t t' : TagState}
    (h : taken.foldlM TagState.take t = .ok t') : t.Took taken t' := by
  induction taken generalizing t with
  | nil =>
    cases h
    constructor <;> simp [declarationsIn, attributesIn]
  | cons a taken ih =>
    rw [List.foldlM_cons] at h
    obtain ⟨u, hTake, h⟩ := exists_of_bind_eq_ok h
    exact (took_take hTake).trans (ih h)

/-! ## Names that are found -/

private theorem append_colon_ne (pre tail : String) : pre ++ ":" ++ tail ≠ tail := by
  intro h
  have hLength := congrArg String.length h
  have hColon : ":".length = 1 := rfl
  simp only [String.length_append] at hLength
  omega

private theorem append_colon_inj {pre pre' tail : String} :
    pre ++ ":" ++ tail = pre' ++ ":" ++ tail ↔ pre = pre' := by
  constructor
  · intro h
    have hList := congrArg String.toList h
    simp only [String.toList_append, List.append_cancel_right_eq] at hList
    exact String.toList_inj.1 hList
  · intro h
    rw [h]

/-- Without a prefix for its namespace a name is found bare. -/
theorem qualifiedName_bare {spaces : Table String String} {space tail : String}
    (h : ∀ pre ∈ spaces.get? space, pre = "") :
    Document.qualifiedName spaces ⟨some space, tail⟩ = tail := by
  unfold Document.qualifiedName
  cases hGet : spaces.get? space with
  | none => simp only [hGet]
  | some pre =>
    have hEmpty := h pre hGet
    subst hEmpty
    simp only [hGet]

private theorem qualifiedName_under {spaces : Table String String} {space tail pre : String}
    (hGet : spaces.get? space = some pre) (hPre : pre ≠ "") :
    Document.qualifiedName spaces ⟨some space, tail⟩ = pre ++ ":" ++ tail := by
  unfold Document.qualifiedName
  simp only [hGet]

namespace Written

variable (w : Written)

/-- A name is held under the prefix it was written with: no prefix has been declared for the default
namespace after it, or the one written is the last that has been declared for its namespace. -/
def Keeps (default : Option String) (name : String) : Prop :=
  match (splitName name).1 with
  | none => ∀ space ∈ default, ∀ pre ∈ w.spaces.get? space, pre = ""
  | some pre => pre ≠ "" ∧ ∃ space ∈ w.scope.find? pre, w.spaces.get? space = some pre

/-- The name and the attributes that the tag is found with. -/
def found : Tag :=
  tagOf w.spaces (w.scope.expand (w.scope.find? "") w.name)
    (w.attributes.map fun (n, v) => (w.scope.expand none n, v))

/-- The name of the element is held as it was written. -/
def KeepsName : Prop := w.Keeps (w.scope.find? "") w.name

/-- The names of the attributes are held as they were written. An attribute without a prefix is in
no namespace. -/
def KeepsAttributes : Prop := ∀ a ∈ w.attributes, w.Keeps none a.1

/-- All names of the tag are held as they were written. -/
structure KeepsAll : Prop where
  name : w.KeepsName
  attributes : w.KeepsAttributes

/-- The tag as it is written. -/
def tag : Tag := (w.name, w.attributes)

theorem qualifiedName_eq_iff (default : Option String) (name : String) :
    Document.qualifiedName w.spaces (w.scope.expand default name) = name ↔
      w.Keeps default name := by
  unfold Keeps Scope.expand
  rcases hSplit : splitName name with ⟨_ | pre, tail⟩
  · have hTail := splitName_none hSplit
    subst hTail
    cases default with
    | none => simp [Document.qualifiedName]
    | some space =>
      by_cases hBare : ∀ pre ∈ w.spaces.get? space, pre = ""
      · simpa [qualifiedName_bare hBare] using hBare
      · obtain ⟨pre, hGet, hPre⟩ : ∃ pre, w.spaces.get? space = some pre ∧ pre ≠ "" := by
          simpa using hBare
        simp [qualifiedName_under hGet hPre, hGet, hPre]
  · have hName := splitName_some hSplit
    subst hName
    dsimp only
    cases hFind : w.scope.find? pre with
    | none => simpa [Document.qualifiedName] using (append_colon_ne pre tail).symm
    | some space =>
      by_cases hBare : ∀ q ∈ w.spaces.get? space, q = ""
      · rw [qualifiedName_bare hBare]
        constructor
        · intro h
          exact absurd h.symm (append_colon_ne pre tail)
        · rintro ⟨hPre, _, hSpace, hGet⟩
          cases hSpace
          exact absurd (hBare pre hGet) hPre
      · obtain ⟨q, hGet, hq⟩ : ∃ q, w.spaces.get? space = some q ∧ q ≠ "" := by
          simpa using hBare
        rw [qualifiedName_under hGet hq, append_colon_inj]
        constructor
        · rintro rfl
          exact ⟨hq, space, rfl, hGet⟩
        · rintro ⟨_, _, hSpace, hGet'⟩
          cases hSpace
          exact Option.some.inj (hGet.symm.trans hGet')

/-- When the name of an element is found as it was written. -/
theorem nameFound_eq_iff : w.found.1 = w.name ↔ w.KeepsName :=
  w.qualifiedName_eq_iff _ _

/-- What is found of the attributes, before those of one name are taken together. -/
def attributesFound : List (String × String) :=
  w.attributes.map fun (n, v) => (Document.qualifiedName w.spaces (w.scope.expand none n), v)

theorem found_attributes : w.found.2 = Table.ofList w.attributesFound := by
  rw [found, tagOf, List.map_map]
  rfl

theorem attributesFound_eq_iff : w.attributesFound = w.attributes ↔ w.KeepsAttributes := by
  have hMap : w.attributesFound = w.attributes ↔ w.attributesFound = w.attributes.map id := by
    rw [List.map_id]
  rw [hMap, attributesFound, List.map_inj_left]
  constructor
  · intro h a ha
    exact (w.qualifiedName_eq_iff none a.1).1 (congrArg Prod.fst (h a ha))
  · intro h a ha
    exact Prod.ext ((w.qualifiedName_eq_iff none a.1).2 (h a ha)) rfl

/-- The attributes keep their number if no two of them are found under one name. -/
theorem length_found_eq_iff :
    w.found.2.length = w.attributes.length ↔ (Table.keys w.attributesFound).Nodup := by
  rw [found_attributes, ← Table.length_ofList_eq_iff, attributesFound, List.length_map]

/-- When the attributes of an element are found as they were written. -/
theorem found_attributes_eq_iff (hNodup : (w.attributes.map (·.1)).Nodup) :
    w.found.2 = w.attributes ↔ w.KeepsAttributes := by
  rw [← attributesFound_eq_iff]
  constructor
  · intro h
    have hKeys := w.length_found_eq_iff.1 (congrArg List.length h)
    rw [← h, found_attributes, Table.ofList_of_nodup hKeys]
  · intro h
    rw [found_attributes, h, Table.ofList_of_nodup hNodup]

/-- When a tag is found as it was written. -/
theorem found_eq_iff (hNodup : (w.attributes.map (·.1)).Nodup) :
    w.found = w.tag ↔ w.KeepsAll := by
  constructor
  · intro h
    exact ⟨w.nameFound_eq_iff.1 (congrArg Prod.fst h),
      (w.found_attributes_eq_iff hNodup).1 (congrArg Prod.snd h)⟩
  · intro h
    exact Prod.ext (w.nameFound_eq_iff.2 h.name) ((w.found_attributes_eq_iff hNodup).2 h.attributes)

end Written

/-! ## Start tags of a document -/

private theorem spacesAfter_declarations (spaces : Table String String)
    (declared : List (String × String)) :
    spacesAfter spaces (Node.declarations declared) = declareAll spaces declared := by
  induction declared generalizing spaces with
  | nil => rfl
  | cons d declared ih => exact ih _

theorem declareAll_append (spaces : Table String String)
    (declared declared' : List (String × String)) :
    declareAll spaces (declared ++ declared') =
      declareAll (declareAll spaces declared) declared' := by
  simp [declareAll, Table.putAll]

namespace Markup

mutual

/-- The start tags among the events that are reported are those of the node, under the names they
are found with. -/
theorem marks_report : (m : Markup) → (scope : Scope) → (spaces : Table String String) →
    (n : Node) → m.report scope = .ok n →
    (marks spaces n.events).filterMap Mark.start? = (m.tags scope spaces).map Written.found ∧
      spacesAfter spaces n.events = declareAll spaces m.declarations ∧
      ∀ w ∈ m.tags scope spaces, (w.attributes.map (·.1)).Nodup
  | .element name attributes inside, scope, spaces, n, h => by
    rw [report] at h
    obtain ⟨t, hTake, h⟩ := exists_of_bind_eq_ok h
    obtain ⟨expanded, hAttributes, h⟩ := exists_of_bind_eq_ok h
    obtain ⟨expandedName, hName, h⟩ := exists_of_bind_eq_ok h
    obtain ⟨ns, hInside, h⟩ := exists_of_bind_eq_ok h
    cases h
    have hTook := TagState.took_foldlM hTake
    have hDeclared : t.declared = declarationsIn attributes := hTook.declared
    have hOwn : t.attributes = attributesIn attributes := hTook.attributes
    rw [hTook.scope] at hInside hAttributes hName
    obtain ⟨hMarks, hSpaces, hNodup⟩ := marks_reportOfList inside _
      (declareAll spaces (declarationsIn attributes)) ns hInside
    refine ⟨?_, ?_, ?_⟩
    · rw [marks_element, hDeclared, spacesAfter_declarations]
      simp [Mark.start?, hMarks, tags, Written.found, expandAttributes_eq_ok hAttributes,
        expandElement_eq_ok hName, hOwn]
    · rw [spacesAfter_element, hDeclared, spacesAfter_declarations, hSpaces, declarations,
        declareAll_append]
    · intro w hw
      rw [tags] at hw
      rcases List.mem_cons.1 hw with rfl | hw
      · have hSeen := hTook.nodup List.nodup_nil
        rw [hTook.seen, List.append_nil, (List.reverse_perm _).nodup_iff] at hSeen
        exact hSeen.sublist (List.Sublist.map _ List.filter_sublist)
      · exact hNodup w hw
  | .instruction target data, scope, spaces, n, h => by
    cases h
    exact ⟨rfl, rfl, by simp [tags]⟩
  | .characters text, scope, spaces, n, h => by
    cases h
    exact ⟨rfl, rfl, by simp [tags]⟩

theorem marks_reportOfList : (ms : List Markup) → (scope : Scope) →
    (spaces : Table String String) → (ns : List Node) → reportOfList scope ms = .ok ns →
    (marks spaces (Node.eventsOfList ns)).filterMap Mark.start? =
        (tagsOfList scope spaces ms).map Written.found ∧
      spacesAfter spaces (Node.eventsOfList ns) = declareAll spaces (declarationsOfList ms) ∧
      ∀ w ∈ tagsOfList scope spaces ms, (w.attributes.map (·.1)).Nodup
  | [], scope, spaces, ns, h => by
    cases h
    exact ⟨rfl, rfl, by simp [tagsOfList]⟩
  | m :: ms, scope, spaces, ns, h => by
    rw [reportOfList] at h
    obtain ⟨n, hHead, h⟩ := exists_of_bind_eq_ok h
    obtain ⟨ns', hTail, h⟩ := exists_of_bind_eq_ok h
    cases h
    obtain ⟨hMarks, hSpaces, hNodup⟩ := marks_report m scope spaces n hHead
    obtain ⟨hMarks', hSpaces', hNodup'⟩ := marks_reportOfList ms scope
      (declareAll spaces m.declarations) ns' hTail
    refine ⟨?_, ?_, ?_⟩
    · rw [Node.eventsOfList, marks_append, List.filterMap_append, hMarks, hSpaces, hMarks',
        tagsOfList, List.map_append]
    · rw [Node.eventsOfList, spacesAfter_append, hSpaces, hSpaces', declarationsOfList,
        declareAll_append]
    · intro w hw
      rw [tagsOfList] at hw
      rcases List.mem_append.1 hw with hw | hw
      · exact hNodup w hw
      · exact hNodup' w hw

end

/-- Of an element an element is reported. -/
theorem report_element {scope : Scope} {name : String} {attributes : List (String × String)}
    {inside : List Markup} {n : Node} (h : (element name attributes inside).report scope = .ok n) :
    ∃ declared expandedName expanded ns, n = .element declared expandedName expanded ns := by
  rw [report] at h
  obtain ⟨t, _, h⟩ := exists_of_bind_eq_ok h
  obtain ⟨expanded, _, h⟩ := exists_of_bind_eq_ok h
  obtain ⟨expandedName, _, h⟩ := exists_of_bind_eq_ok h
  obtain ⟨ns, _, h⟩ := exists_of_bind_eq_ok h
  exact ⟨t.declared, expandedName, expanded, ns, (Except.ok.inj h).symm⟩

end Markup

/-! ## The reader -/

/-- The state without what is counted. -/
def TagState.plain (t : TagState) : TagState := { t with charged := 0, recounted := 0 }

/-- An attribute that is added under a new name is taken in. -/
theorem TagState.take_of_add {t t' : TagState} {name value : String}
    (h : t.add name value = .ok t') (hNew : ¬t.seen.contains name = true) :
    t.plain.take (name, value) = .ok t'.plain := by
  have hSeen : t.plain.seen = t.seen := rfl
  unfold TagState.take
  rw [hSeen, if_neg hNew]
  unfold TagState.add at h ⊢
  cases hPrefix : declaredPrefix? name with
  | some pre =>
    simp only [hPrefix] at h ⊢
    obtain ⟨_, hCheck, h⟩ := exists_of_bind_eq_ok h
    cases h
    rw [hCheck]
    rfl
  | none =>
    simp only [hPrefix] at h ⊢
    cases h
    rfl

/-- An attribute of a tag is taken in under its name. -/
theorem TagState.take_of_addRaw {c : TagContext} {element : String} {t t' : TagState}
    {a : RawAttribute} (h : t.addRaw c element a = .ok t') :
    ∃ value, t.plain.take (a.name, value) = .ok t'.plain := by
  unfold TagState.addRaw at h
  dsimp only at h
  split at h
  case isTrue => cases h
  case isFalse hNew =>
    obtain ⟨value, _, h⟩ := exists_of_bind_eq_ok h
    have hTake := take_of_add (eq_ok_of_mapError_eq_ok h) hNew
    exact ⟨value.text, hTake⟩

private theorem TagState.foldlM_take_of_addRaw {c : TagContext} {element : String}
    {attributes : List RawAttribute} {t t' : TagState}
    (h : attributes.foldlM (TagState.addRaw c element) t = .ok t') :
    ∃ given : List (String × String), given.map (·.1) = attributes.map (·.name) ∧
      given.foldlM TagState.take t.plain = .ok t'.plain := by
  induction attributes generalizing t with
  | nil =>
    cases h
    exact ⟨[], rfl, rfl⟩
  | cons a attributes ih =>
    rw [List.foldlM_cons] at h
    obtain ⟨u, hHead, h⟩ := exists_of_bind_eq_ok h
    obtain ⟨value, hTake⟩ := take_of_addRaw hHead
    obtain ⟨given, hNames, hTail⟩ := ih h
    refine ⟨(a.name, value) :: given, ?_, ?_⟩
    · rw [List.map_cons, List.map_cons, hNames]
    · rw [List.foldlM_cons, hTake]
      exact hTail

/-- Defaults are taken in like attributes that the tag has. -/
theorem TagState.foldlM_take_of_addDefaults {d : Doctype} {element : String} {t t' : TagState}
    (h : t.addDefaults d element = .ok t') :
    ∃ defaults : List (String × String), defaults.foldlM TagState.take t.plain = .ok t'.plain := by
  unfold TagState.addDefaults at h
  generalize (d.defaults.get? element).getD [] = declared at h
  induction declared generalizing t with
  | nil =>
    cases h
    exact ⟨[], rfl⟩
  | cons a declared ih =>
    rw [List.foldlM_cons] at h
    obtain ⟨u, hHead, h⟩ := exists_of_bind_eq_ok h
    obtain ⟨defaults, hTail⟩ := ih h
    split at hHead
    case h_1 v hValue =>
      split at hHead
      case isTrue =>
        cases hHead
        exact ⟨defaults, hTail⟩
      case isFalse hNew =>
        refine ⟨(a.name, v) :: defaults, ?_⟩
        rw [List.foldlM_cons, take_of_add (eq_ok_of_mapError_eq_ok hHead) hNew]
        exact hTail
    case h_2 =>
      cases hHead
      exact ⟨defaults, hTail⟩

/-- What the reader makes of a start tag is what is reported of one with these attributes, and with
the defaults of those that it does not have. -/
theorem TagContext.report_of_openTag {c : TagContext} {scope : Scope} {charged : Nat}
    {tag : RawTag} {o : OpenedTag} (h : c.openTag scope charged tag = .ok o) :
    ∃ given defaults declared name expanded,
      given.map (·.1) = tag.attributes.map (·.name) ∧
      (Markup.element tag.name (given ++ defaults) []).report scope =
        .ok (.element declared name expanded []) ∧
      o.events = Node.declarations declared ++ [.starts name expanded] ∧
      o.scope = (declarationsIn (given ++ defaults)).reverse ++ scope := by
  unfold TagContext.openTag at h
  obtain ⟨t, hGiven, h⟩ := exists_of_bind_eq_ok h
  obtain ⟨u, hDefaults, h⟩ := exists_of_bind_eq_ok h
  obtain ⟨expanded, hAttributes, h⟩ := exists_of_bind_eq_ok h
  obtain ⟨name, hName, h⟩ := exists_of_bind_eq_ok h
  cases h
  obtain ⟨given, hNames, hGiven⟩ := TagState.foldlM_take_of_addRaw hGiven
  obtain ⟨defaults, hDefaults⟩ := TagState.foldlM_take_of_addDefaults hDefaults
  have hStart : { scope, charged := 0, recounted := 0 } =
      TagState.plain { scope, charged, recounted := 0 } := rfl
  have hTake : (given ++ defaults).foldlM TagState.take { scope, charged := 0, recounted := 0 } =
      .ok u.plain := by
    rw [List.foldlM_append, hStart, hGiven]
    exact hDefaults
  refine ⟨given, defaults, u.declared, name, expanded, hNames, ?_, rfl,
    (TagState.took_foldlM hTake).scope⟩
  have hAttributes' : expandAttributes u.plain.scope u.plain.attributes = .ok expanded :=
    eq_ok_of_mapError_eq_ok hAttributes
  have hName' : expandElement u.plain.scope tag.name = .ok name := eq_ok_of_mapError_eq_ok hName
  rw [Markup.report, hTake]
  show (expandAttributes u.plain.scope u.plain.attributes >>= _) = _
  rw [hAttributes']
  show (expandElement u.plain.scope tag.name >>= _) = _
  rw [hName']
  rfl

end Xml

namespace Document

open Xml

/-- The declarations in force around the root. -/
def rootScope : Scope := [("xml", reservedSpace)]

/-- The names of a document: every start tag is found under the prefixes that were last declared for
the namespaces. The tags are the ones written if and only if these are the prefixes they were
written with; where they are not, attributes of one expanded name are lost. -/
theorem rootOf_names (before after : List (String × String)) (name : String)
    (attributes : List (String × String)) (inside : List Markup) (node : Node)
    (h : (Markup.element name attributes inside).report rootScope = .ok node) :
    let events := instructions before ++ node.events ++ instructions after
    let tags := (Markup.element name attributes inside).tags rootScope []
    ∃ root, rootOf? events = some root ∧
      root.preorder.map Element.tag = tags.map Written.found ∧
      (root.preorder.map Element.tag = tags.map Written.tag ↔ ∀ w ∈ tags, w.KeepsAll) ∧
      (∀ w ∈ tags, (w.found.1 = w.name ↔ w.KeepsName) ∧
        (w.found.2 = w.attributes ↔ w.KeepsAttributes) ∧
        (w.found.2.length = w.attributes.length ↔ (Table.keys w.attributesFound).Nodup)) ∧
      ∀ source document, source.events = .ok events →
        Document.read source document = .ok { root, name := document } := by
  intro events tags
  obtain ⟨hMarks, _, hNodup⟩ := Markup.marks_report _ _ [] node h
  obtain ⟨declared, expandedName, expanded, ns, hNode⟩ := Markup.report_element h
  obtain ⟨root, hOrder, hRoot⟩ := rootOf_inOrder before after declared expandedName expanded ns
  rw [← hNode] at hOrder hRoot
  have hFound : root.preorder.map Element.tag = tags.map Written.found := by
    rw [hOrder.tags, marks_append, marks_instructions, spacesAfter_instructions,
      List.filterMap_append, Mark.filterMap_start?_instructions, List.nil_append]
    exact hMarks
  refine ⟨root, hRoot, hFound, ?_, ?_, fun source document hSource =>
    read_of_events hSource hRoot document⟩
  · rw [hFound, List.map_inj_left]
    exact forall₂_congr fun w hw => w.found_eq_iff (hNodup w hw)
  · intro w hw
    exact ⟨w.nameFound_eq_iff, w.found_attributes_eq_iff (hNodup w hw), w.length_found_eq_iff⟩

/-- One namespace is declared under a prefix and, behind it, as the default. An attribute with the
prefix is found without, and there it replaces one that had none. -/
theorem rootOf_names_collapsed :
    let written := Markup.element "Label"
      [("xmlns:p", "urn:ext"), ("xmlns", "urn:ext"), ("text", "x"), ("p:text", "y")] []
    ∃ node root, written.report rootScope = .ok node ∧ rootOf? node.events = some root ∧
      (written.tags rootScope []).map Written.tag = [("Label", [("text", "x"), ("p:text", "y")])] ∧
      root.preorder.map Element.tag = [("Label", [("text", "y")])] := by
  intro written
  have hReport : written.report rootScope =
      .ok (.element [("p", "urn:ext"), ("", "urn:ext")] ⟨some "urn:ext", "Label"⟩
        [(⟨none, "text"⟩, "x"), (⟨some "urn:ext", "text"⟩, "y")] []) := by rfl
  obtain ⟨root, hRoot, hFound, _⟩ := rootOf_names [] [] _ _ _ _ hReport
  refine ⟨_, root, hReport, ?_, by decide +kernel, ?_⟩
  · simpa [instructions] using hRoot
  · rw [hFound]
    decide +kernel

end Document
end ViewMarkup
