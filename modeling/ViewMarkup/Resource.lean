import ViewMarkup.Document
import ViewMarkup.Files
import ViewMarkup.Json

/-!
# Resources

Images, localized texts and documents by name, from tables in memory or from a directory. A document
is kept once it has been read, and so is the string table; an image is looked up anew every time.
Nothing is kept of a look-up that fails.
-/

namespace ViewMarkup

open Text

/-- The size of an image; of its content nothing else matters. -/
structure Image where
  width : Nat
  height : Nat
deriving DecidableEq, Repr

/-- A document in memory: its text, or the document itself. -/
inductive Stored where
  | text (s : String)
  | parsed (d : Document)

/-- Where resources come from, with what has been read so far. -/
inductive Loader where
  | tables (images : Table String Image) (strings : Table String String)
    (documents : Table String Stored)
  | directory (root : Path) (stringsFile : String) (strings : Option (Table String String))
    (documents : Table String Document)

/-- Looking something up may fail, and may keep what it has read. -/
abbrev Loading := ExceptT Failure (StateM Loader)

/-- A failure to find a resource. -/
def notFound (f : ResourceFault) : Failure := .of (.resource f)

/-- The places in a directory where an image may be. -/
def imageCandidates (name : String) : List String :=
  [name, name ++ ".png", "images/" ++ name, "images/" ++ name ++ ".png"]

/-- The image in the first of some files that is there. -/
def firstImage (fs : Files) (missing : Failure) : List Path → Except Failure Image
  | [] => .error missing
  | p :: ps => do
    match ← fs.file? p with
    | none => firstImage fs missing ps
    | some (.picture width height) => return { width, height }
    | some (.bytes _) => throw (notFound (.imageUnreadable (p.render fs.root)))

/-- The image with a name. -/
def Loader.image (fs : Files) (l : Loader) (name : String) : Except Failure Image :=
  match l with
  | tables images _ _ =>
    (images.get? name).elim (.error (notFound (.image name))) .ok
  | directory root _ _ _ =>
    firstImage fs (notFound (.imageUnder name (root.render fs.root)))
      ((imageCandidates name).map root.join)

/-- The members of an object whose values are all texts. -/
def stringTable? : Table String JsonValue → Option (Table String String)
  | [] => some []
  | (k, .text s) :: rest => (stringTable? rest).map ((k, s) :: ·)
  | _ => none

/-- Why a text is refused as a string table. -/
def JsonProblem.refusal (p : JsonProblem) (text : List Char) : Invalid :=
  match p.flaw with
  | .malformed message => .stringsText (describeAt message p.rest text)
  | .tooManyDigits count => .tooManyDigits count

/-- The string table in a file; a file that is not there holds none. -/
def readStrings (fs : Files) (p : Path) : Except Failure (Table String String) := do
  match ← fs.file? p with
  | none => return []
  | some c =>
    match ofUtf8 c.data with
    | .error flaw => throw (.invalid (.encoding flaw))
    | .ok s =>
      let text := Xml.normalizeLines s.toList
      match JsonValue.read text with
      | .error problem => throw (.invalid (problem.refusal text))
      | .ok (.object members) =>
        (stringTable? members).elim (throw (.invalid (.stringsShape (p.render fs.root)))) pure
      | .ok _ => throw (.invalid (.stringsShape (p.render fs.root)))

/-- The string table, which is kept once it has been read. -/
def loadStrings (fs : Files) : Loading (Table String String) := do
  match ← get with
  | .tables _ strings _ => return strings
  | .directory _ _ (some strings) _ => return strings
  | .directory root stringsFile none documents =>
    let strings ← (readStrings fs (root.join stringsFile) : Except Failure _)
    set (Loader.directory root stringsFile (some strings) documents)
    return strings

/-- The text with a key. -/
def loadText (fs : Files) (key : String) : Loading String := do
  match (← loadStrings fs).get? key with
  | some s => return s
  | none => throw (notFound (.text key))

/-- The document with a name, which is kept once it has been read. -/
def loadDocument (fs : Files) (name : String) : Loading Document := do
  match ← get with
  | .tables images strings documents =>
    match documents.get? name with
    | none => throw (notFound (.document name))
    | some (.parsed d) => return d
    | some (.text s) =>
      let d ← (Document.read (.text s) name : Except Failure _)
      set (Loader.tables images strings (documents.put name (.parsed d)))
      return d
  | .directory root stringsFile strings documents =>
    match documents.get? name with
    | some d => return d
    | none =>
      let p := root.join (name ++ ".xml")
      match ← (fs.file? p : Except Failure _) with
      | none => throw (notFound (.document (p.render fs.root)))
      | some c =>
        let d ← (Document.read (.bytes c.data) (p.render fs.root) : Except Failure _)
        set (Loader.directory root stringsFile strings (documents.put name d))
        return d

/-- The document in a file. -/
def readDocumentFile (fs : Files) (p : Path) : Except Failure Document := do
  Document.read (.bytes (← fs.read p)) (p.render fs.root)

end ViewMarkup
