import ViewMarkup.Failure
import ViewMarkup.Path
import ViewMarkup.Table

/-!
# Files

A tree of files, given by the paths of the files; a directory is there when something is inside of
it. A path is followed step by step, so a double dot after a directory that is not there leads
nowhere.
-/

namespace ViewMarkup

/-- What a file holds: bytes, or a picture of a size. -/
inductive Content where
  | bytes (bs : List UInt8)
  | picture (width height : Nat)
deriving DecidableEq, Repr

/-- The bytes of a file. Of a picture only the signature matters: it is no text. -/
def Content.data : Content → List UInt8
  | bytes bs => bs
  | picture _ _ => [0x89, 0x50, 0x4e, 0x47, 0x0d, 0x0a, 0x1a, 0x0a]

/-- A tree of files; `root` is the name that its root goes by in messages. -/
structure Files where
  root : String := ""
  entries : Table (List String) Content := []

/-- What a path leads to. -/
inductive Target where
  | nothing
  | nameTooLong
  | insideFile
  | directory
  | file (c : Content)

namespace Files

/-- Whether the segments lead to a directory. -/
def isDirectory (fs : Files) (segments : List String) : Bool :=
  segments.isEmpty || fs.entries.any fun (p, _) => segments != p && segments.isPrefixOf p

/-- How many bytes the name of a file can have. -/
def longestName : Nat := 255

/-- Follows a path from a directory. -/
def follow (fs : Files) : (current : List String) → List String → Target
  | current, [] =>
    match fs.entries.get? current with
    | some c => .file c
    | none => if fs.isDirectory current then .directory else .nothing
  | current, s :: rest =>
    if !fs.isDirectory current then
      if (fs.entries.get? current).isSome then .insideFile else .nothing
    else if longestName < s.utf8ByteSize then .nameTooLong
    else if s == ".." then
      if current.isEmpty then .nothing else fs.follow current.dropLast rest
    else fs.follow (current ++ [s]) rest

/-- What a path leads to; nothing is known of what lies outside of the tree. -/
def find (fs : Files) (p : Path) : Target :=
  if p.anchor = .tree then fs.follow [] p.segments else .nothing

/-- The content of the file at a path, if there is one. That a name is too long for a file does not
only mean that there is none. -/
def file? (fs : Files) (p : Path) : Except Failure (Option Content) :=
  match fs.find p with
  | .file c => .ok (some c)
  | .nameTooLong => .error .fileNameTooLong
  | _ => .ok none

/-- The bytes of the file at a path. -/
def read (fs : Files) (p : Path) : Except Failure (List UInt8) :=
  if p.segments.any (Text.hasChar '\x00') then .error (.invalid .nullInPath)
  else
    match fs.find p with
    | .file c => .ok c.data
    | .directory => .error .fileIsDirectory
    | .insideFile => .error .fileInsideFile
    | .nameTooLong => .error .fileNameTooLong
    | .nothing => .error .fileMissing

/-- The tree with a file written. -/
def write (fs : Files) (path : String) (c : Content) : Files :=
  { fs with entries := fs.entries.put (pathSteps path) c }

end Files
end ViewMarkup
