import ViewMarkup.Text.Split

/-!
# Paths

A path leads from the root of a file tree, or from a root of everything. Empty segments and those
of a single dot lead nowhere and are left out; a segment of two dots stays, since where it leads is
known only to the files.
-/

namespace ViewMarkup

open Text

/-- Where a path starts: in the file tree, or at one of the two roots of everything. -/
inductive Anchor where
  | tree
  | root
  | secondRoot
deriving DecidableEq, Repr

/-- The anchor that a text names by its slashes: exactly two of them name the second root. -/
def anchorOf? : List Char → Option Anchor
  | '/' :: '/' :: '/' :: _ => some .root
  | '/' :: '/' :: _ => some .secondRoot
  | '/' :: _ => some .root
  | _ => none

/-- A path as a list of segments. -/
structure Path where
  anchor : Anchor := .tree
  segments : List String := []
deriving DecidableEq, Repr

/-- The segments of a text that lead somewhere. -/
def pathSteps (s : String) : List String :=
  (splitOn '/' s).filter fun p => !p.isEmpty && p != "."

namespace Path

/-- The path that goes on with a text; a text that names a root starts anew. -/
def join (p : Path) (s : String) : Path :=
  match anchorOf? s.toList with
  | some anchor => { anchor, segments := pathSteps s }
  | none => { p with segments := p.segments ++ pathSteps s }

/-- The directory that file trees lie in. -/
def treeHome : Path := { anchor := .root, segments := ["tmp"] }

/-- The directory that a path lies in. A root lies in itself, and a file tree in its home. -/
def parent (p : Path) : Path :=
  if p.anchor = .tree ∧ p.segments.isEmpty then treeHome
  else { p with segments := p.segments.dropLast }

/-- The path without double dots, each of which leads to what lies around. Both roots are the same
place. -/
def resolve (p : Path) : Path :=
  let start : Path := { anchor := if p.anchor = .tree then .tree else .root }
  p.segments.foldl
    (fun q s => if s == ".." then q.parent else { q with segments := q.segments ++ [s] }) start

/-- The path as a text, where `root` is the name of the root of the tree. -/
def render (root : String) (p : Path) : String :=
  match p.anchor with
  | .tree => joined "/" (root :: p.segments)
  | .root => "/" ++ joined "/" p.segments
  | .secondRoot => "//" ++ joined "/" p.segments

end Path
end ViewMarkup
