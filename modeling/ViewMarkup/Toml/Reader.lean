import ViewMarkup.Toml.Tree

/-!
# Reading settings files

A settings file is read line by line: headings, which open tables, and keys with values.
-/

namespace ViewMarkup.Toml

/-- One part of a key. -/
def keyPart (cs : List Char) : Reading (String × List Char) :=
  match cs with
  | '\'' :: rest => (plainText false rest).map fun (s, rest) => (String.ofList s, rest)
  | '"' :: rest =>
    (basicText false (rest.length + 1) rest).map fun (s, rest) => (String.ofList s, rest)
  | _ =>
    let word := cs.takeWhile isKeyChar
    if word.isEmpty then malformed else .ok (String.ofList word, cs.dropWhile isKeyChar)

/-- A key: parts with dots between them. -/
def key : (fuel : Nat) → List Char → Reading (Key × List Char)
  | 0, _ => malformed
  | fuel + 1, cs => do
    let (part, rest) ← keyPart cs
    match skip rest with
    | '.' :: rest =>
      let (parts, rest) ← key fuel (skip rest)
      return (part :: parts, rest)
    | rest => return ([part], rest)

/-- The text after a comment, if there is one at its start. -/
def skipComment (cs : List Char) : Reading (List Char) :=
  match cs with
  | '#' :: rest =>
    if (rest.takeWhile (· != '\n')).all isPlain then .ok (rest.dropWhile (· != '\n')) else malformed
  | _ => .ok cs

/-- The text after blanks, line ends and comments. -/
def skipLines : (fuel : Nat) → List Char → Reading (List Char)
  | 0, cs => .ok cs
  | fuel + 1, cs => do
    let rest ← skipComment (cs.dropWhile fun c => isBlank c || c == '\n')
    if rest.length == cs.length then return rest else skipLines fuel rest

mutual

/-- A value. -/
def value : (fuel : Nat) → List Char → Reading (Toml × List Char)
  | 0, _ => malformed
  | fuel + 1, cs =>
    let text (r : Reading (List Char × List Char)) : Reading (Toml × List Char) :=
      r.map fun (s, rest) => (.text (String.ofList s), rest)
    match cs with
    | '"' :: '"' :: '"' :: rest => text (longText '"' rest)
    | '"' :: rest => text (basicText false (rest.length + 1) rest)
    | '\'' :: '\'' :: '\'' :: rest => text (longText '\'' rest)
    | '\'' :: rest => text (plainText false rest)
    | 't' :: 'r' :: 'u' :: 'e' :: rest => .ok (.bool true, rest)
    | 'f' :: 'a' :: 'l' :: 's' :: 'e' :: rest => .ok (.bool false, rest)
    | '[' :: rest => do
      let rest ← skipLines (rest.length + 1) rest
      match rest with
      | ']' :: rest => return (.array [], rest)
      | _ =>
        let (items, rest) ← elements fuel rest
        return (.array items, rest)
    | '{' :: rest =>
      match skip rest with
      | '}' :: rest => .ok (.table [], rest)
      | rest => inlineTable fuel [] {} rest
    | _ => scalar cs

/-- The elements of an array up to its end. -/
def elements : (fuel : Nat) → List Char → Reading (List Toml × List Char)
  | 0, _ => malformed
  | fuel + 1, cs => do
    let (v, rest) ← value fuel cs
    let rest ← skipLines (rest.length + 1) rest
    match rest with
    | ']' :: rest => return ([v], rest)
    | ',' :: rest =>
      let rest ← skipLines (rest.length + 1) rest
      match rest with
      | ']' :: rest => return ([v], rest)
      | _ =>
        let (vs, rest) ← elements fuel rest
        return (v :: vs, rest)
    | _ => malformed

/-- The entries of a table written inline, up to its end. -/
def inlineTable : (fuel : Nat) → List (String × Toml) → Marks → List Char →
    Reading (Toml × List Char)
  | 0, _, _, _ => malformed
  | fuel + 1, t, marks, cs => do
    let (k, v, rest) ← entry fuel cs
    if marks.isFrozen k then malformed
    else
      let t ← insertAt false k.dropLast (k.getLast?.getD "") v t
      match skip rest with
      | '}' :: rest => return (.table t, rest)
      | ',' :: rest =>
        inlineTable fuel t (if isContainer v then marks.freeze k else marks) (skip rest)
      | _ => malformed

/-- A key with its value. -/
def entry : (fuel : Nat) → List Char → Reading (Key × Toml × List Char)
  | 0, _ => malformed
  | fuel + 1, cs => do
    let (k, rest) ← key (cs.length + 1) cs
    match rest with
    | '=' :: rest =>
      let (v, rest) ← value fuel (skip rest)
      return (k, v, rest)
    | _ => malformed

end

/-- What has been read of a file. `opened` holds the tables that dots have opened since the last
heading; they get their marks at the next one. -/
structure File where
  tree : List (String × Toml) := []
  marks : Marks := {}
  opened : List Key := []
  heading : Key := []

/-- Takes in `[heading]`. -/
def File.openTable (f : File) (k : Key) : Reading File := do
  let marks := { f.marks with headed := f.opened ++ f.marks.headed }
  if marks.isHeaded k || marks.isFrozen k then malformed
  else
    let tree ← updateAt true .ok k f.tree
    return { tree, marks := marks.head k, heading := k }

/-- Takes in `[[heading]]`. -/
def File.openElement (f : File) (k : Key) : Reading File := do
  let marks := { f.marks with headed := f.opened ++ f.marks.headed }
  if marks.isFrozen k then malformed
  else
    let tree ← appendTable k.dropLast (k.getLast?.getD "") f.tree
    return { tree, marks := (marks.forget k).head k, heading := k }

/-- The proper parts of a key, shortest first. -/
def properParts (k : Key) : List Key := (List.range (k.length - 1)).map fun n => k.take (n + 1)

/-- Takes in a key with its value. -/
def File.add (f : File) (k : Key) (v : Toml) : Reading File := do
  let ways := (properParts k).map (f.heading ++ ·)
  let parent := f.heading ++ k.dropLast
  if ways.any f.marks.isHeaded || f.marks.isFrozen parent then malformed
  else
    let tree ← insertAt true parent (k.getLast?.getD "") v f.tree
    let marks := if isContainer v then f.marks.freeze (f.heading ++ k) else f.marks
    return { f with tree, marks, opened := f.opened ++ ways }

/-- Reads lines up to the end of the file. -/
def lines : (fuel : Nat) → File → List Char → Reading File
  | 0, f, _ => .ok f
  | fuel + 1, f, cs => do
    let cs := skip cs
    let size := cs.length + 1
    let (f, rest) ←
      match cs with
      | [] => return f
      | '\n' :: _ | '#' :: _ => pure (f, cs)
      | '[' :: '[' :: rest => do
        let (k, rest) ← key size (skip rest)
        match after? "]]" rest with
        | some rest => pure (← f.openElement k, rest)
        | none => malformed
      | '[' :: rest => do
        let (k, rest) ← key size (skip rest)
        match rest with
        | ']' :: rest => pure (← f.openTable k, rest)
        | _ => malformed
      | _ => do
        let (k, v, rest) ← entry size cs
        pure (← f.add k v, rest)
    match ← skipComment (skip rest) with
    | [] => return f
    | '\n' :: rest => lines fuel f rest
    | _ => malformed

/-- The text with its line ends written as line feeds. -/
def unifyLines : List Char → List Char
  | [] => []
  | '\r' :: '\n' :: cs => '\n' :: unifyLines cs
  | c :: cs => c :: unifyLines cs

/-- The table that a settings file describes. -/
def read (text : String) : Reading (List (String × Toml)) := do
  let cs := unifyLines text.toList
  return (← lines (cs.length + 1) {} cs).tree

end ViewMarkup.Toml
