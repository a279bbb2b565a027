import ViewMarkup.Xml.Scan

/-!
# The declaration of a document

`<?xml version="1.0" encoding="…" standalone="…"?>` may stand at the very start of a document. The
version comes first and any is taken; encoding and standalone may be missing.
-/

namespace ViewMarkup.Xml

/-- What a declaration says. The encoding comes with what is left of the text at its name. -/
structure Declaration where
  encoding : Option (String × List Char) := none
  standalone : Bool := false

/-- One `name = "value"` of a declaration. The value is followed by what is left of it, with the
closing quote in front. -/
structure Setting where
  name : String
  place : List Char
  value : String
  valuePlace : List Char

/-- What is wrong with a declaration is told by what was left of the text there. -/
abbrev Clause (α : Type) := Except (List Char) α

/-- Whether the character may stand in a value of a declaration. -/
def isSettingChar (c : Char) : Bool := c.isAlphanum || c == '.' || c == '-' || c == '_'

/-- The next setting, if there is one; `text` is what is left before the closing `?>`. -/
def setting? (text : List Char) : Clause (Option Setting × List Char) :=
  match text with
  | [] => .ok (none, text)
  | c :: _ =>
    if !isSpace c then .error text
    else
      let atName := text.dropWhile isSpace
      if atName.isEmpty then .ok (none, text)
      else
        let isName (c : Char) : Bool := c.toNat < 0x80 && !isSpace c && c != '='
        let name := atName.takeWhile isName
        let afterName := (atName.dropWhile isName).dropWhile isSpace
        match afterName with
        | '=' :: rest =>
          if name.isEmpty then .error afterName
          else
            match rest.dropWhile isSpace with
            | q :: inside =>
              if q != '"' && q != '\'' then .error (q :: inside)
              else
                let value := inside.takeWhile isSettingChar
                let atEnd := inside.dropWhile isSettingChar
                if atEnd.head? == some q then
                  .ok (some ⟨String.ofList name, atName, String.ofList value, inside⟩, atEnd.drop 1)
                else .error atEnd
            | [] => .error []
        | _ => .error afterName

/-- Whether the word can name an encoding. -/
def startsWithLetter (s : String) : Bool := (s.toList.head?.map Char.isAlpha).getD false

/-- The last part of a declaration: standalone, and nothing after it but blanks. -/
def standaloneClause (encoding : Option (String × List Char)) (s : Setting) (rest : List Char) :
    Clause Declaration :=
  if s.name != "standalone" then .error s.place
  else if s.value != "yes" && s.value != "no" then .error s.valuePlace
  else
    let rest := rest.dropWhile isSpace
    if rest.isEmpty then .ok { encoding, standalone := s.value == "yes" } else .error rest

/-- The settings of a declaration; `text` is what stands between `<?xml` and `?>`. -/
def declaration (text : List Char) : Clause Declaration := do
  let (version, rest) ← setting? text
  match version with
  | none => .error rest
  | some version =>
    if version.name != "version" then .error version.place
    else
      match ← setting? rest with
      | (none, _) => return {}
      | (some s, rest) =>
        if s.name == "encoding" then
          if !startsWithLetter s.value then .error s.valuePlace
          else
            let encoding := some (s.value, s.valuePlace)
            match ← setting? rest with
            | (none, _) => return { encoding }
            | (some s, rest) => standaloneClause encoding s rest
        else standaloneClause none s rest

/-- The text up to the first `?>` and what is left after it. -/
def untilClose : List Char → Option (List Char × List Char)
  | '?' :: '>' :: rest => some ([], rest)
  | [] => none
  | c :: cs => (untilClose cs).map fun (a, b) => (c :: a, b)

/-- The settings of the declaration that a document starts with, if there is one: their text, and
what is left of the document at their start. -/
def declarationText? (document : List Char) : Option (List Char × List Char) :=
  match document with
  | '<' :: '?' :: 'x' :: 'm' :: 'l' :: rest =>
    match rest with
    | c :: _ =>
      if isSpace c || c == '?' then (untilClose rest).map fun (a, _) => (a, rest) else none
    | [] => none
  | _ => none

end ViewMarkup.Xml
