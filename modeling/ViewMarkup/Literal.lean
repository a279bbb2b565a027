import ViewMarkup.Color.Literal
import ViewMarkup.Enumeration
import ViewMarkup.Font

/-!
# Literals of the other kinds

Truth values, integers and members of enumerations are read here; colors and fonts have modules of
their own. What is left to a decoder is the look-up in its tables.
-/

namespace ViewMarkup

open Text Decimal

/-- Reads a truth value. -/
def readBool (raw : String) : Except DecodeFault Bool :=
  match lower (trim raw) with
  | "true" => .ok true
  | "false" => .ok false
  | _ => .error (.notBoolean raw)

/-- The integer that a literal denotes, refused when it has too many digits; nothing when the text
is no integer literal. -/
def readInteger? (token : String) : Option (Except Invalid Int) :=
  (integerDigits? token).map fun (negative, ds) =>
    if maxIntegerDigits < ds.length then .error (.tooManyDigits ds.length)
    else .ok (signedOfDigits negative ds)

/-- A name in capitals with underscores between its words. -/
def constantCase (token : String) : String :=
  upper (String.ofList (separateWords token.toList))

/-- Reads a member: by value when the text is an integer literal, else by name. A name may be
written in camel case or in any letter case. -/
def readMember (raw : String) (e : Enumeration) : Except DecodeFault Member :=
  let token := trim raw
  match readInteger? token with
  | some value =>
    match value.toOption.bind e.ofValue? with
    | some m => .ok m
    | none => .error (.notMember token e.name)
  | none =>
    let wanted := constantCase token
    let lowered := lower token
    match e.members.find? fun m => m.name == wanted || lower m.name == lowered with
    | some m => .ok m
    | none => .error (.unknownMember raw e.name (e.members.map (lower ·.name)))

end ViewMarkup
