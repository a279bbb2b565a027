import ViewMarkup.Decimal.Literal
import ViewMarkup.Failure
import ViewMarkup.Table

/-!
# Values of settings files

The values that a TOML file can hold, and the scanners for single values: texts, numbers, dates.
Dates are only recognised.
-/

namespace ViewMarkup

/-- A value of a settings file. -/
inductive Toml where
  | text (s : String)
  | int (n : Int)
  | float (x : Float)
  | bool (b : Bool)
  | moment
  | array (items : List Toml)
  | table (entries : List (String × Toml))

namespace Toml

open Decimal

/-- A value or a key with the text that is left after it; the wording of failures is not kept. -/
abbrev Reading := Except Failure

/-- The text is not well formed. -/
def malformed {α : Type} : Reading α := .error .settingsSyntax

/-- The text after some characters, if it starts with them. -/
def after? (s : String) (cs : List Char) : Option (List Char) :=
  if s.toList.isPrefixOf cs then some (cs.drop s.length) else none

/-- Blanks within a line. -/
def isBlank (c : Char) : Bool := c == ' ' || c == '\t'

/-- The text without the blanks at its start. -/
def skip (cs : List Char) : List Char := cs.dropWhile isBlank

/-- Whether a text in quotes or a comment may contain the character. -/
def isPlain (c : Char) : Bool := c == '\t' || (0x20 ≤ c.toNat && c.toNat != 0x7f)

/-- Characters of keys without quotes. -/
def isKeyChar (c : Char) : Bool := c.isAlphanum || c == '-' || c == '_'

/-- The value of a digit in a base of at most sixteen. -/
def digitIn? (base : Nat) (c : Char) : Option Nat :=
  let value? : Option Nat :=
    if c.isDigit then some (c.toNat - 48)
    else if 'a' ≤ c ∧ c ≤ 'f' then some (c.toNat - 87)
    else if 'A' ≤ c ∧ c ≤ 'F' then some (c.toNat - 55)
    else none
  value?.filter (· < base)

/-- The character with a number of hexadecimal digits at the start of a text. -/
def hexChar (count : Nat) (cs : List Char) : Reading (Char × List Char) :=
  let digits := cs.take count
  match digits.mapM (digitIn? 16) with
  | some ds =>
    let n := ds.foldl (fun n d => 16 * n + d) 0
    if h : digits.length = count ∧ n.isValidChar then .ok (Char.ofNatAux n h.2, cs.drop count)
    else malformed
  | none => malformed

/-- The character of an escape of one letter. -/
def escape? : Char → Option Char
  | 'b' => some '\x08'
  | 't' => some '\t'
  | 'n' => some '\n'
  | 'f' => some '\x0c'
  | 'r' => some '\r'
  | '"' => some '"'
  | '\\' => some '\\'
  | _ => none

/-- What a backslash stands for; at the end of a line of a longer text, for nothing. -/
def escaped (multiline : Bool) (cs : List Char) : Reading (List Char × List Char) :=
  match cs with
  | [] => malformed
  | c :: rest =>
    if multiline && (isBlank c || c == '\n') then
      match (if c == '\n' then cs else skip rest) with
      | [] => .ok ([], [])
      | '\n' :: rest => .ok ([], rest.dropWhile fun c => isBlank c || c == '\n')
      | _ => malformed
    else if c == 'u' then (hexChar 4 rest).map fun (c, rest) => ([c], rest)
    else if c == 'U' then (hexChar 8 rest).map fun (c, rest) => ([c], rest)
    else
      match escape? c with
      | some c => .ok ([c], rest)
      | none => malformed

/-- A text in double quotes, after the opening. -/
def basicText (multiline : Bool) : (fuel : Nat) → List Char → Reading (List Char × List Char)
  | 0, _ | _, [] => malformed
  | fuel + 1, c :: cs =>
    let put (front rest : List Char) : Reading (List Char × List Char) := do
      let (xs, rest) ← basicText multiline fuel rest
      return (front ++ xs, rest)
    if c == '"' then
      if !multiline then .ok ([], cs)
      else
        match after? "\"\"" cs with
        | some rest => .ok ([], rest)
        | none => put ['"'] cs
    else if c == '\\' then do
      let (front, rest) ← escaped multiline cs
      put front rest
    else if isPlain c || (multiline && c == '\n') then put [c] cs
    else malformed

/-- A text in single quotes, after the opening: nothing is escaped. -/
def plainText (multiline : Bool) : List Char → Reading (List Char × List Char)
  | [] => malformed
  | c :: cs =>
    let put : Reading (List Char × List Char) := do
      let (xs, rest) ← plainText multiline cs
      return (c :: xs, rest)
    if c == '\'' then
      if !multiline then .ok ([], cs)
      else
        match after? "''" cs with
        | some rest => .ok ([], rest)
        | none => put
    else if isPlain c || (multiline && c == '\n') then put
    else malformed

/-- A longer text: a line feed at the start is left out, and up to two quotes may stand before the
closing ones. -/
def longText (quote : Char) (cs : List Char) : Reading (List Char × List Char) := do
  let cs := if cs.head? == some '\n' then cs.drop 1 else cs
  let (s, rest) ←
    if quote == '"' then basicText true (cs.length + 1) cs else plainText true cs
  match rest with
  | a :: b :: more =>
    if a == quote && b == quote then return (s ++ [quote, quote], more)
    else if a == quote then return (s ++ [quote], b :: more)
    else return (s, rest)
  | [a] => if a == quote then return (s ++ [quote], []) else return (s, rest)
  | [] => return (s, rest)

/-- The digits at the start of a text; `gap` says that an underscore stands before it, which is
given back unless a digit follows. -/
def moreDigits (base : Nat) : (gap : Bool) → List Char → List Nat × List Char
  | gap, [] => ([], if gap then ['_'] else [])
  | gap, c :: cs =>
    match digitIn? base c with
    | some d =>
      let (ds, rest) := moreDigits base false cs
      (d :: ds, rest)
    | none =>
      if gap then ([], '_' :: c :: cs)
      else if c == '_' then moreDigits base true cs
      else ([], c :: cs)

/-- Digits with single underscores between them, at least one digit. -/
def digits? (base : Nat) (cs : List Char) : Option (List Nat × List Char) :=
  match moreDigits base false cs with
  | ([], _) => none
  | (ds, rest) => if cs.head? == some '_' then none else some (ds, rest)

/-- Two digits that stand for a number in a range. -/
def twoDigits? (low high : Nat) : List Char → Option (Nat × List Char)
  | a :: b :: rest =>
    match digitIn? 10 a, digitIn? 10 b with
    | some x, some y =>
      let n := 10 * x + y
      if low ≤ n ∧ n ≤ high then some (n, rest) else none
    | _, _ => none
  | _ => none

/-- A time of day. -/
def time? (cs : List Char) : Option (List Char) := do
  let (_, rest) ← twoDigits? 0 23 cs
  let rest ← after? ":" rest
  let (_, rest) ← twoDigits? 0 59 rest
  let rest ← after? ":" rest
  let (_, rest) ← twoDigits? 0 59 rest
  match rest with
  | '.' :: more =>
    let digits := more.takeWhile Char.isDigit
    return if digits.isEmpty then rest else more.dropWhile Char.isDigit
  | _ => return rest

/-- An offset from universal time. -/
def offset? : List Char → Option (List Char)
  | c :: rest =>
    if c == 'Z' || c == 'z' then some rest
    else if c == '+' || c == '-' then do
      let (_, rest) ← twoDigits? 0 23 rest
      let rest ← after? ":" rest
      let (_, rest) ← twoDigits? 0 59 rest
      return rest
    else none
  | [] => none

/-- The number of days of a month. -/
def daysIn (year month : Nat) : Nat :=
  if month == 2 then
    if year % 4 == 0 && (year % 100 != 0 || year % 400 == 0) then 29 else 28
  else if [4, 6, 9, 11].contains month then 30
  else 31

/-- A date, perhaps with a time. The inner result is a failure when there is no such day. -/
def date? (cs : List Char) : Option (Reading (List Char)) := do
  let (a, rest) ← twoDigits? 0 99 cs
  let (b, rest) ← twoDigits? 0 99 rest
  let rest ← after? "-" rest
  let (month, rest) ← twoDigits? 1 12 rest
  let rest ← after? "-" rest
  let (day, rest) ← twoDigits? 1 31 rest
  let year := 100 * a + b
  let rest :=
    match rest with
    | c :: more =>
      if c == 'T' || c == 't' || c == ' ' then
        match time? more with
        | some rest => (offset? rest).getD rest
        | none => rest
      else rest
    | [] => rest
  return if year == 0 || daysIn year month < day then malformed else .ok rest

/-- The fraction and exponent of a number, each perhaps missing: their digits, the exponent, and
whether there is either. -/
def floatPart (cs : List Char) : List Nat × Int × Bool × List Char :=
  let (fraction, rest) :=
    match cs with
    | '.' :: more => (digits? 10 more).getD ([], cs)
    | _ => ([], cs)
  let exponent? : Option (Int × List Char) :=
    match rest with
    | e :: more =>
      if e == 'e' || e == 'E' then
        let (negative, more) := takeSign more
        (digits? 10 more).map fun (ds, rest) => (signedOfDigits negative ds, rest)
      else none
    | [] => none
  match exponent? with
  | some (e, rest) => (fraction, e, true, rest)
  | none => (fraction, 0, !fraction.isEmpty, rest)

/-- A number in a base other than ten. -/
def based? (cs : List Char) : Option (Toml × List Char) :=
  match cs with
  | '0' :: b :: rest =>
    let base? : Option Nat :=
      if b == 'x' then some 16 else if b == 'o' then some 8 else if b == 'b' then some 2 else none
    base?.bind fun base =>
      (digits? base rest).map fun (ds, rest) =>
        (.int (ds.foldl (fun n d => base * n + d) 0 : Nat), rest)
  | _ => none

/-- A number in base ten. -/
def decimal? (cs : List Char) : Option (Reading (Toml × List Char)) :=
  let (negative, unsigned) := takeSign cs
  let whole? : Option (List Nat × List Char) :=
    match unsigned with
    | '0' :: rest => some ([0], rest)
    | _ => digits? 10 unsigned
  whole?.map fun (whole, rest) =>
    let (fraction, exponent, isFloat, rest) := floatPart rest
    if isFloat then
      .ok (.float (Literal.toFloat { negative, whole, fraction, exponent }), rest)
    else if maxIntegerDigits < whole.length then .error (.invalid (.tooManyDigits whole.length))
    else .ok (.int (signedOfDigits negative whole), rest)

/-- Numbers that are words. -/
def specialFloats : List (String × Float) := [
  ("inf", 1.0 / 0.0), ("nan", 0.0 / 0.0), ("-inf", -1.0 / 0.0), ("+inf", 1.0 / 0.0),
  ("-nan", 0.0 / 0.0), ("+nan", 0.0 / 0.0)]

/-- A value that contains no other: a date, a number or a word for one. -/
def scalar (cs : List Char) : Reading (Toml × List Char) :=
  match date? cs with
  | some r => r.map fun rest => (.moment, rest)
  | none =>
    match time? cs with
    | some rest => .ok (.moment, rest)
    | none =>
      match based? cs with
      | some r => .ok r
      | none =>
        match decimal? cs with
        | some r => r
        | none =>
          match specialFloats.find? fun (w, _) => w.toList.isPrefixOf cs with
          | some (w, x) => .ok (.float x, cs.drop w.length)
          | none => malformed

end Toml
end ViewMarkup
