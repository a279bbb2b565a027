import ViewMarkup.Decimal.Literal
import ViewMarkup.Table

/-!
# String tables in JSON

A reader for JSON texts that tells what is wrong and where. Of a member given twice the last value
counts.
-/

namespace ViewMarkup

/-- A JSON value. Numbers are kept as they are written. -/
inductive JsonValue where
  | null
  | bool (b : Bool)
  | number (s : String)
  | text (s : String)
  | array (items : List JsonValue)
  | object (members : List (String × JsonValue))

/-- What can be wrong with a text: its form, or an integer that is too long. -/
inductive JsonFlaw where
  | malformed (message : String)
  | tooManyDigits (count : Nat)
deriving DecidableEq, Repr

/-- What is wrong with a text, and what was left of it there. -/
structure JsonProblem where
  flaw : JsonFlaw
  rest : List Char

namespace JsonValue

/-- A value with the text that is left after it. -/
abbrev Reading := Except JsonProblem

/-- Gives up at a place. -/
def fail {α : Type} (message : String) (rest : List Char) : Reading α :=
  .error ⟨.malformed message, rest⟩

/-- The blanks between tokens. -/
def isBlank (c : Char) : Bool := c == ' ' || c == '\t' || c == '\n' || c == '\r'

/-- The text without the blanks at its start. -/
def skip (cs : List Char) : List Char := cs.dropWhile isBlank

/-- The value of a hexadecimal digit. -/
def hexDigit? (c : Char) : Option Nat :=
  if c.isDigit then some (c.toNat - 48)
  else if 'a' ≤ c ∧ c ≤ 'f' then some (c.toNat - 87)
  else if 'A' ≤ c ∧ c ≤ 'F' then some (c.toNat - 55)
  else none

/-- The number of four hexadecimal digits at the start of a text that goes on after them. -/
def fourDigits? : List Char → Option (Nat × List Char)
  | a :: b :: c :: d :: rest =>
    match hexDigit? a, hexDigit? b, hexDigit? c, hexDigit? d with
    | some a, some b, some c, some d =>
      if rest.isEmpty then none else some (((a * 16 + b) * 16 + c) * 16 + d, rest)
    | _, _, _, _ => none
  | _ => none

/-- The character of an escape of one letter. -/
def escape? : Char → Option Char
  | '"' => some '"'
  | '\\' => some '\\'
  | '/' => some '/'
  | 'b' => some '\x08'
  | 'f' => some '\x0c'
  | 'n' => some '\n'
  | 'r' => some '\r'
  | 't' => some '\t'
  | _ => none

/-- A character by its number, where two numbers in a row may stand for one character. -/
def escapedChar (n : Nat) (rest : List Char) : Char × List Char :=
  if 0xd800 ≤ n && n < 0xdc00 then
    match rest with
    | '\\' :: 'u' :: more =>
      match fourDigits? more with
      | some (m, rest') =>
        if 0xdc00 ≤ m && m < 0xe000 then
          (Char.ofNat (0x10000 + (n - 0xd800) * 0x400 + (m - 0xdc00)), rest')
        else ('\ufffd', rest)
      | none => ('\ufffd', rest)
    | _ => ('\ufffd', rest)
  else if 0xdc00 ≤ n && n < 0xe000 then ('\ufffd', rest)
  else (Char.ofNat n, rest)

/-- The characters of a text up to its closing quote; `opening` is what was left at the opening. -/
def characters (opening : List Char) : (fuel : Nat) → List Char → Reading (List Char × List Char)
  | 0, _ | _, [] => fail "Unterminated string starting at" opening
  | fuel + 1, c :: cs =>
    let put (x : Char) (rest : List Char) : Reading (List Char × List Char) := do
      let (xs, rest) ← characters opening fuel rest
      return (x :: xs, rest)
    if c == '"' then .ok ([], cs)
    else if c.toNat < 0x20 then fail "Invalid control character at" (c :: cs)
    else if c != '\\' then put c cs
    else
      match cs with
      | [] => fail "Unterminated string starting at" opening
      | 'u' :: more =>
        match fourDigits? more with
        | some (n, rest) =>
          let (x, rest) := escapedChar n rest
          put x rest
        | none => fail "Invalid \\uXXXX escape" cs
      | e :: rest =>
        match escape? e with
        | some x => put x rest
        | none => fail "Invalid \\escape" (c :: cs)

/-- A number at the start of a text, if there is one. -/
def number? (cs : List Char) : Option (String × List Char) :=
  let afterSign := if cs.head? == some '-' then cs.drop 1 else cs
  let digits (cs : List Char) : List Char := cs.dropWhile Char.isDigit
  let startsWithDigit (cs : List Char) : Bool := (cs.head?.map Char.isDigit).getD false
  let afterWhole? : Option (List Char) :=
    match afterSign with
    | '0' :: rest => some rest
    | rest => if startsWithDigit rest then some (digits rest) else none
  afterWhole?.map fun rest =>
    let rest :=
      match rest with
      | '.' :: more => if startsWithDigit more then digits more else rest
      | _ => rest
    let rest :=
      match rest with
      | e :: more =>
        if e == 'e' || e == 'E' then
          let unsigned :=
            if more.head? == some '+' || more.head? == some '-' then more.drop 1 else more
          if startsWithDigit unsigned then digits unsigned else rest
        else rest
      | [] => rest
    (String.ofList (cs.take (cs.length - rest.length)), rest)

/-- How many digits a number has, if it is an integer. -/
def integerLength? (s : String) : Option Nat :=
  let digits := if s.toList.head? == some '-' then s.toList.drop 1 else s.toList
  if digits.all Char.isDigit then some digits.length else none

/-- A number with the text that is left after it, unless it is an integer that is too long. -/
def checkedNumber (s : String) (rest : List Char) : Reading (JsonValue × List Char) :=
  match integerLength? s with
  | some count =>
    if Decimal.maxIntegerDigits < count then .error ⟨.tooManyDigits count, rest⟩
    else .ok (.number s, rest)
  | none => .ok (.number s, rest)

/-- The words that are values. -/
def words : List (String × JsonValue) := [
  ("null", .null), ("true", .bool true), ("false", .bool false), ("NaN", .number "NaN"),
  ("Infinity", .number "Infinity"), ("-Infinity", .number "-Infinity")]

mutual

/-- A value at the start of a text. -/
def value : (fuel : Nat) → List Char → Reading (JsonValue × List Char)
  | 0, cs => fail "Expecting value" cs
  | fuel + 1, cs =>
    match cs with
    | '"' :: rest => do
      let (s, rest) ← characters cs (rest.length + 1) rest
      return (.text (String.ofList s), rest)
    | '{' :: rest =>
      match skip rest with
      | '}' :: rest => .ok (.object [], rest)
      | rest => members fuel [] rest
    | '[' :: rest =>
      match skip rest with
      | ']' :: rest => .ok (.array [], rest)
      | rest => elements fuel rest
    | _ =>
      match words.find? fun (w, _) => w.toList.isPrefixOf cs with
      | some (w, v) => .ok (v, cs.drop w.length)
      | none =>
        match number? cs with
        | some (n, rest) => checkedNumber n rest
        | none => fail "Expecting value" cs

/-- The members of an object up to its end. -/
def members : (fuel : Nat) → Table String JsonValue → List Char → Reading (JsonValue × List Char)
  | 0, _, cs => fail "Expecting value" cs
  | fuel + 1, before, cs =>
    match cs with
    | '"' :: rest => do
      let (key, rest) ← characters cs (rest.length + 1) rest
      match skip rest with
      | ':' :: rest =>
        let (v, rest) ← value fuel (skip rest)
        let before := before.put (String.ofList key) v
        match skip rest with
        | '}' :: rest => return (.object before, rest)
        | ',' :: rest => members fuel before (skip rest)
        | rest => fail "Expecting ',' delimiter" rest
      | rest => fail "Expecting ':' delimiter" rest
    | _ => fail "Expecting property name enclosed in double quotes" cs

/-- The elements of an array up to its end. -/
def elements : (fuel : Nat) → List Char → Reading (JsonValue × List Char)
  | 0, cs => fail "Expecting value" cs
  | fuel + 1, cs => do
    let (v, rest) ← value fuel cs
    match skip rest with
    | ']' :: rest => return (.array [v], rest)
    | ',' :: rest =>
      let (vs, rest) ← elements fuel (skip rest)
      match vs with
      | .array vs => return (.array (v :: vs), rest)
      | _ => return (.array [v], rest)
    | rest => fail "Expecting ',' delimiter" rest

end

/-- The value that a whole text stands for. -/
def read (text : List Char) : Reading JsonValue := do
  if text.head? == some '\ufeff' then fail "Unexpected UTF-8 BOM (decode using utf-8-sig)" text
  let (v, rest) ← value (2 * text.length + 2) (skip text)
  let rest := skip rest
  if rest.isEmpty then return v else fail "Extra data" rest

end JsonValue

/-- The wording of what is wrong with the form of a text, with its place. -/
def describeAt (message : String) (rest text : List Char) : String :=
  let before := text.take (text.length - rest.length)
  let line := before.countP (· == '\n') + 1
  let column := (before.reverse.takeWhile (· != '\n')).length + 1
  s!"{message}: line {line} column {column} (char {before.length})"

end ViewMarkup
