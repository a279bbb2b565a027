/-!
# Flaws of UTF-8

Bytes that are no UTF-8 have a first flaw: a byte that starts no character, a character that goes on
with a wrong byte, or one that is cut off by the end.
-/

namespace ViewMarkup.Text

/-- What is wrong with some bytes. -/
inductive FlawKind where
  | start
  | middle
  | cut
deriving DecidableEq, Repr

/-- The wording of a flaw. -/
def FlawKind.message : FlawKind → String
  | .start => "invalid start byte"
  | .middle => "invalid continuation byte"
  | .cut => "unexpected end of data"

/-- A flaw with the places of the first and of the last byte of the character that has it. -/
structure Flaw where
  kind : FlawKind
  byte : UInt8
  first : Nat
  last : Nat
deriving DecidableEq, Repr

/-- How many bytes follow a byte that starts a character, and the range of the next one. The ranges
leave out what has a shorter form, the surrogates and what is beyond all characters. -/
def followers? (b : UInt8) : Option (Nat × Nat × Nat) :=
  let n := b.toNat
  if n < 0x80 then some (0, 0x80, 0xbf)
  else if n < 0xc2 then none
  else if n < 0xe0 then some (1, 0x80, 0xbf)
  else if n = 0xe0 then some (2, 0xa0, 0xbf)
  else if n = 0xed then some (2, 0x80, 0x9f)
  else if n < 0xf0 then some (2, 0x80, 0xbf)
  else if n = 0xf0 then some (3, 0x90, 0xbf)
  else if n < 0xf4 then some (3, 0x80, 0xbf)
  else if n = 0xf4 then some (3, 0x80, 0x8f)
  else none

/-- How many of the bytes that are needed are there, and what is wrong with the next one. -/
def takeFollowers : (needed low high : Nat) → List UInt8 → Nat × Option FlawKind
  | 0, _, _, _ => (0, none)
  | _, _, _, [] => (0, some .cut)
  | needed + 1, low, high, b :: bs =>
    if low ≤ b.toNat ∧ b.toNat ≤ high then
      let (n, kind) := takeFollowers needed 0x80 0xbf bs
      (n + 1, kind)
    else (0, some .middle)

/-- The first flaw of some bytes, the first of which is at the place given. -/
def firstFlaw? : (fuel place : Nat) → List UInt8 → Option Flaw
  | 0, _, _ => none
  | _, _, [] => none
  | fuel + 1, place, b :: bs =>
    match followers? b with
    | none => some ⟨.start, b, place, place⟩
    | some (needed, low, high) =>
      match takeFollowers needed low high bs with
      | (n, none) => firstFlaw? fuel (place + n + 1) (bs.drop n)
      | (n, some kind) => some ⟨kind, b, place, place + n⟩

/-- The text that some bytes stand for, or their first flaw. -/
def ofUtf8 (bytes : List UInt8) : Except Flaw String :=
  match String.fromUTF8? ⟨bytes.toArray⟩ with
  | some s => .ok s
  | none => .error ((firstFlaw? bytes.length 0 bytes).getD ⟨.start, 0, 0, 0⟩)

end ViewMarkup.Text
