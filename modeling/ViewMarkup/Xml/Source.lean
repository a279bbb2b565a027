import ViewMarkup.Xml.Declaration
import ViewMarkup.Xml.Problem

/-!
# From bytes to characters

A document comes as text or as bytes. Bytes start with a byte order mark or with a recognisable
character, and may go on in the encoding that their declaration names.
-/

namespace ViewMarkup.Xml

/-- How bytes stand for characters. ISO 8859-1 is known by its own name; by any other it is a table
of what each byte stands for. -/
inductive Encoding where
  | utf8
  | utf16 (bigEndian : Bool)
  | latin1
  | latin1Table
  | ascii
deriving DecidableEq, Repr

/-- A continuation byte of UTF-8. -/
def isContinuation (b : UInt8) : Bool := b.toNat / 64 == 2

/-- The number of bytes of a character with this first byte, if it can be one. -/
def utf8Length? (b : UInt8) : Option Nat :=
  let n := b.toNat
  if n < 0x80 then some 1
  else if 0xc0 ≤ n && n < 0xe0 then some 2
  else if 0xe0 ≤ n && n < 0xf0 then some 3
  else if 0xf0 ≤ n && n < 0xf5 then some 4
  else none

/-- The character of a complete sequence of bytes, which must be the shortest one for it. -/
def utf8Char? (bytes : List UInt8) : Option Char :=
  match bytes.map UInt8.toNat with
  | [a] => some (Char.ofNat a)
  | [a, b] => code 0x80 ((a - 0xc0) * 64 + (b - 0x80))
  | [a, b, c] => code 0x800 (((a - 0xe0) * 64 + (b - 0x80)) * 64 + (c - 0x80))
  | [a, b, c, d] =>
    code 0x10000 ((((a - 0xf0) * 64 + (b - 0x80)) * 64 + (c - 0x80)) * 64 + (d - 0x80))
  | _ => none
where
  /-- A code point that needs this many bytes. -/
  code (least n : Nat) : Option Char :=
    if h : n.isValidChar then if least ≤ n then some (Char.ofNatAux n h) else none else none

/-- Decodes UTF-8. Besides the characters it gives the number of bytes that a character which is cut
off has. `out` holds the characters so far, last one first. -/
def decodeUtf8 : (fuel : Nat) → (out : List Char) → List UInt8 → List Char × Nat
  | 0, out, _ => (out.reverse, 0)
  | _, out, [] => (out.reverse, 0)
  | fuel + 1, out, b :: bs =>
    match utf8Length? b with
    | none => decodeUtf8 fuel (strayMark :: out) bs
    | some n =>
      let tail := bs.take (n - 1)
      if tail.length < n - 1 then ((cutMark :: out).reverse, tail.length + 1)
      else
        match if tail.all isContinuation then utf8Char? (b :: tail) else none with
        | some c =>
          if c == brokenMark || c == cutMark then decodeUtf8 fuel (brokenMark :: out) bs
          else decodeUtf8 fuel (c :: out) (bs.drop (n - 1))
        | none => decodeUtf8 fuel (brokenMark :: out) bs

/-- The character of a unit of two bytes that is not one half of a character. -/
def unitChar (unit : Nat) : Char :=
  if (0xdc00 ≤ unit && unit < 0xe000) || 0xfffe ≤ unit then strayMark else Char.ofNat unit

/-- Decodes UTF-16. The first half of a character takes whatever unit follows as the second. -/
def decodeUtf16 (bigEndian : Bool) (out : List Char) : List UInt8 → List Char × Nat
  | [] => (out.reverse, 0)
  | [_] => (out.reverse, 1)
  | a :: b :: rest =>
    let unit (a b : UInt8) : Nat :=
      if bigEndian then a.toNat * 256 + b.toNat else b.toNat * 256 + a.toNat
    let first := unit a b
    if 0xd800 ≤ first && first < 0xdc00 then
      match rest with
      | c :: d :: rest =>
        let code := 0x10000 + (first - 0xd800) * 0x400 + unit c d % 0x400
        decodeUtf16 bigEndian (Char.ofNat code :: out) rest
      | short => ((cutMark :: out).reverse, short.length + 2)
    else decodeUtf16 bigEndian (unitChar first :: out) rest

/-- Decodes bytes. Besides the characters it gives the number of bytes at the end that make up no
whole one. -/
def Encoding.decode : Encoding → List UInt8 → List Char × Nat
  | .utf8, bytes => decodeUtf8 (bytes.length + 1) [] bytes
  | .utf16 bigEndian, bytes => decodeUtf16 bigEndian [] bytes
  | .latin1, bytes | .latin1Table, bytes => (bytes.map fun b => Char.ofNat b.toNat, 0)
  | .ascii, bytes => (bytes.map fun b => if b < 128 then Char.ofNat b.toNat else strayMark, 0)

/-- What is known of the characters that bytes stand for. -/
def Encoding.alphabet : Encoding → Alphabet
  | .utf8 => .utf8
  | .utf16 _ => .utf16
  | .latin1 => .latin
  | .latin1Table | .ascii => .singleByte

/-- A document as characters. The first few of them, a byte order mark for instance, may be no part
of what is read. -/
structure Source where
  text : List Char
  skipped : Nat := 0
  /-- How many bytes at the end make up no character. -/
  tail : Nat
  /-- How many bytes there are. -/
  total : Nat
  encoding : Encoding

/-- The part of a document that is read. -/
def Source.body (s : Source) : List Char := s.text.drop s.skipped

/-- A document in an encoding. -/
def Source.decode (encoding : Encoding) (skipped : Nat) (bytes : List UInt8) : Source :=
  let (text, tail) := encoding.decode bytes
  { text, skipped, tail, total := bytes.length, encoding }

/-- Recognises the encoding from the first two bytes. -/
def Source.detect (bytes : List UInt8) : Source :=
  let short : Source :=
    { text := [], tail := bytes.length, total := bytes.length, encoding := .utf8 }
  match bytes with
  | 0xfe :: 0xff :: _ => Source.decode (.utf16 true) 1 bytes
  | 0xff :: 0xfe :: _ => Source.decode (.utf16 false) 1 bytes
  | 0xef :: 0xbb :: 0xbf :: _ => Source.decode .utf8 1 bytes
  | [0xef, 0xbb] | [0xfe] | [0xff] | [0xef] | [0x00] => short
  | 0x00 :: _ :: _ => Source.decode (.utf16 true) 0 bytes
  | _ :: 0x00 :: _ => Source.decode (.utf16 false) 0 bytes
  | _ => Source.decode .utf8 0 bytes

/-- The names of encodings that are known by themselves, in lower case. -/
def ownNames : List (String × Encoding) := [
  ("iso-8859-1", .latin1), ("us-ascii", .ascii), ("utf-8", .utf8), ("utf-16", .utf16 true),
  ("utf-16be", .utf16 true), ("utf-16le", .utf16 false)]

/-- Other names with what each byte stands for; nothing when a byte alone stands for nothing. The
bytes of UTF-8 outside of ASCII stand for nothing by themselves and are not allowed. -/
def otherNames : List (String × Option Encoding) := [
  ("latin_1", some .latin1Table), ("latin1", some .latin1Table), ("latin", some .latin1Table),
  ("l1", some .latin1Table), ("iso8859_1", some .latin1Table), ("iso8859", some .latin1Table),
  ("iso_8859_1", some .latin1Table), ("iso_8859_1_1987", some .latin1Table),
  ("iso_ir_100", some .latin1Table), ("csisolatin1", some .latin1Table),
  ("ibm819", some .latin1Table), ("cp819", some .latin1Table),
  ("ascii", some .ascii), ("us_ascii", some .ascii), ("us", some .ascii), ("csascii", some .ascii),
  ("ibm367", some .ascii), ("cp367", some .ascii), ("iso646_us", some .ascii),
  ("iso_ir_6", some .ascii), ("ansi_x3_4_1968", some .ascii), ("ansi_x3_4_1986", some .ascii),
  ("iso_646_irv_1991", some .ascii),
  ("utf_8", some .ascii), ("utf8", some .ascii), ("utf", some .ascii), ("u8", some .ascii),
  ("utf8_ucs2", some .ascii), ("utf8_ucs4", some .ascii), ("cp65001", some .ascii),
  ("utf_8_sig", some .ascii),
  ("utf_16", none), ("utf16", none), ("u16", none), ("utf_16_be", none), ("utf_16be", none),
  ("unicodebigunmarked", none), ("utf_16_le", none), ("utf_16le", none),
  ("unicodelittleunmarked", none), ("utf_32", none), ("utf32", none), ("u32", none),
  ("utf_32_be", none), ("utf_32be", none), ("utf_32_le", none), ("utf_32le", none)]

/-- A name without the differences that do not count: letter case, and which marks stand between
its words. -/
def plainName (name : String) : String :=
  let words := name.toLower.toList.splitBy fun c d => c.isAlphanum == d.isAlphanum
  "_".intercalate ((words.filter (·.all Char.isAlphanum)).map String.ofList)

/-- The document in the encoding that its declaration names. One of two-byte units cannot be named
from inside one of single bytes, nor the other way round. -/
def Source.redeclared (s : Source) (bytes : List UInt8) : Except Stop Source :=
  match declarationText? s.body with
  | none => .ok s
  | some (text, place) =>
    match declaration text with
    | .error _ | .ok { encoding := none, .. } => .ok s
    | .ok { encoding := some (name, valuePlace), .. } =>
      let stop (problem : Problem) : Except Stop Source :=
        let inside := place.drop (text.length - valuePlace.length)
        .error { problem, rest := inside, again := some s.text }
      let isDouble : Encoding → Bool
        | .utf16 _ => true
        | _ => false
      match ownNames.lookup name.toLower with
      | some encoding =>
        if isDouble encoding && isDouble s.encoding && name.toLower == "utf-16" then .ok s
        else if encoding = s.encoding then .ok s
        else if isDouble encoding || isDouble s.encoding then stop .wrongEncoding
        else .ok (Source.decode encoding (if s.skipped = 0 then 0 else 3) bytes)
      | none =>
        match otherNames.lookup (plainName name) with
        | none => stop .unknownEncoding
        | some none => stop .multiByteEncoding
        | some (some encoding) =>
          if isDouble s.encoding then
            let behind := s.encoding.alphabet.textWidth (place.drop (text.length + 2))
            .ok (Source.decode encoding (s.total - s.tail - behind) bytes)
          else .ok (Source.decode encoding (if s.skipped = 0 then 0 else 3) bytes)

/-- The document in a text: no declaration changes how it is read. -/
def Source.ofText (text : String) : Source := Source.detect text.toUTF8.toList

end ViewMarkup.Xml
