import TestDouble.Text.Quoted

/-!
# Texts as bytes

Reading the bytes of a file as UTF-8. The first byte of a character announces how many bytes follow
and, where a shorter spelling or no character would result, narrows what the second byte may be; the
table below is that of the standard. Bytes that are no text are told apart by where reading
stopped: at a byte that cannot begin a character, at one that does not continue it, or at the end of
the data.
-/

namespace TestDouble.Text.Utf8

inductive Flaw where
  | start
  | continuation
  | cut
  deriving DecidableEq, Repr

def Flaw.message : Flaw → String
  | start => "invalid start byte"
  | continuation => "invalid continuation byte"
  | cut => "unexpected end of data"

/-- Bytes that are no text, up to the point where that is certain. -/
structure Malformed where
  /-- The first of the bytes. -/
  byte : UInt8
  position : Nat
  /-- How many bytes there are. -/
  length : Nat
  flaw : Flaw
  deriving DecidableEq, Repr

def Malformed.message (malformed : Malformed) : String :=
  let bytes :=
    if malformed.length = 1 then
      let digits := String.ofList (hexDigits 2 malformed.byte.toNat)
      s!"byte 0x{digits} in position {malformed.position}"
    else
      s!"bytes in position {malformed.position}-{malformed.position + malformed.length - 1}"
  s!"'utf-8' codec can't decode {bytes}: {malformed.flaw.message}"

/-- What the first byte of a character announces. -/
structure Lead where
  /-- What it adds to the code point. -/
  payload : Nat
  /-- How many bytes follow. -/
  following : Nat
  /-- The bounds of the second byte. -/
  low : Nat := 0x80
  high : Nat := 0xBF
  deriving DecidableEq, Repr

def lead? (byte : UInt8) : Option Lead :=
  let b := byte.toNat
  if b < 0x80 then some { payload := b, following := 0 }
  else if b < 0xC2 then none
  else if b < 0xE0 then some { payload := b - 0xC0, following := 1 }
  else if b = 0xE0 then some { payload := 0, following := 2, low := 0xA0 }
  else if b = 0xED then some { payload := 0xD, following := 2, high := 0x9F }
  else if b < 0xF0 then some { payload := b - 0xE0, following := 2 }
  else if b = 0xF0 then some { payload := 0, following := 3, low := 0x90 }
  else if b < 0xF4 then some { payload := b - 0xF0, following := 3 }
  else if b = 0xF4 then some { payload := 4, following := 3, high := 0x8F }
  else none

/-- The bytes that continue a character, as many as it takes or as there are. -/
def Lead.continuation (lead : Lead) : List UInt8 → List UInt8
  | [] => []
  | second :: rest =>
    if lead.following = 0 || second.toNat < lead.low || lead.high < second.toNat then []
    else
      second :: (rest.take (lead.following - 1)).takeWhile fun byte ↦
        0x80 ≤ byte.toNat && byte.toNat ≤ 0xBF

/-- Six bits of the code point stand in every byte but the first. -/
def Lead.character (lead : Lead) (continuation : List UInt8) : Char :=
  .ofNat <| continuation.foldl (fun point byte ↦ 64 * point + (byte.toNat - 0x80)) lead.payload

/-- Reads the bytes that stand behind the text read so far. -/
def decodeFrom (text : String) (position : Nat) : List UInt8 → Except Malformed String
  | [] => .ok text
  | byte :: rest =>
    match lead? byte with
    | none => .error { byte, position, length := 1, flaw := .start }
    | some lead =>
      let continuation := lead.continuation rest
      let length := continuation.length + 1
      if continuation.length = lead.following then
        decodeFrom (text.push (lead.character continuation)) (position + length)
          (rest.drop lead.following)
      else if continuation.length = rest.length then .error { byte, position, length, flaw := .cut }
      else .error { byte, position, length, flaw := .continuation }
termination_by bytes => bytes.length
decreasing_by
  simp only [List.length_drop, List.length_cons]
  omega

/-- The text that the bytes spell. -/
def decode (bytes : List UInt8) : Except Malformed String :=
  decodeFrom "" 0 bytes

end TestDouble.Text.Utf8

namespace TestDouble.Text

/-! ## Line ends -/

/-- Every line ends in a line feed alone. -/
def unifyLineEnds : List Char → List Char
  | [] => []
  | '\r' :: '\n' :: cs | '\r' :: cs => '\n' :: unifyLineEnds cs
  | c :: cs => c :: unifyLineEnds cs

end TestDouble.Text
