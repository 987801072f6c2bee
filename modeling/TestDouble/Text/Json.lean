import TestDouble.Text.Quoted

/-!
# JSON text

The reports are JSON documents in ASCII: an item a line, indented by its depth, and every other
character as a UTF-16 escape. An empty list or object stands on one line.
-/

namespace TestDouble.Text

/-- The values that a report holds. -/
inductive Json where
  | number (value : Int)
  | text (value : String)
  | list (items : List Json)
  | object (fields : List (String × Json))

namespace Json

/-- A UTF-16 unit in four hexadecimal digits. -/
def escapeUnit (n : Nat) : List Char :=
  '\\' :: 'u' :: hexDigits 4 n

/-- A character inside a JSON string. Past U+FFFF it takes two UTF-16 units. -/
def escapeChar (c : Char) : List Char :=
  let n := c.toNat
  if c = '\x22' ∨ c = '\\' then ['\\', c]
  else if c = '\n' then ['\\', 'n']
  else if c = '\r' then ['\\', 'r']
  else if c = '\t' then ['\\', 't']
  else if n = 0x08 then ['\\', 'b']
  else if n = 0x0C then ['\\', 'f']
  else if 0x20 ≤ n ∧ n < 0x7F then [c]
  else if n < 0x10000 then escapeUnit n
  else escapeUnit (0xD800 + (n - 0x10000) / 0x400) ++ escapeUnit (0xDC00 + (n - 0x10000) % 0x400)

/-- A JSON string. -/
def quoted (text : String) : String :=
  String.ofList ('\x22' :: text.toList.flatMap escapeChar ++ ['\x22'])

/-- A list or object: its items on lines of their own, each after `margin` and one more indent. -/
def block (opening closing : String) (indent margin : Nat) (items : List String) : String :=
  if items.isEmpty then opening ++ closing
  else
    let inner := "".pushn ' ' (margin + indent)
    opening ++ "\n" ++ inner ++ String.intercalate (",\n" ++ inner) items
      ++ "\n" ++ "".pushn ' ' margin ++ closing

mutual

/-- The document, whose first line stands after a margin already written. -/
def renderFrom (indent margin : Nat) : Json → String
  | number value => toString value
  | text value => quoted value
  | list items => block "[" "]" indent margin (renderItems indent (margin + indent) items)
  | object fields =>
    block "\x7b" "\x7d" indent margin (renderFields indent (margin + indent) fields)

/-- The items of a list, whose lines begin after the margin. -/
def renderItems (indent margin : Nat) : List Json → List String
  | [] => []
  | item :: rest => renderFrom indent margin item :: renderItems indent margin rest

/-- The fields of an object, in their order. -/
def renderFields (indent margin : Nat) : List (String × Json) → List String
  | [] => []
  | (name, value) :: rest =>
    (quoted name ++ ": " ++ renderFrom indent margin value) :: renderFields indent margin rest

end

/-- The document. A width of zero, or below, keeps the line breaks and drops the indentation. -/
def render (indent : Int) (document : Json) : String :=
  renderFrom indent.toNat 0 document

end Json

end TestDouble.Text
