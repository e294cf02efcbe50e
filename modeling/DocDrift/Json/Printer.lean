import DocDrift.Decimal.Text
import DocDrift.Json.Value

/-!
JSON text of a value: on one line, or one item a line. Numbers that are not finite have no JSON
text and are written as `null`.
-/

set_option autoImplicit false

namespace DocDrift.Json

/-- A hexadecimal digit in lower case. -/
def hexDigit (value : Nat) : Char :=
  if value < 10 then Char.ofNat (0x30 + value) else Char.ofNat (0x57 + value)

def escaped (c : Char) : List Char :=
  if c == '"' then ['\\', '"']
  else if c == '\\' then ['\\', '\\']
  else if c.toNat == 0x08 then ['\\', 'b']
  else if c.toNat == 0x0C then ['\\', 'f']
  else if c == '\n' then ['\\', 'n']
  else if c == '\r' then ['\\', 'r']
  else if c == '\t' then ['\\', 't']
  else if c.toNat < 0x20 then
    ['\\', 'u', '0', '0', hexDigit (c.toNat / 16), hexDigit (c.toNat % 16)]
  else [c]

def quoted (text : String) : String :=
  String.ofList ('"' :: text.toList.flatMap escaped ++ ['"'])

def realText (value : Float) : String :=
  (Decimal.exchangeStyle.finiteText? value).getD "null"

mutual

def compact : Json → String
  | .null => "null"
  | .bool value => if value then "true" else "false"
  | .whole value => toString value
  | .real value => realText value
  | .text value => quoted value
  | .list items => "[" ++ ",".intercalate (compactItems items) ++ "]"
  | .object fields => "\x7b" ++ ",".intercalate (compactFields fields) ++ "\x7d"

def compactItems : List Json → List String
  | [] => []
  | item :: rest => compact item :: compactItems rest

def compactFields : List (String × Json) → List String
  | [] => []
  | (name, value) :: rest => (quoted name ++ ":" ++ compact value) :: compactFields rest

end

/-- The start of a line at some depth. -/
def indentation (depth : Nat) : String :=
  "\n" ++ String.ofList (List.replicate (2 * depth) ' ')

mutual

/-- The text of a value with one item a line, the value itself at some depth. -/
def prettyAt (depth : Nat) : Json → String
  | .list [] => "[]"
  | .object [] => "\x7b\x7d"
  | .list items =>
      "[" ++ ",".intercalate (prettyItems (depth + 1) items) ++ indentation depth ++ "]"
  | .object fields =>
      "\x7b" ++ ",".intercalate (prettyFields (depth + 1) fields) ++ indentation depth ++ "\x7d"
  | .null => "null"
  | .bool value => if value then "true" else "false"
  | .whole value => toString value
  | .real value => realText value
  | .text value => quoted value

def prettyItems (depth : Nat) : List Json → List String
  | [] => []
  | item :: rest => (indentation depth ++ prettyAt depth item) :: prettyItems depth rest

def prettyFields (depth : Nat) : List (String × Json) → List String
  | [] => []
  | (name, value) :: rest =>
      (indentation depth ++ quoted name ++ ": " ++ prettyAt depth value) ::
        prettyFields depth rest

end

/-- The text of a value with one item a line. -/
def pretty (json : Json) : String :=
  prettyAt 0 json

end DocDrift.Json
