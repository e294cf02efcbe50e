import DocDrift.Decimal.Text
import DocDrift.Toml.Document

/-!
The text of a TOML document: one statement a line, a blank line before every table, and lists of
more than one item with one item a line. A string is written in the plainest way that needs no
escapes.
-/

set_option autoImplicit false

namespace DocDrift.Toml

/-! ### Strings -/

/-- A character that can only be written as an escape, wherever it stands. -/
def needsEscape (c : Char) : Bool :=
  (c.toNat < 0x20 && c != '\t' && c != '\n') || c.toNat == 0x7F

/-- The length of the longest run of a character, behind a run of some length. -/
def longestRun (c : Char) : Nat → List Char → Nat
  | length, [] => length
  | length, d :: rest =>
      if d == c then longestRun c (length + 1) rest else max length (longestRun c 0 rest)

/-- A character by its number, in four digits. -/
def numberedText (c : Char) : List Char :=
  let digit (unit : Nat) : Char := (Nat.digitChar (c.toNat / unit % 16)).toUpper
  ['\\', 'u', digit 4096, digit 256, digit 16, digit 1]

def escapedChar (c : Char) : List Char :=
  if c == '\\' then ['\\', '\\']
  else if c.toNat == 0x08 then ['\\', 'b']
  else if c == '\t' then ['\\', 't']
  else if c.toNat == 0x0C then ['\\', 'f']
  else if c == '\r' then ['\\', 'r']
  else if needsEscape c then numberedText c
  else [c]

def escapedLine (chars : List Char) : List Char :=
  chars.flatMap fun c =>
    if c == '"' then ['\\', '"'] else if c == '\n' then ['\\', 'n'] else escapedChar c

/-- The text of the characters in a string of several lines, behind a number of quotes: of three
quotes side by side the third is escaped. -/
def escapedLines : Nat → List Char → List Char
  | _, [] => []
  | quotes, '"' :: rest =>
      if quotes == 2 then '\\' :: '"' :: escapedLines 0 rest else '"' :: escapedLines (quotes + 1) rest
  | _, c :: rest => escapedChar c ++ escapedLines 0 rest

def stringText (text : String) : String :=
  let chars := text.toList
  let controls := chars.any needsEscape
  let backslash := chars.contains '\\'
  let breaks := chars.contains '\n'
  let doubles := longestRun '"' 0 chars
  let singles := longestRun '\'' 0 chars
  let opening := if breaks then ['\n'] else []
  let long (quote : Char) (inside : List Char) : List Char :=
    [quote, quote, quote] ++ opening ++ inside ++ [quote, quote, quote]
  String.ofList <|
    if !controls && !backslash && doubles == 0 && !breaks then
      '"' :: escapedLine chars ++ ['"']
    else if !controls && singles == 0 && !breaks then '\'' :: chars ++ ['\'']
    else if !controls && !backslash && doubles ≤ 2 then long '"' (escapedLines 0 chars)
    else if !controls && singles ≤ 2 then long '\'' chars
    else if breaks then long '"' (escapedLines 0 chars)
    else '"' :: escapedLine chars ++ ['"']

/-! ### Values -/

def floatText (x : Float) : String :=
  match Decimal.Value.ofFloat x with
  | .undefined => "nan"
  | .infinite negative => if negative then "-inf" else "inf"
  | .finite _ => (Decimal.plainStyle.finiteText? x).getD "nan"

def isBareKey (key : String) : Bool :=
  !key.isEmpty && key.toList.all fun c =>
    ('a' ≤ c && c ≤ 'z') || ('A' ≤ c && c ≤ 'Z') || ('0' ≤ c && c ≤ '9') || c == '-' || c == '_'

def keyText (key : String) : String :=
  if isBareKey key then key else stringText key

def pathText (path : KeyPath) : String :=
  ".".intercalate (path.map keyText)

mutual

def Value.render : Value → String
  | .boolean value => if value then "true" else "false"
  | .integer value => toString value
  | .float value => floatText value
  | .text value => stringText value
  | .moment text => text
  | .list [] => "[]"
  | .list [item] => "[" ++ item.render ++ "]"
  | .list items => "[\n" ++ renderItems items ++ "]"
  | .inline [] => "\x7b\x7d"
  | .inline entries => "\x7b " ++ ", ".intercalate (renderInline entries) ++ " \x7d"

/-- Items, one a line. -/
def renderItems : List Value → String
  | [] => ""
  | item :: rest => "    " ++ item.render ++ ",\n" ++ renderItems rest

def renderInline : List (KeyPath × Value) → List String
  | [] => []
  | (path, value) :: rest => (pathText path ++ " = " ++ value.render) :: renderInline rest

end

def Statement.render : Statement → String
  | .table path => "[" ++ pathText path ++ "]\n"
  | .element path => "[[" ++ pathText path ++ "]]\n"
  | .entry path value => pathText path ++ " = " ++ value.render ++ "\n"

/-- Whether a statement begins a table. -/
def Statement.opens : Statement → Bool
  | .entry _ _ => false
  | _ => true

/-- The lines of statements behind another statement. -/
def renderRest : Document → String
  | [] => ""
  | statement :: rest =>
      (if statement.opens then "\n" else "") ++ statement.render ++ renderRest rest

def Document.render : Document → String
  | [] => ""
  | statement :: rest => statement.render ++ renderRest rest

end DocDrift.Toml
