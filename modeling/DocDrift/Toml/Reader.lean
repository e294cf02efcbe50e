import DocDrift.Decimal.Nearest
import DocDrift.Toml.Document

/-!
The statements of a TOML text. A reader takes characters off the front of a text, or fails; the
first reader that accepts what is next is right, since no value is the start of a longer one that
could stand in the same place.
-/

set_option autoImplicit false

namespace DocDrift.Toml

abbrev Read := StateT (List Char) Option

namespace Read

/-- Takes a character that satisfies a condition. -/
def one (accepts : Char → Bool) : Read Char := fun text =>
  match text with
  | c :: rest => if accepts c then some (c, rest) else none
  | [] => none

/-- Takes some given characters. -/
def literal (expected : List Char) : Read Unit := fun text =>
  if expected.isPrefixOf text then some ((), text.drop expected.length) else none

def char (c : Char) : Read Unit := literal [c]

/-- Takes characters as long as they satisfy a condition. -/
def spanOf (accepts : Char → Bool) : Read (List Char) := fun text =>
  some (text.takeWhile accepts, text.dropWhile accepts)

/-- Takes characters that satisfy a condition, at least one. -/
def someOf (accepts : Char → Bool) : Read (List Char) := do
  return (← one accepts) :: (← spanOf accepts)

/-- What a reader finds, if it accepts what is next. -/
def maybe {α : Type} (reader : Read α) : Read (Option α) := fun text =>
  match reader text with
  | some (found, rest) => some (some found, rest)
  | none => some (none, text)

/-- Whether a reader accepts what is next; nothing is taken. -/
def accepts {α : Type} (reader : Read α) : Read Bool := fun text =>
  some ((reader text).isSome, text)

/-- The first of two readers that accepts what is next. -/
def either {α : Type} (first second : Read α) : Read α := fun text =>
  match first text with
  | some result => some result
  | none => second text

/-- Repeats a reader as long as it accepts what is next, at most a number of times. -/
def manyUpTo {α : Type} (reader : Read α) : Nat → Read (List α)
  | 0 => return []
  | count + 1 => do
      match ← maybe reader with
      | none => return []
      | some found => return found :: (← manyUpTo reader count)

/-- Repeats a reader that takes at least one character each time. -/
def many {α : Type} (reader : Read α) : Read (List α) := fun text =>
  manyUpTo reader text.length text

/-- Items with a separator between neighbours, at least one. -/
def separated {α : Type} (separator : Read Unit) (item : Read α) : Read (List α) := do
  let first ← item
  return first :: (← many do separator; item)

/-- Takes a number of characters that satisfy a condition. -/
def exactly (accepts : Char → Bool) : Nat → Read (List Char)
  | 0 => return []
  | count + 1 => do return (← one accepts) :: (← exactly accepts count)

/-- Accepts the end of the text. -/
def finish : Read Unit := fun text => if text.isEmpty then some ((), []) else none

/-- A value that is there, or failure. -/
def found {α : Type} (value : Option α) : Read α := fun text => value.map (·, text)

def ensure (condition : Bool) : Read Unit := found (if condition then some () else none)

end Read

open Read

/-! ### Blanks and comments -/

def isSpace (c : Char) : Bool :=
  c == ' ' || c == '\t'

/-- A character beyond ASCII. -/
def isWide (c : Char) : Bool :=
  0x80 ≤ c.toNat

/-- A character that may stand on a line: any but the control characters. -/
def isPlain (c : Char) : Bool :=
  c == '\t' || (0x20 ≤ c.toNat && c.toNat ≤ 0x7E) || isWide c

def spaces : Read Unit := do
  let _ ← spanOf isSpace

def newline : Read Unit :=
  either (char '\n') (literal ['\r', '\n'])

def lineEnd : Read Unit :=
  either newline finish

def comment : Read Unit := do
  char '#'
  let _ ← spanOf isPlain

/-- What may stand behind a statement. -/
def trailing : Read Unit := do
  spaces
  let _ ← maybe comment
  lineEnd

/-- Blanks, line ends and comments between the items of a list. -/
def gap : Read Unit := do
  spaces
  let _ ← many do
    let _ ← maybe comment
    newline
    spaces

/-! ### Strings -/

def isHexDigit (c : Char) : Bool :=
  ('0' ≤ c && c ≤ '9') || ('a' ≤ c && c ≤ 'f') || ('A' ≤ c && c ≤ 'F')

def digitValue (c : Char) : Nat :=
  if '0' ≤ c && c ≤ '9' then c.toNat - 0x30
  else if 'a' ≤ c && c ≤ 'f' then c.toNat - 0x57
  else c.toNat - 0x37

def digitsValue (base : Nat) (digits : List Char) : Nat :=
  digits.foldl (fun value c => value * base + digitValue c) 0

def numbered (count : Nat) : Read Char := do
  let code := digitsValue 16 (← exactly isHexDigit count)
  ensure (code < 0xD800 || (0xDFFF < code && code < 0x110000))
  return Char.ofNat code

/-- A character behind a backslash. -/
def escapeSequence : Read Char := do
  char '\\'
  match ← one (fun _ => true) with
  | 'b' => return Char.ofNat 0x08
  | 't' => return '\t'
  | 'n' => return '\n'
  | 'f' => return Char.ofNat 0x0C
  | 'r' => return '\r'
  | '"' => return '"'
  | '\\' => return '\\'
  | 'u' => numbered 4
  | 'U' => numbered 8
  | _ => found none

def isBasic (c : Char) : Bool :=
  isPlain c && c != '"' && c != '\\'

/-- A string in double quotes on one line. -/
def basicString : Read String := do
  char '"'
  let chars ← many (either (one isBasic) escapeSequence)
  char '"'
  return String.ofList chars

/-- A string in single quotes on one line, without escapes. -/
def literalString : Read String := do
  char '\''
  let chars ← spanOf (fun c => isPlain c && c != '\'')
  char '\''
  return String.ofList chars

/-- A line end in a string is always the same character. -/
def lineBreak : Read (List Char) := do
  newline
  return ['\n']

/-- A backslash at the end of a line takes the blanks in front of the next text away. -/
def lineContinuation : Read (List Char) := do
  char '\\'
  spaces
  newline
  let _ ← many (either newline do let _ ← one isSpace)
  return []

/-- One or two quotes that do not end a string of several lines. -/
def fewQuotes (quote : Char) : Read (List Char) := do
  let quotes ← someOf (· == quote)
  ensure (quotes.length ≤ 2)
  return quotes

/-- The end of a string of several lines; one or two quotes before the end still belong to it. -/
def closingQuotes (quote : Char) : Read (List Char) := do
  let extra := literal [quote, quote, quote]
  either (do char quote; char quote; extra; return [quote, quote])
    (either (do char quote; extra; return [quote]) (do extra; return []))

/-- A string of several lines, made of pieces other than quotes. -/
def longString (quote : Char) (piece : Read (List Char)) : Read String := do
  literal [quote, quote, quote]
  let _ ← maybe newline
  let pieces ← many (either piece (fewQuotes quote))
  let last ← closingQuotes quote
  return String.ofList (pieces.flatten ++ last)

def basicPiece : Read (List Char) :=
  either (someOf isBasic)
    (either lineContinuation (either (do return [← escapeSequence]) lineBreak))

def literalPiece : Read (List Char) :=
  either (someOf (fun c => isPlain c && c != '\'')) lineBreak

def string : Read String :=
  either (longString '"' basicPiece)
    (either (longString '\'' literalPiece) (either basicString literalString))

/-! ### Keys -/

def isBareKeyChar (c : Char) : Bool :=
  ('a' ≤ c && c ≤ 'z') || ('A' ≤ c && c ≤ 'Z') || ('0' ≤ c && c ≤ '9') || c == '-' || c == '_'

def simpleKey : Read String :=
  either (do return String.ofList (← someOf isBareKeyChar)) (either basicString literalString)

/-- How deep keys and values may be nested. -/
def depthLimit : Nat := 80

def key : Read KeyPath := do
  let keys ← separated (char '.') do
    spaces
    let name ← simpleKey
    spaces
    return name
  ensure (keys.length < depthLimit)
  return keys

/-! ### Numbers and dates -/

def isDigit (c : Char) : Bool :=
  '0' ≤ c && c ≤ '9'

/-- Digits, between two of which an underscore may stand. -/
def digits (accepts : Char → Bool) : Read (List Char) := do
  let first ← one accepts
  let more ← many do
    let _ ← maybe (char '_')
    one accepts
  return first :: more

/-- Whether a minus sign is next; either sign is taken. -/
def sign : Read Bool := do
  match ← maybe (one fun c => c == '+' || c == '-') with
  | some '-' => return true
  | _ => return false

/-- The digits of a whole number, which do not begin with a zero unless it is the only one. -/
def wholeDigits : Read (List Char) := do
  match ← maybe (char '0') with
  | some () => return ['0']
  | none => digits isDigit

/-- A whole number in the range of sixty-four bits. -/
def ranged (value : Int) : Read Value := do
  ensure (-9223372036854775808 ≤ value && value ≤ 9223372036854775807)
  return .integer value

def prefixed (mark : Char) (base : Nat) (accepts : Char → Bool) : Read Value := do
  literal ['0', mark]
  ranged (digitsValue base (← digits accepts))

def integer : Read Value :=
  either (prefixed 'x' 16 isHexDigit)
    (either (prefixed 'o' 8 fun c => '0' ≤ c && c ≤ '7')
      (either (prefixed 'b' 2 fun c => c == '0' || c == '1') do
        let negative ← sign
        let value : Int := digitsValue 10 (← wholeDigits)
        ranged (if negative then -value else value)))

def exponentPart : Read Int := do
  let _ ← one (fun c => c == 'e' || c == 'E')
  let negative ← sign
  let value : Int := digitsValue 10 (← digits isDigit)
  return if negative then -value else value

/-- A decimal number with a fraction, an exponent, or both. A number that is too large is refused
unless it is negative. -/
def decimal : Read Value := do
  let negative ← sign
  let whole ← wholeDigits
  let fraction ← maybe do
    char '.'
    digits isDigit
  let exponent ← if fraction.isSome then maybe exponentPart else some <$> exponentPart
  let places := fraction.getD []
  let magnitude := Decimal.nearest (digitsValue 10 (whole ++ places)) (exponent.getD 0 - places.length)
  ensure (negative || !magnitude.isInf)
  return .float (if negative then -magnitude else magnitude)

def specialNumber : Read Value := do
  let negative ← sign
  let magnitude ← either (do literal ['i', 'n', 'f']; return (1.0 / 0.0 : Float))
    (do literal ['n', 'a', 'n']; return (0.0 / 0.0 : Float))
  return .float (if negative then -magnitude else magnitude)

/-- A number of two digits within bounds. -/
def twoDigits (low high : Nat) : Read (List Char) := do
  let found ← exactly isDigit 2
  let value := digitsValue 10 found
  ensure (low ≤ value && value ≤ high)
  return found

def daysIn (year month : Nat) : Nat :=
  if month == 2 then
    if year % 4 == 0 && (year % 100 != 0 || year % 400 == 0) then 29 else 28
  else if month == 4 || month == 6 || month == 9 || month == 11 then 30
  else 31

def date : Read (List Char) := do
  let year ← exactly isDigit 4
  char '-'
  let month ← twoDigits 1 12
  char '-'
  let day ← twoDigits 1 31
  ensure (digitsValue 10 day ≤ daysIn (digitsValue 10 year) (digitsValue 10 month))
  return year ++ '-' :: month ++ '-' :: day

def timeOfDay : Read (List Char) := do
  let hour ← twoDigits 0 23
  char ':'
  let minute ← twoDigits 0 59
  char ':'
  let second ← twoDigits 0 60
  let fraction ← maybe do
    char '.'
    someOf isDigit
  return hour ++ ':' :: minute ++ ':' :: second ++ (fraction.map ('.' :: ·)).getD []

def zone : Read (List Char) :=
  either (do let _ ← one (fun c => c == 'Z' || c == 'z'); return ['Z']) do
    let direction ← one (fun c => c == '+' || c == '-')
    let hour ← twoDigits 0 23
    char ':'
    let minute ← twoDigits 0 59
    return direction :: hour ++ ':' :: minute

/-- A date, which a time of day may follow, or a time of day alone. -/
def moment : Read Value :=
  either
    (do
      let day ← date
      let time ← maybe do
        let _ ← one (fun c => c == 'T' || c == 't' || c == ' ')
        let time ← timeOfDay
        return 'T' :: time ++ ((← maybe zone).getD [])
      return .moment (String.ofList (day ++ time.getD [])))
    (do return .moment (String.ofList (← timeOfDay)))

def boolean : Read Value :=
  either (do literal ['t', 'r', 'u', 'e']; return .boolean true)
    (do literal ['f', 'a', 'l', 's', 'e']; return .boolean false)

/-! ### Values -/

/-- The values that are not made of values. -/
def simpleValue : Read Value :=
  either (do return .text (← string))
    (either moment (either decimal (either specialNumber (either integer boolean))))

/-- The items of a list; a separator may follow the last one. -/
def listItems (item : Read Value) : Read (List Value) := do
  let padded : Read Value := do
    gap
    let value ← item
    gap
    return value
  let items ← maybe (separated (char ',') padded)
  if items.isSome then
    let _ ← maybe (char ',')
  gap
  return items.getD []

def keyValue (value : Read Value) : Read (KeyPath × Value) := do
  let path ← key
  char '='
  spaces
  return (path, ← value)

def inlineEntries (value : Read Value) : Read (List (KeyPath × Value)) := do
  let entries ← maybe (separated (char ',') do
    let entry ← keyValue value
    spaces
    return entry)
  spaces
  return entries.getD []

/-- A value in which values are nested at most so deep. -/
def value : Nat → Read Value
  | 0 => simpleValue
  | depth + 1 =>
      either simpleValue
        (either
          (do
            char '['
            let items ← listItems (value depth)
            char ']'
            return .list items)
          (do
            literal ['\x7b']
            let entries ← inlineEntries (value depth)
            literal ['\x7d']
            return .inline entries))

/-! ### Statements -/

def header : Read Statement :=
  either
    (do
      literal ['[', '[']
      let path ← key
      literal [']', ']']
      return .element path)
    (do
      char '['
      let path ← key
      char ']'
      return .table path)

def statement : Read Statement :=
  either header do
    let (path, found) ← keyValue (value (depthLimit - 1))
    return .entry path found

/-- A line: a statement, a comment, or neither. -/
def line : Read (List Statement) := do
  spaces
  either
    (do
      let found ← statement
      trailing
      return [found])
    (do
      trailing
      return [])

/-- Lines up to the end of the text, at most so many. -/
def linesUpTo : Nat → Read (List Statement)
  | 0 => do
      finish
      return []
  | count + 1 => do
      if ← accepts finish then return []
      else return (← line) ++ (← linesUpTo count)

def Document.ofText? (text : String) : Option Document :=
  let chars := text.toList
  let chars := if chars.head? == some (Char.ofNat 0xFEFF) then chars.drop 1 else chars
  (linesUpTo chars.length chars).map Prod.fst

end DocDrift.Toml
