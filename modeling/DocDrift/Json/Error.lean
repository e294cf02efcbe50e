import DocDrift.Decimal.Text
import DocDrift.Text.Shown

/-!
Why a JSON text is not accepted. A fault is a cause; an error is a fault with the place at which
it was noticed.
-/

set_option autoImplicit false

namespace DocDrift.Json

/-- What was found where something else was expected. -/
inductive Found
  | null
  | bool (value : Bool)
  | whole (value : Int)
  | real (value : Float)
  | text (value : String)
  | list
  | object

/-- Why a JSON text is not accepted. -/
inductive Fault
  /-- The text ends inside something. -/
  | unfinished (what : String)
  | expectedColon
  /-- A comma or a closing mark is missing. -/
  | expectedComma (close : Char)
  /-- A literal is misspelled. -/
  | expectedLiteral
  | expectedValue
  | badEscape
  | badNumber
  | numberTooLarge
  | controlCharacter
  | keyNotText
  /-- Half of a surrogate pair stands alone. -/
  | loneSurrogate
  /-- The second half of a surrogate pair does not follow the first. -/
  | brokenSurrogate
  | trailingComma
  | trailingText
  | wrongType (found : Found) (expected : String)
  | outOfRange (value : Int) (expected : String)
  | missingField (name : String)
  | duplicateField (name : String)
  | unknownWord (word : String) (words : List String)
  | wrongLength (length : Nat) (expected : String)

/-- A fault, and the line and the number of bytes read of it. -/
structure Error where
  fault : Fault
  line : Nat
  column : Nat

def Found.describe : Found → String
  | .null => "null"
  | .bool value => "boolean \x60" ++ toString value ++ "\x60"
  | .whole value => "integer \x60" ++ toString value ++ "\x60"
  | .real value =>
      "floating point \x60" ++ (Decimal.exchangeStyle.finiteText? value).getD "" ++ "\x60"
  | .text value => "string " ++ Text.shown value
  | .list => "sequence"
  | .object => "map"

/-- The words that are accepted, as a message lists them. -/
def alternatives (words : List String) : String :=
  let marked := words.map (fun word => "\x60" ++ word ++ "\x60")
  match marked with
  | [] => "there are no variants"
  | [one] => "expected " ++ one
  | [one, two] => "expected " ++ one ++ " or " ++ two
  | many => "expected one of " ++ ", ".intercalate many

def Fault.message : Fault → String
  | .unfinished what => "EOF while parsing " ++ what
  | .expectedColon => "expected \x60:\x60"
  | .expectedComma close => "expected \x60,\x60 or \x60" ++ String.ofList [close] ++ "\x60"
  | .expectedLiteral => "expected ident"
  | .expectedValue => "expected value"
  | .badEscape => "invalid escape"
  | .badNumber => "invalid number"
  | .numberTooLarge => "number out of range"
  | .controlCharacter =>
      "control character (\\u0000-\\u001F) found while parsing a string"
  | .keyNotText => "key must be a string"
  | .loneSurrogate => "lone leading surrogate in hex escape"
  | .brokenSurrogate => "unexpected end of hex escape"
  | .trailingComma => "trailing comma"
  | .trailingText => "trailing characters"
  | .wrongType found expected => "invalid type: " ++ found.describe ++ ", expected " ++ expected
  | .outOfRange value expected =>
      "invalid value: integer \x60" ++ toString value ++ "\x60, expected " ++ expected
  | .missingField name => "missing field \x60" ++ name ++ "\x60"
  | .duplicateField name => "duplicate field \x60" ++ name ++ "\x60"
  | .unknownWord word words => "unknown variant \x60" ++ word ++ "\x60, " ++ alternatives words
  | .wrongLength length expected =>
      "invalid length " ++ toString length ++ ", expected " ++ expected

def Error.message (error : Error) : String :=
  error.fault.message ++ " at line " ++ toString error.line ++ " column " ++ toString error.column

end DocDrift.Json
