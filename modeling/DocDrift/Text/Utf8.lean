/-!
Text as bytes. Bytes that are no text are still read: what does not belong to a character is
replaced, as far as it could have been the start of one, by one replacement character.
-/

set_option autoImplicit false

namespace DocDrift.Text

/-- The character that stands for bytes that are no text. -/
def replacementChar : Char :=
  '\uFFFD'

/-- How a character of several bytes goes on: the range of its second byte, and how many bytes
follow that one. -/
structure Continuation where
  low : UInt8
  high : UInt8
  more : Nat

/-- How a character goes on that starts with a byte, if one can. -/
def continuation? (first : UInt8) : Option Continuation :=
  if 0xC2 ≤ first && first ≤ 0xDF then some ⟨0x80, 0xBF, 0⟩
  else if first == 0xE0 then some ⟨0xA0, 0xBF, 1⟩
  else if first == 0xED then some ⟨0x80, 0x9F, 1⟩
  else if 0xE1 ≤ first && first ≤ 0xEF then some ⟨0x80, 0xBF, 1⟩
  else if first == 0xF0 then some ⟨0x90, 0xBF, 2⟩
  else if 0xF1 ≤ first && first ≤ 0xF3 then some ⟨0x80, 0xBF, 2⟩
  else if first == 0xF4 then some ⟨0x80, 0x8F, 2⟩
  else none

/-- The bytes of a character behind its first one, as far as they are there. -/
def follow (next : Continuation) (bytes : List UInt8) : List UInt8 :=
  match bytes with
  | [] => []
  | second :: rest =>
      if next.low ≤ second && second ≤ next.high then
        second :: (rest.take next.more).takeWhile (fun byte => 0x80 ≤ byte && byte ≤ 0xBF)
      else []

/-- The character that a byte starts, or the replacement of its start, and the number of further
bytes that belong to it. -/
def leadingChar (first : UInt8) (rest : List UInt8) : Char × Nat :=
  if first < 0x80 then (Char.ofNat first.toNat, 0)
  else
    match continuation? first with
    | none => (replacementChar, 0)
    | some next =>
        let tail := follow next rest
        if tail.length == next.more + 1 then
          let high := first.toNat % (1 <<< (5 - next.more))
          (Char.ofNat (tail.foldl (fun code byte => code * 64 + byte.toNat % 64) high), tail.length)
        else (replacementChar, tail.length)

/-- The characters of some bytes; `fuel` is at least their number. -/
def repairedChars : Nat → List UInt8 → List Char
  | _, [] => []
  | 0, _ => []
  | fuel + 1, first :: rest =>
      let leading := leadingChar first rest
      leading.1 :: repairedChars fuel (rest.drop leading.2)

def decodeLossy (bytes : ByteArray) : String :=
  match String.fromUTF8? bytes with
  | some text => text
  | none => String.ofList (repairedChars bytes.size bytes.data.toList)

/-! ### Bytes written as digits -/

def hexValue? (digit : Char) : Option Nat :=
  if '0' ≤ digit && digit ≤ '9' then some (digit.toNat - '0'.toNat)
  else if 'a' ≤ digit && digit ≤ 'f' then some (digit.toNat - 'a'.toNat + 10)
  else if 'A' ≤ digit && digit ≤ 'F' then some (digit.toNat - 'A'.toNat + 10)
  else none

/-- The bytes that pairs of digits stand for. -/
def bytesOfHex? : List Char → Option (List UInt8)
  | [] => some []
  | high :: low :: rest => do
      let byte := (← hexValue? high) * 16 + (← hexValue? low)
      return byte.toUInt8 :: (← bytesOfHex? rest)
  | [_] => none

end DocDrift.Text
