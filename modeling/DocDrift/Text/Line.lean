/-!
Two ways to cut a text into lines. `terminatedLines` keeps what ends a line and is what a line
comparison works on: nothing is lost, so the lines concatenate to the text. `plainLines` drops the
terminators and is what a reader of the text sees.
-/

set_option autoImplicit false

namespace DocDrift.Text

/-- Lines with their terminators; a line ends at `\r\n`, at `\r` or at `\n`, and a last line
without a terminator is kept. -/
def terminatedLines : List Char → List (List Char)
  | [] => []
  | '\r' :: '\n' :: rest => ['\r', '\n'] :: terminatedLines rest
  | c :: rest =>
      if c = '\n' ∨ c = '\r' then [c] :: terminatedLines rest
      else
        match terminatedLines rest with
        | [] => [[c]]
        | line :: more => (c :: line) :: more

/-- Lines without their terminators `\n` and `\r\n`; a final terminator opens no further line. -/
def plainLines : List Char → List (List Char)
  | [] => []
  | '\n' :: rest => [] :: plainLines rest
  | '\r' :: '\n' :: rest => [] :: plainLines rest
  | c :: rest =>
      match plainLines rest with
      | [] => [[c]]
      | line :: more => (c :: line) :: more

end DocDrift.Text
