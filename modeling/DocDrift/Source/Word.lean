/-!
The smallest units of source text: which characters separate tokens, and which texts are words.
A `Word` carries the proof that it is spelled as one, so a name taken from a word needs no further
check.
-/

set_option autoImplicit false

namespace DocDrift.Source

/-- Characters that may stand between any two tokens. -/
def isGap (c : Char) : Bool :=
  let n := c.toNat
  n == 0x20 || (0x09 ≤ n && n ≤ 0x0D) || n == 0xA0 || n == 0x200B || n == 0x2060 || n == 0xFEFF

/-- Characters that a word may begin with: letters, the underscore, and everything beyond ASCII
that does not separate tokens. -/
def startsWord (c : Char) : Bool :=
  c.isAlpha || c == '_' || (0x80 ≤ c.toNat && !isGap c)

def continuesWord (c : Char) : Bool :=
  startsWord c || c.isDigit

/-- Whether a text is spelled as one word. -/
def isWord : List Char → Bool
  | [] => false
  | c :: rest => startsWord c && rest.all continuesWord

/-- A name or a keyword. -/
structure Word where
  text : String
  spelled : isWord text.toList = true

namespace Word

instance : DecidableEq Word := fun left right =>
  if same : left.text = right.text then
    .isTrue (by cases left; cases right; cases same; rfl)
  else .isFalse (fun equal => same (congrArg Word.text equal))

/-- The word in lower case; keywords are recognised in any case. -/
def folded (word : Word) : String :=
  word.text.map Char.toLower

end Word

def wordPart (text : List Char) : List Char :=
  text.takeWhile continuesWord

end DocDrift.Source
