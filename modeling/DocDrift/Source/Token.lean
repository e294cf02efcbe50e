import DocDrift.Source.Word

/-!
Tokens of source text. A token remembers what the text around it contributes: the gap before it,
the documentation comment directly before it, and whether the code was closed in between.
-/

set_option autoImplicit false

namespace DocDrift.Source

def openBrace : String := "\x7b"

def closeBrace : String := "\x7d"

inductive TokenKind
  | word (spelling : Word)
  | number
  /-- An operator, a bracket or another mark. -/
  | mark
  /-- A whole quotation. The code embedded in it follows, each piece between `embed` and
  `unembed`. -/
  | quotation
  | embed
  | unembed
  /-- The end of the text. -/
  | finish
  deriving DecidableEq

structure Token where
  kind : TokenKind
  text : String
  /-- What stands between the token before and this one. -/
  gap : String
  /-- The documentation comment directly before the token. -/
  doc : Option String
  /-- Whether a close tag stands between the token before and this one. -/
  closed : Bool
  firstLine : Nat
  lastLine : Nat
  deriving DecidableEq

namespace Token

/-- The word in lower case, and the empty text for a token that is no word. -/
def keyword (token : Token) : String :=
  match token.kind with
  | .word spelling => spelling.folded
  | _ => ""

def isMark (token : Token) (text : String) : Bool :=
  token.kind = .mark && token.text == text

def isWord (token : Token) : Bool :=
  match token.kind with
  | .word _ => true
  | _ => false

end Token

end DocDrift.Source
