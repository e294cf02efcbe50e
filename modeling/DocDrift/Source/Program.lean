import DocDrift.Source.Lexer
import DocDrift.Source.Statement

/-!
Whole source texts. `declarations` reads a text to its end and yields what it declares;
`Summary.ofSource` is the summary of the text. How deep constructs are nested is bounded by the
number of tokens, so the readers below tie the knot as many times as a text could need.
-/

set_option autoImplicit false

namespace DocDrift.Source

/-- The readers for constructs nested to some depth. -/
def nesting : Nat → Nesting
  | 0 => ⟨Parse.misplaced, Parse.misplaced⟩
  | depth + 1 =>
      { expression := fun cursor => expression (nesting depth) cursor
        statement := fun cursor => statement (nesting depth) cursor }

/-- The items that the statements of a text declare, up to the end of the text. -/
def program (depth : Nat) : Parse (List Item) := do
  let items ← (nesting depth).statementsUntil (fun _ => false)
  if (← Parse.peek).kind = .finish then return items else Parse.misplaced

def declarations (text : String) : Except SyntaxError (List Item) := do
  let (tokens, finish) ← tokensOf text
  let (items, _) ← (program (2 * tokens.length + 4)).run
    { rest := tokens, finish := finish, bound := tokens.length + 1, line := 1, leaves := [] }
  return items

end DocDrift.Source

namespace DocDrift

/-- The summary of a source text, or why the text is not accepted. -/
def Summary.ofSource (text : String) : Except Source.SyntaxError Summary :=
  (Source.declarations text).map Source.summarize

end DocDrift
