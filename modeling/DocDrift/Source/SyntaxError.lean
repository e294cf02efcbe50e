import DocDrift.Text.Blank

/-!
Why a source text is not accepted, and where.
-/

set_option autoImplicit false

namespace DocDrift.Source

inductive SyntaxProblem
  /-- A closing mark is absent where a statement or a bracket ends. -/
  | missing (mark : String)
  /-- A text that fits nowhere. -/
  | misplaced (text : String)
  deriving DecidableEq, Repr, Inhabited

/-- A problem and the line, counted from one, on which it shows. -/
structure SyntaxError where
  problem : SyntaxProblem
  line : Nat
  deriving DecidableEq, Repr, Inhabited

/-- The wording of a problem; a misplaced text is shown by its first forty characters. -/
def SyntaxProblem.message : SyntaxProblem → String
  | .missing mark => "missing '" ++ mark ++ "'"
  | .misplaced text =>
      "syntax error near '" ++
        String.ofList (Text.trim ((text.toList.takeWhile (· ≠ '\n')).take 40)) ++ "'"

def SyntaxError.message (error : SyntaxError) : String :=
  error.problem.message ++ " (line " ++ toString error.line ++ ")"

end DocDrift.Source
