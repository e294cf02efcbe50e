import DocDrift.Change.InputFault
import DocDrift.Source.SyntaxError

/-!
What can go wrong while documentation is kept up to date. Only a failure of the store ends a pass;
every other failure concerns one file.
-/

set_option autoImplicit false

namespace DocDrift

inductive FileFault
  | notFound
  | alreadyExists
  | notDirectory
  | isDirectory
  /-- The contents are no text. -/
  | notText
  deriving DecidableEq, Repr, Inhabited

/-- The wording of a fault, with the number that the system gives it. -/
def FileFault.message : FileFault → String
  | .notFound => "No such file or directory (os error 2)"
  | .alreadyExists => "File exists (os error 17)"
  | .notDirectory => "Not a directory (os error 20)"
  | .isDirectory => "Is a directory (os error 21)"
  | .notText => "stream did not contain valid UTF-8"

inductive Failure
  | file (fault : FileFault)
  | json
  | store
  | config
  | source (error : Source.SyntaxError)
  | unreadable (path : String) (fault : FileFault)
  | input (fault : InputFault)
  | history (message : String)
  | generation (message : String)
  | other (message : String)

namespace Failure

/-- Whether a failure ends a pass. -/
def isFatal : Failure → Bool
  | .store => true
  | _ => false

def message : Failure → String
  | .file fault => "IO error: " ++ fault.message
  | .json => "JSON error"
  | .store => "Database error"
  | .config => "Config parse error"
  | .source error => "Parse error: " ++ error.message
  | .unreadable path fault => "Cannot read " ++ path ++ ": " ++ fault.message
  | .input fault => fault.report
  | .history message => "Git error: " ++ message
  | .generation message => "Documentation generation failed: " ++ message
  | .other message => message

end Failure

end DocDrift
