import DocDrift.Config
import DocDrift.FileTree

/-!
The configuration file of a repository. A repository without one has the standard configuration.
-/

set_option autoImplicit false

namespace DocDrift.Config

def load (files : FileTree) (root : String) : Except Failure Config := do
  if !files.exists? (filePath root) then return standard
  else
    let text ← (files.readText (filePath root)).mapError Failure.file
    match ofText? text with
    | some config => return config
    | none => .error .config

/-- The files after a configuration is written to the configuration file of a repository. -/
def save (config : Config) (files : FileTree) (root : String) : Except Failure FileTree :=
  (files.writeBelow (filePath root) config.render.toUTF8).mapError Failure.file

end DocDrift.Config
