import DocDrift.Failure
import DocDrift.Outline

/-!
Generators of documents. A generator gets the path and the text of a file and returns a document,
with what it cost if it asked a model for it.
-/

set_option autoImplicit false

namespace DocDrift

/-- What a model was given and gave, and its price. -/
structure Expense where
  model : String
  input : Int
  output : Int
  cost : Float
  deriving Inhabited

structure Document where
  text : String
  expense : Option Expense
  deriving Inhabited

/-- Makes a document of the path and the text of a file. -/
abbrev Generator := String → String → Except Failure Document

namespace Generator

/-- The outline of a file, which costs nothing. -/
def outline : Generator := fun path source =>
  match Outline.ofSource path source with
  | .ok text => .ok ⟨text, none⟩
  | .error error => .error (.generation (path ++ ": " ++ error.message))

/-- The documents of a generator at a price; input and output are counted in bytes. -/
def metered (model : String) (cost : Float) (generator : Generator) : Generator :=
  fun path source => do
    let document ← generator path source
    return { document with
      expense := some ⟨model, source.utf8ByteSize, document.text.utf8ByteSize, cost⟩ }

/-- The text of a file as a block of code. -/
def verbatim : Generator := fun _ source =>
  .ok ⟨"\x60\x60\x60php\n" ++ source ++ "\x60\x60\x60\n", none⟩

/-- A generator whose model never answers. -/
def unavailable : Generator := fun path _ =>
  .error (.generation ("model unavailable for " ++ path))

end Generator

end DocDrift
