/-!
Paths as text: parts with slashes between them. A part that is empty or a single dot leads nowhere,
and two dots lead up. What is computed here is a matter of the text alone; whether something exists
under a path is a question to a file tree.
-/

set_option autoImplicit false

namespace DocDrift.Path

def parts : List Char → List (List Char)
  | [] => [[]]
  | c :: rest =>
      if c = '/' then [] :: parts rest
      else
        match parts rest with
        | [] => [[c]]
        | part :: more => (c :: part) :: more

/-- Parts with slashes between them. -/
def ofParts (parts : List (List Char)) : List Char :=
  ['/'].intercalate parts

/-- A part that leads nowhere. -/
def isIdle (part : List Char) : Bool :=
  part.isEmpty || part == ['.']

/-- The part that leads up. -/
def up : List Char :=
  ['.', '.']

def isAbsolute (path : String) : Bool :=
  path.toList.head? == some '/'

/-- The parts of a path that lead somewhere. -/
def steps (path : String) : List (List Char) :=
  (parts path.toList).filter (fun part => !isIdle part)

/-- A path below a directory; an absolute path stays as it is. -/
def join (directory path : String) : String :=
  if isAbsolute path || directory.isEmpty then path
  else if directory.toList.getLast? == some '/' then directory ++ path
  else directory ++ "/" ++ path

/-- A path without a reference to the current directory in front. -/
def withoutHere : List Char → List Char
  | '.' :: '/' :: rest => withoutHere rest
  | path => path

/-! ### File names -/

/-- What stands before the last name of a path, and that name; a path that ends by leading up has
none. -/
def lastName? (path : List Char) : Option (List (List Char) × List Char) :=
  match (parts path).reverse.dropWhile isIdle with
  | [] => none
  | name :: before => if name == up then none else some (before.reverse, name)

/-- What stands before the last dot of a name, and what follows it. -/
def atLastDot? : List Char → Option (List Char × List Char)
  | [] => none
  | c :: rest =>
      match atLastDot? rest with
      | some (before, after) => some (c :: before, after)
      | none => if c = '.' then some ([], rest) else none

/-- A name without its extension, and the extension; a dot in front does not begin one. -/
def splitName (name : List Char) : List Char × Option (List Char) :=
  match atLastDot? name with
  | some (c :: before, after) => (c :: before, some after)
  | _ => (name, none)

def extension? (path : List Char) : Option (List Char) := do
  let (_, name) ← lastName? path
  (splitName name).2

/-- A path with another extension of its last name, if it has a last name. -/
def withExtension (extension path : List Char) : List Char :=
  match lastName? path with
  | some (before, name) => ofParts (before ++ [(splitName name).1 ++ '.' :: extension])
  | none => path

/-- A letter in lower case, if it is one of the ASCII letters. -/
def lowered (c : Char) : Char :=
  if 'A' ≤ c && c ≤ 'Z' then Char.ofNat (c.toNat + 32) else c

/-- Whether two extensions are the same but for the case of their letters. -/
def sameExtension (left right : List Char) : Bool :=
  left.map lowered == right.map lowered

end DocDrift.Path
