import DocDrift.Text.Blank
import DocDrift.Text.WordChar

/-!
What a changed line is, judged by itself: a comment, the opening of a declaration, or other code.
The judgement looks at the words of the line only, so it does not depend on the layout.
-/

set_option autoImplicit false

namespace DocDrift.LineKind

open Text

/-- A letter in lower case; two letters beyond ASCII have ASCII letters as their lower case. -/
def foldedChar (c : Char) : Char :=
  if c.toNat == 0x17F then 's'
  else if c.toNat == 0x212A then 'k'
  else c.toLower

/-- Whether a word is one of some keywords, in any case. -/
def isOneOf (keywords : List String) (word : List Char) : Bool :=
  keywords.any (fun keyword => keyword.toList == word.map foldedChar)

/-- Whether a word ends with a keyword that no word character precedes. -/
def endsWith (keyword : String) (word : List Char) : Bool :=
  let split := word.length - keyword.length
  isOneOf [keyword] (word.drop split) &&
    ((word.take split).getLast?.map (fun c => !isWordChar c)).getD true

def beginsName (word : List Char) : Bool :=
  (word.head?.map (fun c => isWordChar c || c == '\\')).getD false

def beginsWord (word : List Char) : Bool :=
  (word.head?.map isWordChar).getD false

def beginsVariable : List Char → Bool
  | '$' :: c :: _ => isWordChar c
  | _ => false

/-- Whether a word consists of the characters that types are written with. -/
def isType (word : List Char) : Bool :=
  word.all (fun c => isWordChar c || c == '?' || c == '\\' || c == '|' || c == '&')

/-- A type is opened: its modifiers, its kind and a name. -/
def opensType : List (List Char) → Bool
  | word :: next :: rest =>
      (isOneOf ["class", "interface", "trait", "enum"] word && beginsWord next) ||
        (isOneOf ["abstract", "final", "readonly"] word && opensType (next :: rest))
  | _ => false

/-- What follows a property's modifiers: a variable, a type and a variable, or more modifiers. -/
def continuesProperty : List (List Char) → Bool
  | [] => false
  | word :: rest =>
      beginsVariable word ||
        (isType word && (rest.head?.map beginsVariable).getD false) ||
        (isOneOf ["public", "protected", "private", "static", "var", "readonly"] word &&
          continuesProperty rest)

def opensProperty : List (List Char) → Bool
  | [] => false
  | word :: rest =>
      isOneOf ["public", "protected", "private", "static", "var", "readonly"] word &&
        continuesProperty rest

/-- A namespace is opened or a name is imported. -/
def opensSpace : List (List Char) → Bool
  | word :: next :: _ => isOneOf ["namespace", "use"] word && beginsName next
  | _ => false

/-- The words behind a function's keyword: its name, by reference or not, and a parenthesis. -/
def namesFunction : List (List Char) → Bool
  | [] => false
  | word :: rest =>
      let bare := match word with
        | '&' :: more => more
        | _ => word
      let name := bare.takeWhile isWordChar
      let after := bare.dropWhile isWordChar
      !name.isEmpty &&
        match after with
        | c :: _ => c == '('
        | [] => (rest.head?.map (fun next => next.head? == some '(')).getD false

/-- A function is declared somewhere in the line. -/
def opensFunction : List (List Char) → Bool
  | [] => false
  | word :: rest => (endsWith "function" word && namesFunction rest) || opensFunction rest

/-- A hierarchy is stated somewhere in the line. -/
def statesHierarchy : List (List Char) → Bool
  | [] => false
  | word :: rest =>
      ((endsWith "extends" word || endsWith "implements" word) &&
          (rest.head?.map beginsName).getD false) ||
        statesHierarchy rest

/-- Whether words open or alter a declaration. -/
def declares (words : List (List Char)) : Bool :=
  opensType words || opensFunction words || opensProperty words || opensSpace words ||
    statesHierarchy words

/-- Whether a word begins a comment; an attribute does not. -/
def beginsComment : List Char → Bool
  | '/' :: '/' :: _ => true
  | '/' :: '*' :: _ => true
  | '*' :: _ => true
  | ['#'] => true
  | '#' :: c :: _ => c != '['
  | _ => false

def isComment (line : List Char) : Bool :=
  ((words line).head?.map beginsComment).getD false

def isDeclaration (line : List Char) : Bool :=
  declares (words line)

end DocDrift.LineKind
