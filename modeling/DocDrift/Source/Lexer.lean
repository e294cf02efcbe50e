import DocDrift.Source.SyntaxError
import DocDrift.Source.Token

/-!
From source text to tokens. Text is either a document, in which code stands between an open tag and
a close tag, or bare code. Comments, blanks and the text outside the tags become part of the gap
before the next token. A quotation is one token, followed by the tokens of the code embedded in it.
-/

set_option autoImplicit false

namespace DocDrift.Source

def opensWith (text : List Char) (start : String) : Bool :=
  start.toList.isPrefixOf text

def lineEnds (text : List Char) : Nat :=
  text.count '\n'

/-- What remains to be read, and what was seen since the last token. -/
structure Scan where
  rest : List Char
  /-- The number of characters read. -/
  position : Nat
  line : Nat
  /-- The text since the last token, last character first. -/
  gap : List Char
  doc : Option String
  closed : Bool
  /-- Whether the last token ends an operand. -/
  operand : Bool

namespace Scan

/-- Moves on by some characters without leaving a trace in the gap. -/
def drop (scan : Scan) (count : Nat) : Scan :=
  { scan with
    rest := scan.rest.drop count
    position := scan.position + count
    line := scan.line + lineEnds (scan.rest.take count) }

/-- Moves on by some characters, which become part of the gap. -/
def skip (scan : Scan) (count : Nat) : Scan :=
  { scan.drop count with gap := (scan.rest.take count).reverse ++ scan.gap }

/-- The text read between two states of a scan. -/
def since (scan start : Scan) : List Char :=
  start.rest.take (scan.position - start.position)

/-- Ends a token: nothing has been seen since. -/
def fresh (scan : Scan) (operand : Bool) : Scan :=
  { scan with gap := [], doc := none, closed := false, operand := operand }

/-- The token that begins at one state of a scan and ends at another. -/
def token (start stop : Scan) (kind : TokenKind) : Token :=
  { kind := kind
    text := String.ofList (stop.since start)
    gap := String.ofList start.gap.reverse
    doc := start.doc
    closed := start.closed
    firstLine := start.line
    lastLine := stop.line }

def fail {α : Type} (scan : Scan) : Except SyntaxError α :=
  .error ⟨.misplaced (String.ofList (scan.rest.takeWhile (· ≠ '\n'))), scan.line⟩

end Scan

/-! ### Tags, comments, numbers and marks -/

/-- The length of the open tag at the start of a text, zero if there is none. -/
def openTagLength : List Char → Nat
  | '<' :: '?' :: rest =>
      if opensWith rest "=" then 3
      else if opensWith ((rest.take 3).map Char.toLower) "php" then 5
      else 2
  | _ => 0

/-- The length of a text up to and including its first open tag, or its whole length. -/
def lengthToCode : List Char → Nat
  | [] => 0
  | c :: rest =>
      match openTagLength (c :: rest) with
      | 0 => lengthToCode rest + 1
      | length => length

/-- The length of what remains of a comment that ends with the line or at a close tag. -/
def lineCommentLength : List Char → Nat
  | [] => 0
  | '\n' :: _ => 0
  | '\r' :: _ => 0
  | '?' :: '>' :: _ => 0
  | _ :: rest => lineCommentLength rest + 1

/-- The length of what remains of a comment up to its closing mark, if there is one. -/
def blockCommentLength : List Char → Option Nat
  | [] => none
  | '*' :: '/' :: _ => some 2
  | _ :: rest => (blockCommentLength rest).map (· + 1)

/-- The length of a run of digits in which single underscores may separate digits. -/
def digitsLength (isDigit : Char → Bool) : List Char → Nat
  | [] => 0
  | '_' :: d :: rest => if isDigit d then digitsLength isDigit rest + 2 else 0
  | c :: rest => if isDigit c then digitsLength isDigit rest + 1 else 0

def isHexDigit (c : Char) : Bool :=
  c.isDigit || ('a' ≤ c && c ≤ 'f') || ('A' ≤ c && c ≤ 'F')

def isOctalDigit (c : Char) : Bool :=
  '0' ≤ c && c ≤ '7'

def isBinaryDigit (c : Char) : Bool :=
  c == '0' || c == '1'

def exponentLength (text : List Char) : Nat :=
  match text with
  | e :: rest =>
      if e == 'e' || e == 'E' then
        let sign := match rest with
          | s :: _ => if s == '+' || s == '-' then 1 else 0
          | [] => 0
        match digitsLength Char.isDigit (rest.drop sign) with
        | 0 => 0
        | digits => 1 + sign + digits
      else 0
  | [] => 0

/-- The length of a number with a point or an exponent, zero if the text begins with none. -/
def fractionLength (text : List Char) : Nat :=
  let whole := digitsLength Char.isDigit text
  match text.drop whole with
  | '.' :: rest =>
      let part := digitsLength Char.isDigit rest
      if whole + part = 0 then 0
      else whole + 1 + part + exponentLength (rest.drop part)
  | rest =>
      match exponentLength rest with
      | 0 => 0
      | exponent => if whole = 0 then 0 else whole + exponent

/-- The length of a whole number in any base, zero if the text begins with none. -/
def integerLength (text : List Char) : Nat :=
  match text with
  | '0' :: rest =>
      let based (isDigit : Char → Bool) : Nat :=
        match digitsLength isDigit (rest.drop 1) with
        | 0 => 1
        | digits => digits + 2
      match rest with
      | 'x' :: _ => based isHexDigit
      | 'X' :: _ => based isHexDigit
      | 'b' :: _ => based isBinaryDigit
      | 'B' :: _ => based isBinaryDigit
      | 'o' :: _ => based isOctalDigit
      | 'O' :: _ => based isOctalDigit
      | _ => digitsLength isOctalDigit text
  | _ => digitsLength Char.isDigit text

def numberLength (text : List Char) : Nat :=
  max (fractionLength text) (integerLength text)

/-- The marks of more than one character, longer ones first. -/
def longMarks : List String := [
  "<=>", "**=", "...", "<<=", ">>=", "===", "!==", "??=", "?->",
  "+=", "-=", "*=", "/=", ".=", "%=", "&=", "|=", "^=", "==", "!=", "<>", "<=", ">=", "<<", ">>",
  "&&", "||", "??", "++", "--", "->", "=>", "::", "**", "#["]

def shortMarks : List Char :=
  "\x7b\x7d()[];,<>=+-*/%&|^~!?:@$.\\".toList

def markLength (text : List Char) : Nat :=
  match longMarks.find? (opensWith text) with
  | some mark => mark.length
  | none =>
      match text with
      | c :: _ => if shortMarks.contains c then 1 else 0
      | [] => 0

/-- Words that stand before an operand and so do not end one. -/
def leadingWords : List String := [
  "return", "echo", "print", "case", "yield", "from", "and", "or", "xor", "else", "do", "throw",
  "include", "include_once", "require", "require_once", "clone", "instanceof"]

/-- Whether a token with this text ends an operand when it is a mark. -/
def closesOperand (text : List Char) : Bool :=
  text == [')'] || text == [']'] || text == ['}']

/-! ### Quotations -/

/-- How a quotation ends. -/
inductive Closing
  /-- At the next occurrence of a character. -/
  | atChar (c : Char)
  /-- At a line that begins with a label. -/
  | atLabel (label : List Char)
  deriving DecidableEq

/-- The length of the blanks and the label that close a labelled quotation here, if they do. -/
def labelLength (label text : List Char) : Option Nat :=
  let blanks := (text.takeWhile (fun c => c == ' ' || ('\t' ≤ c && c ≤ '\r'))).length
  let word := wordPart (text.drop blanks)
  if word = label then some (blanks + label.length) else none

def Closing.length? (closing : Closing) (text : List Char) : Option Nat :=
  match closing, text with
  | .atChar quote, c :: _ => if c = quote then some 1 else none
  | .atLabel label, '\n' :: rest => (labelLength label rest).map (· + 1)
  | .atLabel label, '\r' :: '\n' :: rest => (labelLength label rest).map (· + 2)
  | .atLabel label, '\r' :: rest => (labelLength label rest).map (· + 1)
  | _, _ => none

/-- The start of a labelled quotation: the length of its first line without the line end, its
label, and whether code may be embedded in it. -/
def labelledStart? (text : List Char) : Option (Nat × List Char × Bool) :=
  if opensWith text "<<<" then
    let isSpace (c : Char) : Bool := c == ' ' || c == '\t'
    let blanks := ((text.drop 3).takeWhile isSpace).length
    let body := text.drop (3 + blanks)
    let quoted (quote : Char) (embeds : Bool) : Option (Nat × List Char × Bool) :=
      let label := wordPart (body.drop 1)
      let after := body.drop (1 + label.length)
      if isWord label && after.head? == some quote then
        some (3 + blanks + label.length + 2, label, embeds)
      else none
    let found :=
      match body.head? with
      | some '"' => quoted '"' true
      | some '\'' => quoted '\'' false
      | _ =>
          let label := wordPart body
          if isWord label then some (3 + blanks + label.length, label, true) else none
    found.bind fun (length, label, embeds) =>
      let tail := text.drop length
      let trailing := (tail.takeWhile isSpace).length
      match (tail.drop trailing).head? with
      | some '\n' => some (length + trailing, label, embeds)
      | some '\r' => some (length + trailing, label, embeds)
      | _ => none
  else none

/-- The length of an offset in brackets after a variable in a quotation, without its brackets:
a number with or without a sign, a word, or a variable. -/
def offsetLength (text : List Char) : Nat :=
  match text with
  | '-' :: rest =>
      match integerLength rest with
      | 0 => 0
      | digits => digits + 1
  | '$' :: rest =>
      let name := wordPart rest
      if isWord name then name.length + 1 else 0
  | _ =>
      match integerLength text with
      | 0 =>
          let name := wordPart text
          if isWord name then name.length else 0
      | digits => digits

/-- The length of a variable written directly in a quotation, with the offset or the member that
may follow it; the text begins with `$` and a word. -/
def variableLength? (text : List Char) : Option Nat :=
  let name := 1 + (wordPart (text.drop 1)).length
  let after := text.drop name
  if opensWith after "[" then
    let offset := offsetLength (after.drop 1)
    if offset ≠ 0 && opensWith (after.drop (1 + offset)) "]" then some (name + offset + 2) else none
  else
    let member (arrow : Nat) : Nat :=
      let word := wordPart (after.drop arrow)
      if isWord word then name + arrow + word.length else name
    if opensWith after "->" then some (member 2)
    else if opensWith after "?->" then some (member 3)
    else some name

/-- Whether a backslash keeps the character behind it from closing a quotation. -/
def Closing.escapes : Closing → Bool
  | .atChar _ => true
  | .atLabel _ => false

/-- The length of a quotation without embedded code, from behind its opening mark to behind what
closes it. -/
def plainQuotationLength? (closing : Closing) : List Char → Option Nat
  | [] => none
  | '\\' :: c :: rest =>
      if closing.escapes then (plainQuotationLength? closing rest).map (· + 2)
      else (plainQuotationLength? closing (c :: rest)).map (· + 1)
  | c :: rest =>
      match closing.length? (c :: rest) with
      | some length => some length
      | none => (plainQuotationLength? closing rest).map (· + 1)

/-! ### Code -/

mutual

/-- Reads tokens, last first, up to the end of the text or, with a depth, up to the bracket that
closes embedded code; the depth counts the braces opened in it. -/
def scanCode : Nat → Option Nat → List Token → Scan → Except SyntaxError (List Token × Scan)
  | 0, _, _, scan => scan.fail
  | fuel + 1, depth, tokens, scan =>
      match scan.rest with
      | [] => if depth.isSome then scan.fail else .ok (tokens, scan)
      | c :: rest =>
          if isGap c then scanCode fuel depth tokens (scan.skip 1)
          else if opensWith scan.rest "?>" then
            scanCode fuel depth tokens
              { scan.skip (2 + lengthToCode (rest.drop 1)) with doc := none, closed := true }
          else if opensWith scan.rest "//" || (c == '#' && !opensWith rest "[") then
            scanCode fuel depth tokens { scan.skip (lineCommentLength scan.rest) with doc := none }
          else if opensWith scan.rest "/*" then
            match blockCommentLength (rest.drop 1) with
            | none => scan.fail
            | some length =>
                let comment := scan.rest.take (length + 2)
                let doc := if opensWith comment "/**" then some (String.ofList comment) else none
                scanCode fuel depth tokens { scan.skip (length + 2) with doc := doc }
          else if c == '\'' || ((c == 'b' || c == 'B') && opensWith rest "'") then
            let opening := if c == '\'' then 1 else 2
            match plainQuotationLength? (.atChar '\'') (scan.rest.drop opening) with
            | none => scan.fail
            | some length =>
                let stop := scan.drop (opening + length)
                scanCode fuel depth (scan.token stop .quotation :: tokens) (stop.fresh true)
          else if c == '"' || c == '\x60' || ((c == 'b' || c == 'B') && opensWith rest "\"") then
            let quote := if c == '\x60' then c else '"'
            let opening := if c == quote then 1 else 2
            match scanPieces fuel (.atChar quote) [] (scan.drop opening) with
            | .error error => .error error
            | .ok (pieces, stop) =>
                scanCode fuel depth (pieces ++ scan.token stop .quotation :: tokens)
                  (stop.fresh true)
          else
            match labelledStart? scan.rest with
            | some (length, label, true) =>
                match scanPieces fuel (.atLabel label) [] (scan.drop length) with
                | .error error => .error error
                | .ok (pieces, stop) =>
                    scanCode fuel depth (pieces ++ scan.token stop .quotation :: tokens)
                      (stop.fresh true)
            | some (length, label, false) =>
                match plainQuotationLength? (.atLabel label) (scan.rest.drop length) with
                | none => scan.fail
                | some more =>
                    let stop := scan.drop (length + more)
                    scanCode fuel depth (scan.token stop .quotation :: tokens) (stop.fresh true)
            | none =>
                let name := wordPart scan.rest
                if spelled : isWord (String.ofList name).toList = true then
                  let stop := scan.drop name.length
                  let word : Word := ⟨String.ofList name, spelled⟩
                  scanCode fuel depth (scan.token stop (.word word) :: tokens)
                    (stop.fresh (!leadingWords.contains word.folded))
                else
                  let number := if c == '.' && scan.operand then 0 else numberLength scan.rest
                  if number ≠ 0 then
                    let stop := scan.drop number
                    scanCode fuel depth (scan.token stop .number :: tokens) (stop.fresh true)
                  else
                    let mark := scan.rest.take (markLength scan.rest)
                    let stop := scan.drop mark.length
                    let tokens' := scan.token stop .mark :: tokens
                    let next := stop.fresh (closesOperand mark)
                    match depth with
                    | none => if mark = [] then scan.fail else scanCode fuel none tokens' next
                    | some opened =>
                        if mark = [] then scan.fail
                        else if mark = ['{'] then scanCode fuel (some (opened + 1)) tokens' next
                        else if mark = ['}'] then
                          match opened with
                          | 0 => .ok (scan.token stop .unembed :: tokens, stop)
                          | more + 1 => scanCode fuel (some more) tokens' next
                        else scanCode fuel depth tokens' next

/-- Reads a quotation to its end and returns the tokens of the code embedded in it, last first. -/
def scanPieces : Nat → Closing → List Token → Scan → Except SyntaxError (List Token × Scan)
  | 0, _, _, scan => scan.fail
  | fuel + 1, closing, tokens, scan =>
      match closing.length? scan.rest with
      | some length => .ok (tokens, scan.drop length)
      | none =>
          match scan.rest with
          | [] => scan.fail
          | '\\' :: '\n' :: _ => scanPieces fuel closing tokens (scan.drop 1)
          | '\\' :: '\r' :: _ => scanPieces fuel closing tokens (scan.drop 1)
          | '\\' :: '{' :: _ => scanPieces fuel closing tokens (scan.drop 2)
          | '\\' :: _ :: _ => scanPieces fuel closing tokens (scan.drop 2)
          | '{' :: '$' :: _ =>
              let opened := (scan.drop 1).fresh false
              let embed := (scan.fresh false).token opened .embed
              match scanCode fuel (some 0) (embed :: tokens) opened with
              | .error error => .error error
              | .ok (more, stop) => scanPieces fuel closing more stop
          | '$' :: '{' :: _ =>
              let opened := (scan.drop 2).fresh false
              let embed := (scan.fresh false).token opened .embed
              match scanCode fuel (some 0) (embed :: tokens) opened with
              | .error error => .error error
              | .ok (more, stop) => scanPieces fuel closing more stop
          | '$' :: c :: _ =>
              if startsWord c then
                match variableLength? scan.rest with
                | none => scan.fail
                | some length => scanPieces fuel closing tokens (scan.drop length)
              else scanPieces fuel closing tokens (scan.drop 1)
          | _ => scanPieces fuel closing tokens (scan.drop 1)

end

/-- Whether a text is a document, that is, whether an open tag of the long or the output form
occurs anywhere in it. -/
def isDocument : List Char → Bool
  | [] => false
  | c :: rest => opensWith (c :: rest) "<?php" || opensWith (c :: rest) "<?=" || isDocument rest

/-- The tokens of a text in order and the token that stands for its end. -/
def tokensOf (text : String) : Except SyntaxError (List Token × Token) :=
  let chars := text.toList
  let start : Scan :=
    { rest := chars
      position := 0
      line := 1
      gap := []
      doc := none
      closed := false
      operand := false }
  let leading :=
    if isDocument chars then lengthToCode chars
    else
      let blanks := (chars.takeWhile isGap).length
      match openTagLength (chars.drop blanks) with
      | 0 => 0
      | length => blanks + length
  match scanCode (2 * chars.length + 2) none [] (start.skip leading) with
  | .error error => .error error
  | .ok (tokens, stop) => .ok (tokens.reverse, stop.token stop .finish)

end DocDrift.Source
