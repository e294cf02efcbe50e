import DocDrift.Source.Lexer
import Mathlib.Data.List.Chain

/-!
Tokens and the text they were read from. A word behind the mark of a variable is the word that stands
behind such a mark in the text, and its gap is what stands between the two: blanks, comments and text
outside of the code.
-/

set_option autoImplicit false

namespace DocDrift.Source

/-! ### Gaps -/

/-- What separates tokens: a blank, a text outside of the code, or a comment. -/
inductive Separator : List Char → Prop
  | blank {c : Char} (gap : isGap c = true) : Separator [c]
  | outside (text : List Char) : Separator ('?' :: '>' :: text)
  | line {comment : List Char} (opens : ['/', '/'] <+: comment ∨ ['#'] <+: comment)
      (inLine : '\n' ∉ comment ∧ '\r' ∉ comment) : Separator comment
  | block (comment : List Char) : Separator ('/' :: '*' :: (comment ++ ['*', '/']))

/-- Separators, one behind another. -/
inductive Separates : List Char → Prop
  | nothing : Separates []
  | behind {gap piece : List Char} (before : Separates gap) (next : Separator piece) :
      Separates (gap ++ piece)

theorem lineCommentLength_inLine (text : List Char) :
    '\n' ∉ text.take (lineCommentLength text) ∧ '\r' ∉ text.take (lineCommentLength text) := by
  fun_induction lineCommentLength text with
  | case1 => simp
  | case2 => simp
  | case3 => simp
  | case4 => simp
  | case5 c rest notFeed notReturn notTag ih =>
      simp only [List.take_succ_cons, List.mem_cons, not_or]
      refine ⟨⟨?_, ih.1⟩, ?_, ih.2⟩
      · rintro rfl
        exact notFeed rfl
      · rintro rfl
        exact notReturn rfl

theorem blockCommentLength_closes {text : List Char} {length : Nat}
    (closed : blockCommentLength text = some length) :
    ∃ comment, text.take length = comment ++ ['*', '/'] := by
  fun_induction blockCommentLength text generalizing length with
  | case1 => cases closed
  | case2 rest =>
      cases closed
      exact ⟨[], rfl⟩
  | case3 c rest _ ih =>
      obtain ⟨more, inner, rfl⟩ := Option.map_eq_some_iff.mp closed
      obtain ⟨comment, same⟩ := ih inner
      exact ⟨c :: comment, by rw [List.take_succ_cons, same, List.cons_append]⟩

theorem opensWith_iff {text : List Char} {start : String} :
    opensWith text start = true ↔ start.toList <+: text := by
  rw [opensWith, List.isPrefixOf_iff_prefix]

theorem Separator.outside_take {text : List Char} (tag : opensWith text "?>" = true) (count : Nat) :
    Separator (text.take (2 + count)) := by
  obtain ⟨rest, rfl⟩ := opensWith_iff.mp tag
  rw [Nat.add_comm]
  exact .outside (rest.take count)

theorem Separator.line_take {c : Char} {rest : List Char}
    (comment : (opensWith (c :: rest) "//" || (c == '#' && !opensWith rest "[")) = true) :
    Separator ((c :: rest).take (lineCommentLength (c :: rest))) := by
  apply Separator.line _ (lineCommentLength_inLine _)
  rw [Bool.or_eq_true, Bool.and_eq_true] at comment
  rcases comment with slashes | ⟨hash, _⟩
  · obtain ⟨more, same⟩ := opensWith_iff.mp slashes
    rw [← same]
    exact .inl ⟨more.take (lineCommentLength more), by simp [lineCommentLength]⟩
  · rw [eq_of_beq hash]
    exact .inr ⟨rest.take (lineCommentLength rest), by simp [lineCommentLength]⟩

theorem Separator.block_take {c : Char} {rest : List Char} {length : Nat}
    (comment : opensWith (c :: rest) "/*" = true)
    (closed : blockCommentLength (rest.drop 1) = some length) :
    Separator ((c :: rest).take (length + 2)) := by
  obtain ⟨more, opened⟩ := opensWith_iff.mp comment
  have same : '/' :: '*' :: more = c :: rest := opened
  cases same
  obtain ⟨inner, taken⟩ := blockCommentLength_closes closed
  rw [List.drop_one, List.tail_cons] at taken
  rw [List.take_succ_cons, List.take_succ_cons, taken]
  exact .block inner

/-! ### Neighbours -/

/-- Behind the mark of a variable, a word stands in a text, with separators between the two. -/
structure Stands (text : List Char) (gap : String) (word : Word) : Prop where
  separates : Separates gap.toList
  slice : ∃ before after, text = before ++ '$' :: (gap.toList ++ (word.text.toList ++ after))

/-- Of two tokens, the later one first: if they are the mark of a variable and a word, they are
neighbours in the text. -/
def Neighbours (text : List Char) (later earlier : Token) : Prop :=
  earlier.isMark "$" = true → ∀ word, later.kind = .word word → Stands text later.gap word

/-- No mark of a variable is the last token. -/
def Shut (tokens : List Token) : Prop :=
  ∀ token ∈ tokens.head?, token.isMark "$" = false

/-- Tokens, last first, and a scan that goes on behind them. -/
structure Follows (text : List Char) (tokens : List Token) (scan : Scan) : Prop where
  rest : scan.rest <:+ text
  chain : tokens.IsChain (Neighbours text)
  /-- A mark of a variable that was read last is followed by the gap and by what remains. -/
  marked : ∀ token ∈ tokens.head?, token.isMark "$" = true →
    Separates scan.gap.reverse ∧ ∃ before, text = before ++ '$' :: (scan.gap.reverse ++ scan.rest)

namespace Follows

variable {text : List Char} {tokens : List Token} {scan : Scan}

theorem of_shut (rest : scan.rest <:+ text) (chain : tokens.IsChain (Neighbours text))
    (shut : Shut tokens) : Follows text tokens scan where
  rest := rest
  chain := chain
  marked token mem marked := by
    rw [shut token mem] at marked
    cases marked

theorem drop_suffix (rest : scan.rest <:+ text) (count : Nat) : (scan.drop count).rest <:+ text :=
  (List.drop_suffix count scan.rest).trans rest

/-- A separator that is skipped becomes part of the gap. -/
theorem skip {count : Nat} (follows : Follows text tokens scan)
    (skipped : Separator (scan.rest.take count)) (doc : Option String) (closed : Bool) :
    Follows text tokens { scan.skip count with doc := doc, closed := closed } where
  rest := drop_suffix follows.rest count
  chain := follows.chain
  marked token mem marked := by
    obtain ⟨separates, before, same⟩ := follows.marked token mem marked
    constructor
    · simpa [Scan.skip] using separates.behind skipped
    · refine ⟨before, ?_⟩
      simpa [Scan.skip, Scan.drop] using same

theorem shut_push {stop : Scan} {kind : TokenKind} (other : kind ≠ .mark) :
    Shut (scan.token stop kind :: tokens) := by
  intro token mem
  cases Option.some.inj mem
  simp [Scan.token, Token.isMark, other]

/-- A token that is neither a mark nor a word says nothing of its neighbours. -/
theorem push {stop next : Scan} {kind : TokenKind} (follows : Follows text tokens scan)
    (rest : next.rest <:+ text) (other : kind ≠ .mark) (silent : ∀ word, kind ≠ .word word) :
    Follows text (scan.token stop kind :: tokens) next := by
  refine of_shut rest (follows.chain.cons ?_) (shut_push other)
  intro token _ _ word same
  exact absurd same (silent word)

theorem push_quotation {stop : Scan} (follows : Follows text tokens scan)
    (rest : stop.rest <:+ text) :
    Follows text (scan.token stop .quotation :: tokens) (stop.fresh true) :=
  follows.push rest nofun nofun

theorem push_word {name : List Char} {word : Word} (follows : Follows text tokens scan)
    (spelled : word.text = String.ofList name) (starts : name <+: scan.rest) (operand : Bool) :
    Follows text (scan.token (scan.drop name.length) (.word word) :: tokens)
      ((scan.drop name.length).fresh operand) := by
  refine of_shut ?_ ?_ ?_
  · exact drop_suffix follows.rest name.length
  · apply follows.chain.cons
    intro token mem marked word' same
    cases same
    obtain ⟨separates, before, same⟩ := follows.marked token mem marked
    obtain ⟨after, rest⟩ := starts
    constructor
    · rwa [Scan.token, String.toList_ofList]
    · refine ⟨before, after, ?_⟩
      simp only [Scan.token, spelled, String.toList_ofList]
      rw [same, ← rest]
  · exact shut_push nofun

theorem push_mark (follows : Follows text tokens scan) (count : Nat) (operand : Bool) :
    Follows text (scan.token (scan.drop count) .mark :: tokens)
      ((scan.drop count).fresh operand) where
  rest := drop_suffix follows.rest count
  chain := follows.chain.cons nofun
  marked token mem marked := by
    cases Option.some.inj mem
    have dollar : String.ofList (scan.rest.take count) = "$" := by
      simpa [Scan.token, Token.isMark, Scan.since, Scan.drop] using marked
    have taken : scan.rest.take count = ['$'] := by
      simpa using congrArg String.toList dollar
    obtain ⟨before, same⟩ := follows.rest
    refine ⟨.nothing, before, ?_⟩
    rw [← same, ← List.take_append_drop count scan.rest, taken]
    rfl

/-- Behind a quotation come the tokens of the code embedded in it. -/
theorem push_pieces {stop : Scan} {pieces : List Token} (follows : Follows text tokens scan)
    (rest : stop.rest <:+ text) (chain : pieces.IsChain (Neighbours text)) (shut : Shut pieces) :
    Follows text (pieces ++ scan.token stop .quotation :: tokens) (stop.fresh true) := by
  refine of_shut ?_ ?_ ?_
  · exact rest
  · apply chain.append (follows.push_quotation rest).chain
    intro later _ token mem marked
    cases Option.some.inj mem
    cases marked
  · cases pieces with
    | nil => exact shut_push nofun
    | cons first more => exact shut

end Follows

/-! ### Scanning -/

section Steps

variable {text : List Char} {fuel : Nat}

/-- Tokens that are read behind others follow them; those of embedded code end with one of its own. -/
def CodeFollows (text : List Char) (fuel : Nat) : Prop :=
  ∀ depth tokens scan found stop, Follows text tokens scan →
    scanCode fuel depth tokens scan = .ok (found, stop) →
    Follows text found stop ∧ (depth.isSome = true → Shut found)

def PiecesFollow (text : List Char) (fuel : Nat) : Prop :=
  ∀ closing tokens scan found stop, scan.rest <:+ text → tokens.IsChain (Neighbours text) →
    Shut tokens → scanPieces fuel closing tokens scan = .ok (found, stop) →
    stop.rest <:+ text ∧ found.IsChain (Neighbours text) ∧ Shut found

/-- A quotation is followed by the tokens of the code that is embedded in it. -/
theorem quotation_follows {tokens found : List Token} {scan stop : Scan} {closing : Closing}
    {count : Nat} (pieces : PiecesFollow text fuel) (follows : Follows text tokens scan)
    (ran : scanPieces fuel closing [] (scan.drop count) = .ok (found, stop)) :
    Follows text (found ++ scan.token stop .quotation :: tokens) (stop.fresh true) := by
  have rest := Follows.drop_suffix follows.rest count
  obtain ⟨suffix, chain, shut⟩ := pieces _ _ _ _ _ rest .nil nofun ran
  exact follows.push_pieces suffix chain shut

theorem code_step (code : CodeFollows text fuel) (pieces : PiecesFollow text fuel) :
    CodeFollows text (fuel + 1) := by
  intro depth tokens scan found stop follows ran
  rw [scanCode] at ran
  cases same : scan.rest with
  | nil =>
      rw [same] at ran
      cases depth with
      | none =>
          cases ran
          exact ⟨follows, nofun⟩
      | some opened => cases ran
  | cons c rest =>
      rw [same] at ran
      dsimp only at ran
      -- What the first tests recognise is skipped, and so it separates two tokens.
      by_cases gap : isGap c = true
      · rw [if_pos gap] at ran
        exact code _ _ _ _ _ (follows.skip (same ▸ .blank gap) _ _) ran
      rw [if_neg gap] at ran
      by_cases tag : opensWith (c :: rest) "?>" = true
      · rw [if_pos tag] at ran
        exact code _ _ _ _ _ (follows.skip (same ▸ .outside_take tag _) _ _) ran
      rw [if_neg tag] at ran
      by_cases comment : (opensWith (c :: rest) "//" || (c == '#' && !opensWith rest "[")) = true
      · rw [if_pos comment] at ran
        exact code _ _ _ _ _ (follows.skip (same ▸ .line_take comment) _ _) ran
      rw [if_neg comment] at ran
      by_cases comment : opensWith (c :: rest) "/*" = true
      · rw [if_pos comment] at ran
        cases closed : blockCommentLength (rest.drop 1) with
        | none =>
            rw [closed] at ran
            cases ran
        | some length =>
            rw [closed] at ran
            exact code _ _ _ _ _ (follows.skip (same ▸ .block_take comment closed) _ _) ran
      rw [if_neg comment] at ran
      by_cases plain : (c == '\'' || ((c == 'b' || c == 'B') && opensWith rest "'")) = true
      · rw [if_pos plain] at ran
        split at ran
        · cases ran
        · exact code _ _ _ _ _ (follows.push_quotation (Follows.drop_suffix follows.rest _)) ran
      rw [if_neg plain] at ran
      by_cases quoted : (c == '"' || c == '\x60' ||
          ((c == 'b' || c == 'B') && opensWith rest "\"")) = true
      · rw [if_pos quoted] at ran
        split at ran
        · cases ran
        · exact code _ _ _ _ _ (quotation_follows pieces follows ‹_›) ran
      rw [if_neg quoted] at ran
      split at ran
      · split at ran
        · cases ran
        · exact code _ _ _ _ _ (quotation_follows pieces follows ‹_›) ran
      · split at ran
        · cases ran
        · exact code _ _ _ _ _ (follows.push_quotation (Follows.drop_suffix follows.rest _)) ran
      by_cases spelled : isWord (String.ofList (wordPart (c :: rest))).toList = true
      · rw [dif_pos spelled] at ran
        have starts : wordPart (c :: rest) <+: scan.rest := same ▸ List.takeWhile_prefix _
        exact code _ _ _ _ _ (follows.push_word rfl starts _) ran
      rw [dif_neg spelled] at ran
      -- A number or a mark is next; its spelling does not matter for what may stand behind it.
      generalize (if (c == '.' && scan.operand) = true then 0 else numberLength (c :: rest)) =
        number at ran
      generalize (List.take (markLength (c :: rest)) (c :: rest)) = mark at ran
      split at ran
      · refine code _ _ _ _ _ (follows.push ?_ ?_ ?_) ran
        · exact Follows.drop_suffix follows.rest number
        · nofun
        · nofun
      split at ran
      · split at ran
        · cases ran
        · exact code _ _ _ _ _ (follows.push_mark _ _) ran
      -- inside of embedded code, where a brace changes the depth or ends the code
      split at ran
      · cases ran
      split at ran
      · have ⟨later, shut⟩ := code _ _ _ _ _ (follows.push_mark _ _) ran
        exact ⟨later, fun _ => shut rfl⟩
      split at ran
      · split at ran
        · cases ran
          exact ⟨follows.push (Follows.drop_suffix follows.rest _) nofun nofun,
            fun _ => Follows.shut_push nofun⟩
        · have ⟨later, shut⟩ := code _ _ _ _ _ (follows.push_mark _ _) ran
          exact ⟨later, fun _ => shut rfl⟩
      · exact code _ _ _ _ _ (follows.push_mark _ _) ran

/-- The token that opens embedded code stands before the code. -/
theorem opened_follows {tokens : List Token} {scan opened : Scan} (rest : opened.rest <:+ text)
    (chain : tokens.IsChain (Neighbours text)) :
    Follows text ((scan.fresh false).token opened .embed :: tokens) opened := by
  refine .of_shut rest (chain.cons ?_) (Follows.shut_push nofun)
  intro token _ _ word same
  cases same

theorem pieces_step (code : CodeFollows text fuel) (pieces : PiecesFollow text fuel) :
    PiecesFollow text (fuel + 1) := by
  intro closing tokens scan found stop rest chain shut ran
  rw [scanPieces] at ran
  have further (count : Nat) : (scan.drop count).rest <:+ text := Follows.drop_suffix rest count
  split at ran
  · cases ran
    exact ⟨further _, chain, shut⟩
  split at ran
  · cases ran
  · exact pieces _ _ _ _ _ (further 1) chain shut ran
  · exact pieces _ _ _ _ _ (further 1) chain shut ran
  · exact pieces _ _ _ _ _ (further 2) chain shut ran
  · exact pieces _ _ _ _ _ (further 2) chain shut ran
  · extract_lets opened embed at ran
    split at ran
    · cases ran
    · have inside : opened.rest <:+ text := further 1
      obtain ⟨inner, shut⟩ := code _ _ _ _ _ (opened_follows inside chain) ‹_›
      exact pieces _ _ _ _ _ inner.rest inner.chain (shut rfl) ran
  · extract_lets opened embed at ran
    split at ran
    · cases ran
    · have inside : opened.rest <:+ text := further 2
      obtain ⟨inner, shut⟩ := code _ _ _ _ _ (opened_follows inside chain) ‹_›
      exact pieces _ _ _ _ _ inner.rest inner.chain (shut rfl) ran
  · split at ran
    · split at ran
      · cases ran
      · exact pieces _ _ _ _ _ (further _) chain shut ran
    · exact pieces _ _ _ _ _ (further 1) chain shut ran
  · exact pieces _ _ _ _ _ (further 1) chain shut ran

theorem scan_follows (fuel : Nat) : CodeFollows text fuel ∧ PiecesFollow text fuel := by
  induction fuel with
  | zero =>
      constructor
      · intro depth tokens scan found stop _ ran
        rw [scanCode] at ran
        cases ran
      · intro closing tokens scan found stop _ _ _ ran
        rw [scanPieces] at ran
        cases ran
  | succ fuel ih => exact ⟨code_step ih.1 ih.2, pieces_step ih.1 ih.2⟩

end Steps

/-- Neighbouring tokens that are the mark of a variable and a word are neighbours in the text. -/
theorem tokensOf_stands {text : String} {tokens before after : List Token}
    {finish dollar token : Token} {word : Word} (scanned : tokensOf text = .ok (tokens, finish))
    (there : tokens = before ++ dollar :: token :: after) (marked : dollar.isMark "$" = true)
    (spelled : token.kind = .word word) : Stands text.toList token.gap word := by
  unfold tokensOf at scanned
  extract_lets chars start blanks leading at scanned
  split at scanned
  · cases scanned
  · rename_i reversed stop ran
    cases scanned
    have initial : Follows text.toList [] (start.skip leading) :=
      .of_shut (Follows.drop_suffix List.suffix_rfl leading) .nil nofun
    have chain := ((scan_follows _).1 _ _ _ _ _ initial ran).1.chain
    rw [← List.reverse_reverse reversed, there, List.isChain_reverse] at chain
    have neighbours := chain.right_of_append
    rw [List.isChain_cons_cons] at neighbours
    exact neighbours.1 marked word spelled

end DocDrift.Source
