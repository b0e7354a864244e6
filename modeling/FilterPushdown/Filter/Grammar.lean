import FilterPushdown.Filter.Spelling

/-!
The grammar of filter texts: which words are phrases of which kind, and with which trees.  The
grammar is ambiguous, and every derivation counts.  Nothing here says how a text is read.
-/

namespace FilterPushdown.Filter.Grammar

/-! ## Words -/

/-- Any number of spaces. -/
def Spaces (word : List Char) : Prop := ∀ c ∈ word, isSpace c = true

/-- One space or more. -/
def SomeSpaces (word : List Char) : Prop := word ≠ [] ∧ Spaces word

/-- One digit or more. -/
def Digits (word : List Char) : Prop := word ≠ [] ∧ ∀ c ∈ word, isDigit c = true

/-- A letter of one class followed by any number of another. -/
def Run (first rest : Char → Bool) : List Char → Prop
  | [] => False
  | c :: word => first c = true ∧ ∀ d ∈ word, rest d = true

/-- The fraction of a number: nothing, or a point and digits. -/
inductive Fraction : List Char → List Char → Prop where
  | absent : Fraction [] []
  | present (digits : Digits word) : Fraction ('.' :: word) word

/-- A number as it is written. -/
inductive IsNumeral : List Char → Numeral → Prop where
  | positive (whole : Digits word) (fraction : Fraction rest places) :
      IsNumeral (word ++ rest) ⟨false, word, places⟩
  | negative (whole : Digits word) (fraction : Fraction rest places) :
      IsNumeral ('-' :: (word ++ rest)) ⟨true, word, places⟩

/-- One piece of a text between quotes of one kind. -/
inductive IsPiece (delimiter : Char) : List Char → Piece → Prop where
  | plain (notFeed : c ≠ '\n') (notQuote : c ≠ delimiter) (notBackslash : c ≠ '\\') :
      IsPiece delimiter [c] (.char c)
  | quote : IsPiece delimiter ['\\', delimiter] (.char delimiter)
  | escape (stands : escaped? c = some d) : IsPiece delimiter ['\\', c] (.char d)
  | unit (first : hexValue? a = some i) (second : hexValue? b = some j)
      (third : hexValue? c = some k) (fourth : hexValue? d = some l) :
      IsPiece delimiter ['\\', 'u', a, b, c, d]
        (.unit (256 * (16 * i + j) + (16 * k + l)))

/-- Pieces one after another. -/
inductive ArePieces (delimiter : Char) : List Char → List Piece → Prop where
  | nil : ArePieces delimiter [] []
  | cons (first : IsPiece delimiter word piece) (rest : ArePieces delimiter more pieces) :
      ArePieces delimiter (word ++ more) (piece :: pieces)

/-- A text between quotes of one kind. -/
inductive IsQuoted (delimiter : Char) : List Char → String → Prop where
  | quoted (pieces : ArePieces delimiter word parts) :
      IsQuoted delimiter (delimiter :: (word ++ [delimiter])) (String.ofList (decode parts))

/-- The body of a regular expression: a backslash shields the letter after it. -/
inductive RegexBody : List Char → Prop where
  | nil : RegexBody []
  | plain (notBackslash : c ≠ '\\') (rest : RegexBody word) : RegexBody (c :: word)
  | shielded (rest : RegexBody word) : RegexBody ('\\' :: c :: word)

/-- A bare word, which may begin with digits, and is no reserved word. -/
inductive IsBareWord : List Char → Prop where
  | word (letters : Run startsWord continuesWord word) (free : word ∉ reservedWords) :
      IsBareWord word
  | afterDigits (digits : Digits word) (letters : Run endsDigits continuesWord rest) :
      IsBareWord (word ++ rest)

/-- The name in front of a comparison sign. -/
inductive IsName : List Char → Name → Prop where
  | bare (letters : Run startsName continuesName word) :
      IsName word ⟨.bare, String.ofList word⟩
  | single (text : IsQuoted '\'' word value) : IsName word ⟨.single, value⟩
  | double (text : IsQuoted '"' word value) : IsName word ⟨.double, value⟩

/-- The brackets of a range, and whether they include the bound. -/
inductive Bracket (square curly : Char) : Char → Bool → Prop where
  | square : Bracket square curly square true
  | curly : Bracket square curly curly false

/-- A value, a range or a regular expression. -/
inductive IsTerm : List Char → Term → Prop where
  | number (numeral : IsNumeral word parts) : IsTerm word (.number parts.value)
  | regex (body : RegexBody word) (letters : ∀ c ∈ flags, isFlag c = true) :
      IsTerm ('/' :: (word ++ '/' :: flags))
        (.regex (String.ofList ('/' :: (word ++ '/' :: flags))))
  | range (opening : Bracket '[' '\x7b' first includesLowest) (lowest : IsNumeral low lowParts)
      (highest : IsNumeral high highParts) (closing : Bracket ']' '\x7d' last includesHighest) :
      IsTerm (first :: (low ++ ([' ', 'T', 'O', ' '] ++ (high ++ [last]))))
        (.range lowParts.value highParts.value includesLowest includesHighest)
  | bare (letters : IsBareWord word) : IsTerm word (wordTerm word)
  | single (text : IsQuoted '\'' word value) : IsTerm word (.text .single value)
  | double (text : IsQuoted '"' word value) : IsTerm word (.text .double value)

/-! ## Phrases -/

/-- A name with its sign, and the term after it if there is one; or a term alone. -/
inductive IsTag : List Char → Tree → Prop where
  | named (field : IsName word name) (value : IsTerm rest term) :
      IsTag (word ++ (sign.letters ++ rest)) (.tag (some (name, sign)) term)
  | unfinished (field : IsName word name) :
      IsTag (word ++ sign.letters) (.tag (some (name, sign)) .missing)
  | unnamed (value : IsTerm word term) : IsTag word (.tag none term)

mutual

/-- A chain in parentheses. -/
inductive IsGroup : List Char → Tree → Prop where
  | group (before : Spaces left) (inner : IsChain word tree) (after : Spaces right) :
      IsGroup ('(' :: (left ++ (word ++ (right ++ [')'])))) (.group tree)

/-- A single operand in parentheses. -/
inductive IsSmallGroup : List Char → Tree → Prop where
  | group (before : Spaces left) (inner : IsOperand word tree) (after : Spaces right) :
      IsSmallGroup ('(' :: (left ++ (word ++ (right ++ [')'])))) (.group tree)

/-- One operand. -/
inductive IsOperand : List Char → Tree → Prop where
  | nothing (between : Spaces word) : IsOperand ('(' :: (word ++ [')'])) (.group .empty)
  | group (inner : IsGroup word tree) : IsOperand word tree
  | notGroup (between : SomeSpaces gap) (inner : IsGroup word tree) :
      IsOperand (['N', 'O', 'T'] ++ (gap ++ word)) (.negated .word tree)
  | notTag (between : SomeSpaces gap) (inner : IsTag word tree) :
      IsOperand (['N', 'O', 'T'] ++ (gap ++ word)) (.negated .word tree)
  | dash (inner : IsTag word tree) : IsOperand ('-' :: word) (.negated .dash tree)
  | tag (inner : IsTag word tree) : IsOperand word tree

/-- What may stand before a connective: a chain and spaces, or a group. -/
inductive BeforeConnective : List Char → Tree → Prop where
  | spaced (left : IsChain word tree) (between : SomeSpaces gap) :
      BeforeConnective (word ++ gap) tree
  | group (left : IsGroup word tree) : BeforeConnective word tree

/-- What may stand after a connective: spaces and an operand, or a small group. -/
inductive AfterConnective : List Char → Tree → Prop where
  | spaced (between : SomeSpaces gap) (right : IsOperand word tree) :
      AfterConnective (gap ++ word) tree
  | group (right : IsSmallGroup word tree) : AfterConnective word tree

/-- Operands joined from the left, by connectives or by spaces alone. -/
inductive IsChain : List Char → Tree → Prop where
  | operand (single : IsOperand word tree) : IsChain word tree
  | linked (before : BeforeConnective left first) (after : AfterConnective right second) :
      IsChain (left ++ (connective.symbol.toList ++ right)) (.logical connective first second)
  | spaced (before : IsChain left first) (between : SomeSpaces gap)
      (after : IsOperand right second) :
      IsChain (left ++ (gap ++ right)) (.logical .and first second)
  | groupSpaced (before : IsGroup left first) (between : SomeSpaces gap)
      (after : IsOperand right second) :
      IsChain (left ++ (gap ++ right)) (.logical .and first second)
  | spacedGroup (before : IsChain left first) (between : SomeSpaces gap)
      (after : IsSmallGroup right second) :
      IsChain (left ++ (gap ++ right)) (.logical .and first second)
  | groupSpacedGroup (before : IsGroup left first) (between : SomeSpaces gap)
      (after : IsSmallGroup right second) :
      IsChain (left ++ (gap ++ right)) (.logical .and first second)

end

/-- A whole filter text: a chain between spaces. -/
inductive IsFilter : List Char → Tree → Prop where
  | filter (before : Spaces left) (inner : IsChain word tree) (after : Spaces right) :
      IsFilter (left ++ (word ++ right)) tree

/-- Whether some filter text begins with a word. -/
def Viable (word : List Char) : Prop := ∃ rest tree, IsFilter (word ++ rest) tree

end FilterPushdown.Filter.Grammar
