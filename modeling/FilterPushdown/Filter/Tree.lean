import FilterPushdown.Filter.Condition

/-!
Syntax trees of filter texts.  A tree keeps what its text said: how a name or a text was quoted,
which sign stood between name and value, and where there were parentheses.  Two readings of one
text agree only if all of this agrees.
-/

namespace FilterPushdown.Filter

/-- How a name or a text is written. -/
inductive Quotation where
  | bare
  | single
  | double
  deriving DecidableEq, Repr

/-- The name in front of a comparison sign. -/
structure Name where
  quotation : Quotation
  text : String
  deriving DecidableEq, Repr

/-- The sign between a name and a value. -/
inductive Sign where
  | colon
  | equal
  | greater
  | greaterOrEqual
  | less
  | lessOrEqual
  deriving DecidableEq, Repr

namespace Sign

/-- All signs. -/
def all : List Sign := [colon, equal, greater, greaterOrEqual, less, lessOrEqual]

/-- The letters of a sign. -/
def letters : Sign → List Char
  | colon => [':']
  | equal => [':', '=']
  | greater => [':', '>']
  | greaterOrEqual => [':', '>', '=']
  | less => [':', '<']
  | lessOrEqual => [':', '<', '=']

end Sign

/-- What a tag asks for. -/
inductive Term where
  | text (quotation : Quotation) (value : String)
  | number (value : Number.Double)
  | boolean (value : Bool)
  | null
  /-- A regular expression with its slashes and flags. -/
  | regex (source : String)
  | range (lowest highest : Number.Double) (includesLowest includesHighest : Bool)
  | missing
  deriving DecidableEq, Repr

/-- What negates a tree: the word or the dash. -/
inductive Negation where
  | word
  | dash
  deriving DecidableEq, Repr

/-- The tree of a filter text. -/
inductive Tree where
  /-- Nothing between parentheses, or in the whole text. -/
  | empty
  | tag (field : Option (Name × Sign)) (term : Term)
  | logical (connective : Connective) (left right : Tree)
  | negated (negation : Negation) (operand : Tree)
  | group (inner : Tree)
  deriving DecidableEq, Repr

end FilterPushdown.Filter
