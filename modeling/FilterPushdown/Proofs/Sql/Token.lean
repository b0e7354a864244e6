import FilterPushdown.Proofs.Sql.QuotedText
import FilterPushdown.Proofs.Sql.SearchCondition

/-!
SQL text as tokens.  A dialect's rules say how quoted identifiers and string literals end; words,
signs and numbers are the same in all of them and end where a letter comes that cannot go on with
them.  Every token takes a letter, so the reader comes to an end.
-/

namespace FilterPushdown.Sql

/-- The lexical rules of one dialect. -/
structure Lexicon where
  identifier : Quoting
  literal : Quoting

/-- How much of a number has been read. -/
inductive NumberPhase where
  | start
  | sign
  | whole
  | point
  | fraction
  | mark
  | exponentSign
  | exponent
  deriving DecidableEq, Repr

namespace NumberPhase

/-- How a number goes on with one more letter. -/
def next? : NumberPhase → Char → Option NumberPhase
  | start, c => if c = '-' then some sign else if c.isDigit then some whole else none
  | sign, c => if c.isDigit then some whole else none
  | whole, c =>
    if c.isDigit then some whole
    else if c = '.' then some point
    else if c = 'e' then some mark
    else none
  | point, c => if c.isDigit then some fraction else none
  | fraction, c => if c.isDigit then some fraction else if c = 'e' then some mark else none
  | mark, c =>
    if c.isDigit then some exponent else if c = '+' ∨ c = '-' then some exponentSign else none
  | exponentSign, c => if c.isDigit then some exponent else none
  | exponent, c => if c.isDigit then some exponent else none

/-- Whether a number may end. -/
def complete : NumberPhase → Bool
  | whole => true
  | fraction => true
  | exponent => true
  | _ => false

/-- The longest number that goes on from a phase, and the letters after it. -/
def read (phase : NumberPhase) : List Char → Option (List Char × List Char)
  | [] => if phase.complete then some ([], []) else none
  | c :: text =>
    match phase.next? c with
    | some next => (next.read text).map fun (number, rest) => (c :: number, rest)
    | none => if phase.complete then some ([], c :: text) else none

end NumberPhase

/-- The words of search conditions. -/
def words : List (String × Token) :=
  [("AND", .connective .and), ("OR", .connective .or), ("NOT", .not), ("IS", .is),
    ("NULL", .null), ("LIKE", .operator .like), ("true", .literal (.boolean true)),
    ("false", .literal (.boolean false))]

/-- The signs of comparisons. -/
def signs : List (String × Token) :=
  [("=", .operator .equal), (">", .operator .greater), (">=", .operator .greaterOrEqual),
    ("<", .operator .less), ("<=", .operator .lessOrEqual)]

/-- A letter of a comparison sign. -/
def isSignLetter (c : Char) : Bool := c == '=' || c == '<' || c == '>'

/-- The longest run of letters of a class, if it is in a table, and the letters after it. -/
def readRun (accepts : Char → Bool) (table : List (String × Token)) (text : List Char) :
    Option (Token × List Char) :=
  (table.lookup (String.ofList (text.takeWhile accepts))).map fun token =>
    (token, text.dropWhile accepts)

namespace Lexicon

/-- The token at the start of the given letters, and the letters after it. -/
def readToken (lexicon : Lexicon) : List Char → Option (Token × List Char)
  | [] => none
  | c :: text =>
    if c = '(' then some (.opening, text)
    else if c = ')' then some (.closing, text)
    else if c = lexicon.identifier.quote then
      (lexicon.identifier.read (c :: text)).map fun (name, rest) =>
        (.identifier (String.ofList name), rest)
    else if c = lexicon.literal.quote then
      (lexicon.literal.read (c :: text)).map fun (value, rest) =>
        (.literal (.text (String.ofList value)), rest)
    else if isSignLetter c then readRun isSignLetter signs (c :: text)
    else if c.isAlpha then readRun Char.isAlpha words (c :: text)
    else
      (NumberPhase.start.read (c :: text)).map fun (number, rest) =>
        (.literal (.number (String.ofList number)), rest)

end Lexicon

/-! ## Every token takes a letter -/

theorem NumberPhase.read_length_le {phase : NumberPhase} {text number rest : List Char}
    (found : phase.read text = some (number, rest)) : rest.length ≤ text.length := by
  induction text generalizing phase number with
  | nil =>
    rw [read] at found
    split at found
    · cases found
      exact Nat.le_refl 0
    · cases found
  | cons c text ih =>
    rw [read] at found
    split at found
    · obtain ⟨⟨inner, after⟩, later, same⟩ := Option.map_eq_some_iff.mp found
      cases same
      exact Nat.le_succ_of_le (ih later)
    · split at found
      · cases found
        exact Nat.le_refl _
      · cases found

/-- A number begins with a letter of its own. -/
private theorem readNumber_shorter {text number rest : List Char}
    (found : NumberPhase.start.read text = some (number, rest)) : rest.length < text.length := by
  cases text with
  | nil => cases found
  | cons c text =>
    rw [NumberPhase.read] at found
    split at found
    · obtain ⟨⟨inner, after⟩, later, same⟩ := Option.map_eq_some_iff.mp found
      cases same
      exact Nat.lt_succ_of_le (NumberPhase.read_length_le later)
    · cases found

private theorem readRun_shorter {accepts : Char → Bool} {table : List (String × Token)} {c : Char}
    {text rest : List Char} {token : Token} (first : accepts c = true)
    (found : readRun accepts table (c :: text) = some (token, rest)) :
    rest.length < (c :: text).length := by
  obtain ⟨_, -, same⟩ := Option.map_eq_some_iff.mp found
  cases same
  rw [List.dropWhile_cons, if_pos first]
  exact Nat.lt_succ_of_le (List.dropWhile_sublist accepts).length_le

theorem Quoting.read_shorter {rules : Quoting} {text value rest : List Char}
    (found : rules.read text = some (value, rest)) : rest.length < text.length := by
  cases text with
  | nil => cases found
  | cons c text =>
    rw [read] at found
    split at found
    · exact Nat.lt_succ_of_lt (readBody_shorter found)
    · cases found

namespace Lexicon

theorem readToken_shorter {lexicon : Lexicon} {text rest : List Char} {token : Token}
    (found : lexicon.readToken text = some (token, rest)) : rest.length < text.length := by
  cases text with
  | nil => cases found
  | cons c text =>
    rw [readToken] at found
    split at found
    · cases found
      exact Nat.lt_succ_self _
    split at found
    · cases found
      exact Nat.lt_succ_self _
    split at found
    · obtain ⟨_, inner, same⟩ := Option.map_eq_some_iff.mp found
      cases same
      exact Quoting.read_shorter inner
    split at found
    · obtain ⟨_, inner, same⟩ := Option.map_eq_some_iff.mp found
      cases same
      exact Quoting.read_shorter inner
    split at found
    · rename_i first
      exact readRun_shorter first found
    split at found
    · rename_i first
      exact readRun_shorter first found
    obtain ⟨_, inner, same⟩ := Option.map_eq_some_iff.mp found
    cases same
    exact readNumber_shorter inner

/-- The tokens of a text, with any spaces between them. -/
def tokens (lexicon : Lexicon) (text : List Char) : Option (List Token) :=
  match text with
  | [] => some []
  | ' ' :: text => lexicon.tokens text
  | c :: text =>
    match _found : lexicon.readToken (c :: text) with
    | none => none
    | some (token, rest) => (lexicon.tokens rest).map (token :: ·)
termination_by text.length
decreasing_by
  · exact Nat.lt_succ_self _
  · exact readToken_shorter _found

theorem tokens_nil (lexicon : Lexicon) : lexicon.tokens [] = some [] := by
  rw [tokens]

theorem tokens_space (lexicon : Lexicon) (text : List Char) :
    lexicon.tokens (' ' :: text) = lexicon.tokens text := by
  rw [tokens]

/-- The first token of a text, and what is read after it. -/
theorem tokens_of_readToken {lexicon : Lexicon} {c : Char} {text rest : List Char} {token : Token}
    (notSpace : c ≠ ' ') (found : lexicon.readToken (c :: text) = some (token, rest)) :
    lexicon.tokens (c :: text) = (lexicon.tokens rest).map (token :: ·) := by
  rw [tokens]
  · split
    · rename_i missing
      rw [found] at missing
      cases missing
    · rename_i first after same
      rw [found] at same
      cases same
      rfl
  · exact notSpace

end Lexicon

end FilterPushdown.Sql
