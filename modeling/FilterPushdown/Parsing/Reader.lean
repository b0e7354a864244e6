import FilterPushdown.Parsing.Trail

/-!
Readers keep all derivations of an ambiguous grammar.  A reader maps a text to its trail, and the
combinators below follow the ways in which grammars are put together: a letter, a choice, a
sequence, and a left-nested repetition.  Letters may carry more than their character, so that a
reader can consult what was worked out earlier about the rest of the text.
-/

namespace FilterPushdown.Parsing

/-- A position of a text that is known by the character written there. -/
class Letter (τ : Type) where
  /-- The character that is written at this position. -/
  char : τ → Char

instance : Letter Char := ⟨id⟩

/-- Follows every derivation from the start of a text. -/
abbrev Reader (τ α : Type) := List τ → Trail α

namespace Reader

variable {τ α β γ : Type}

/-- The empty word, with its one tree. -/
def result (a : α) : Reader τ α := fun _ => [.one a]

/-- One letter, with the tree that is given for its character. -/
def letter [Letter τ] (tree? : Char → Option α) : Reader τ α
  | [] => [.none]
  | t :: _ =>
    match tree? (Letter.char t) with
    | some a => [.none, .one a]
    | none => [.none]

/-- A letter of a class, as itself. -/
def oneOf [Letter τ] (accepts : Char → Bool) : Reader τ Char :=
  letter fun c => if accepts c then some c else none

/-- One given letter. -/
def char [Letter τ] (expected : Char) : Reader τ Unit :=
  letter fun c => if c = expected then some () else none

/-- The same words with other trees. -/
def map (f : α → β) (reader : Reader τ α) : Reader τ β := fun text => (reader text).map f

/-- The words whose tree is not refused. -/
def refuse (refused : α → Bool) (reader : Reader τ α) : Reader τ α :=
  fun text => (reader text).refuse refused

/-- The words of either reader. -/
def or [DecidableEq α] (first second : Reader τ α) : Reader τ α :=
  fun text => (first text).union (second text)

/-- The trail of what follows a beginning.  A beginning that is not a word leads nowhere. -/
def after (f : α → β → γ) (before : Readings α) (next : Reader τ β) : Reader τ γ :=
  fun text =>
    match before with
    | .none => []
    | .one a => List.map (Readings.combine f (.one a)) (next text)
    | .many => List.map (Readings.combine f .many) (next text)

/-- Continues a trail by a second reader from every beginning that is a word. -/
def continueWith [DecidableEq γ] (f : α → β → γ) (second : Reader τ β) :
    Trail α → List τ → Trail γ
  | [], _ => []
  | readings :: trail, text =>
    (after f readings second text).union (.none :: continueWith f second trail text.tail)

/-- A word of the first reader followed by a word of the second. -/
def seq [DecidableEq γ] (f : α → β → γ) (first : Reader τ α) (second : Reader τ β) :
    Reader τ γ :=
  fun text => continueWith f second (first text) text

/-- A sequence of which only the second tree is kept. -/
def seqRight [DecidableEq β] (first : Reader τ Unit) (second : Reader τ β) : Reader τ β :=
  seq (fun _ b => b) first second

/-- A sequence of which only the first tree is kept. -/
def seqLeft [DecidableEq α] (first : Reader τ α) (second : Reader τ Unit) : Reader τ α :=
  seq (fun a _ => a) first second

/-- Extends a trail by any number of further steps, each of which consumes a letter or more. -/
def extend [DecidableEq α] (f : α → β → α) (step : Reader τ β) : Trail α → List τ → Trail α
  | [], _ => []
  | readings :: trail, [] => readings :: trail
  | readings :: trail, t :: text =>
    readings ::
      extend f step (Trail.union trail (after f readings step (t :: text)).tail) text

/-- A first word followed by any number of steps, taken together from the left. -/
def chain [DecidableEq α] (f : α → β → α) (first : Reader τ α) (step : Reader τ β) :
    Reader τ α :=
  fun text => extend f step (first text) text

/-- Any number of words, in order. -/
def star [DecidableEq α] (item : Reader τ α) : Reader τ (List α) :=
  chain (fun items a => items ++ [a]) (result []) item

/-- One word or more, in order. -/
def plus [DecidableEq α] (item : Reader τ α) : Reader τ (List α) :=
  chain (fun items a => items ++ [a]) (map (fun a => [a]) item) item

/-- The letters of a fixed word. -/
def word [Letter τ] : List Char → Reader τ Unit
  | [] => result ()
  | c :: rest => seqRight (char c) (word rest)

end Reader

end FilterPushdown.Parsing
