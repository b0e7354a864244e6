import FilterPushdown.Filter.Spelling
import FilterPushdown.Parsing.Reader

/-!
Readers for the words of a filter text: spaces, names, signs, numbers, quoted texts, bare words,
ranges and regular expressions.  Each keeps every beginning of the text that is such a word, not
only the longest.
-/

namespace FilterPushdown.Filter

open Parsing

variable {τ : Type} [Letter τ]

/-! ## Spaces, names and signs -/

/-- One space. -/
def space : Reader τ Unit := Reader.letter fun c => if isSpace c then some () else none

/-- Any number of spaces. -/
def spaces : Reader τ Unit := Reader.chain (fun _ _ => ()) (Reader.result ()) space

/-- One space or more. -/
def someSpaces : Reader τ Unit := Reader.seqRight space spaces

/-- A letter of one class followed by any number of another. -/
def run (first rest : Char → Bool) : Reader τ (List Char) :=
  Reader.seq List.cons (Reader.oneOf first) (Reader.star (Reader.oneOf rest))

/-- One digit or more. -/
def digits : Reader τ (List Char) := Reader.plus (Reader.oneOf isDigit)

/-- The words of a list of alternatives, each with its own tree. -/
def choice {α : Type} [DecidableEq α] (letters : α → List Char) : List α → Reader τ α
  | [] => fun _ => []
  | a :: alternatives =>
    Reader.or (Reader.map (fun _ => a) (Reader.word (letters a))) (choice letters alternatives)

/-- A comparison sign. -/
def sign : Reader τ Sign := choice Sign.letters Sign.all

/-! ## Numbers -/

/-- An optional minus. -/
def minus : Reader τ Bool :=
  Reader.or (Reader.result false) (Reader.map (fun _ => true) (Reader.char '-'))

/-- An optional fraction: a point and digits. -/
def fraction : Reader τ (List Char) :=
  Reader.or (Reader.result []) (Reader.seqRight (Reader.char '.') digits)

/-- A number as it is written. -/
def numeral : Reader τ Numeral :=
  Reader.seq (fun negative (parts : List Char × List Char) => ⟨negative, parts.1, parts.2⟩) minus
    (Reader.seq Prod.mk digits fraction)

/-- A number. -/
def number : Reader τ Number.Double := Reader.map Numeral.value numeral

/-- An opening bracket of a range; the square one includes the bound. -/
def opening : Reader τ Bool :=
  Reader.letter fun c => if c = '[' then some true else if c = '\x7b' then some false else none

/-- A closing bracket of a range; the square one includes the bound. -/
def closing : Reader τ Bool :=
  Reader.letter fun c => if c = ']' then some true else if c = '\x7d' then some false else none

/-- A range between two numbers. -/
def range : Reader τ Term :=
  Reader.seq (fun includesLowest (rest : Number.Double × Number.Double × Bool) =>
      Term.range rest.1 rest.2.1 includesLowest rest.2.2) opening
    (Reader.seq Prod.mk number
      (Reader.seqRight (Reader.word [' ', 'T', 'O', ' ']) (Reader.seq Prod.mk number closing)))

/-! ## Quoted texts -/

/-- A UTF-16 unit in four hexadecimal digits. -/
def hexUnit : Reader τ Nat :=
  let digit : Reader τ Nat := Reader.letter hexValue?
  Reader.seq (fun high low => 256 * high + low) (Reader.seq (fun a b => 16 * a + b) digit digit)
    (Reader.seq (fun a b => 16 * a + b) digit digit)

/-- What may follow a backslash between quotes of one kind. -/
def escape (delimiter : Char) : Reader τ Piece :=
  Reader.or
    (Reader.letter fun c =>
      if c = delimiter then some (.char c) else (escaped? c).map .char)
    (Reader.seqRight (Reader.char 'u') (Reader.map .unit hexUnit))

/-- One piece of a text between quotes of one kind. -/
def piece (delimiter : Char) : Reader τ Piece :=
  Reader.or
    (Reader.map .char (Reader.oneOf fun c => c != '\n' && c != delimiter && c != '\\'))
    (Reader.seqRight (Reader.char '\\') (escape delimiter))

/-- A text between quotes of one kind. -/
def quoted (delimiter : Char) : Reader τ String :=
  Reader.map (fun pieces => String.ofList (decode pieces))
    (Reader.seqRight (Reader.char delimiter)
      (Reader.seqLeft (Reader.star (piece delimiter)) (Reader.char delimiter)))

/-- A text between apostrophes. -/
def singleQuoted : Reader τ String := quoted '\''

/-- A text between double quotes. -/
def doubleQuoted : Reader τ String := quoted '"'

/-! ## Regular expressions and bare words -/

/-- One letter of a regular expression, or a backslash and the letter after it. -/
def regexPiece : Reader τ (List Char) :=
  Reader.or (Reader.map (fun c => [c]) (Reader.oneOf (· != '\\')))
    (Reader.seq (fun _ c => ['\\', c]) (Reader.char '\\') (Reader.oneOf fun _ => true))

/-- The letters between the slashes of a regular expression. -/
def regexBody : Reader τ (List Char) :=
  Reader.chain List.append (Reader.result []) regexPiece

/-- A regular expression: a body between slashes, and flags. -/
def regex : Reader τ Term :=
  Reader.seq (fun body flags => Term.regex (String.ofList ('/' :: (body ++ '/' :: flags))))
    (Reader.seqRight (Reader.char '/') (Reader.seqLeft regexBody (Reader.char '/')))
    (Reader.star (Reader.oneOf isFlag))

/-- A bare word, which may begin with digits. -/
def bareWord : Reader τ Term :=
  Reader.map wordTerm
    (Reader.refuse (fun letters => reservedWords.contains letters)
      (Reader.or (run startsWord continuesWord)
        (Reader.seq List.append digits (run endsDigits continuesWord))))

/-- A name: bare, or quoted in either way. -/
def name : Reader τ Name :=
  Reader.or (Reader.map (fun letters => ⟨.bare, String.ofList letters⟩)
      (run startsName continuesName))
    (Reader.or (Reader.map (fun text => ⟨.single, text⟩) singleQuoted)
      (Reader.map (fun text => ⟨.double, text⟩) doubleQuoted))

/-- A value, a range or a regular expression. -/
def term : Reader τ Term :=
  Reader.or (Reader.map .number number)
    (Reader.or regex
      (Reader.or range
        (Reader.or bareWord
          (Reader.or (Reader.map (.text .single) singleQuoted)
            (Reader.map (.text .double) doubleQuoted)))))

end FilterPushdown.Filter
