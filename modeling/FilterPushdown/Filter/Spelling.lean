import FilterPushdown.Filter.Tree
import FilterPushdown.Text.Utf16

/-!
The spelling of filter texts: which characters may stand where, and what numbers, quoted texts and
bare words stand for.

One limit: texts are sequences of characters here, so an escape for half of a surrogate pair that
has no other half beside it stands for U+FFFD.  A reader that keeps texts as sequences of units
keeps that half instead.  Which texts are filters does not depend on it.
-/

namespace FilterPushdown.Filter

/-! ## Classes of characters -/

/-- A decimal digit. -/
def isDigit (c : Char) : Bool := '0' ≤ c && c ≤ '9'

/-- A letter of ASCII or an underscore. -/
def isLetter (c : Char) : Bool := ('A' ≤ c && c ≤ 'Z') || c == '_' || ('a' ≤ c && c ≤ 'z')

/-- A character outside ASCII. -/
def isForeign (c : Char) : Bool := 0x80 ≤ c.toNat

/-- A space that may separate words: neither the carriage return nor any space outside ASCII. -/
def isSpace (c : Char) : Bool := c == '\t' || c == '\n' || c == '\x0b' || c == '\x0c' || c == ' '

/-- A first letter of a bare name. -/
def startsName (c : Char) : Bool := c == '$' || isLetter c

/-- A later letter of a bare name. -/
def continuesName (c : Char) : Bool :=
  isLetter c || isDigit c || c == '$' || c == '.' || c == '-'

/-- A first letter of a bare word. -/
def startsWord (c : Char) : Bool :=
  c == '#' || c == '$' || c == '*' || c == '?' || c == '@' || isLetter c || isForeign c

/-- A later letter of a bare word. -/
def continuesWord (c : Char) : Bool := startsWord c || isDigit c || c == '.' || c == '-'

/-- A letter that ends the digits in front of a bare word. -/
def endsDigits (c : Char) : Bool := startsWord c || c == '-'

/-- A letter that may follow a regular expression. -/
def isFlag (c : Char) : Bool :=
  c == 'd' || c == 'g' || c == 'i' || c == 'm' || c == 's' || c == 'u' || c == 'y'

/-! ## Numbers -/

/-- A number as it is written. -/
structure Numeral where
  negative : Bool
  whole : List Char
  fraction : List Char
  deriving DecidableEq, Repr

/-- The value of a list of digits. -/
def digitsValue (digits : List Char) : Nat :=
  digits.foldl (fun value digit => 10 * value + (digit.toNat - '0'.toNat)) 0

/-- The nearest double to a written number. -/
def Numeral.value (numeral : Numeral) : Number.Double :=
  Number.Double.ofDecimal numeral.negative (digitsValue (numeral.whole ++ numeral.fraction))
    (-(numeral.fraction.length : Int))

/-! ## Quoted texts -/

/-- A piece of a quoted text: a character, or an escaped UTF-16 unit. -/
inductive Piece where
  | char (c : Char)
  | unit (code : Nat)
  deriving DecidableEq, Repr

/-- The units of a piece. -/
def Piece.units : Piece → List UInt16
  | char c => Text.Utf16.ofChar c
  | unit code => [UInt16.ofNat code]

/-- The characters that the pieces stand for.  Two units that make a pair are one character. -/
def decode (pieces : List Piece) : List Char := Text.Utf16.decode (pieces.flatMap Piece.units)

/-- The character that a letter after a backslash stands for. -/
def escaped? (c : Char) : Option Char :=
  match c with
  | '"' => some '"'
  | '/' => some '/'
  | '\\' => some '\\'
  | 'b' => some '\x08'
  | 'f' => some '\x0c'
  | 'n' => some '\n'
  | 'r' => some '\r'
  | 't' => some '\t'
  | _ => none

/-- The value of a hexadecimal digit. -/
def hexValue? (c : Char) : Option Nat :=
  if isDigit c then some (c.toNat - '0'.toNat)
  else if 'a' ≤ c && c ≤ 'f' then some (c.toNat - 'a'.toNat + 10)
  else if 'A' ≤ c && c ≤ 'F' then some (c.toNat - 'A'.toNat + 10)
  else none

/-! ## Bare words -/

/-- The words that join or negate conditions and are no values. -/
def reservedWords : List (List Char) := [['A', 'N', 'D'], ['O', 'R'], ['N', 'O', 'T']]

/-- What a bare word stands for. -/
def wordTerm (letters : List Char) : Term :=
  if letters = ['t', 'r', 'u', 'e'] then .boolean true
  else if letters = ['f', 'a', 'l', 's', 'e'] then .boolean false
  else if letters = ['n', 'u', 'l', 'l'] then .null
  else .text .bare (String.ofList letters)

end FilterPushdown.Filter
