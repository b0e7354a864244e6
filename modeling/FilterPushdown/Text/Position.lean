/-!
Places in a text as an editor counts them.  Lines are counted from one and columns in UTF-16
units, in which the characters outside the basic plane take two.
-/

namespace FilterPushdown.Text

/-- The number of UTF-16 units of a character. -/
def units (c : Char) : Nat := if c.toNat < 0x10000 then 1 else 2

/-- A line and a column. -/
structure Position where
  line : Nat
  column : Nat
  deriving DecidableEq, Repr

namespace Position

/-- The place before the first letter. -/
def start : Position := ⟨1, 0⟩

/-- The place after one more unit of text; a line feed begins the next line. -/
def afterUnit (position : Position) (c : Char) : Position :=
  if c = '\n' then ⟨position.line + 1, 0⟩ else ⟨position.line, position.column + 1⟩

/-- The place after one more whole character. -/
def afterChar (position : Position) (c : Char) : Position :=
  if c = '\n' then ⟨position.line + 1, 0⟩ else ⟨position.line, position.column + units c⟩

/-- The place after the first unit of the letter that follows a beginning of a text. -/
def of (beginning : List Char) (next : Char) : Position :=
  (beginning.foldl afterChar start).afterUnit next

end Position

end FilterPushdown.Text
