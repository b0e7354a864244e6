import FilterPushdown.Filter.Lexeme

/-!
The phrases of a filter text.  An operand is a tag, a negation or a parenthesised chain, and a
chain is operands joined by connectives or by mere spaces, taken together from the left.  What
stands in parentheses is looked up in a chart that holds, for every place of the text, the trails
of the operand and of the chain that begin there; each is worked out at most once, from the places
after it.
-/

namespace FilterPushdown.Filter

open Parsing

section Rules

variable {τ : Type} [Letter τ]

/-- A name with its sign, and the term after it if there is one; or a term alone. -/
def tag : Reader τ Tree :=
  Reader.or
    (Reader.seq (fun field term => Tree.tag (some field) term) (Reader.seq Prod.mk name sign)
      (Reader.or term (Reader.result .missing)))
    (Reader.map (Tree.tag none) term)

/-- A phrase in parentheses, with any spaces inside them. -/
def grouped (phrase : Reader τ Tree) : Reader τ Tree :=
  Reader.map Tree.group
    (Reader.seqRight (Reader.char '(')
      (Reader.seqRight spaces
        (Reader.seqLeft phrase (Reader.seqRight spaces (Reader.char ')')))))

/-- Parentheses around nothing. -/
def emptyGroup : Reader τ Tree :=
  Reader.map (fun _ => Tree.group .empty)
    (Reader.seqRight (Reader.char '(') (Reader.seqRight spaces (Reader.char ')')))

/-- One operand, given what a chain is. -/
def operand (chain : Reader τ Tree) : Reader τ Tree :=
  Reader.or emptyGroup
    (Reader.or (grouped chain)
      (Reader.or
        (Reader.map (Tree.negated .word)
          (Reader.seqRight (Reader.word ['N', 'O', 'T'])
            (Reader.seqRight someSpaces (Reader.or (grouped chain) tag))))
        (Reader.or (Reader.map (Tree.negated .dash) (Reader.seqRight (Reader.char '-') tag)) tag)))

/-- A connective. -/
def connective : Reader τ Connective := choice (fun c => c.symbol.toList) [.or, .and]

/-- A connective and the operand to its right.  Spaces between them are needed unless the operand
is in parentheses. -/
def link (operand : Reader τ Tree) : Reader τ (Connective × Tree) :=
  Reader.seq Prod.mk connective (Reader.or (Reader.seqRight someSpaces operand) (grouped operand))

/-- An operand that is joined by spaces alone. -/
def juxtaposition (operand : Reader τ Tree) : Reader τ (Connective × Tree) :=
  Reader.map (fun right => (.and, right))
    (Reader.seqRight someSpaces (Reader.or operand (grouped operand)))

/-- Joins what was read so far with one more operand. -/
def join (left : Tree) (right : Connective × Tree) : Tree := .logical right.1 left right.2

/-- Operands joined from the left, given the operand that begins here, what an operand is further
on, and what a chain is further on.  Spaces before a connective are needed unless the whole left
side is in parentheses. -/
def chain (here operand chain : Reader τ Tree) : Reader τ Tree :=
  Reader.chain join
    (Reader.or here
      (Reader.seq join (grouped chain) (Reader.or (link operand) (juxtaposition operand))))
    (Reader.or (Reader.seqRight someSpaces (link operand)) (juxtaposition operand))

end Rules

/-! ## The chart -/

/-- A place of a text: its character, and the trails of the phrases that begin there. -/
structure Place where
  char : Char
  operand : Thunk (Trail Tree)
  chain : Thunk (Trail Tree)

namespace Place

instance : Letter Place := ⟨Place.char⟩

/-- A place at which no phrase has been worked out yet. -/
def unread (c : Char) : Place := ⟨c, Thunk.pure [], Thunk.pure []⟩

/-- The operand that begins at a place.  At the end of the text one could still begin. -/
def operandReader : Reader Place Tree
  | [] => [.none]
  | place :: _ => place.operand.get

/-- The chain that begins at a place.  At the end of the text one could still begin. -/
def chainReader : Reader Place Tree
  | [] => [.none]
  | place :: _ => place.chain.get

end Place

/-- The places of a text.  The phrases of a place only look at places after it, because every
phrase in parentheses comes after an opening one. -/
def chart : List Char → List Place
  | [] => []
  | c :: text =>
    let later := chart text
    let places := Place.unread c :: later
    let operandHere : Thunk (Trail Tree) := Thunk.mk fun _ => operand Place.chainReader places
    let chainHere : Thunk (Trail Tree) := Thunk.mk fun _ =>
      chain (fun _ => operandHere.get) Place.operandReader Place.chainReader places
    ⟨c, operandHere, chainHere⟩ :: later

/-- The trail of a whole filter text: a chain between spaces. -/
def trail (text : List Char) : Trail Tree :=
  Reader.seqRight spaces (Reader.seqLeft Place.chainReader spaces) (chart text)

end FilterPushdown.Filter
