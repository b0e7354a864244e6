import FilterPushdown.Filter.Chart
import FilterPushdown.Filter.Node
import FilterPushdown.Text.Blank

/-!
Reading a filter text: first the one tree that all its derivations agree on, then the condition
that the tree means.  Of several faults the one that ends the reading first is reported, and in a
tree the leftmost one.  A tree says more than a node and can hold less: its nodes have known types,
its operators are the six signs, and its literals are scalars, so that a tree is never refused for
any of these.
-/

namespace FilterPushdown.Filter

open Parsing

/-- The place at which a trail gives out before its text does. -/
def breakingPoint? (trail : Trail Tree) (text : List Char) : Option Text.Position :=
  let reached := trail.length - 1
  match text.drop reached with
  | [] => none
  | next :: _ => some (Text.Position.of (text.take reached) next)

/-- `liqeParse`: the tree that all derivations of a text agree on.  Blank texts have the empty
tree. -/
def tree? (text : String) : Except ReadError Tree :=
  if Text.allBlank text then .ok .empty
  else
    let letters := text.toList
    let readings := trail letters
    match breakingPoint? readings letters with
    | some position => .error (.unexpected position)
    | none =>
      match readings.getLast? with
      | some (.one tree) => .ok tree
      | some .many => .error .ambiguous
      | some .none => .error .unfinished
      | none => .error .unfinished

/-! ## The meaning of a tree -/

/-- The expression that a term is. -/
def Term.expression : Term → Expression
  | text _ value => .literal (.text value)
  | number value => .literal (.number value)
  | boolean value => .literal (.boolean value)
  | null => .literal .null
  | regex _ => .other .regex
  | range _ _ _ _ => .other .range
  | missing => .other .missing

/-- The letters of a connective. -/
def connectiveLetters : Connective → List Char
  | .and => ['A', 'N', 'D']
  | .or => ['O', 'R']

/-- The node that a tree is.  A tag without a name has a colon for its operator. -/
def Tree.node : Tree → Node
  | empty => .empty
  | tag none term => .tag none Sign.colon.letters term.expression
  | tag (some (name, sign)) term => .tag (some name.text) sign.letters term.expression
  | logical connective left right => .logical (connectiveLetters connective) left.node right.node
  | negated _ operand => .unary operand.node
  | group inner => .parenthesized inner.node

/-- The condition that a tree means: parentheses leave no trace, and word and dash negate alike. -/
def Tree.condition? (tree : Tree) : Except ReadError Condition := tree.node.condition?

/-- `FilterParser.parse`: the condition that a filter text means. -/
def condition? (text : String) : Except ReadError Condition :=
  match tree? text with
  | .ok tree => tree.condition?
  | .error fault => .error fault

/-! ### The parts of a tree -/

/-- The comparison that a sign asks for. -/
def Sign.operator : Sign → Operator
  | colon => .equal
  | equal => .equal
  | greater => .greater
  | greaterOrEqual => .greaterOrEqual
  | less => .less
  | lessOrEqual => .lessOrEqual

/-- Every sign is in the map of operators. -/
theorem operator?_letters (sign : Sign) : operator? sign.letters = .ok sign.operator := by
  cases sign <;> rfl

/-- The comparison that a tag asks for. -/
def comparison (column : String) (sign : Sign) (value : Literal) : Condition :=
  comparisonBy column sign.operator value

/-- The literal that a term stands for. -/
def Term.literal? : Term → Except TermForm Literal
  | text _ value => .ok (.text value)
  | number value => .ok (.number value)
  | boolean value => .ok (.boolean value)
  | null => .ok .null
  | regex _ => .error .regex
  | range _ _ _ _ => .error .range
  | missing => .error .missing

theorem Tree.condition?_unnamed (term : Term) :
    (Tree.tag none term).condition? = .error .unnamedTag := by
  cases term <;> rfl

/-- A tag with a name is refused for its term only: its sign is mapped, and its literal is a
scalar. -/
theorem Tree.condition?_tag (name : Name) (sign : Sign) (term : Term) :
    (Tree.tag (some (name, sign)) term).condition? =
      match term.literal? with
      | .ok value => .ok (comparison name.text sign value)
      | .error form => .error (.unsupportedTerm name.text form) := by
  cases term with
  | regex | range | missing => rfl
  | text | number | boolean | null =>
    simp only [condition?, node, Term.expression, Node.condition?, operator?_letters]
    rfl

theorem Tree.condition?_logical (connective : Connective) (left right : Tree) :
    (Tree.logical connective left right).condition? = do
      let leftCondition ← left.condition?
      let rightCondition ← right.condition?
      return .junction connective leftCondition rightCondition := by
  cases connective <;> rfl

theorem Tree.condition?_negated (negation : Negation) (operand : Tree) :
    (Tree.negated negation operand).condition? = do
      let condition ← operand.condition?
      return .negation condition := rfl

end FilterPushdown.Filter
