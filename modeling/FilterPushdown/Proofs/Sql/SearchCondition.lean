import FilterPushdown.Filter.Condition

/-!
Search conditions of SQL as tokens and as trees.  The grammar gives NOT precedence over AND and AND
over OR, and both connectives associate to the left.  The reader takes one token after another and
keeps, for every open parenthesis, what stands before the operand it is about to read.  Main
statement: it accepts exactly the phrases of the grammar, each with its tree, so no phrase has two.
-/

namespace FilterPushdown.Sql

/-- A literal as SQL text shows it.  A number is kept as it is written. -/
inductive Literal where
  | text (value : String)
  | number (written : String)
  | boolean (value : Bool)
  deriving DecidableEq, Repr

/-- A condition as SQL understands it. -/
inductive SearchCondition where
  | comparison (column : String) (operator : Operator) (literal : Literal)
  | isNull (column : String)
  | isNotNull (column : String)
  | junction (connective : Connective) (left right : SearchCondition)
  | negation (operand : SearchCondition)
  deriving DecidableEq, Repr

/-- A piece of SQL text. -/
inductive Token where
  | opening
  | closing
  | connective (symbol : Connective)
  | not
  | is
  | null
  | operator (symbol : Operator)
  | identifier (name : String)
  | literal (value : Literal)
  deriving DecidableEq, Repr

/-! ## The grammar -/

/-- How tightly a phrase holds together, from the loosest to the tightest. -/
inductive Binding where
  | disjunction
  | conjunction
  | factor
  | primary
  deriving DecidableEq, Repr

/-- Which tokens make a phrase, and with which tree. -/
inductive Phrase : Binding → List Token → SearchCondition → Prop where
  | or (left : Phrase .disjunction u a) (right : Phrase .conjunction v b) :
      Phrase .disjunction (u ++ .connective .or :: v) (.junction .or a b)
  | term (single : Phrase .conjunction u a) : Phrase .disjunction u a
  | and (left : Phrase .conjunction u a) (right : Phrase .factor v b) :
      Phrase .conjunction (u ++ .connective .and :: v) (.junction .and a b)
  | factor (single : Phrase .factor u a) : Phrase .conjunction u a
  | not (operand : Phrase .factor u a) : Phrase .factor (.not :: u) (.negation a)
  | primary (single : Phrase .primary u a) : Phrase .factor u a
  | parentheses (inner : Phrase .disjunction u a) :
      Phrase .primary (.opening :: (u ++ [.closing])) a
  | comparison (column : String) (operator : Operator) (literal : Literal) :
      Phrase .primary [.identifier column, .operator operator, .literal literal]
        (.comparison column operator literal)
  | isNull (column : String) :
      Phrase .primary [.identifier column, .is, .null] (.isNull column)
  | isNotNull (column : String) :
      Phrase .primary [.identifier column, .is, .not, .null] (.isNotNull column)

/-- A primary may stand wherever a phrase is asked for. -/
theorem Phrase.of_primary (single : Phrase .primary u a) : Phrase .disjunction u a :=
  .term (.factor (.primary single))

/-! ## The reader -/

/-- What stands before the next operand, since the last parenthesis that is still open. -/
structure Pending where
  /-- The left side of an OR. -/
  disjunct : Option SearchCondition
  /-- The left side of an AND. -/
  conjunct : Option SearchCondition
  negations : Nat

namespace Pending

/-- Nothing stands before the operand. -/
def start : Pending := ⟨none, none, 0⟩

/-- An operand under a number of negations. -/
def negate (operand : SearchCondition) : Nat → SearchCondition
  | 0 => operand
  | negations + 1 => .negation (negate operand negations)

/-- The left side of a connective, if there is one, joined with what stands to its right. -/
def join (connective : Connective) (left : Option SearchCondition) (right : SearchCondition) :
    SearchCondition :=
  match left with
  | none => right
  | some left => .junction connective left right

/-- The operand with everything that binds at least as tightly as AND. -/
def conjunction (pending : Pending) (operand : SearchCondition) : SearchCondition :=
  join .and pending.conjunct (negate operand pending.negations)

/-- The operand with everything that stands before it. -/
def disjunction (pending : Pending) (operand : SearchCondition) : SearchCondition :=
  join .or pending.disjunct (pending.conjunction operand)

end Pending

mutual

/-- Reads on where an operand has to come. -/
def readOperand (pending : Pending) (outer : List Pending) : List Token → Option SearchCondition
  | .opening :: rest => readOperand .start (pending :: outer) rest
  | .not :: rest =>
    readOperand ⟨pending.disjunct, pending.conjunct, pending.negations + 1⟩ outer rest
  | .identifier column :: .operator operator :: .literal literal :: rest =>
    readOn (.comparison column operator literal) pending outer rest
  | .identifier column :: .is :: .null :: rest => readOn (.isNull column) pending outer rest
  | .identifier column :: .is :: .not :: .null :: rest =>
    readOn (.isNotNull column) pending outer rest
  | _ => none

/-- Reads on after an operand. -/
def readOn (operand : SearchCondition) (pending : Pending) (outer : List Pending) :
    List Token → Option SearchCondition
  | [] => if outer.isEmpty then some (pending.disjunction operand) else none
  | .connective .and :: rest =>
    readOperand ⟨pending.disjunct, some (pending.conjunction operand), 0⟩ outer rest
  | .connective .or :: rest => readOperand ⟨some (pending.disjunction operand), none, 0⟩ outer rest
  | .closing :: rest =>
    match outer with
    | [] => none
    | before :: outer => readOn (pending.disjunction operand) before outer rest
  | _ => none

end

/-- The tree of a whole list of tokens. -/
def readPhrase (tokens : List Token) : Option SearchCondition := readOperand .start [] tokens

/-! ## No phrase is missed -/

/-- What the reader comes to after a phrase.  A loose phrase is read where nothing tighter than it
is pending. -/
private def Arrives : Binding → List Token → SearchCondition → Prop
  | .disjunction, u, a => ∀ outer rest, ∃ operand pending,
      readOperand .start outer (u ++ rest) = readOn operand pending outer rest ∧
        pending.disjunction operand = a
  | .conjunction, u, a => ∀ disjunct outer rest, ∃ operand pending,
      readOperand ⟨disjunct, none, 0⟩ outer (u ++ rest) = readOn operand pending outer rest ∧
        pending.disjunct = disjunct ∧ pending.conjunction operand = a
  | .factor, u, a => ∀ pending outer rest, ∃ operand negations,
      readOperand pending outer (u ++ rest) =
          readOn operand ⟨pending.disjunct, pending.conjunct, pending.negations + negations⟩
            outer rest ∧
        Pending.negate operand negations = a
  | .primary, u, a => ∀ pending outer rest,
      readOperand pending outer (u ++ rest) = readOn a pending outer rest

private theorem phrase_arrives (phrase : Phrase binding u a) : Arrives binding u a := by
  induction phrase with
  | or _ _ ihLeft ihRight =>
    intro outer rest
    obtain ⟨operand, pending, leftRead, rfl⟩ := ihLeft outer (.connective .or :: (_ ++ rest))
    obtain ⟨last, after, rightRead, disjunct, rfl⟩ :=
      ihRight (some (pending.disjunction operand)) outer rest
    refine ⟨last, after, ?_, ?_⟩
    · rw [List.append_assoc, List.cons_append, leftRead, readOn, rightRead]
    · rw [Pending.disjunction, disjunct]
      rfl
  | term _ ih =>
    intro outer rest
    obtain ⟨operand, pending, read, disjunct, rfl⟩ := ih none outer rest
    refine ⟨operand, pending, read, ?_⟩
    rw [Pending.disjunction, disjunct]
    rfl
  | and _ _ ihLeft ihRight =>
    intro disjunct outer rest
    obtain ⟨operand, pending, leftRead, rfl, rfl⟩ :=
      ihLeft disjunct outer (.connective .and :: (_ ++ rest))
    obtain ⟨last, negations, rightRead, rfl⟩ :=
      ihRight ⟨pending.disjunct, some (pending.conjunction operand), 0⟩ outer rest
    refine ⟨last, ⟨pending.disjunct, some (pending.conjunction operand), negations⟩, ?_, rfl, rfl⟩
    rw [List.append_assoc, List.cons_append, leftRead, readOn, rightRead, Nat.zero_add]
  | factor _ ih =>
    intro disjunct outer rest
    obtain ⟨operand, negations, read, rfl⟩ := ih ⟨disjunct, none, 0⟩ outer rest
    rw [Nat.zero_add] at read
    exact ⟨operand, ⟨disjunct, none, negations⟩, read, rfl, rfl⟩
  | not _ ih =>
    intro pending outer rest
    obtain ⟨operand, negations, read, rfl⟩ :=
      ih ⟨pending.disjunct, pending.conjunct, pending.negations + 1⟩ outer rest
    refine ⟨operand, negations + 1, ?_, rfl⟩
    rw [List.cons_append, readOperand, read, Nat.add_assoc, Nat.add_comm 1]
  | primary _ ih =>
    intro pending outer rest
    exact ⟨_, 0, ih pending outer rest, rfl⟩
  | parentheses _ ih =>
    intro pending outer rest
    obtain ⟨operand, inner, read, rfl⟩ := ih (pending :: outer) (.closing :: rest)
    rw [List.cons_append, List.append_assoc, readOperand, List.singleton_append, read, readOn]
  | comparison => intro pending outer rest; rfl
  | isNull => intro pending outer rest; rfl
  | isNotNull => intro pending outer rest; rfl

/-- Every phrase is read as its tree. -/
theorem readPhrase_of_phrase (phrase : Phrase .disjunction tokens a) :
    readPhrase tokens = some a := by
  obtain ⟨operand, pending, read, rfl⟩ := phrase_arrives phrase [] []
  rw [List.append_nil] at read
  rw [readPhrase, read, readOn]
  rfl

/-! ## Nothing but phrases is read -/

/-- The tokens that lead to what is pending since the last open parenthesis. -/
private inductive LeadsTo : List Token → Pending → Prop where
  | start : LeadsTo [] .start
  | or (left : Phrase .disjunction u a) : LeadsTo (u ++ [.connective .or]) ⟨some a, none, 0⟩
  | and (before : LeadsTo u ⟨disjunct, none, 0⟩) (left : Phrase .conjunction v a) :
      LeadsTo (u ++ (v ++ [.connective .and])) ⟨disjunct, some a, 0⟩
  | not (before : LeadsTo u ⟨disjunct, conjunct, negations⟩) :
      LeadsTo (u ++ [.not]) ⟨disjunct, conjunct, negations + 1⟩

/-- The tokens up to the last open parenthesis. -/
private inductive Opens : List Token → List Pending → Prop where
  | nil : Opens [] []
  | cons (before : Opens u outer) (pending : LeadsTo v p) :
      Opens (u ++ (v ++ [.opening])) (p :: outer)

private theorem negate_negation (operand : SearchCondition) (negations : Nat) :
    Pending.negate (.negation operand) negations =
      .negation (Pending.negate operand negations) := by
  induction negations with
  | zero => rfl
  | succ negations ih => rw [Pending.negate, ih, Pending.negate]

private theorem leadsTo_factor (before : LeadsTo u ⟨disjunct, conjunct, negations⟩)
    (operand : Phrase .factor w a) :
    ∃ v t, u ++ w = v ++ t ∧ LeadsTo v ⟨disjunct, conjunct, 0⟩ ∧
      Phrase .factor t (Pending.negate a negations) := by
  induction negations generalizing u w a with
  | zero => exact ⟨u, w, rfl, before, operand⟩
  | succ negations ih =>
    cases before with
    | @not u _ _ _ before =>
      obtain ⟨v, t, same, leads, phrase⟩ := ih before (.not operand)
      refine ⟨v, t, ?_, leads, ?_⟩
      · rw [← same, List.append_assoc]
        rfl
      · rwa [negate_negation] at phrase

private theorem leadsTo_conjunction (before : LeadsTo u pending)
    (operand : Phrase .primary w a) :
    ∃ v t, u ++ w = v ++ t ∧ LeadsTo v ⟨pending.disjunct, none, 0⟩ ∧
      Phrase .conjunction t (pending.conjunction a) := by
  obtain ⟨disjunct, conjunct, negations⟩ := pending
  obtain ⟨v, t, same, leads, phrase⟩ := leadsTo_factor before (.primary operand)
  rw [same]
  cases leads with
  | start => exact ⟨[], t, rfl, .start, .factor phrase⟩
  | or left => exact ⟨_, t, rfl, .or left, .factor phrase⟩
  | @and u' _ v' _ earlier left =>
    refine ⟨u', v' ++ .connective .and :: t, ?_, earlier, .and left phrase⟩
    simp only [List.append_assoc, List.singleton_append]

private theorem leadsTo_disjunction (before : LeadsTo u pending)
    (operand : Phrase .primary w a) : Phrase .disjunction (u ++ w) (pending.disjunction a) := by
  obtain ⟨disjunct, conjunct, negations⟩ := pending
  obtain ⟨v, t, same, leads, phrase⟩ := leadsTo_conjunction before operand
  rw [same]
  cases leads with
  | start => exact .term phrase
  | @or u' _ left =>
    rw [List.append_assoc, List.singleton_append]
    exact .or left phrase

mutual

private theorem phrase_of_readOperand {tokens : List Token} (opens : Opens u outer)
    (leads : LeadsTo v pending) (read : readOperand pending outer tokens = some a) :
    Phrase .disjunction (u ++ (v ++ tokens)) a := by
  unfold readOperand at read
  split at read
  · rename_i rest
    have inner := phrase_of_readOperand (.cons opens leads) .start read
    simpa only [List.append_assoc, List.singleton_append, List.nil_append] using inner
  · rename_i rest
    have inner := phrase_of_readOperand opens (.not leads) read
    simpa only [List.append_assoc, List.singleton_append] using inner
  · exact phrase_of_readOn opens leads (.comparison ..) read
  · exact phrase_of_readOn opens leads (.isNull ..) read
  · exact phrase_of_readOn opens leads (.isNotNull ..) read
  · cases read
termination_by tokens.length

private theorem phrase_of_readOn {tokens : List Token} (opens : Opens u outer)
    (leads : LeadsTo v pending) (operand : Phrase .primary w b)
    (read : readOn b pending outer tokens = some a) :
    Phrase .disjunction (u ++ (v ++ (w ++ tokens))) a := by
  unfold readOn at read
  split at read
  · split at read
    · rename_i empty
      cases opens with
      | nil =>
        cases read
        simpa using leadsTo_disjunction leads operand
      | cons => cases empty
    · cases read
  · rename_i rest
    obtain ⟨v', t, same, earlier, phrase⟩ := leadsTo_conjunction leads operand
    have inner := phrase_of_readOperand opens (.and earlier phrase) read
    have whole : v ++ (w ++ .connective .and :: rest) =
        v' ++ (t ++ [.connective .and]) ++ rest := by
      rw [← List.append_assoc, same]
      simp only [List.append_assoc, List.singleton_append]
    rwa [whole]
  · rename_i rest
    have inner := phrase_of_readOperand opens (.or (leadsTo_disjunction leads operand)) read
    simpa only [List.append_assoc, List.singleton_append] using inner
  · rename_i rest
    cases opens with
    | nil => cases read
    | @cons u' _ v' _ before earlier =>
      have closed := Phrase.parentheses (leadsTo_disjunction leads operand)
      have inner := phrase_of_readOn before earlier closed read
      simpa only [List.append_assoc, List.cons_append, List.nil_append] using inner
  · cases read
termination_by tokens.length

end

/-- The reader accepts exactly the phrases of the grammar, each with its tree. -/
theorem readPhrase_eq_some_iff {tokens : List Token} {a : SearchCondition} :
    readPhrase tokens = some a ↔ Phrase .disjunction tokens a := by
  constructor
  · intro read
    exact phrase_of_readOperand .nil .start read
  · exact readPhrase_of_phrase

example (a b c : String) : readPhrase
    [.identifier a, .is, .null, .connective .or, .identifier b, .is, .null, .connective .and, .not,
      .identifier c, .is, .null] =
    some (.junction .or (.isNull a) (.junction .and (.isNull b) (.negation (.isNull c)))) := rfl

end FilterPushdown.Sql
