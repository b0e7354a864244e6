import FilterPushdown.Proofs.Compilation.FirstFault
import FilterPushdown.Proofs.Sql.DialectLexicon
import FilterPushdown.Proofs.Sql.NumberText

/-!
Compiled conditions read back.  A condition stands for one search condition; what it is compiled
to is read as tokens that are a phrase for just that search condition, by induction on the
condition.  Every operand of a connective or a negation is compiled in parentheses of its own, so
the phrase does not depend on how tightly the operand holds together.
-/

namespace FilterPushdown

/-- A literal as SQL text shows it.  Null is no literal there. -/
def Literal.sql? : Literal → Option Sql.Literal
  | .text value => some (.text value)
  | .number value => some (.number value.text)
  | .boolean value => some (.boolean value)
  | .null => none

namespace Condition

/-- The search condition that a condition stands for, if it stands for one.  A pattern counts as its
SQL pattern; null is not compared but tested for, and the negated test has a form of its own. -/
def searchCondition? : Condition → Option Sql.SearchCondition
  | .comparison column .equal .null => some (.isNull column)
  | .comparison column .like (.text pattern) =>
    some (.comparison column .like (.text (Wildcard.sqlPattern pattern)))
  | .comparison _ .like _ => none
  | .comparison column operator value => value.sql?.map (.comparison column operator)
  | .junction connective left right => do
    return .junction connective (← left.searchCondition?) (← right.searchCondition?)
  | .halfJunction _ _ => none
  | .negation (.comparison column .equal .null) => some (.isNotNull column)
  | .negation operand => operand.searchCondition?.map .negation
  | .overfullNegation (.comparison column .equal .null) _ => some (.isNotNull column)
  | .overfullNegation operand _ => operand.searchCondition?.map .negation

/-- Whether every number in a condition is finite. -/
def Finite : Condition → Prop
  | .comparison _ _ (.number value) => value.IsFinite
  | .comparison _ _ _ => True
  | .junction _ left right => left.Finite ∧ right.Finite
  | .halfJunction _ left => left.Finite
  | .negation operand => operand.Finite
  | .overfullNegation operand _ => operand.Finite

end Condition

namespace Sql

/-- The search condition that SQL text is in a dialect. -/
def read (dialect : Dialect) (sql : String) : Option SearchCondition :=
  (dialect.lexicon.tokens sql.toList).bind readPhrase

/-- SQL text is a phrase of a dialect. -/
def Reads (dialect : Dialect) (binding : Binding) (sql : String) (tree : SearchCondition) : Prop :=
  ∃ tokens, Lexes dialect.lexicon sql.toList tokens ∧ Phrase binding tokens tree

/-- Text is read if it falls into tokens that make a phrase. -/
theorem read_eq_some_iff {dialect : Dialect} {sql : String} {tree : SearchCondition} :
    read dialect sql = some tree ↔
      ∃ tokens, dialect.lexicon.tokens sql.toList = some tokens ∧
        Phrase .disjunction tokens tree := by
  rw [read, Option.bind_eq_some_iff]
  simp only [readPhrase_eq_some_iff]

theorem read_of_reads {dialect : Dialect} {sql : String} {tree : SearchCondition}
    (reads : Reads dialect .disjunction sql tree) : read dialect sql = some tree := by
  obtain ⟨tokens, lexes, phrase⟩ := reads
  exact read_eq_some_iff.mpr ⟨tokens, lexes.tokens_eq, phrase⟩

/-! ## Words, signs and quoted text of a dialect -/

section

variable {dialect : Dialect} (clear : dialect.lexicon.Clear)

include clear

private theorem lexes_is : Lexes dialect.lexicon ['I', 'S'] [.is] :=
  lexes_word clear rfl rfl

private theorem lexes_not : Lexes dialect.lexicon ['N', 'O', 'T'] [.not] :=
  lexes_word clear rfl rfl

private theorem lexes_null : Lexes dialect.lexicon ['N', 'U', 'L', 'L'] [.null] :=
  lexes_word clear rfl rfl

private theorem lexes_connective (connective : Connective) :
    Lexes dialect.lexicon connective.symbol.toList [.connective connective] := by
  cases connective with
  | and => exact lexes_word clear rfl rfl
  | or => exact lexes_word clear rfl rfl

private theorem lexes_operator (operator : Operator) :
    Lexes dialect.lexicon operator.sql.toList [.operator operator] := by
  cases operator with
  | like => exact lexes_word clear rfl rfl
  | equal => exact lexes_sign clear rfl rfl
  | greater => exact lexes_sign clear rfl rfl
  | greaterOrEqual => exact lexes_sign clear rfl rfl
  | less => exact lexes_sign clear rfl rfl
  | lessOrEqual => exact lexes_sign clear rfl rfl

private theorem lexes_reference {mark : Char} (marked : dialect.IdentifierMark mark)
    {name : String} (unmarked : mark = dialect.identifierQuote ∨ mark ∉ name.toList) :
    Lexes dialect.lexicon (dialect.reference name).toList [.identifier name] := by
  have lexes := lexes_identifier clear (Dialect.denotes_escaped marked unmarked)
  rw [String.ofList_toList] at lexes
  rw [Dialect.reference_toList]
  exact lexes

private theorem lexes_quoteString {mark : Char} (marked : dialect.LiteralMark mark)
    (value : String) :
    Lexes dialect.lexicon (dialect.quoteString value).toList [.literal (.text value)] := by
  have lexes := lexes_text clear (Dialect.denotes_literalBody marked value.toList)
  rw [String.ofList_toList] at lexes
  simp only [Dialect.quoteString, String.toList_append, String.toList_ofList]
  exact lexes

private theorem lexes_literal {mark : Char} (marked : dialect.LiteralMark mark)
    {value : FilterPushdown.Literal} (present : value ≠ .null)
    (finite : ∀ x, value = .number x → x.IsFinite) :
    ∃ literal, value.sql? = some literal ∧
      Lexes dialect.lexicon (dialect.literal value).toList [.literal literal] := by
  match value with
  | .text value =>
    rw [Dialect.literal]
    exact ⟨_, rfl, lexes_quoteString clear marked value⟩
  | .number x =>
    have lexes := lexes_number clear (NumberPhase.accepts_text (finite x rfl))
    rw [String.ofList_toList] at lexes
    rw [Dialect.literal]
    exact ⟨_, rfl, lexes⟩
  | .boolean false =>
    rw [Dialect.literal]
    exact ⟨_, rfl, lexes_word clear rfl rfl⟩
  | .boolean true =>
    rw [Dialect.literal]
    exact ⟨_, rfl, lexes_word clear rfl rfl⟩
  | .null => exact absurd rfl present

end

end Sql

namespace Condition

theorem searchCondition?_negation {operand : Condition}
    (notTest : ∀ column, operand ≠ .comparison column .equal .null) :
    (negation operand).searchCondition? = operand.searchCondition?.map .negation := by
  rw [searchCondition?.eq_def]
  split <;> simp_all

/-- The second operand of a negation means nothing. -/
theorem searchCondition?_overfullNegation (operand ignored : Condition) :
    (overfullNegation operand ignored).searchCondition? = (negation operand).searchCondition? := by
  rw [searchCondition?.eq_def, searchCondition?.eq_def (negation operand)]
  cases operand with
  | comparison column operator value => cases operator <;> cases value <;> rfl
  | _ => rfl

end Condition

namespace Target

variable {target : Target} {relation : Relation}

private theorem reads_operation {dialect : Dialect} (clear : dialect.lexicon.Clear)
    {name column text : String} {literal : Sql.Literal}
    (lexesName : Sql.Lexes dialect.lexicon name.toList [.identifier column]) (operator : Operator)
    (lexesLiteral : Sql.Lexes dialect.lexicon text.toList [.literal literal]) :
    Sql.Reads dialect .primary (name ++ " " ++ operator.sql ++ " " ++ text)
      (.comparison column operator literal) := by
  refine ⟨_, ?_, .comparison column operator literal⟩
  have spaced := lexesName.spaced ((Sql.lexes_operator clear operator).spaced lexesLiteral)
  simp only [String.toList_append, List.append_assoc]
  exact spaced

private theorem reads_isNull {dialect : Dialect} (clear : dialect.lexicon.Clear)
    {name column : String}
    (lexesName : Sql.Lexes dialect.lexicon name.toList [.identifier column]) :
    Sql.Reads dialect .primary (name ++ " IS NULL") (.isNull column) := by
  refine ⟨_, ?_, .isNull column⟩
  have spaced := lexesName.spaced ((Sql.lexes_is clear).spaced (Sql.lexes_null clear))
  rw [String.toList_append]
  exact spaced

private theorem reads_isNotNull {dialect : Dialect} (clear : dialect.lexicon.Clear)
    {name column : String}
    (lexesName : Sql.Lexes dialect.lexicon name.toList [.identifier column]) :
    Sql.Reads dialect .primary (name ++ " IS NOT NULL") (.isNotNull column) := by
  refine ⟨_, ?_, .isNotNull column⟩
  have spaced := lexesName.spaced
    ((Sql.lexes_is clear).spaced ((Sql.lexes_not clear).spaced (Sql.lexes_null clear)))
  rw [String.toList_append]
  exact spaced

/-- Each comparison makes one primary. -/
theorem reads_comparison (member : target.dialect ∈ Dialect.builtIn) {name column sql : String}
    {operator : Operator} {value : Literal}
    (lexes : Sql.Lexes target.dialect.lexicon name.toList [.identifier column])
    (finite : (Condition.comparison column operator value).Finite)
    (valid : target.comparison name operator value = .valid sql) :
    ∃ tree, (Condition.comparison column operator value).searchCondition? = some tree ∧
      Sql.Reads target.dialect .primary sql tree := by
  have clear := Dialect.clear_lexicon member
  obtain ⟨mark, marked⟩ := Dialect.literalMark_of_mem_builtIn member
  unfold Target.comparison at valid
  split at valid
  · cases valid
    exact ⟨_, rfl, reads_isNull clear lexes⟩
  · cases valid
  · rename_i pattern
    cases valid
    have reads := reads_operation clear lexes .like
      (Sql.lexes_quoteString clear marked (Wildcard.sqlPattern pattern))
    have apart : name ++ " LIKE " = name ++ " " ++ Operator.like.sql ++ " " := by
      rw [String.append_assoc, String.append_assoc]
      rfl
    rw [apart]
    exact ⟨_, rfl, reads⟩
  · cases valid
  · rename_i notLike notNull notTest notPattern
    cases valid
    have finiteNumber : ∀ x, value = .number x → x.IsFinite := by
      rintro x rfl
      exact finite
    obtain ⟨literal, same, lexesLiteral⟩ := Sql.lexes_literal clear marked notNull finiteNumber
    refine ⟨_, ?_, reads_operation clear lexes operator lexesLiteral⟩
    rw [Condition.searchCondition?, same, Option.map_some]
    · exact notTest
    · exact notPattern
    · exact notLike

/-- Two phrases in parentheses, joined. -/
private theorem phrase_junction (connective : Connective) {u v : List Sql.Token}
    {a b : Sql.SearchCondition} (left : Sql.Phrase .disjunction u a)
    (right : Sql.Phrase .disjunction v b) :
    Sql.Phrase .disjunction
      (.opening :: (u ++ [.closing]) ++
        ([.connective connective] ++ (.opening :: (v ++ [.closing]))))
      (.junction connective a b) := by
  have leftFactor := Sql.Phrase.primary left.parentheses
  have rightFactor := Sql.Phrase.primary right.parentheses
  cases connective with
  | and => exact .term (.and (.factor leftFactor) rightFactor)
  | or => exact .or (.term (.factor leftFactor)) (.factor rightFactor)

section

variable (member : target.dialect ∈ Dialect.builtIn)
  (plain : ∀ dataset, relation.resolve? target.dialect.engine = some dataset →
    target.dialect = .bigQuery → ∀ column ∈ dataset.columns, '\\' ∉ column.toList)

include member plain

private theorem lexes_columnName {column name : String}
    (valid : (target.columnName relation column).outcome = .ok (.valid name)) :
    Sql.Lexes target.dialect.lexicon name.toList [.identifier column] := by
  obtain ⟨dataset, resolved, exposed, -, rfl⟩ := columnName_eq_valid_iff.mp valid
  obtain ⟨mark, marked, regime⟩ := Dialect.identifierMark_of_mem_builtIn member
  apply Sql.lexes_reference (Dialect.clear_lexicon member) marked
  rcases regime with same | ⟨rfl, google⟩
  · exact .inl same
  · exact .inr (plain dataset resolved google column exposed)

/-- A negated operand is read as a negation, and a negated test for null as the test for a value. -/
private theorem reads_negation {operand : Condition} {inner sql : String}
    {tree : Sql.SearchCondition} (same : operand.searchCondition? = some tree)
    (reads : Sql.Reads target.dialect .disjunction inner tree)
    (valid : (target.negation relation operand inner).outcome = .ok (.valid sql)) :
    ∃ tree, (Condition.negation operand).searchCondition? = some tree ∧
      Sql.Reads target.dialect .disjunction sql tree := by
  have clear := Dialect.clear_lexicon member
  unfold Target.negation at valid
  split at valid
  · rename_i column
    obtain ⟨name, found, last⟩ := outcome_andThen_eq_valid_iff.mp valid
    cases last
    obtain ⟨tokens, lexes, phrase⟩ := reads_isNotNull clear (lexes_columnName member plain found)
    exact ⟨_, rfl, tokens, lexes, .of_primary phrase⟩
  · rename_i notTest
    cases valid
    obtain ⟨tokens, lexes, phrase⟩ := reads
    refine ⟨_, ?_, _, ?_, .term (.factor (.not (.primary (.parentheses phrase))))⟩
    · rw [Condition.searchCondition?_negation notTest, same, Option.map_some]
    · have spaced := (Sql.lexes_not clear).spaced lexes.parentheses
      simp only [String.toList_append, List.append_assoc]
      exact spaced

/-- What a condition is compiled to is a phrase for the search condition that it stands for. -/
theorem reads_compile {condition : Condition} (finite : condition.Finite) {sql : String}
    (valid : (target.compile relation condition).outcome = .ok (.valid sql)) :
    ∃ tree, condition.searchCondition? = some tree ∧
      Sql.Reads target.dialect .disjunction sql tree := by
  have clear := Dialect.clear_lexicon member
  induction condition generalizing sql with
  | comparison column operator value =>
    rw [compile] at valid
    obtain ⟨name, found, last⟩ := outcome_andThen_eq_valid_iff.mp valid
    have lexes := lexes_columnName member plain found
    obtain ⟨tree, same, tokens, lexed, phrase⟩ :=
      reads_comparison member lexes finite (Except.ok.inj last)
    exact ⟨tree, same, tokens, lexed, .of_primary phrase⟩
  | junction connective left right ihLeft ihRight =>
    rw [compile] at valid
    obtain ⟨leftSql, leftFound, later⟩ := outcome_andThen_eq_valid_iff.mp valid
    obtain ⟨rightSql, rightFound, last⟩ := outcome_andThen_eq_valid_iff.mp later
    cases last
    obtain ⟨leftTree, leftSame, u, leftLexes, leftPhrase⟩ := ihLeft finite.1 leftFound
    obtain ⟨rightTree, rightSame, v, rightLexes, rightPhrase⟩ := ihRight finite.2 rightFound
    have same : (Condition.junction connective left right).searchCondition? =
        some (.junction connective leftTree rightTree) := by
      rw [Condition.searchCondition?, leftSame, rightSame]
      rfl
    refine ⟨_, same, _, ?_, phrase_junction connective leftPhrase rightPhrase⟩
    have spaced := leftLexes.parentheses.spaced
      ((Sql.lexes_connective clear connective).spaced rightLexes.parentheses)
    have text : ("(" ++ leftSql ++ ") " ++ connective.symbol ++ " (" ++ rightSql ++ ")").toList =
        '(' :: (leftSql.toList ++ [')']) ++ ' ' ::
          (connective.symbol.toList ++ ' ' :: '(' :: (rightSql.toList ++ [')'])) := by
      simp
    rw [text]
    exact spaced
  | halfJunction connective left ih =>
    rw [compile] at valid
    obtain ⟨leftSql, -, last⟩ := outcome_andThen_eq_valid_iff.mp valid
    cases last
  | negation operand ih =>
    rw [compile] at valid
    obtain ⟨inner, found, later⟩ := outcome_andThen_eq_valid_iff.mp valid
    obtain ⟨tree, same, reads⟩ := ih finite found
    exact reads_negation member plain same reads later
  | overfullNegation operand ignored ih _ =>
    rw [compile] at valid
    obtain ⟨inner, found, later⟩ := outcome_andThen_eq_valid_iff.mp valid
    obtain ⟨tree, same, reads⟩ := ih finite found
    rw [Condition.searchCondition?_overfullNegation]
    exact reads_negation member plain same reads later

end

/-- Under every built-in dialect and either policy, what a condition with finite numbers is
compiled to is read back as the one search condition that the condition stands for, whatever text
its column names and values hold.  In GoogleSQL the columns must not hold backslashes. -/
theorem compile_reads_back (member : target.dialect ∈ Dialect.builtIn)
    (plain : ∀ dataset, relation.resolve? target.dialect.engine = some dataset →
      target.dialect = .bigQuery → ∀ column ∈ dataset.columns, '\\' ∉ column.toList)
    {condition : Condition} (finite : condition.Finite) {sql : String}
    (valid : (target.compile relation condition).outcome = .ok (.valid sql)) :
    ∃ tree, condition.searchCondition? = some tree ∧ Sql.read target.dialect sql = some tree := by
  obtain ⟨tree, same, reads⟩ := reads_compile member plain finite valid
  exact ⟨tree, same, Sql.read_of_reads reads⟩

/-- A value that closes a parenthesis and ends in a backslash and a quote, and a column that holds
the identifier quote. -/
theorem quoted_comparison_reads_back :
    (Target.compile { embeddedQuotes := .escape } (.ofColumns "bigquery" "sales" ["a`b"])
        (.negation (.comparison "a`b" .equal (.text "x) OR \\'")))).outcome =
        .ok (.valid "NOT (`a\\`b` = 'x) OR \\\\\\'')") ∧
      Sql.read .bigQuery "NOT (`a\\`b` = 'x) OR \\\\\\'')" =
        some (.negation (.comparison "a`b" .equal (.text "x) OR \\'"))) := by
  have compiled : (Target.compile { embeddedQuotes := .escape }
      (.ofColumns "bigquery" "sales" ["a`b"])
      (.negation (.comparison "a`b" .equal (.text "x) OR \\'")))).outcome =
      .ok (.valid "NOT (`a\\`b` = 'x) OR \\\\\\'')") := rfl
  have plain : ∀ dataset,
      (Relation.ofColumns "bigquery" "sales" ["a`b"]).resolve? "bigquery" = some dataset →
      Dialect.bigQuery = .bigQuery → ∀ column ∈ dataset.columns, '\\' ∉ column.toList := by
    intro dataset resolved _ column exposed
    cases resolved
    cases List.mem_singleton.mp exposed
    decide
  have finite : (Condition.negation (.comparison "a`b" .equal (.text "x) OR \\'"))).Finite :=
    trivial
  obtain ⟨tree, same, reads⟩ := @compile_reads_back { embeddedQuotes := .escape }
    (.ofColumns "bigquery" "sales" ["a`b"]) List.mem_cons_self plain _ finite _ compiled
  cases same
  exact ⟨compiled, reads⟩

end Target

end FilterPushdown
