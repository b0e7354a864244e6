import FilterPushdown.Proofs.Journal.Silence

/-!
What the policy for embedded quotes changes.  Two targets that differ only in it look up the same
columns in the same order, and part at the first name with the quote in it, which one of them
rejects and the other escapes.  Main statement: escaping keeps every valid answer and adds valid
ones, each in the place of a rejection for that first name.
-/

namespace FilterPushdown

/-- Whether a name is the first in a list that has the quote in it. -/
def FirstQuoted (quote : Char) (names : List String) (name : String) : Prop :=
  ∃ before after, names = before ++ name :: after ∧
    (∀ earlier ∈ before, quote ∉ earlier.toList) ∧ quote ∈ name.toList

/-- Whether no name in a list has the quote in it. -/
def Unquoted (quote : Char) (names : List String) : Prop := ∀ name ∈ names, quote ∉ name.toList

section Names

variable {quote : Char} {first second : List String} {name : String}

theorem FirstQuoted.append (found : FirstQuoted quote first name) :
    FirstQuoted quote (first ++ second) name := by
  obtain ⟨before, after, rfl, unquoted, inside⟩ := found
  exact ⟨before, after ++ second, by simp, unquoted, inside⟩

theorem FirstQuoted.after (unquoted : Unquoted quote first)
    (found : FirstQuoted quote second name) : FirstQuoted quote (first ++ second) name := by
  obtain ⟨before, after, rfl, earlier, inside⟩ := found
  refine ⟨first ++ before, after, (List.append_assoc ..).symm, ?_, inside⟩
  exact fun other member => (List.mem_append.mp member).elim (unquoted other) (earlier other)

theorem FirstQuoted.not_unquoted (found : FirstQuoted quote first name) :
    ¬ Unquoted quote first := by
  obtain ⟨before, after, rfl, -, inside⟩ := found
  exact fun unquoted => unquoted name (by simp) inside

theorem firstQuoted_singleton (inside : quote ∈ name.toList) : FirstQuoted quote [name] name :=
  ⟨[], [], rfl, nofun, inside⟩

end Names

namespace Question

/-- The names that a question puts in quotes, from left to right.  A filter that cannot be read has
none, and neither has a dataset that is not resolved. -/
def names (question : Question) (engine : String) (relation : Relation) : List String :=
  match question with
  | .datasetName => (relation.resolve? engine).toList.map Dataset.identifier
  | .columnName column => [column]
  | .condition asked => asked.columns
  | .filter text =>
    match Filter.condition? text with
    | .ok asked => asked.columns
    | .error _ => []

end Question

namespace Target

/-- The target with another policy for embedded quotes. -/
def withPolicy (target : Target) (policy : QuotePolicy) : Target :=
  { target with embeddedQuotes := policy }

variable {target : Target} {relation : Relation}

/-! ## One name -/

theorem nameVerdict_of_unquoted {policy : QuotePolicy} {identifier : String}
    (absent : target.dialect.identifierQuote ∉ identifier.toList) :
    (target.withPolicy policy).nameVerdict identifier =
      .valid (target.dialect.reference identifier) :=
  if_pos fun inside => absurd inside absent

/-- How an answer of a target that rejects quotes compares with that of a target that escapes them:
it is the same, records included, or the first name with the quote in it is rejected. -/
def SameOrQuoted (quote : Char) (names : List String)
    (rejecting escaping : Logged Value.Indescribable Fragment) : Prop :=
  rejecting = escaping ∨
    ∃ name, FirstQuoted quote names name ∧
      rejecting.outcome = .ok (.invalid (.embeddedQuote name (String.singleton quote)))

/-- A dataset that is resolved can be described, so the rejection of a name comes back. -/
theorem report_same_or_quoted {dataset : Dataset}
    (resolved : relation.resolve? target.dialect.engine = some dataset) (column : Option String)
    (identifier : String) :
    SameOrQuoted target.dialect.identifierQuote [identifier]
      ((target.withPolicy .reject).report relation column
        ((target.withPolicy .reject).nameVerdict identifier))
      ((target.withPolicy .escape).report relation column
        ((target.withPolicy .escape).nameVerdict identifier)) := by
  by_cases inside : target.dialect.identifierQuote ∈ identifier.toList
  · have answers : (target.withPolicy .reject).Answers relation := answers_of_resolved resolved
    refine .inr ⟨identifier, firstQuoted_singleton inside, ?_⟩
    rw [report_of_answers answers]
    exact congrArg Except.ok (nameVerdict_eq_invalid_iff.mpr ⟨inside, rfl, rfl⟩)
  · rw [nameVerdict_of_unquoted inside, nameVerdict_of_unquoted inside]
    exact .inl rfl

theorem datasetName_same_or_quoted :
    SameOrQuoted target.dialect.identifierQuote
      (Question.datasetName.names target.dialect.engine relation)
      ((target.withPolicy .reject).datasetName relation)
      ((target.withPolicy .escape).datasetName relation) := by
  have engine (policy : QuotePolicy) : (target.withPolicy policy).dialect = target.dialect := rfl
  simp only [datasetName_eq_report, datasetVerdict, Question.names, engine]
  cases resolved : relation.resolve? target.dialect.engine with
  | none => exact .inl rfl
  | some dataset => exact report_same_or_quoted resolved none dataset.identifier

theorem columnName_same_or_quoted (column : String) :
    SameOrQuoted target.dialect.identifierQuote [column]
      ((target.withPolicy .reject).columnName relation column)
      ((target.withPolicy .escape).columnName relation column) := by
  have engine (policy : QuotePolicy) : (target.withPolicy policy).dialect = target.dialect := rfl
  simp only [columnName_eq_report, columnVerdict, engine]
  cases resolved : relation.resolve? target.dialect.engine with
  | none => exact .inl rfl
  | some dataset =>
    by_cases exposed : column ∈ dataset.columns
    · simp only [if_pos exposed]
      exact report_same_or_quoted resolved (some column) column
    · simp only [if_neg exposed]
      exact .inl rfl

theorem SameOrQuoted.eq {quote : Char} {names : List String}
    {rejecting escaping : Logged Value.Indescribable Fragment}
    (related : SameOrQuoted quote names rejecting escaping) (unquoted : Unquoted quote names) :
    rejecting = escaping := by
  rcases related with same | ⟨name, found, -⟩
  · exact same
  · exact absurd unquoted found.not_unquoted

/-! ## One step after another -/

/-- If the first steps of two computations are related, then so are the computations, provided that
after a valid first step nothing before was quoted and the next steps are related. -/
theorem SameOrQuoted.andThen {quote : Char} {names more : List String}
    {first first' : Logged Value.Indescribable Fragment}
    {next next' : String → Logged Value.Indescribable Fragment}
    (related : SameOrQuoted quote names first first')
    (later : ∀ sql, first.outcome = .ok (.valid sql) →
      Unquoted quote names ∧ SameOrQuoted quote more (next sql) (next' sql)) :
    SameOrQuoted quote (names ++ more)
      (first >>= fun fragment => Target.andThen fragment next)
      (first' >>= fun fragment => Target.andThen fragment next') := by
  rcases related with rfl | ⟨name, found, rejected⟩
  · by_cases valid : ∃ sql, first.outcome = .ok (.valid sql)
    · obtain ⟨sql, valid⟩ := valid
      obtain ⟨unquoted, same | ⟨name, found, rejected⟩⟩ := later sql valid
      · left
        change Logged.bind _ _ = Logged.bind _ _
        simp only [Logged.bind, valid, Target.andThen, same]
      · exact .inr ⟨name, found.after unquoted, (outcome_andThen_of_valid valid).trans rejected⟩
    · simp only [not_exists] at valid
      exact .inl ((andThen_of_not_valid valid).trans (andThen_of_not_valid valid).symm)
  · have stops : ∀ sql, first.outcome ≠ .ok (.valid sql) := by simp [rejected]
    exact .inr ⟨name, found.append, by rw [andThen_of_not_valid stops, rejected]⟩

/-! ## Conditions -/

theorem unquoted_of_named {column name : String}
    (named : ((target.withPolicy .reject).columnName relation column).outcome =
      .ok (.valid name)) : target.dialect.identifierQuote ∉ column.toList := by
  obtain ⟨-, -, -, admits, -⟩ := columnName_eq_valid_iff.mp named
  exact fun inside => nomatch admits inside

/-- A target that rejects quotes has found none in the columns of a valid condition. -/
theorem unquoted_of_valid {condition : Condition} {sql : String}
    (valid : ((target.withPolicy .reject).compile relation condition).outcome =
      .ok (.valid sql)) :
    Unquoted target.dialect.identifierQuote condition.columns := by
  intro column member
  obtain ⟨name, named⟩ := named_of_valid valid member
  exact unquoted_of_named named

/-- The second look-up of a column in a negated test for null finds what the first one found. -/
theorem negation_same {operand : Condition}
    (unquoted : Unquoted target.dialect.identifierQuote operand.columns) (sql : String) :
    (target.withPolicy .reject).negation relation operand sql =
      (target.withPolicy .escape).negation relation operand sql := by
  unfold negation
  split
  · rw [(columnName_same_or_quoted _).eq unquoted]
  · rfl

/-- By induction on the condition; what stands to the left of an operand is valid when the operand
is looked at, so the first quoted name of the operand is the first one of all. -/
theorem compile_same_or_quoted (target : Target) (relation : Relation) (condition : Condition) :
    SameOrQuoted target.dialect.identifierQuote condition.columns
      ((target.withPolicy .reject).compile relation condition)
      ((target.withPolicy .escape).compile relation condition) := by
  have negated {operand : Condition} (related :
      SameOrQuoted target.dialect.identifierQuote operand.columns
        ((target.withPolicy .reject).compile relation operand)
        ((target.withPolicy .escape).compile relation operand)) :
      SameOrQuoted target.dialect.identifierQuote operand.columns
        ((target.withPolicy .reject).compile relation (.negation operand))
        ((target.withPolicy .escape).compile relation (.negation operand)) := by
    rw [← List.append_nil operand.columns, compile, compile]
    refine related.andThen fun sql valid => ⟨unquoted_of_valid valid, .inl ?_⟩
    exact negation_same (unquoted_of_valid valid) sql
  induction condition with
  | comparison column operator value =>
    rw [Condition.columns, ← List.append_nil [column], compile, compile]
    refine (columnName_same_or_quoted column).andThen fun name named => ⟨?_, .inl rfl⟩
    exact List.forall_mem_singleton.mpr (unquoted_of_named named)
  | junction connective left right ihLeft ihRight =>
    rw [Condition.columns, compile, compile]
    refine ihLeft.andThen fun leftSql valid => ⟨unquoted_of_valid valid, ?_⟩
    rw [← List.append_nil right.columns]
    exact ihRight.andThen fun rightSql valid => ⟨unquoted_of_valid valid, .inl rfl⟩
  | halfJunction connective left ih =>
    rw [Condition.columns, ← List.append_nil left.columns, compile, compile]
    exact ih.andThen fun sql valid => ⟨unquoted_of_valid valid, .inl rfl⟩
  | negation operand ih => exact negated ih
  | overfullNegation operand ignored ih _ => exact negated ih

end Target

namespace Question

/-- The answer to a question under a policy for embedded quotes. -/
def under (question : Question) (policy : QuotePolicy) (target : Target) (relation : Relation) :
    Logged Value.Indescribable Fragment :=
  question.answer (target.withPolicy policy) relation

theorem under_same_or_quoted (question : Question) (target : Target) (relation : Relation) :
    Target.SameOrQuoted target.dialect.identifierQuote
      (question.names target.dialect.engine relation)
      (question.under .reject target relation) (question.under .escape target relation) := by
  cases question with
  | datasetName => exact Target.datasetName_same_or_quoted
  | columnName column => exact Target.columnName_same_or_quoted column
  | condition asked => exact Target.compile_same_or_quoted target relation asked
  | filter text =>
    simp only [under, answer, names]
    cases read : Filter.condition? text with
    | error fault =>
      rw [Target.compileFilter_eq_of_unreadable read, Target.compileFilter_eq_of_unreadable read]
      exact .inl rfl
    | ok asked =>
      rw [Target.compileFilter_of_readable read, Target.compileFilter_of_readable read]
      exact Target.compile_same_or_quoted target relation asked

end Question

/-- A name without the quote has one text, escaped or not.  Of two targets that differ only in their
policy for embedded quotes, the one that escapes gives every valid answer of the other, and the one
that rejects has no valid answer where the other has none.  If no name that a question puts in quotes
has the quote in it, the answers are the same, records included.  Where escaping is valid and
rejecting is not, the first name with the quote in it is rejected for that. -/
theorem escaping_only_adds_valid_answers (target : Target) (relation : Relation)
    (question : Question) :
    (∀ identifier : String, target.dialect.identifierQuote ∉ identifier.toList →
        target.dialect.quoteIdentifier (target.dialect.escapeIdentifier identifier) =
          target.dialect.quoteIdentifier identifier) ∧
      (∀ sql, (question.under .reject target relation).outcome = .ok (.valid sql) →
        (question.under .escape target relation).outcome = .ok (.valid sql)) ∧
      (∀ reason, (question.under .escape target relation).outcome = .ok (.invalid reason) →
        ∃ other, (question.under .reject target relation).outcome = .ok (.invalid other)) ∧
      (Unquoted target.dialect.identifierQuote (question.names target.dialect.engine relation) →
        question.under .reject target relation = question.under .escape target relation) ∧
      ∀ sql, (question.under .escape target relation).outcome = .ok (.valid sql) →
        (question.under .reject target relation).outcome = .ok (.valid sql) ∨
          ∃ name reason,
            FirstQuoted target.dialect.identifierQuote
              (question.names target.dialect.engine relation) name ∧
            (question.under .reject target relation).outcome = .ok (.invalid reason) ∧
            reason.message = "Identifier " ++ name ++ " contains the quote character " ++
              String.singleton target.dialect.identifierQuote := by
  have related := question.under_same_or_quoted target relation
  refine ⟨fun identifier absent => ?_, fun sql valid => ?_, fun reason invalid => ?_, related.eq,
    fun sql valid => ?_⟩
  · rw [Dialect.escapeIdentifier_of_not_mem absent]
  · rcases related with same | ⟨name, -, rejected⟩
    · rwa [← same]
    · cases rejected.symm.trans valid
  · rcases related with same | ⟨name, -, rejected⟩
    · exact ⟨reason, by rwa [same]⟩
    · exact ⟨_, rejected⟩
  · rcases related with same | ⟨name, found, rejected⟩
    · exact .inl (by rwa [same])
    · exact .inr ⟨name, _, found, rejected, rfl⟩

/-- The column with a quote is the one that is rejected, although it comes after another column; a
name without a quote stays as it is, a join is rejected under both policies, and so is a column that
is missing. -/
theorem quoted_column_is_added_by_escaping :
    (∃ name reason, FirstQuoted '\x60' ["a", "b`c"] name ∧
        ((Question.condition (.junction .or (.comparison "a" .equal .null)
          (.negation (.comparison "b`c" .equal .null)))).under .reject {}
            (.ofColumns "bigquery" "t" ["a", "b`c"])).outcome = .ok (.invalid reason) ∧
        reason.message = "Identifier " ++ name ++ " contains the quote character " ++ "`") ∧
      ((Question.columnName "a").under .escape {} (.ofColumns "bigquery" "t" ["a"])).outcome =
        .ok (.valid "`a`") ∧
      (∃ other, (Question.datasetName.under .reject {} (.derived none)).outcome =
        .ok (.invalid other)) ∧
      (Question.columnName "d").under .reject {} (.ofColumns "bigquery" "t" ["b`c"]) =
        (Question.columnName "d").under .escape {} (.ofColumns "bigquery" "t" ["b`c"]) := by
  refine ⟨?_, ?_, ?_, ?_⟩
  · have law := escaping_only_adds_valid_answers {} (.ofColumns "bigquery" "t" ["a", "b`c"])
      (.condition (.junction .or (.comparison "a" .equal .null)
        (.negation (.comparison "b`c" .equal .null))))
    have escaped := law.2.2.2.2 "(`a` IS NULL) OR (`b\\`c` IS NOT NULL)" rfl
    exact escaped.resolve_left nofun
  · exact (escaping_only_adds_valid_answers {} _ (.columnName "a")).2.1 _ rfl
  · exact (escaping_only_adds_valid_answers {} (.derived none) .datasetName).2.2.1 _ rfl
  · refine (escaping_only_adds_valid_answers {} _ (.columnName "d")).2.2.2.1 fun name member => ?_
    obtain rfl := List.mem_singleton.mp member
    decide

end FilterPushdown
