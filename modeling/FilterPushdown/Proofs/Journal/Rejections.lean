import FilterPushdown.Proofs.Journal.Silence

/-!
The records of rejected references.  Every question either is answered without a trace, or is
answered by the rejection of one reference.  Main statement: with a logger that writes the calls of
rejections, one record is written for each question that is answered by a rejection and none for any
other, and the record shows the reason and the column that was rejected.
-/

namespace FilterPushdown

/-- Whether a reason is one for which a target rejects a reference. -/
def Reason.RejectsReference : Reason → Prop
  | unsupportedRelation | missingColumn _ | embeddedQuote _ _ => True
  | orderWithNull _ | patternNotText | missingOperand _ | unreadableFilter _ | other _ _ => False

namespace LogRecord

/-- The member of a record that counts under a name. -/
def member? (written : LogRecord) (name : String) : Option Value :=
  written.members.reverse.lookup name

/-- What a record says of a rejection: the relation, the column if there is one, and the reason. -/
structure Shows (written : LogRecord) (relation : Relation) (column : Option String)
    (reason : Reason) : Prop where
  severity : written.severity = .debug
  relation : ∃ shown, relation.describe = .ok shown ∧ written.member? "relation" = some shown
  column : written.member? "column" = column.map .text
  reason : written.member? "reason" = some (.text reason.message)

end LogRecord

/-- Whether engine, name and description of a relation are absent, null or texts. -/
def Relation.Plain : Relation → Prop
  | foreign value _ =>
    ∀ name ∈ ["engine", "datasetIdentifier", "description"], ∀ member,
      value.member? name = some member → member = .null ∨ ∃ text, member = .text text
  | _ => True

theorem Relation.Plain.not_textless {relation : Relation} (plain : relation.Plain) :
    ¬ relation.Textless := by
  cases relation with
  | dataset table => exact id
  | derived description => exact id
  | foreign value columns =>
    rintro ⟨-, name, listed, member, found, textless⟩
    have listed : name ∈ ["engine", "datasetIdentifier", "description"] := by
      simp only [List.mem_cons, List.not_mem_nil, or_false] at listed ⊢
      exact listed.imp_right .inl
    rcases plain name listed member found with rfl | ⟨text, rfl⟩ <;> cases textless

/-- Whether a comparison with a column is the first thing in a condition that does not pass its
check. -/
def Target.FirstFailing (target : Target) (relation : Relation) (condition : Condition)
    (column : String) : Prop :=
  ∃ before operator value after,
    condition.checked = before ++ .comparison column operator value :: after ∧
      (∀ earlier ∈ before, target.Passes relation earlier) ∧
      ¬ target.Passes relation (.comparison column operator value)

/-- The column that a rejection is about: none for a dataset, the one that is asked for, or the
column of the first comparison that fails. -/
inductive Question.Concerns (target : Target) (relation : Relation) :
    Question → Option String → Prop where
  | datasetName : Concerns target relation .datasetName none
  | columnName : Concerns target relation (.columnName column) (some column)
  | condition (first : target.FirstFailing relation asked column) :
      Concerns target relation (.condition asked) (some column)
  | filter (read : Filter.condition? text = .ok asked)
      (first : target.FirstFailing relation asked column) :
      Concerns target relation (.filter text) (some column)

namespace Target

variable {target : Target} {relation : Relation}

/-! ## Quiet answers and rejections -/

/-- Whether an answer leaves no trace, and is not that a reference is rejected. -/
def Quiet (answer : Logged Value.Indescribable Fragment) : Prop :=
  ∃ fragment, answer = pure fragment ∧
    ∀ reason, fragment = .invalid reason → ¬ reason.RejectsReference

theorem quiet_valid (sql : String) : Quiet (pure (.valid sql)) := ⟨_, rfl, nofun⟩

theorem quiet_invalid {reason : Reason} (other : ¬ reason.RejectsReference) :
    Quiet (pure (.invalid reason)) := by
  refine ⟨_, rfl, fun _ same => ?_⟩
  cases same
  exact other

theorem datasetVerdict_rejects {reason : Reason}
    (invalid : target.datasetVerdict relation = .invalid reason) : reason.RejectsReference := by
  unfold datasetVerdict at invalid
  split at invalid
  · cases invalid
    trivial
  · obtain ⟨quote, rfl⟩ := nameVerdict_reason invalid
    trivial

theorem columnVerdict_rejects {column : String} {reason : Reason}
    (invalid : target.columnVerdict relation column = .invalid reason) :
    reason.RejectsReference := by
  rcases columnVerdict_reason invalid with rfl | rfl | ⟨quote, rfl⟩ <;> trivial

theorem columnName_quiet_or_rejected (target : Target) (relation : Relation) (column : String) :
    (∃ sql, target.columnName relation column = pure (.valid sql)) ∨
      ∃ reason, reason.RejectsReference ∧
        target.columnName relation column = target.reject reason relation (some column) := by
  rw [columnName_eq_report]
  cases verdict : target.columnVerdict relation column with
  | valid sql => exact .inl ⟨sql, rfl⟩
  | invalid reason => exact .inr ⟨reason, columnVerdict_rejects verdict, rfl⟩

/-- A condition ends quietly, or its first comparison that fails names a column that is rejected. -/
theorem compile_quiet_or_rejected (target : Target) (relation : Relation) (condition : Condition) :
    Quiet (target.compile relation condition) ∨
      ∃ reason column, reason.RejectsReference ∧ target.FirstFailing relation condition column ∧
        target.compile relation condition = target.reject reason relation (some column) := by
  rcases exists_first_fault condition.checked with
    passes | ⟨before, part, after, outcome, split, earlier, fails⟩
  · obtain ⟨sql, valid⟩ := compile_eq_valid_of_passes passes
    rw [valid]
    exact .inl (quiet_valid sql)
  · have checks := compile_eq_check split earlier fun sql => by
      rw [check_of_fails fails]
      exact fails.not_valid sql
    rw [checks]
    cases fails with
    | @column column operator value unnamed =>
      right
      rw [check_of_unnamed unnamed]
      rcases columnName_quiet_or_rejected target relation column with
        ⟨sql, valid⟩ | ⟨reason, rejects, rejected⟩
      · exact absurd (congrArg Logged.outcome valid) (unnamed sql)
      · refine ⟨reason, column, rejects, ⟨before, operator, value, after, split, earlier, ?_⟩,
          rejected⟩
        rintro ⟨⟨name, named⟩, -⟩
        exact unnamed name named
    | null named orders =>
      rw [check_of_named named, Except.ok.inj (comparison_invalid named (.null named orders))]
      exact .inl (quiet_invalid id)
    | pattern named present noText =>
      rw [check_of_named named,
        Except.ok.inj (comparison_invalid named (.pattern named present noText))]
      exact .inl (quiet_invalid id)
    | operand => exact .inl (quiet_invalid id)

/-- Every question is answered quietly, or by the rejection of one reference. -/
theorem answer_quiet_or_rejected (target : Target) (relation : Relation) (question : Question) :
    Quiet (question.answer target relation) ∨
      ∃ reason column, reason.RejectsReference ∧ question.Concerns target relation column ∧
        question.answer target relation = target.reject reason relation column := by
  cases question with
  | datasetName =>
    dsimp only [Question.answer]
    rw [datasetName_eq_report]
    cases verdict : target.datasetVerdict relation with
    | valid sql => exact .inl (quiet_valid sql)
    | invalid reason =>
      exact .inr ⟨reason, none, datasetVerdict_rejects verdict, .datasetName, rfl⟩
  | columnName column =>
    rcases columnName_quiet_or_rejected target relation column with
      ⟨sql, valid⟩ | ⟨reason, rejects, rejected⟩
    · exact .inl ⟨_, valid, nofun⟩
    · exact .inr ⟨reason, column, rejects, .columnName, rejected⟩
  | condition condition =>
    rcases compile_quiet_or_rejected target relation condition with
      quiet | ⟨reason, column, rejects, first, rejected⟩
    · exact .inl quiet
    · exact .inr ⟨reason, column, rejects, .condition first, rejected⟩
  | filter text =>
    dsimp only [Question.answer]
    cases read : Filter.condition? text with
    | error fault =>
      rw [compileFilter_eq_of_unreadable read]
      exact .inl (quiet_invalid id)
    | ok condition =>
      rw [compileFilter_of_readable read]
      rcases compile_quiet_or_rejected target relation condition with
        quiet | ⟨reason, column, rejects, first, rejected⟩
      · exact .inl quiet
      · exact .inr ⟨reason, column, rejects, .filter read first, rejected⟩

/-! ## Records -/

/-- If the logger writes such calls, then one record is written. -/
theorem reject_of_writes {logger : Logger} (logged : target.logger = some logger)
    (writes : logger.level.admits .debug) (describable : ¬ relation.Textless) (reason : Reason)
    (column : Option String) :
    ∃ written, target.reject reason relation column = ⟨.ok (.invalid reason), [written]⟩ ∧
      written.Shows relation column reason := by
  obtain ⟨shown, described⟩ := Relation.exists_describe_iff.mpr describable
  rw [reject_of_described logged described, Logger.write, if_pos writes]
  refine ⟨_, rfl, rfl, ⟨shown, described, ?_⟩, ?_, ?_⟩
  all_goals cases column <;> rfl

end Target

/-- The records of one question.  It comes back, and at most one record is written, namely if a
reference is rejected, for the reason that is answered. -/
structure Question.NotedOnce (question : Question) (target : Target) (relation : Relation) :
    Prop where
  returns : ∃ fragment, (question.answer target relation).outcome = .ok fragment
  once : (question.answer target relation).records.length ≤ 1
  noted_iff : (question.answer target relation).records ≠ [] ↔
    ∃ reason, (question.answer target relation).outcome = .ok (.invalid reason) ∧
      reason.RejectsReference
  shows : ∀ written ∈ (question.answer target relation).records, ∃ reason column,
    (question.answer target relation).outcome = .ok (.invalid reason) ∧
      question.Concerns target relation column ∧ written.Shows relation column reason
  unnoted : ∀ sql, (question.answer target relation).outcome = .ok (.valid sql) →
    (question.answer target relation).records = []

/-- With a logger at level debug or trace, a question about a relation whose engine, name and
description are absent, null or texts is noted at most once: if and only if it is answered by the
rejection of a reference, and not for what a text or a condition is wrong in by itself.  The record
shows the reason of the answer and the column that was asked for, or the column of the first
comparison that fails; for the name of a dataset it shows none.  Nothing is written with a valid
answer. -/
theorem rejections_noted_once {target : Target} {logger : Logger}
    (logged : target.logger = some logger)
    (level : logger.level = .atLeast .debug ∨ logger.level = .atLeast .trace)
    {relation : Relation} (plain : relation.Plain) (question : Question) :
    question.NotedOnce target relation := by
  have writes : logger.level.admits .debug := by
    rcases level with same | same <;> rw [same] <;> rfl
  rcases target.answer_quiet_or_rejected relation question with
    ⟨fragment, quiet, other⟩ | ⟨reason, column, rejects, concerns, rejected⟩
  · have outcome : (question.answer target relation).outcome = .ok fragment := by
      rw [quiet]
      rfl
    have records : (question.answer target relation).records = [] := by
      rw [quiet]
      rfl
    refine ⟨⟨fragment, outcome⟩, by simp [records], ?_, by simp [records], fun _ _ => records⟩
    rw [records, outcome]
    refine ⟨fun noted => absurd rfl noted, ?_⟩
    rintro ⟨reason, invalid, rejects⟩
    exact absurd rejects (other reason (Except.ok.inj invalid))
  · obtain ⟨written, noted, shows⟩ :=
      Target.reject_of_writes logged writes plain.not_textless reason column
    rw [noted] at rejected
    have outcome : (question.answer target relation).outcome = .ok (.invalid reason) := by
      rw [rejected]
    have records : (question.answer target relation).records = [written] := by
      rw [rejected]
    refine ⟨⟨_, outcome⟩, by simp [records], ?_, ?_, ?_⟩
    · simpa [records] using ⟨reason, outcome, rejects⟩
    · intro other member
      obtain rfl := List.mem_singleton.mp (records ▸ member)
      exact ⟨reason, column, outcome, concerns, shows⟩
    · intro sql valid
      cases outcome.symm.trans valid

/-- A value that names no engine is noted with the column that was asked for, a column that is
missing is noted once although null is ordered too, and a test for null that is negated is not
noted at all. -/
theorem missing_column_is_noted_once :
    (∀ written ∈ ((Question.columnName "b").answer
          { logger := some { level := .atLeast .trace } }
          (.foreign (.record [("kind", .text "dataset"), ("engine", .null)]) none)).records,
        written.member? "column" = some (.text "b")) ∧
      (∃ written ∈ ((Question.condition (.junction .and (.negation (.comparison "a" .equal .null))
            (.comparison "b" .greater .null))).answer
          { logger := some { level := .atLeast .debug } }
          (.ofColumns "bigquery" "t" ["a"])).records,
        written.member? "reason" = some (.text "Column b is not present in dataset")) ∧
      ((Question.condition (.negation (.comparison "a" .equal .null))).answer
          { logger := some { level := .atLeast .debug } }
          (.ofColumns "bigquery" "t" ["a"])).records = [] := by
  have plain : Relation.Plain (.foreign (.record [("kind", .text "dataset"), ("engine", .null)])
      none) := by
    intro name listed member found
    simp only [List.mem_cons, List.not_mem_nil, or_false] at listed
    rcases listed with rfl | rfl | rfl <;> cases found
    exact .inl rfl
  have missing := @rejections_noted_once { logger := some { level := .atLeast .debug } } _ rfl
    (.inl rfl) (.ofColumns "bigquery" "t" ["a"]) trivial (.condition (.junction .and
      (.negation (.comparison "a" .equal .null)) (.comparison "b" .greater .null)))
  refine ⟨?_, ?_, ?_⟩
  · intro written member
    obtain ⟨reason, column, -, concerns, shows⟩ := (@rejections_noted_once
      { logger := some { level := .atLeast .trace } } _ rfl (.inr rfl) _ plain
      (.columnName "b")).shows written member
    cases concerns
    exact shows.column
  · have ended : ((Question.condition (.junction .and (.negation (.comparison "a" .equal .null))
        (.comparison "b" .greater .null))).answer { logger := some { level := .atLeast .debug } }
        (.ofColumns "bigquery" "t" ["a"])).outcome = .ok (.invalid (.missingColumn "b")) := rfl
    obtain ⟨written, member⟩ := List.exists_mem_of_ne_nil _
      (missing.noted_iff.mpr ⟨_, ended, trivial⟩)
    obtain ⟨reason, column, invalid, -, shows⟩ := missing.shows written member
    cases ended.symm.trans invalid
    exact ⟨written, member, shows.reason⟩
  · exact (@rejections_noted_once { logger := some { level := .atLeast .debug } } _ rfl
      (.inl rfl) (.ofColumns "bigquery" "t" ["a"]) trivial _).unnoted "`a` IS NOT NULL" rfl

end FilterPushdown
