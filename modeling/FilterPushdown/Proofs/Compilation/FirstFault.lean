import FilterPushdown.Compilation
import FilterPushdown.Proofs.Reference

/-!
When a condition has SQL text, and otherwise why not.  The parts of a condition that are checked
stand in one list, in the order in which they are checked, and each has faults of its own.  Main
statement: a condition has SQL text if every part passes its check, and otherwise it ends as the
first part that does not pass.
-/

namespace FilterPushdown

namespace Condition

/-- The comparisons and connectives of a condition in the order in which they are checked.  A
connective is checked between its operands; the second operand of a negation is not looked at. -/
def checked : Condition → List Condition
  | comparison column operator value => [comparison column operator value]
  | junction connective left right =>
    left.checked ++ junction connective left right :: right.checked
  | halfJunction connective left => left.checked ++ [halfJunction connective left]
  | negation operand => operand.checked
  | overfullNegation operand _ => operand.checked

/-- The first thing that is checked is always a comparison, so a column is looked up. -/
theorem checked_starts (condition : Condition) :
    ∃ column operator value rest,
      condition.checked = .comparison column operator value :: rest := by
  induction condition with
  | comparison column operator value => exact ⟨column, operator, value, [], rfl⟩
  | junction connective left right ih _ =>
    obtain ⟨column, operator, value, rest, same⟩ := ih
    exact ⟨column, operator, value, _, by rw [checked, same, List.cons_append]⟩
  | halfJunction connective left ih =>
    obtain ⟨column, operator, value, rest, same⟩ := ih
    exact ⟨column, operator, value, _, by rw [checked, same, List.cons_append]⟩
  | negation operand ih => exact ih
  | overfullNegation operand ignored ih _ => exact ih

end Condition

namespace Target

variable {target : Target} {relation : Relation}

/-! ## One step after another -/

/-- After a valid fragment its SQL text is gone on with. -/
theorem outcome_andThen_of_valid {first : Logged Value.Indescribable Fragment}
    {next : String → Logged Value.Indescribable Fragment} {sql : String}
    (ended : first.outcome = .ok (.valid sql)) :
    (first >>= fun fragment => andThen fragment next).outcome = (next sql).outcome := by
  change (Logged.bind first _).outcome = _
  rw [Logged.bind, ended]
  rfl

/-- Nothing is done, and nothing more is noted, after any other outcome. -/
theorem andThen_of_not_valid {first : Logged Value.Indescribable Fragment}
    {next : String → Logged Value.Indescribable Fragment}
    (stops : ∀ sql, first.outcome ≠ .ok (.valid sql)) :
    (first >>= fun fragment => andThen fragment next) = first := by
  obtain ⟨outcome, records⟩ := first
  change Logged.bind _ _ = _
  cases outcome with
  | error failure => rfl
  | ok fragment =>
    cases fragment with
    | valid sql => exact absurd rfl (stops sql)
    | invalid reason => simp [Logged.bind, andThen, pure, Logged.pure]

/-- A step after a fragment is valid only if the fragment is. -/
theorem outcome_andThen_eq_valid_iff {first : Logged Value.Indescribable Fragment}
    {next : String → Logged Value.Indescribable Fragment} {sql : String} :
    (first >>= fun fragment => andThen fragment next).outcome = .ok (.valid sql) ↔
      ∃ inner, first.outcome = .ok (.valid inner) ∧ (next inner).outcome = .ok (.valid sql) := by
  rw [Logged.outcome_bind_eq_ok_iff]
  constructor
  · rintro ⟨fragment, ended, later⟩
    cases fragment with
    | valid inner => exact ⟨inner, ended, later⟩
    | invalid reason => cases later
  · rintro ⟨inner, ended, later⟩
    exact ⟨.valid inner, ended, later⟩

/-! ## The check of one part -/

/-- Whether nothing is wrong with a part itself: its column has a name, null is compared by equality
only, and patterns are texts; a connective has its second operand. -/
def Passes (target : Target) (relation : Relation) : Condition → Prop
  | .comparison column operator value =>
    (∃ name, (target.columnName relation column).outcome = .ok (.valid name)) ∧
      (value = .null → operator = .equal) ∧
      (operator = .like → ∃ pattern, value = .text pattern)
  | .halfJunction _ _ => False
  | _ => True

/-- How a part ends that does not pass.  Of several faults the first one counts. -/
inductive Fails (target : Target) (relation : Relation) :
    Condition → Except Value.Indescribable Fragment → Prop where
  | column (unnamed : ∀ name, (target.columnName relation column).outcome ≠ .ok (.valid name)) :
      Fails target relation (.comparison column operator value)
        (target.columnName relation column).outcome
  | null (named : (target.columnName relation column).outcome = .ok (.valid name))
      (orders : operator ≠ .equal) :
      Fails target relation (.comparison column operator .null)
        (.ok (.invalid (.orderWithNull operator)))
  | pattern (named : (target.columnName relation column).outcome = .ok (.valid name))
      (present : value ≠ .null) (noText : ∀ pattern, value ≠ .text pattern) :
      Fails target relation (.comparison column .like value) (.ok (.invalid .patternNotText))
  | operand : Fails target relation (.halfJunction connective left)
      (.ok (.invalid (.missingOperand connective)))

/-- Every part passes its check or fails it in some way. -/
theorem passes_or_fails (target : Target) (relation : Relation) (part : Condition) :
    target.Passes relation part ∨ ∃ outcome, target.Fails relation part outcome := by
  cases part with
  | comparison column operator value =>
    by_cases named : ∃ name, (target.columnName relation column).outcome = .ok (.valid name)
    · by_cases null : value = .null
      · subst null
        by_cases equal : operator = .equal
        · exact .inl ⟨named, fun _ => equal, by simp [equal]⟩
        · obtain ⟨name, named⟩ := named
          exact .inr ⟨_, .null named equal⟩
      · by_cases pattern : operator = .like → ∃ pattern, value = .text pattern
        · exact .inl ⟨named, fun same => absurd same null, pattern⟩
        · obtain ⟨name, named⟩ := named
          simp only [Classical.not_imp, not_exists] at pattern
          obtain ⟨rfl, noText⟩ := pattern
          exact .inr ⟨_, .pattern named null noText⟩
    · simp only [not_exists] at named
      exact .inr ⟨_, .column named⟩
  | halfJunction connective left => exact .inr ⟨_, .operand⟩
  | junction connective left right => exact .inl trivial
  | negation operand => exact .inl trivial
  | overfullNegation operand ignored => exact .inl trivial

/-- A comparison of a named column that passes has SQL text. -/
theorem comparison_valid {column : String} {operator : Operator} {value : Literal}
    (passes : target.Passes relation (.comparison column operator value)) (name : String) :
    ∃ sql, target.comparison name operator value = .valid sql := by
  obtain ⟨-, null, pattern⟩ := passes
  unfold comparison
  split
  · exact ⟨_, rfl⟩
  · rename_i notEqual
    exact absurd (null rfl) notEqual
  · exact ⟨_, rfl⟩
  · rename_i _ noText
    obtain ⟨text, same⟩ := pattern rfl
    exact absurd same (noText text)
  · exact ⟨_, rfl⟩

/-- A comparison of a named column that fails is the invalid fragment that it fails with. -/
theorem comparison_invalid {column name : String} {operator : Operator} {value : Literal}
    {outcome : Except Value.Indescribable Fragment}
    (named : (target.columnName relation column).outcome = .ok (.valid name))
    (fails : target.Fails relation (.comparison column operator value) outcome) :
    .ok (target.comparison name operator value) = outcome := by
  cases fails with
  | column unnamed => exact absurd named (unnamed name)
  | null _ orders => cases operator <;> first | rfl | exact absurd rfl orders
  | pattern _ present noText =>
    cases value with
    | text pattern => exact absurd rfl (noText pattern)
    | null => exact absurd rfl present
    | number x => rfl
    | boolean b => rfl

/-- What the check of one part comes to, with what it notes. -/
def check (target : Target) (relation : Relation) :
    Condition → Logged Value.Indescribable Fragment
  | .comparison column operator value =>
    target.compile relation (.comparison column operator value)
  | .halfJunction connective _ => pure (.invalid (.missingOperand connective))
  | .junction _ _ _ | .negation _ | .overfullNegation _ _ => pure (.valid "")

theorem check_of_passes {part : Condition} (passes : target.Passes relation part) :
    ∃ sql, target.check relation part = pure (.valid sql) := by
  cases part with
  | comparison column operator value =>
    obtain ⟨name, named⟩ := passes.1
    obtain ⟨sql, same⟩ := comparison_valid passes name
    refine ⟨sql, ?_⟩
    rw [check, compile, columnName_of_valid named]
    exact congrArg pure same
  | halfJunction => exact passes.elim
  | junction | negation | overfullNegation => exact ⟨_, rfl⟩

/-- A column without a name ends the check, and nothing else is noted. -/
theorem check_of_unnamed {column : String} {operator : Operator} {value : Literal}
    (unnamed : ∀ name, (target.columnName relation column).outcome ≠ .ok (.valid name)) :
    target.check relation (.comparison column operator value) =
      target.columnName relation column := by
  rw [check, compile]
  exact andThen_of_not_valid unnamed

theorem check_of_named {column name : String} {operator : Operator} {value : Literal}
    (named : (target.columnName relation column).outcome = .ok (.valid name)) :
    target.check relation (.comparison column operator value) =
      pure (target.comparison name operator value) := by
  rw [check, compile, columnName_of_valid named]
  rfl

theorem check_of_fails {part : Condition} {outcome : Except Value.Indescribable Fragment}
    (fails : target.Fails relation part outcome) :
    (target.check relation part).outcome = outcome := by
  cases part with
  | comparison column operator value =>
    by_cases named : ∃ name, (target.columnName relation column).outcome = .ok (.valid name)
    · obtain ⟨name, named⟩ := named
      rw [check_of_named named]
      exact comparison_invalid named fails
    · simp only [not_exists] at named
      rw [check_of_unnamed named]
      cases fails with
      | column => rfl
      | null found | pattern found => exact absurd found (named _)
  | halfJunction =>
    cases fails
    rfl
  | junction | negation | overfullNegation => cases fails

/-! ## Whole conditions -/

/-- A negation of an operand with SQL text has SQL text: the column of a negated test for null is
looked up a second time, with the same outcome and again without a trace. -/
theorem negation_valid {operand : Condition} {inner : String}
    (valid : target.compile relation operand = pure (.valid inner)) :
    ∃ sql, target.negation relation operand inner = pure (.valid sql) := by
  unfold negation
  split
  · have ended := congrArg Logged.outcome valid
    rw [compile] at ended
    obtain ⟨name, named, -⟩ := outcome_andThen_eq_valid_iff.mp ended
    rw [columnName_of_valid named]
    exact ⟨_, rfl⟩
  · exact ⟨_, rfl⟩

/-- If every part passes its check, then the condition has SQL text, and nothing is noted. -/
theorem compile_eq_valid_of_passes {condition : Condition}
    (passes : ∀ part ∈ condition.checked, target.Passes relation part) :
    ∃ sql, target.compile relation condition = pure (.valid sql) := by
  induction condition with
  | comparison column operator value => exact check_of_passes (passes _ List.mem_cons_self)
  | junction connective left right ihLeft ihRight =>
    simp only [Condition.checked, List.mem_append, List.mem_cons] at passes
    obtain ⟨leftSql, leftValid⟩ := ihLeft fun part member => passes part (.inl member)
    obtain ⟨rightSql, rightValid⟩ := ihRight fun part member => passes part (.inr (.inr member))
    rw [compile, leftValid, rightValid]
    exact ⟨_, rfl⟩
  | halfJunction connective left ih =>
    exact (passes (.halfJunction connective left) (by simp [Condition.checked])).elim
  | negation operand ih =>
    obtain ⟨inner, valid⟩ := ih passes
    rw [compile, valid]
    exact negation_valid valid
  | overfullNegation operand ignored ih _ =>
    obtain ⟨inner, valid⟩ := ih passes
    rw [compile, valid]
    exact negation_valid valid

theorem compile_of_passes {condition : Condition}
    (passes : ∀ part ∈ condition.checked, target.Passes relation part) :
    ∃ sql, (target.compile relation condition).outcome = .ok (.valid sql) := by
  obtain ⟨sql, valid⟩ := compile_eq_valid_of_passes passes
  exact ⟨sql, congrArg Logged.outcome valid⟩

theorem Fails.not_valid {part : Condition} {outcome : Except Value.Indescribable Fragment}
    (fails : target.Fails relation part outcome) (sql : String) : outcome ≠ .ok (.valid sql) := by
  cases fails with
  | column unnamed => exact unnamed sql
  | null | pattern | operand => simp

/-- A member of two lists together stands in the first one, or the first one stands before it. -/
private theorem append_split {first second before after : List Condition} {part : Condition}
    (split : first ++ second = before ++ part :: after) :
    (∃ rest, first = before ++ part :: rest) ∨
      ∃ more, before = first ++ more ∧ second = more ++ part :: after := by
  rcases List.append_eq_append_iff.mp split with later | ⟨rest, same, tail⟩
  · exact .inr later
  · cases rest with
    | nil => exact .inr ⟨[], by simpa using same.symm, tail.symm⟩
    | cons c rest =>
      obtain ⟨rfl, -⟩ := List.cons.inj tail
      exact .inl ⟨rest, same⟩

private theorem eq_of_singleton_split {first part : Condition} {before after : List Condition}
    (split : [first] = before ++ part :: after) : part = first := by
  have member : part ∈ [first] := by simp [split]
  exact List.mem_singleton.mp member

/-- A condition comes to what the check of its first part comes to that does not pass. -/
theorem compile_eq_check {condition part : Condition} {before after : List Condition}
    (split : condition.checked = before ++ part :: after)
    (passes : ∀ earlier ∈ before, target.Passes relation earlier)
    (stops : ∀ sql, (target.check relation part).outcome ≠ .ok (.valid sql)) :
    target.compile relation condition = target.check relation part := by
  induction condition generalizing before after with
  | comparison column operator value =>
    obtain rfl := eq_of_singleton_split split
    rfl
  | junction connective left right ihLeft ihRight =>
    rw [compile]
    rcases append_split split with ⟨rest, within⟩ | ⟨more, rfl, within⟩
    · rw [ihLeft within passes]
      exact andThen_of_not_valid stops
    · obtain ⟨leftSql, valid⟩ := compile_eq_valid_of_passes fun earlier member =>
        passes earlier (List.mem_append_left more member)
      rw [valid]
      -- The connective has its second operand, so what fails comes after it.
      rcases List.cons_eq_append_iff.mp within with ⟨-, same⟩ | ⟨more, rfl, later⟩
      · obtain ⟨rfl, -⟩ := List.cons.inj same
        exact absurd rfl (stops "")
      · rw [ihRight later fun earlier member => passes earlier (by simp [member])]
        exact andThen_of_not_valid stops
  | halfJunction connective left ih =>
    rw [compile]
    rcases append_split split with ⟨rest, within⟩ | ⟨more, rfl, within⟩
    · rw [ih within passes]
      exact andThen_of_not_valid stops
    · obtain ⟨leftSql, valid⟩ := compile_eq_valid_of_passes fun earlier member =>
        passes earlier (List.mem_append_left more member)
      obtain rfl := eq_of_singleton_split within
      rw [valid]
      rfl
  | negation operand ih =>
    rw [compile, ih split passes]
    exact andThen_of_not_valid stops
  | overfullNegation operand ignored ih _ =>
    rw [compile, ih split passes]
    exact andThen_of_not_valid stops

/-- A condition ends as the first of its parts that does not pass. -/
theorem compile_of_fails {condition part : Condition} {before after : List Condition}
    {outcome : Except Value.Indescribable Fragment}
    (split : condition.checked = before ++ part :: after)
    (passes : ∀ earlier ∈ before, target.Passes relation earlier)
    (fails : target.Fails relation part outcome) :
    (target.compile relation condition).outcome = outcome := by
  have ended := check_of_fails fails
  rw [compile_eq_check split passes, ended]
  rw [ended]
  exact fails.not_valid

/-- Among parts that do not all pass there is a first one that fails. -/
theorem exists_first_fault {target : Target} {relation : Relation} (parts : List Condition) :
    (∀ part ∈ parts, target.Passes relation part) ∨
      ∃ before part after outcome, parts = before ++ part :: after ∧
        (∀ earlier ∈ before, target.Passes relation earlier) ∧
        target.Fails relation part outcome := by
  induction parts with
  | nil => exact .inl nofun
  | cons first parts ih =>
    rcases passes_or_fails target relation first with own | ⟨outcome, fails⟩
    · rcases ih with later | ⟨before, part, after, outcome, rfl, earlier, fails⟩
      · exact .inl (by simpa using ⟨own, later⟩)
      · exact .inr ⟨first :: before, part, after, outcome, rfl, by simpa using ⟨own, earlier⟩,
          fails⟩
    · exact .inr ⟨[], first, parts, outcome, rfl, nofun, fails⟩

/-- A condition has SQL text exactly if every part passes its check. -/
theorem compile_valid_iff {condition : Condition} :
    (∃ sql, (target.compile relation condition).outcome = .ok (.valid sql)) ↔
      ∀ part ∈ condition.checked, target.Passes relation part := by
  refine ⟨?_, compile_of_passes⟩
  rintro ⟨sql, valid⟩
  rcases exists_first_fault condition.checked with
    passes | ⟨before, part, after, outcome, split, earlier, fails⟩
  · exact passes
  · exact absurd ((compile_of_fails split earlier fails).symm.trans valid) (fails.not_valid sql)

/-- If rejections come back, then every condition ends as a fragment. -/
theorem compile_of_answers (answers : target.Answers relation) (condition : Condition) :
    ∃ fragment, (target.compile relation condition).outcome = .ok fragment := by
  rcases exists_first_fault condition.checked with
    passes | ⟨before, part, after, outcome, split, earlier, fails⟩
  · obtain ⟨sql, valid⟩ := compile_of_passes passes
    exact ⟨_, valid⟩
  · rw [compile_of_fails split earlier fails]
    cases fails with
    | @column column => exact ⟨_, columnName_of_answers answers column⟩
    | null | pattern | operand => exact ⟨_, rfl⟩

/-- On a relation that is not resolved the first thing that is checked fails already. -/
theorem compile_of_unresolved (unresolved : relation.resolve? target.dialect.engine = none)
    (answers : target.Answers relation) (condition : Condition) :
    (target.compile relation condition).outcome = .ok (.invalid .unsupportedRelation) := by
  obtain ⟨column, operator, value, rest, split⟩ := condition.checked_starts
  have rejected := columnName_of_answers answers column
  rw [columnVerdict_of_unresolved unresolved] at rejected
  have unnamed : ∀ name, (target.columnName relation column).outcome ≠ .ok (.valid name) := by
    simp [rejected]
  rw [← rejected]
  exact @compile_of_fails target relation condition _ [] rest _ split nofun (.column unnamed)

/-- A condition has SQL text if and only if every comparison that is checked names a column that
the relation offers, compares null by equality only and only texts as patterns, and every
connective that is checked has its second operand.  Otherwise one of these parts is the first that
fails, in the order of evaluation, and the condition ends as that part does: with what the look-up
of the column came to, with null under another operator, with a pattern that is no text, or with the
missing operand.  It comes back
as a fragment whenever rejections do, and on a relation that is not resolved every condition is
rejected for that. -/
theorem compile_ends_as_first_fault (target : Target) (relation : Relation)
    (condition : Condition) :
    ((∃ sql, (target.compile relation condition).outcome = .ok (.valid sql)) ↔
        ∀ part ∈ condition.checked, target.Passes relation part) ∧
      (∀ before part after outcome, condition.checked = before ++ part :: after →
        (∀ earlier ∈ before, target.Passes relation earlier) →
        target.Fails relation part outcome →
        (target.compile relation condition).outcome = outcome) ∧
      ((∀ part ∈ condition.checked, target.Passes relation part) ∨
        ∃ before part after outcome, condition.checked = before ++ part :: after ∧
          (∀ earlier ∈ before, target.Passes relation earlier) ∧
          target.Fails relation part outcome ∧
          (target.compile relation condition).outcome = outcome) ∧
      (target.Answers relation →
        ∃ fragment, (target.compile relation condition).outcome = .ok fragment) ∧
      (relation.resolve? target.dialect.engine = none → target.Answers relation →
        ∃ reason, (target.compile relation condition).outcome = .ok (.invalid reason) ∧
          reason.message = "relation is of unsupported kind") := by
  refine ⟨compile_valid_iff, fun _ _ _ _ => compile_of_fails, ?_,
    fun answers => compile_of_answers answers condition,
    fun unresolved answers => ⟨_, compile_of_unresolved unresolved answers condition, rfl⟩⟩
  rcases exists_first_fault condition.checked with
    passes | ⟨before, part, after, outcome, split, earlier, fails⟩
  · exact .inl passes
  · exact .inr ⟨before, part, after, outcome, split, earlier, fails,
      compile_of_fails split earlier fails⟩

/-- A fault of the left side comes before the missing operand, what a negation carries besides its
operand is no fault, and a derived relation is rejected whatever is asked of it. -/
theorem null_fault_comes_before_missing_operand :
    (Target.compile {} (.ofColumns "bigquery" "orders" ["id"])
        (.halfJunction .and (.junction .or (.comparison "id" .equal .null)
          (.comparison "id" .greater .null)))).outcome =
        .ok (.invalid (.orderWithNull .greater)) ∧
      (∃ sql, (Target.compile {} (.ofColumns "bigquery" "orders" ["id"])
        (.overfullNegation (.comparison "id" .equal .null)
          (.halfJunction .and (.comparison "id" .like .null)))).outcome = .ok (.valid sql)) ∧
      ∃ reason, (Target.compile {} (.derived none)
        (.halfJunction .and (.comparison "id" .like .null))).outcome = .ok (.invalid reason) ∧
          reason.message = "relation is of unsupported kind" := by
  have named : (Target.columnName {} (.ofColumns "bigquery" "orders" ["id"]) "id").outcome =
      .ok (.valid "`id`") := rfl
  have test : Target.Passes {} (.ofColumns "bigquery" "orders" ["id"])
      (.comparison "id" .equal .null) := ⟨⟨_, named⟩, by simp, by simp⟩
  refine ⟨?_, ?_, ?_⟩
  · have ends := (compile_ends_as_first_fault {} (.ofColumns "bigquery" "orders" ["id"])
      (.halfJunction .and (.junction .or (.comparison "id" .equal .null)
        (.comparison "id" .greater .null)))).2.1
    refine ends [.comparison "id" .equal .null, .junction .or (.comparison "id" .equal .null)
      (.comparison "id" .greater .null)] _ _ _ rfl ?_ (.null named (by decide))
    simpa using ⟨test, trivial⟩
  · apply (compile_ends_as_first_fault {} _ _).1.mpr
    simpa [Condition.checked] using test
  · exact (compile_ends_as_first_fault {} (.derived none) _).2.2.2.2 rfl (.inl rfl)

end Target

end FilterPushdown
