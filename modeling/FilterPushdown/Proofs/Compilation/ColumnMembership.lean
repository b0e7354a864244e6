import FilterPushdown.Proofs.Compilation.FilterErrors

/-!
What a condition sees of a relation.  Columns are looked up one by one, and a look-up in a dataset
only asks whether the column is exposed.  Main statement: two relations that expose the same of the
columns that occur in a condition give it the same SQL text or the same error, and a condition with
SQL text keeps it on every relation that exposes more.
-/

namespace FilterPushdown

namespace Condition

/-- The columns that a condition looks up.  The second operand of a negation is not looked at. -/
def columns : Condition → List String
  | comparison column _ _ => [column]
  | junction _ left right => left.columns ++ right.columns
  | halfJunction _ left => left.columns
  | negation operand => operand.columns
  | overfullNegation operand _ => operand.columns

/-- They are those of the comparisons that are checked. -/
theorem exists_checked_of_mem_columns {condition : Condition} {column : String}
    (member : column ∈ condition.columns) :
    ∃ operator value, .comparison column operator value ∈ condition.checked := by
  induction condition with
  | comparison name operator value =>
    obtain rfl := List.mem_singleton.mp member
    exact ⟨operator, value, List.mem_singleton_self _⟩
  | junction connective left right ihLeft ihRight =>
    rcases List.mem_append.mp member with inLeft | inRight
    · obtain ⟨operator, value, found⟩ := ihLeft inLeft
      exact ⟨operator, value, List.mem_append_left _ found⟩
    · obtain ⟨operator, value, found⟩ := ihRight inRight
      exact ⟨operator, value, List.mem_append_right _ (List.mem_cons_of_mem _ found)⟩
  | halfJunction connective left ih =>
    obtain ⟨operator, value, found⟩ := ih member
    exact ⟨operator, value, List.mem_append_left _ found⟩
  | negation operand ih => exact ih member
  | overfullNegation operand ignored ih _ => exact ih member

end Condition

namespace Target

/-! ## Conditions over two look-ups -/

theorem outcome_andThen_congr {first first' : Logged Value.Indescribable Fragment}
    {next next' : String → Logged Value.Indescribable Fragment}
    (same : first.outcome = first'.outcome)
    (later : ∀ sql, (next sql).outcome = (next' sql).outcome) :
    (first >>= fun fragment => andThen fragment next).outcome =
      (first' >>= fun fragment => andThen fragment next').outcome := by
  by_cases valid : ∃ sql, first.outcome = .ok (.valid sql)
  · obtain ⟨sql, valid⟩ := valid
    rw [outcome_andThen_of_valid valid, outcome_andThen_of_valid (same ▸ valid), later]
  · simp only [not_exists] at valid
    rw [andThen_of_not_valid valid, andThen_of_not_valid (same ▸ valid), same]

/-- What comes of a condition is settled by the dialect and by what comes of its columns. -/
theorem compile_congr {target target' : Target} (dialect : target.dialect = target'.dialect)
    {relation relation' : Relation} {condition : Condition}
    (agree : ∀ column ∈ condition.columns,
      (target.columnName relation column).outcome =
        (target'.columnName relation' column).outcome) :
    (target.compile relation condition).outcome =
      (target'.compile relation' condition).outcome := by
  -- The column of a negated test for null is looked up once more.
  have negated {operand : Condition} (agree : ∀ column ∈ operand.columns,
      (target.columnName relation column).outcome =
        (target'.columnName relation' column).outcome) (sql : String) :
      (target.negation relation operand sql).outcome =
        (target'.negation relation' operand sql).outcome := by
    unfold negation
    split
    · exact outcome_andThen_congr (agree _ List.mem_cons_self) fun _ => rfl
    · rfl
  induction condition with
  | comparison column operator value =>
    rw [compile, compile]
    refine outcome_andThen_congr (agree column List.mem_cons_self) fun name => ?_
    simp only [comparison, dialect]
  | junction connective left right ihLeft ihRight =>
    simp only [Condition.columns, List.mem_append] at agree
    rw [compile, compile]
    refine outcome_andThen_congr (ihLeft fun column member => agree column (.inl member))
      fun leftSql => ?_
    exact outcome_andThen_congr (ihRight fun column member => agree column (.inr member))
      fun rightSql => rfl
  | halfJunction connective left ih =>
    rw [compile, compile]
    exact outcome_andThen_congr (ih agree) fun _ => rfl
  | negation operand ih =>
    rw [compile, compile]
    exact outcome_andThen_congr (ih agree) (negated agree)
  | overfullNegation operand ignored ih _ =>
    rw [compile, compile]
    exact outcome_andThen_congr (ih agree) (negated agree)

/-! ## Relations that are resolved -/

variable {target : Target} {relation other : Relation} {dataset more : Dataset}

/-- A relation that is resolved can be described, so its rejections come back. -/
theorem answers_of_resolved (resolved : relation.resolve? target.dialect.engine = some dataset) :
    target.Answers relation := by
  right
  cases relation with
  | dataset table => exact ⟨_, rfl⟩
  | derived description => exact ⟨_, rfl⟩
  | foreign value columns =>
    obtain ⟨kind, engine, identifier, -, -⟩ := Relation.resolve?_foreign_eq_some_iff.mp resolved
    simp only [Relation.describe, kind, engine, identifier]
    exact ⟨_, rfl⟩

/-- A look-up in a resolved relation only asks whether the column is exposed. -/
theorem columnName_congr (resolved : relation.resolve? target.dialect.engine = some dataset)
    (also : other.resolve? target.dialect.engine = some more) {column : String}
    (same : column ∈ dataset.columns ↔ column ∈ more.columns) :
    (target.columnName relation column).outcome = (target.columnName other column).outcome := by
  rw [columnName_of_answers (answers_of_resolved resolved),
    columnName_of_answers (answers_of_resolved also)]
  simp only [columnVerdict, resolved, also, same]

/-- Every column of a valid condition has a name. -/
theorem named_of_valid {condition : Condition} {sql : String}
    (valid : (target.compile relation condition).outcome = .ok (.valid sql)) {column : String}
    (member : column ∈ condition.columns) :
    ∃ name, (target.columnName relation column).outcome = .ok (.valid name) := by
  obtain ⟨operator, value, checked⟩ := Condition.exists_checked_of_mem_columns member
  exact (compile_valid_iff.mp ⟨sql, valid⟩ _ checked).1

theorem exposed_of_valid (resolved : relation.resolve? target.dialect.engine = some dataset)
    {condition : Condition} {sql : String}
    (valid : (target.compile relation condition).outcome = .ok (.valid sql)) {column : String}
    (member : column ∈ condition.columns) : column ∈ dataset.columns := by
  obtain ⟨name, named⟩ := named_of_valid valid member
  obtain ⟨found, same, exposed, -⟩ := columnName_eq_valid_iff.mp named
  rw [resolved] at same
  cases same
  exact exposed

/-- Whether two relations that are resolved as these datasets expose the same of the columns that a
condition looks up. -/
def ExposeSame (dataset more : Dataset) (condition : Condition) : Prop :=
  ∀ column ∈ condition.columns, column ∈ dataset.columns ↔ column ∈ more.columns

/-- Conditions and filter texts see a resolved relation only through its columns.  Both relations
give a fragment, and the same one, as far as they expose the same of the columns that are looked up,
whatever they are called and whatever else they expose.  What is valid on one relation stays valid,
with the same SQL text, on every relation that exposes all of its columns. -/
theorem compile_sees_only_membership
    (resolved : relation.resolve? target.dialect.engine = some dataset)
    (also : other.resolve? target.dialect.engine = some more) :
    ((∀ condition, ExposeSame dataset more condition →
        ∃ fragment, (target.compile relation condition).outcome = .ok fragment ∧
          (target.compile other condition).outcome = .ok fragment) ∧
      ∀ filter, (∀ condition, Filter.condition? filter = .ok condition →
          ExposeSame dataset more condition) →
        ∃ fragment, (target.compileFilter relation filter).outcome = .ok fragment ∧
          (target.compileFilter other filter).outcome = .ok fragment) ∧
    ((∀ column ∈ dataset.columns, column ∈ more.columns) →
      (∀ condition sql, (target.compile relation condition).outcome = .ok (.valid sql) →
          (target.compile other condition).outcome = .ok (.valid sql)) ∧
        ∀ filter sql, (target.compileFilter relation filter).outcome = .ok (.valid sql) →
          (target.compileFilter other filter).outcome = .ok (.valid sql)) := by
  have conditions : ∀ condition, ExposeSame dataset more condition →
      (target.compile relation condition).outcome = (target.compile other condition).outcome :=
    fun condition same => compile_congr rfl fun column member =>
      columnName_congr resolved also (same column member)
  have filters : ∀ filter, (∀ condition, Filter.condition? filter = .ok condition →
      ExposeSame dataset more condition) →
      (target.compileFilter relation filter).outcome =
        (target.compileFilter other filter).outcome := by
    intro filter same
    cases read : Filter.condition? filter with
    | error fault => rw [compileFilter_of_unreadable read, compileFilter_of_unreadable read]
    | ok condition =>
      rw [compileFilter_of_readable read, compileFilter_of_readable read]
      exact conditions condition (same condition read)
  have grows (exposes : ∀ column ∈ dataset.columns, column ∈ more.columns) {condition : Condition}
      {sql : String} (valid : (target.compile relation condition).outcome = .ok (.valid sql)) :
      ExposeSame dataset more condition := fun column member =>
    have exposed := exposed_of_valid resolved valid member
    ⟨fun _ => exposes column exposed, fun _ => exposed⟩
  refine ⟨⟨?_, ?_⟩, fun exposes => ⟨?_, ?_⟩⟩
  · intro condition same
    obtain ⟨fragment, ended⟩ := compile_of_answers (answers_of_resolved resolved) condition
    exact ⟨fragment, ended, (conditions condition same).symm.trans ended⟩
  · intro filter same
    obtain ⟨fragment, ended⟩ := compileFilter_of_answers (answers_of_resolved resolved)
    exact ⟨fragment, ended, (filters filter same).symm.trans ended⟩
  · intro condition sql valid
    exact (conditions condition (grows exposes valid)).symm.trans valid
  · intro filter sql valid
    refine (filters filter fun condition read => ?_).symm.trans valid
    rw [compileFilter_of_readable read] at valid
    exact grows exposes valid

/-- A test for null goes over from a dataset to a value that counts as one and exposes more, and a
column that both lack is an error of both. -/
theorem archive_compiles_like_orders :
    (∃ fragment, (Target.compile {} (.ofColumns "bigquery" "orders" ["id", "status"])
        (.comparison "gone" .like .null)).outcome = .ok fragment ∧
      (Target.compile {} (.foreign (.record [("kind", .text "dataset"),
          ("engine", .text "bigquery"), ("datasetIdentifier", .text "archive")])
        (some (.ofList ["status", "extra", "id"]))) (.comparison "gone" .like .null)).outcome =
          .ok fragment) ∧
      (Target.compile {} (.foreign (.record [("kind", .text "dataset"),
          ("engine", .text "bigquery"), ("datasetIdentifier", .text "archive")])
        (some (.ofList ["status", "extra", "id"])))
        (.negation (.comparison "status" .equal .null))).outcome =
          .ok (.valid "`status` IS NOT NULL") := by
  have resolved : (Relation.ofColumns "bigquery" "orders" ["id", "status"]).resolve? "bigquery" =
      some ⟨"bigquery", "orders", .ofList ["id", "status"]⟩ := rfl
  have also : (Relation.foreign (.record [("kind", .text "dataset"),
      ("engine", .text "bigquery"), ("datasetIdentifier", .text "archive")])
      (some (.ofList ["status", "extra", "id"]))).resolve? "bigquery" =
      some ⟨"bigquery", "archive", .ofList ["status", "extra", "id"]⟩ := rfl
  obtain ⟨⟨alike, -⟩, grows⟩ := @compile_sees_only_membership {} _ _ _ _ resolved also
  refine ⟨alike _ ?_, (grows ?_).1 _ _ rfl⟩
  · intro column member
    obtain rfl := List.mem_singleton.mp member
    decide
  · intro column exposed
    simp only [ColumnSet.mem_ofList, List.mem_cons, List.not_mem_nil, or_false] at exposed ⊢
    rcases exposed with rfl | rfl <;> simp

end Target

end FilterPushdown
