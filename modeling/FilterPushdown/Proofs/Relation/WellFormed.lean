import FilterPushdown.Proofs.Reference

/-!
Which references are accepted.  Anything can be handed over as a relation, and what counts is what
stands in its members: a kind, an engine, a name, and a set of columns.  Main statement: a reference
is accepted exactly if the relation has all four and the name can stand in quotes, and otherwise the
error is the first of three that applies.
-/

namespace FilterPushdown

namespace Relation

/-- The member under a name of what is handed over as a relation.  The columns, which are no value,
are left out. -/
def member? (relation : Relation) (name : String) : Option Value :=
  match relation with
  | dataset table =>
    [("kind", .text "dataset"), ("engine", .text table.engine),
      ("datasetIdentifier", .text table.identifier)].lookup name
  | derived description =>
    (("kind", .text "opaque") ::
      description.toList.map fun text => ("description", Value.text text)).lookup name
  | foreign value _ => value.member? name

/-- Whether what is handed over is a dataset of an engine: it says so, it is of that very engine, its
name is a text, and it comes with a column set. -/
structure IsDatasetOf (relation : Relation) (engine identifier : String) (columns : ColumnSet) :
    Prop where
  kind : relation.member? "kind" = some (.text "dataset")
  engine : relation.member? "engine" = some (.text engine)
  identifier : relation.member? "datasetIdentifier" = some (.text identifier)
  columns : relation.columns? = some columns

/-- A relation is resolved as the dataset that it is. -/
theorem resolve?_eq_some_iff {relation : Relation} {engine : String} {table : Dataset} :
    relation.resolve? engine = some table ↔
      relation.IsDatasetOf engine table.identifier table.columns ∧ table.engine = engine := by
  cases relation with
  | dataset own =>
    rw [resolve?]
    constructor
    · intro resolved
      split at resolved
      · rename_i same
        cases resolved
        subst same
        exact ⟨⟨rfl, rfl, rfl, rfl⟩, rfl⟩
      · cases resolved
    · rintro ⟨⟨-, isEngine, isIdentifier, isColumns⟩, same⟩
      obtain ⟨engine, identifier, columns⟩ := table
      cases isEngine
      cases isIdentifier
      cases isColumns
      cases same
      exact if_pos rfl
  | derived description => exact ⟨nofun, fun known => nomatch known.1.columns⟩
  | foreign value columns =>
    rw [resolve?_foreign_eq_some_iff]
    constructor
    · rintro ⟨isKind, isEngine, isIdentifier, isColumns, same⟩
      exact ⟨⟨isKind, isEngine, isIdentifier, isColumns⟩, same⟩
    · rintro ⟨⟨isKind, isEngine, isIdentifier, isColumns⟩, same⟩
      exact ⟨isKind, isEngine, isIdentifier, isColumns, same⟩

theorem IsDatasetOf.resolve? {relation : Relation} {engine identifier : String}
    {columns : ColumnSet} (known : relation.IsDatasetOf engine identifier columns) :
    relation.resolve? engine = some ⟨engine, identifier, columns⟩ :=
  resolve?_eq_some_iff.mpr ⟨known, rfl⟩

/-- What is no dataset of an engine is not resolved. -/
theorem resolve?_eq_none_iff {relation : Relation} {engine : String} :
    relation.resolve? engine = none ↔
      ∀ identifier columns, ¬ relation.IsDatasetOf engine identifier columns := by
  constructor
  · intro unresolved identifier columns known
    cases unresolved.symm.trans known.resolve?
  · intro unknown
    cases resolved : relation.resolve? engine with
    | none => rfl
    | some table => exact absurd (resolve?_eq_some_iff.mp resolved).1 (unknown _ _)

end Relation

/-- What is wrong with a reference to a relation, or to one of its columns, in words.  Of several
faults the first one counts. -/
inductive ReferenceFault (dialect : Dialect) (policy : QuotePolicy) (relation : Relation) :
    Option String → String → Prop where
  | relation {asked : Option String}
      (unknown : ∀ identifier columns, ¬ relation.IsDatasetOf dialect.engine identifier columns) :
      ReferenceFault dialect policy relation asked "relation is of unsupported kind"
  | column {column identifier : String} {columns : ColumnSet}
      (known : relation.IsDatasetOf dialect.engine identifier columns) (absent : column ∉ columns) :
      ReferenceFault dialect policy relation (some column)
        ("Column " ++ column ++ " is not present in dataset")
  | quotedColumn {column identifier : String} {columns : ColumnSet}
      (known : relation.IsDatasetOf dialect.engine identifier columns)
      (present : column ∈ columns) (quoted : dialect.identifierQuote ∈ column.toList)
      (rejects : policy = .reject) :
      ReferenceFault dialect policy relation (some column)
        ("Identifier " ++ column ++ " contains the quote character " ++
          String.singleton dialect.identifierQuote)
  | quotedIdentifier {identifier : String} {columns : ColumnSet}
      (known : relation.IsDatasetOf dialect.engine identifier columns)
      (quoted : dialect.identifierQuote ∈ identifier.toList) (rejects : policy = .reject) :
      ReferenceFault dialect policy relation none
        ("Identifier " ++ identifier ++ " contains the quote character " ++
          String.singleton dialect.identifierQuote)

namespace Target

variable {target : Target} {relation : Relation}

/-- A dataset cannot be referred to for the first fault of the reference. -/
theorem datasetVerdict_invalid_iff {message : String} :
    (∃ reason, target.datasetVerdict relation = .invalid reason ∧ reason.message = message) ↔
      ReferenceFault target.dialect target.embeddedQuotes relation none message := by
  constructor
  · rintro ⟨reason, invalid, rfl⟩
    unfold datasetVerdict at invalid
    split at invalid
    next unresolved =>
      cases invalid
      exact .relation (Relation.resolve?_eq_none_iff.mp unresolved)
    next dataset resolved =>
      obtain ⟨quoted, rejects, rfl⟩ := nameVerdict_eq_invalid_iff.mp invalid
      exact .quotedIdentifier (Relation.resolve?_eq_some_iff.mp resolved).1 quoted rejects
  · intro fault
    unfold datasetVerdict
    cases fault with
    | relation unknown =>
      rw [Relation.resolve?_eq_none_iff.mpr unknown]
      exact ⟨_, rfl, rfl⟩
    | quotedIdentifier known quoted rejects =>
      rw [known.resolve?]
      exact ⟨_, nameVerdict_eq_invalid_iff.mpr ⟨quoted, rejects, rfl⟩, rfl⟩

/-- A column cannot be referred to for the first fault of the reference. -/
theorem columnVerdict_invalid_iff {column message : String} :
    (∃ reason, target.columnVerdict relation column = .invalid reason ∧
        reason.message = message) ↔
      ReferenceFault target.dialect target.embeddedQuotes relation (some column) message := by
  constructor
  · rintro ⟨reason, invalid, rfl⟩
    unfold columnVerdict at invalid
    split at invalid
    next unresolved =>
      cases invalid
      exact .relation (Relation.resolve?_eq_none_iff.mp unresolved)
    next dataset resolved =>
      have known := (Relation.resolve?_eq_some_iff.mp resolved).1
      split at invalid
      next exposed =>
        obtain ⟨quoted, rejects, rfl⟩ := nameVerdict_eq_invalid_iff.mp invalid
        exact .quotedColumn known exposed quoted rejects
      next absent =>
        cases invalid
        exact .column known absent
  · intro fault
    unfold columnVerdict
    cases fault with
    | relation unknown =>
      rw [Relation.resolve?_eq_none_iff.mpr unknown]
      exact ⟨_, rfl, rfl⟩
    | column known absent =>
      simp only [known.resolve?, if_neg absent]
      exact ⟨_, rfl, rfl⟩
    | quotedColumn known present quoted rejects =>
      simp only [known.resolve?, if_pos present]
      exact ⟨_, nameVerdict_eq_invalid_iff.mpr ⟨quoted, rejects, rfl⟩, rfl⟩

theorem admits_iff {identifier : String} :
    target.Admits identifier ↔
      target.dialect.identifierQuote ∉ identifier.toList ∨ target.embeddedQuotes = .escape :=
  Decidable.imp_iff_not_or

/-- A dataset can be referred to if it is well formed and the policy admits its name. -/
theorem exists_datasetName_iff :
    (∃ sql, (target.datasetName relation).outcome = .ok (.valid sql)) ↔
      ∃ identifier columns, relation.IsDatasetOf target.dialect.engine identifier columns ∧
        (target.dialect.identifierQuote ∉ identifier.toList ∨
          target.embeddedQuotes = .escape) := by
  simp only [datasetName_eq_valid_iff, admits_iff]
  constructor
  · rintro ⟨sql, dataset, resolved, admits, -⟩
    exact ⟨_, _, (Relation.resolve?_eq_some_iff.mp resolved).1, admits⟩
  · rintro ⟨identifier, columns, known, admits⟩
    exact ⟨_, _, known.resolve?, admits, rfl⟩

/-- A column can be referred to if the dataset is well formed and exposes it, and the policy admits
it. -/
theorem exists_columnName_iff {column : String} :
    (∃ sql, (target.columnName relation column).outcome = .ok (.valid sql)) ↔
      ∃ identifier columns, relation.IsDatasetOf target.dialect.engine identifier columns ∧
        column ∈ columns ∧
          (target.dialect.identifierQuote ∉ column.toList ∨ target.embeddedQuotes = .escape) := by
  simp only [columnName_eq_valid_iff, admits_iff]
  constructor
  · rintro ⟨sql, dataset, resolved, exposed, admits, -⟩
    exact ⟨_, _, (Relation.resolve?_eq_some_iff.mp resolved).1, exposed, admits⟩
  · rintro ⟨identifier, columns, known, exposed, admits⟩
    exact ⟨_, _, known.resolve?, exposed, admits, rfl⟩

end Target

/-- Without a logger a column of what is handed over is accepted if and only if that is a dataset of
the dialect's engine, its column set holds the column, and the column does not hold the quote or
quotes are escaped; the name of a dataset is accepted under the same conditions on the relation and
on the name.  Otherwise the answer is the first fault of the reference. -/
theorem references_accepted_iff_well_formed (dialect : Dialect) (policy : QuotePolicy)
    (relation : Relation) :
    (∀ column,
      (∃ fragment, (Target.columnName ⟨dialect, policy, none⟩ relation column).outcome =
        .ok fragment) ∧
      ((∃ sql, (Target.columnName ⟨dialect, policy, none⟩ relation column).outcome =
          .ok (.valid sql)) ↔
        ∃ identifier columns, relation.IsDatasetOf dialect.engine identifier columns ∧
          column ∈ columns ∧ (dialect.identifierQuote ∉ column.toList ∨ policy = .escape)) ∧
      ∀ message, (∃ reason,
          (Target.columnName ⟨dialect, policy, none⟩ relation column).outcome =
            .ok (.invalid reason) ∧ reason.message = message) ↔
        ReferenceFault dialect policy relation (some column) message) ∧
    (∃ fragment, (Target.datasetName ⟨dialect, policy, none⟩ relation).outcome = .ok fragment) ∧
    ((∃ sql, (Target.datasetName ⟨dialect, policy, none⟩ relation).outcome = .ok (.valid sql)) ↔
      ∃ identifier columns, relation.IsDatasetOf dialect.engine identifier columns ∧
        (dialect.identifierQuote ∉ identifier.toList ∨ policy = .escape)) ∧
    ∀ message, (∃ reason,
        (Target.datasetName ⟨dialect, policy, none⟩ relation).outcome = .ok (.invalid reason) ∧
          reason.message = message) ↔
      ReferenceFault dialect policy relation none message := by
  have silent : (Target.mk dialect policy none).Answers relation := .inl rfl
  refine ⟨fun column => ⟨⟨_, Target.columnName_of_answers silent column⟩, ?_, fun message => ?_⟩,
    ?_, ?_, fun message => ?_⟩
  · exact Target.exists_columnName_iff
  · simp only [Target.columnName_of_answers silent, Except.ok.injEq]
    exact Target.columnVerdict_invalid_iff
  · rw [Target.datasetName_eq_report]
    exact ⟨_, Target.report_of_answers silent ..⟩
  · exact Target.exists_datasetName_iff
  · simp only [Target.datasetName_eq_report, Target.report_of_answers silent, Except.ok.injEq]
    exact Target.datasetVerdict_invalid_iff

end FilterPushdown
