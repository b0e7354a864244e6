import FilterPushdown.Target

/-!
When a reference has SQL text, and which; and why it is rejected otherwise.  A name without the
identifier quote is written the same under either policy, so a valid reference is always the
escaped name between quotes; the policy decides only whether there is one.
-/

namespace FilterPushdown

namespace Logged

variable {ε α β : Type}

@[simp] theorem outcome_pure (a : α) : (pure a : Logged ε α).outcome = .ok a := rfl

@[simp] theorem outcome_ofExcept (outcome : Except ε α) :
    (ofExcept outcome).outcome = outcome := rfl

@[simp] theorem outcome_tell (records : List LogRecord) :
    (tell records : Logged ε Unit).outcome = .ok () := rfl

/-- A computation that succeeds has succeeded in each of its parts. -/
theorem outcome_bind_eq_ok_iff {first : Logged ε α} {next : α → Logged ε β} {b : β} :
    (first >>= next).outcome = .ok b ↔ ∃ a, first.outcome = .ok a ∧ (next a).outcome = .ok b := by
  change (Logged.bind first next).outcome = .ok b ↔ _
  rw [Logged.bind]
  cases first.outcome with
  | error failure => simp
  | ok a => simp

end Logged

namespace Dialect

theorem quoteIdentifier_toList (dialect : Dialect) (identifier : String) :
    (dialect.quoteIdentifier identifier).toList =
      dialect.identifierQuote :: (identifier.toList ++ [dialect.identifierQuote]) := by
  rw [quoteIdentifier, Identifier.quoted, String.toList_append, String.toList_append,
    String.toList_singleton]
  rfl

/-- The text of a valid reference to a name. -/
def reference (dialect : Dialect) (identifier : String) : String :=
  dialect.quoteIdentifier (dialect.escapeIdentifier identifier)

theorem reference_toList (dialect : Dialect) (identifier : String) :
    (dialect.reference identifier).toList =
      dialect.identifierQuote ::
        (Text.replaceLetter dialect.identifierQuote dialect.escapedIdentifierQuote.toList
          identifier.toList ++ [dialect.identifierQuote]) := by
  rw [reference, quoteIdentifier_toList, escapeIdentifier_toList]

end Dialect

namespace Target

/-- Whether the policy lets a name stand in quotes at all. -/
def Admits (target : Target) (identifier : String) : Prop :=
  target.dialect.identifierQuote ∈ identifier.toList → target.embeddedQuotes = .escape

instance (target : Target) (identifier : String) : Decidable (target.Admits identifier) :=
  inferInstanceAs (Decidable (_ → _))

/-! ## Verdicts -/

/-- What comes of a name that is put in quotes. -/
def nameVerdict (target : Target) (identifier : String) : Fragment :=
  if target.Admits identifier then .valid (target.dialect.reference identifier)
  else .invalid (.embeddedQuote identifier (String.singleton target.dialect.identifierQuote))

/-- What comes of a reference to a dataset.  Nothing is noted here. -/
def datasetVerdict (target : Target) (relation : Relation) : Fragment :=
  match relation.resolve? target.dialect.engine with
  | none => .invalid .unsupportedRelation
  | some dataset => target.nameVerdict dataset.identifier

/-- What comes of a reference to a column.  Nothing is noted here. -/
def columnVerdict (target : Target) (relation : Relation) (column : String) : Fragment :=
  match relation.resolve? target.dialect.engine with
  | none => .invalid .unsupportedRelation
  | some dataset =>
    if column ∈ dataset.columns then target.nameVerdict column
    else .invalid (.missingColumn column)

/-- Passes a verdict on; an invalid one is a rejection. -/
def report (target : Target) (relation : Relation) (column : Option String) :
    Fragment → Logged Value.Indescribable Fragment
  | .valid sql => pure (.valid sql)
  | .invalid reason => target.reject reason relation column

variable {target : Target} {relation : Relation} {column : Option String}

theorem qualify_eq_report (identifier : String) :
    target.qualify identifier relation column =
      target.report relation column (target.nameVerdict identifier) := by
  unfold qualify
  by_cases quoted : target.dialect.identifierQuote ∈ identifier.toList
  · rw [if_pos (List.contains_iff_mem.mpr quoted)]
    cases policy : target.embeddedQuotes with
    | escape =>
      have admits : target.Admits identifier := fun _ => policy
      rw [nameVerdict, if_pos admits]
      rfl
    | reject =>
      have refuses : ¬ target.Admits identifier := by simp [Admits, quoted, policy]
      rw [nameVerdict, if_neg refuses]
      rfl
  · have admits : target.Admits identifier := fun inside => absurd inside quoted
    rw [if_neg (fun inside => quoted (List.contains_iff_mem.mp inside)), nameVerdict,
      if_pos admits, Dialect.reference, Dialect.escapeIdentifier_of_not_mem quoted]
    rfl

theorem datasetName_eq_report :
    target.datasetName relation = target.report relation none (target.datasetVerdict relation) := by
  unfold datasetName datasetVerdict
  cases relation.resolve? target.dialect.engine with
  | none => rfl
  | some dataset => exact qualify_eq_report dataset.identifier

theorem columnName_eq_report (name : String) :
    target.columnName relation name =
      target.report relation (some name) (target.columnVerdict relation name) := by
  unfold columnName columnVerdict
  cases relation.resolve? target.dialect.engine with
  | none => rfl
  | some dataset =>
    by_cases exposed : name ∈ dataset.columns
    · simp only [if_pos exposed]
      exact qualify_eq_report name
    · simp only [if_neg exposed]
      rfl

/-! ## What a rejection does -/

theorem reject_of_silent (silent : target.logger = none) (reason : Reason) :
    target.reject reason relation column = pure (.invalid reason) := by
  rw [reject, silent]

/-- With a logger a rejection is one call. -/
theorem reject_of_described {logger : Logger} {shown : Value}
    (logged : target.logger = some logger) (described : relation.describe = .ok shown)
    (reason : Reason) :
    target.reject reason relation column =
      ⟨.ok (.invalid reason), logger.write .debug (rejectionFields shown column reason)
        "Rejected SQL reference"⟩ := by
  rw [reject, logged]
  dsimp only
  rw [described]
  simp [bind, Logged.bind, Logged.ofExcept, Logged.tell, pure, Logged.pure]

/-- The call is not made if the relation cannot be described. -/
theorem reject_of_undescribed {logger : Logger} {failure : Value.Indescribable}
    (logged : target.logger = some logger) (failed : relation.describe = .error failure)
    (reason : Reason) :
    target.reject reason relation column = ⟨.error failure, []⟩ := by
  rw [reject, logged]
  dsimp only
  rw [failed]
  rfl

/-- A rejection carries its reason, with any logger. -/
theorem reject_outcome {reason : Reason} {fragment : Fragment}
    (ended : (target.reject reason relation column).outcome = .ok fragment) :
    fragment = .invalid reason := by
  cases logged : target.logger with
  | none =>
    rw [reject_of_silent logged] at ended
    cases ended
    rfl
  | some logger =>
    cases described : relation.describe with
    | error failure =>
      rw [reject_of_undescribed logged described] at ended
      cases ended
    | ok shown =>
      rw [reject_of_described logged described] at ended
      cases ended
      rfl

/-- A reference that comes back as a fragment comes back as its verdict. -/
theorem report_outcome {verdict fragment : Fragment}
    (ended : (target.report relation column verdict).outcome = .ok fragment) :
    fragment = verdict := by
  cases verdict with
  | valid sql =>
    cases ended
    rfl
  | invalid reason => exact reject_outcome ended

theorem report_eq_valid_iff {verdict : Fragment} {sql : String} :
    (target.report relation column verdict).outcome = .ok (.valid sql) ↔ verdict = .valid sql := by
  constructor
  · exact fun ended => (report_outcome ended).symm
  · rintro rfl
    rfl

/-! ## Valid references -/

theorem nameVerdict_eq_valid_iff {identifier sql : String} :
    target.nameVerdict identifier = .valid sql ↔
      target.Admits identifier ∧ sql = target.dialect.reference identifier := by
  unfold nameVerdict
  by_cases admits : target.Admits identifier
  · simp [admits, eq_comm]
  · simp [admits]

/-- A dataset has a valid name if it is resolved and the policy admits its identifier. -/
theorem datasetName_eq_valid_iff {target : Target} {relation : Relation} {sql : String} :
    (target.datasetName relation).outcome = .ok (.valid sql) ↔
      ∃ dataset, relation.resolve? target.dialect.engine = some dataset ∧
        target.Admits dataset.identifier ∧ sql = target.dialect.reference dataset.identifier := by
  rw [datasetName_eq_report, report_eq_valid_iff, datasetVerdict]
  cases relation.resolve? target.dialect.engine with
  | none => simp
  | some dataset => simp [nameVerdict_eq_valid_iff]

/-- A column has a valid name if the dataset is resolved and exposes it, and the policy admits
it. -/
theorem columnName_eq_valid_iff {target : Target} {relation : Relation} {column sql : String} :
    (target.columnName relation column).outcome = .ok (.valid sql) ↔
      ∃ dataset, relation.resolve? target.dialect.engine = some dataset ∧
        column ∈ dataset.columns ∧ target.Admits column ∧
          sql = target.dialect.reference column := by
  rw [columnName_eq_report, report_eq_valid_iff, columnVerdict]
  cases relation.resolve? target.dialect.engine with
  | none => simp
  | some dataset =>
    by_cases exposed : column ∈ dataset.columns
    · simp [exposed, nameVerdict_eq_valid_iff]
    · simp [exposed]

/-- A valid name of a column has been looked up without a trace. -/
theorem columnName_of_valid {name sql : String}
    (valid : (target.columnName relation name).outcome = .ok (.valid sql)) :
    target.columnName relation name = pure (.valid sql) := by
  rw [columnName_eq_report, report_eq_valid_iff] at valid
  rw [columnName_eq_report, valid]
  rfl

/-! ## Rejections -/

/-- Whether a rejected reference to a relation comes back as a fragment.  With a logger the
relation is described, and not every relation can be. -/
def Answers (target : Target) (relation : Relation) : Prop :=
  target.logger = none ∨ ∃ description, relation.describe = .ok description

theorem reject_of_answers (answers : target.Answers relation) (reason : Reason)
    (column : Option String) :
    (target.reject reason relation column).outcome = .ok (.invalid reason) := by
  cases logged : target.logger with
  | none => rw [reject_of_silent logged, Logged.outcome_pure]
  | some logger =>
    rcases answers with silent | ⟨shown, described⟩
    · cases logged.symm.trans silent
    · rw [reject_of_described logged described]

theorem report_of_answers (answers : target.Answers relation) (column : Option String)
    (verdict : Fragment) : (target.report relation column verdict).outcome = .ok verdict := by
  cases verdict with
  | valid sql => rfl
  | invalid reason => exact reject_of_answers answers reason column

theorem columnName_of_answers (answers : target.Answers relation) (column : String) :
    (target.columnName relation column).outcome = .ok (target.columnVerdict relation column) := by
  rw [columnName_eq_report, report_of_answers answers]

/-- A relation that is not resolved has no columns, whatever they are called. -/
theorem columnVerdict_of_unresolved (unresolved : relation.resolve? target.dialect.engine = none)
    (column : String) : target.columnVerdict relation column = .invalid .unsupportedRelation := by
  rw [columnVerdict, unresolved]

/-- A name cannot stand in quotes if it holds the quote and the policy rejects that. -/
theorem nameVerdict_eq_invalid_iff {identifier : String} {reason : Reason} :
    target.nameVerdict identifier = .invalid reason ↔
      target.dialect.identifierQuote ∈ identifier.toList ∧ target.embeddedQuotes = .reject ∧
        reason = .embeddedQuote identifier (String.singleton target.dialect.identifierQuote) := by
  unfold nameVerdict
  cases policy : target.embeddedQuotes with
  | escape => simp [Admits, policy]
  | reject => by_cases quoted : target.dialect.identifierQuote ∈ identifier.toList <;>
      simp [Admits, policy, quoted, eq_comm]

theorem nameVerdict_reason {identifier : String} {reason : Reason}
    (invalid : target.nameVerdict identifier = .invalid reason) :
    ∃ quote, reason = .embeddedQuote identifier quote :=
  ⟨_, (nameVerdict_eq_invalid_iff.mp invalid).2.2⟩

theorem columnVerdict_reason {column : String} {reason : Reason}
    (invalid : target.columnVerdict relation column = .invalid reason) :
    reason = .unsupportedRelation ∨ reason = .missingColumn column ∨
      ∃ quote, reason = .embeddedQuote column quote := by
  unfold columnVerdict at invalid
  split at invalid
  · cases invalid
    exact .inl rfl
  · split at invalid
    · exact .inr (.inr (nameVerdict_reason invalid))
    · cases invalid
      exact .inr (.inl rfl)

/-- The reasons for which a column is rejected. -/
theorem columnName_reason {column : String} {reason : Reason}
    (rejected : (target.columnName relation column).outcome = .ok (.invalid reason)) :
    reason = .unsupportedRelation ∨ reason = .missingColumn column ∨
      ∃ quote, reason = .embeddedQuote column quote := by
  rw [columnName_eq_report] at rejected
  exact columnVerdict_reason (report_outcome rejected).symm

end Target

end FilterPushdown
