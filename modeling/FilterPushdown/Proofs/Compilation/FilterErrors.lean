import FilterPushdown.Proofs.Compilation.FirstFault
import FilterPushdown.Proofs.Filter.Regular

/-!
Which errors can come out of a filter text.  What a text means is regular, so the faults of
hand-made conditions never show: a filter that has no SQL text could not be read, or names a column
that is rejected, or orders null.  The three classes are told apart by the error text alone.
-/

namespace FilterPushdown

/-- The parts of a regular condition are regular themselves. -/
theorem Condition.Regular.of_mem_checked {condition part : Condition}
    (regular : condition.Regular) (member : part ∈ condition.checked) : part.Regular := by
  induction condition with
  | comparison column operator value =>
    obtain rfl := List.mem_singleton.mp member
    exact regular
  | junction connective left right ihLeft ihRight =>
    simp only [checked, List.mem_append, List.mem_cons] at member
    rcases member with inLeft | rfl | inRight
    · exact ihLeft regular.1 inLeft
    · exact regular
    · exact ihRight regular.2 inRight
  | halfJunction => exact regular.elim
  | negation operand ih => exact ih regular member
  | overfullNegation => exact regular.elim

/-- The classes of errors that a filter text can lead to. -/
inductive ErrorClass where
  | unreadable
  | rejectedColumn
  | orderedNull
  deriving DecidableEq, Repr

/-- Whether a class holds an error text: for a text that could not be read the fault of reading
with words before it, for a column that the text compares what the target rejects it for, and for
null the sign that it was ordered with. -/
inductive ErrorClass.Holds (target : Target) (relation : Relation) (filter : String) :
    ErrorClass → String → Prop where
  | unreadable (fails : Filter.condition? filter = .error fault) :
      Holds target relation filter .unreadable ("Failed to parse filter: " ++ fault.message)
  | rejectedColumn (reads : Filter.condition? filter = .ok condition)
      (named : .comparison column operator value ∈ condition.checked)
      (rejected : (target.columnName relation column).outcome = .ok (.invalid reason)) :
      Holds target relation filter .rejectedColumn reason.message
  | orderedNull (reads : Filter.condition? filter = .ok condition)
      (named : .comparison column operator .null ∈ condition.checked)
      (orders : operator.symbol ∈ [">", ">=", "<", "<="]) :
      Holds target relation filter .orderedNull
        ("Operator " ++ operator.symbol ++ " cannot be used with null")

namespace ErrorClass

/-- The letters that the errors of a class begin with. -/
private def initials : ErrorClass → List Char
  | unreadable => ['F']
  | rejectedColumn => ['r', 'C', 'I']
  | orderedNull => ['O']

variable {target : Target} {relation : Relation} {filter : String}

private theorem Holds.initial {kind : ErrorClass} {message : String}
    (holds : kind.Holds target relation filter message) :
    ∃ c ∈ kind.initials, message.toList.head? = some c := by
  cases holds with
  | unreadable => exact ⟨'F', by simp [initials], by simp⟩
  | rejectedColumn _ _ rejected =>
    rcases Target.columnName_reason rejected with rfl | rfl | ⟨quote, rfl⟩
    · exact ⟨'r', by simp [initials], rfl⟩
    · refine ⟨'C', by simp [initials], ?_⟩
      change ("Column " ++ _ ++ " is not present in dataset").toList.head? = _
      simp
    · refine ⟨'I', by simp [initials], ?_⟩
      change ("Identifier " ++ _ ++ " contains the quote character " ++ quote).toList.head? = _
      simp
  | orderedNull => exact ⟨'O', by simp [initials], by simp⟩

/-- No error text is of two classes. -/
theorem Holds.unique {first second : ErrorClass} {message : String}
    (left : first.Holds target relation filter message)
    (right : second.Holds target relation filter message) : first = second := by
  obtain ⟨c, leftInitial, begins⟩ := left.initial
  obtain ⟨d, rightInitial, begins'⟩ := right.initial
  obtain rfl := Option.some.inj (begins.symm.trans begins')
  cases first <;> cases second <;> simp_all [initials]

/-- No class holds the error of a condition that no text means. -/
theorem Holds.not_mem {kind : ErrorClass} {message : String}
    (holds : kind.Holds target relation filter message) :
    message ∉ ["AND requires two operands", "OR requires two operands",
      "LIKE requires a string pattern", "Operator LIKE cannot be used with null"] := by
  intro member
  cases kind with
  | unreadable | rejectedColumn =>
    obtain ⟨c, initial, begins⟩ := holds.initial
    have other : c = 'A' ∨ c = 'O' ∨ c = 'L' := by
      simp only [List.mem_cons, List.not_mem_nil, or_false] at member
      rcases member with rfl | rfl | rfl | rfl <;> simp at begins <;> simp [← begins]
    rcases other with rfl | rfl | rfl <;> simp [initials] at initial
  | orderedNull =>
    cases holds with
    | orderedNull _ _ orders =>
      simp only [List.mem_cons, List.not_mem_nil, or_false] at orders
      rcases orders with same | same | same | same <;> simp [same] at member

end ErrorClass

namespace Target

open FilterPushdown.Filter

variable {target : Target} {relation : Relation} {filter : String}

/-- A text that cannot be read is compiled without a trace. -/
theorem compileFilter_eq_of_unreadable {fault : ReadError}
    (fails : condition? filter = .error fault) :
    target.compileFilter relation filter = pure (.invalid (.unreadableFilter fault)) := by
  rw [compileFilter, fails]

theorem compileFilter_of_unreadable {fault : ReadError}
    (fails : condition? filter = .error fault) :
    (target.compileFilter relation filter).outcome = .ok (.invalid (.unreadableFilter fault)) := by
  rw [compileFilter_eq_of_unreadable fails]
  rfl

theorem compileFilter_of_readable {condition : Condition}
    (reads : condition? filter = .ok condition) :
    target.compileFilter relation filter = target.compile relation condition := by
  rw [compileFilter, reads]

/-- A part of a regular condition can only fail for its column or for null in an order. -/
private theorem holds_of_fails {condition part : Condition} {reason : Reason}
    (reads : condition? filter = .ok condition) (member : part ∈ condition.checked)
    (fails : target.Fails relation part (.ok (.invalid reason))) :
    ∃ kind : ErrorClass, kind.Holds target relation filter reason.message := by
  have regular := (regular_of_read reads).of_mem_checked member
  generalize same : (.ok (.invalid reason) : Except Value.Indescribable Fragment) = outcome
    at fails
  cases fails with
  | column => exact ⟨_, .rejectedColumn reads member same.symm⟩
  | @null column name operator named orders =>
    cases same
    cases operator with
    | equal => exact absurd rfl orders
    | like => exact (regular rfl).elim
    | greater | greaterOrEqual | less | lessOrEqual =>
      exact ⟨_, .orderedNull reads member (by simp [Operator.symbol])⟩
  | @pattern column name value named present noText =>
    have wildcard : value.HoldsWildcard := regular rfl
    cases value with
    | text value => exact absurd rfl (noText value)
    | number | boolean | null => exact wildcard.elim
  | operand => exact regular.elim

/-- The error of a filter text is of one of the classes. -/
theorem holds_of_invalid {reason : Reason}
    (ended : (target.compileFilter relation filter).outcome = .ok (.invalid reason)) :
    ∃ kind : ErrorClass, kind.Holds target relation filter reason.message := by
  cases read : condition? filter with
  | error fault =>
    rw [compileFilter_of_unreadable read] at ended
    cases ended
    exact ⟨_, .unreadable read⟩
  | ok condition =>
    rw [compileFilter_of_readable read] at ended
    rcases exists_first_fault condition.checked with
      passes | ⟨before, part, after, outcome, split, earlier, fails⟩
    · obtain ⟨sql, valid⟩ := compile_of_passes passes
      rw [valid] at ended
      cases ended
    · have same := (compile_of_fails split earlier fails).symm.trans ended
      rw [same] at fails
      exact holds_of_fails read (by simp [split]) fails

/-- An error text begins like one of reading exactly if the text could not be read. -/
theorem begins_unreadable_iff {reason : Reason}
    (ended : (target.compileFilter relation filter).outcome = .ok (.invalid reason)) :
    "Failed to parse filter: ".toList <+: reason.message.toList ↔
      ∃ fault, condition? filter = .error fault := by
  constructor
  · rintro ⟨rest, same⟩
    obtain ⟨kind, holds⟩ := holds_of_invalid ended
    obtain ⟨c, initial, begins⟩ := holds.initial
    rw [← same] at begins
    have first : 'F' = c := by simpa using begins
    subst first
    cases kind with
    | unreadable =>
      generalize reason.message = message at holds
      cases holds with
      | unreadable fails => exact ⟨_, fails⟩
    | rejectedColumn | orderedNull => simp [ErrorClass.initials] at initial
  · rintro ⟨fault, fails⟩
    rw [compileFilter_of_unreadable fails] at ended
    cases ended
    exact ⟨fault.message.toList, String.toList_append.symm⟩

/-- No fault of reading a text is about an operator, a type of value or a node that the grammar
lacks. -/
private theorem fault_within_grammar {fault : ReadError} (fails : condition? filter = .error fault)
    (phrase : String)
    (member : phrase ∈ ["Unsupported operator", "Unsupported value type",
      "Unsupported filter syntax"]) : ¬ phrase.toList <+: fault.message.toList := by
  simp only [List.mem_cons, List.not_mem_nil, or_false] at member
  cases fault with
  | unexpected position =>
    change ¬ _ <+: ("Syntax error at line " ++ toString position.line ++ " column " ++
      toString position.column).toList
    rcases member with rfl | rfl | rfl <;> simp
  | unsupportedTerm column form =>
    change ¬ _ <+: ("Unsupported expression for column " ++ column ++ ": " ++ form.name).toList
    rcases member with rfl | rfl | rfl <;> simp
  | unfinished | ambiguous | empty | unnamedTag => rcases member with rfl | rfl | rfl <;> decide
  | unsupportedOperator | unsupportedValue | unsupportedNode =>
    exact absurd (by constructor) (not_beyondGrammar_of_read fails)

/-- If rejections come back, then every filter text ends as a fragment. -/
theorem compileFilter_of_answers (answers : target.Answers relation) :
    ∃ fragment, (target.compileFilter relation filter).outcome = .ok fragment := by
  cases read : condition? filter with
  | error fault => exact ⟨_, compileFilter_of_unreadable read⟩
  | ok condition =>
    rw [compileFilter_of_readable read]
    exact compile_of_answers answers condition

private theorem read_of_toOption {text : String} {condition : Condition}
    (found : (condition? text).toOption = some condition) : condition? text = .ok condition := by
  cases read : condition? text with
  | error fault => simp [read, Except.toOption] at found
  | ok other => simpa [read, Except.toOption] using found

/-- A filter text ends as a fragment, and if that is invalid, then its error is of exactly one
class: the text could not be read, or a column that it names is rejected, or it orders null.  The
first class are the errors that begin with words of their own; a text that cannot be read has the
same error on every relation.  The errors of conditions that no text means are never among them,
and no fault of reading is about anything that the grammar lacks. -/
theorem compileFilter_error_classes (target : Target) (relation : Relation) (filter : String) :
    (target.Answers relation →
        ∃ fragment, (target.compileFilter relation filter).outcome = .ok fragment) ∧
      (∀ reason, (target.compileFilter relation filter).outcome = .ok (.invalid reason) →
        (∃ kind : ErrorClass, kind.Holds target relation filter reason.message ∧
          ∀ other : ErrorClass, other.Holds target relation filter reason.message →
            other = kind) ∧
        ("Failed to parse filter: ".toList <+: reason.message.toList ↔
          ∃ fault, condition? filter = .error fault) ∧
        reason.message ∉ ["AND requires two operands", "OR requires two operands",
          "LIKE requires a string pattern", "Operator LIKE cannot be used with null"]) ∧
      ∀ fault, condition? filter = .error fault →
        (∃ reason, (target.compileFilter relation filter).outcome = .ok (.invalid reason) ∧
          reason.message = "Failed to parse filter: " ++ fault.message) ∧
        ∀ phrase ∈ ["Unsupported operator", "Unsupported value type",
          "Unsupported filter syntax"], ¬ phrase.toList <+: fault.message.toList := by
  refine ⟨compileFilter_of_answers, ?_, ?_⟩
  · intro reason ended
    obtain ⟨kind, holds⟩ := holds_of_invalid ended
    exact ⟨⟨kind, holds, fun other also => also.unique holds⟩, begins_unreadable_iff ended,
      holds.not_mem⟩
  · intro fault fails
    exact ⟨⟨_, compileFilter_of_unreadable fails, rfl⟩, fault_within_grammar fails⟩

/-- A filter that orders null is rejected for that only where its column is not rejected, and a
text without a value after its sign is not read at all. -/
theorem ordered_null_after_column :
    (∃ fragment, (Target.compileFilter {} (.derived none) "a:>null").outcome = .ok fragment) ∧
      (∃ kind : ErrorClass,
        kind.Holds {} (.ofColumns "bigquery" "t" ["a"]) "a:>null"
            "Operator > cannot be used with null" ∧
          ∀ other : ErrorClass,
            other.Holds {} (.ofColumns "bigquery" "t" ["a"]) "a:>null"
              "Operator > cannot be used with null" → other = kind) ∧
      ∃ reason, (Target.compileFilter {} (.derived none) "a:").outcome = .ok (.invalid reason) ∧
        reason.message =
          "Failed to parse filter: Unsupported expression for column a: EmptyExpression" := by
  have read : condition? "a:>null" = .ok (.comparison "a" .greater .null) :=
    read_of_toOption (by decide +kernel)
  have unreadable : condition? "a:" = .error (.unsupportedTerm "a" .missing) := rfl
  have ordered : (Target.compileFilter {} (.ofColumns "bigquery" "t" ["a"]) "a:>null").outcome =
      .ok (.invalid (.orderWithNull .greater)) := by
    rw [compileFilter_of_readable read]
    rfl
  obtain ⟨reason, ended, message⟩ :=
    ((compileFilter_error_classes {} (.derived none) "a:").2.2 _ unreadable).1
  exact ⟨(compileFilter_error_classes {} (.derived none) "a:>null").1 (.inl rfl),
    ((compileFilter_error_classes {} _ "a:>null").2.1 _ ordered).1, reason, ended, message⟩

end Target

end FilterPushdown
