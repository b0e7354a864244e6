import FilterPushdown.Proofs.Compilation.ColumnMembership
import FilterPushdown.Session

/-!
Whether a logger changes an answer.  A rejected relation is described for its record as soon as
there is a logger, and some values have no description.  Main statement: a question about such a
value fails under every logger, unless it is a filter that cannot be read; every other question has
the answer that it has without a logger, and so has every session in which no such value is handed
over.
-/

namespace FilterPushdown

namespace Value

/-- Values that cannot be described: a record with a member in the place of its description, and a
list with such a value in it. -/
inductive Textless : Value → Prop where
  | record (replaced : (members.lookup "toString").isSome) : Textless (.record members)
  | list (member : item ∈ items) (textless : Textless item) : Textless (.list items)

mutual

/-- All other values can be described. -/
theorem exists_describe_iff : (value : Value) →
    ((∃ text, value.describe = .ok text) ↔ ¬ value.Textless)
  | .null => ⟨fun _ => nofun, fun _ => ⟨_, rfl⟩⟩
  | .boolean true => ⟨fun _ => nofun, fun _ => ⟨_, rfl⟩⟩
  | .boolean false => ⟨fun _ => nofun, fun _ => ⟨_, rfl⟩⟩
  | .number _ => ⟨fun _ => nofun, fun _ => ⟨_, rfl⟩⟩
  | .text _ => ⟨fun _ => nofun, fun _ => ⟨_, rfl⟩⟩
  | .list items => by
    rw [describe, exists_describeItems_iff items]
    constructor
    · rintro described (_ | ⟨member, textless⟩)
      exact described _ member textless
    · exact fun described item member textless => described (.list member textless)
  | .record members => by
    rw [describe]
    split
    · rename_i replaced
      exact ⟨nofun, fun described => absurd (.record replaced) described⟩
    · rename_i own
      exact ⟨fun _ textless => by cases textless with | record replaced => exact own replaced,
        fun _ => ⟨_, rfl⟩⟩

theorem exists_describeItems_iff : (items : List Value) →
    ((∃ text, describeItems items = .ok text) ↔ ∀ item ∈ items, ¬ item.Textless)
  | [] => ⟨fun _ => nofun, fun _ => ⟨_, rfl⟩⟩
  | item :: items => by
    -- Whatever comes before them, the other items decide from here on.
    have others (first : String) : (∃ text, (if items.isEmpty then pure first else do
        let others ← describeItems items
        return first ++ "," ++ others : Except Indescribable String) = .ok text) ↔
        ∃ text, describeItems items = .ok text := by
      cases items with
      | nil => simp [describeItems, pure, Except.pure]
      | cons next items =>
        cases describeItems (next :: items) <;> simp [bind, Except.bind, pure, Except.pure]
    rw [List.forall_mem_cons, ← exists_describeItems_iff items, describeItems]
    split
    · rename_i null
      have described : ¬ item.Textless := by
        cases item with
        | null => exact nofun
        | boolean | number | text | list | record => cases null
      exact (others "").trans (and_iff_right described).symm
    · rw [← exists_describe_iff item]
      cases item.describe with
      | error failure => simp [bind, Except.bind]
      | ok first => exact (others first).trans (and_iff_right ⟨first, rfl⟩).symm

end

end Value

namespace Relation

/-- Relations that cannot be described: values that say they are datasets, with an engine or a name
that cannot be described. -/
def Textless : Relation → Prop
  | foreign value _ =>
    value.member? "kind" = some (.text "dataset") ∧
      ∃ name ∈ ["engine", "datasetIdentifier"], ∃ member,
        value.member? name = some member ∧ member.Textless
  | _ => False

variable {relation : Relation}

theorem exists_describe_iff : (∃ shown, relation.describe = .ok shown) ↔ ¬ relation.Textless := by
  cases relation with
  | dataset table => exact ⟨fun _ => id, fun _ => ⟨_, rfl⟩⟩
  | derived description => exact ⟨fun _ => id, fun _ => ⟨_, rfl⟩⟩
  | foreign value columns =>
    have described (member : Option Value) : (∃ text, Value.describe? member = .ok text) ↔
        ∀ inner, member = some inner → ¬ inner.Textless := by
      cases member with
      | none => simp [Value.describe?]
      | some inner => simp [Value.describe?, Value.exists_describe_iff]
    dsimp only [describe, Textless]
    split
    · rename_i kind
      have engine := described (value.member? "engine")
      have identifier := described (value.member? "datasetIdentifier")
      simp only [kind, List.mem_cons, List.not_mem_nil, or_false, exists_eq_or_imp, exists_eq_left,
        true_and, not_or, not_exists, not_and]
      rw [← engine, ← identifier]
      cases Value.describe? (value.member? "engine") with
      | error failure => simp [bind, Except.bind]
      | ok engine =>
        cases Value.describe? (value.member? "datasetIdentifier") with
        | error failure => simp [bind, Except.bind]
        | ok identifier => simp [bind, Except.bind, pure, Except.pure]
    · rename_i kind
      split <;> simp [kind]
    · rename_i other _
      exact ⟨fun _ textless => other textless.1, fun _ => ⟨_, rfl⟩⟩

/-- What cannot be described is no dataset of any engine: its engine or its name is no text. -/
theorem unresolved_of_textless (textless : relation.Textless) (engine : String) :
    relation.resolve? engine = none := by
  cases relation with
  | dataset table => exact textless.elim
  | derived description => exact textless.elim
  | foreign value columns =>
    obtain ⟨-, name, listed, member, found, inner⟩ := textless
    rw [Option.eq_none_iff_forall_ne_some]
    intro table resolved
    obtain ⟨-, isEngine, isIdentifier, -, -⟩ := resolve?_foreign_eq_some_iff.mp resolved
    simp only [List.mem_cons, List.not_mem_nil, or_false] at listed
    rcases listed with rfl | rfl
    · rw [isEngine] at found
      cases found
      cases inner
    · rw [isIdentifier] at found
      cases found
      cases inner

end Relation

/-- What a target is asked about a relation. -/
inductive Question where
  | datasetName
  | columnName (column : String)
  | condition (condition : Condition)
  | filter (text : String)

namespace Question

/-- The answer of a target. -/
def answer (question : Question) (target : Target) (relation : Relation) :
    Logged Value.Indescribable Fragment :=
  match question with
  | .datasetName => target.datasetName relation
  | .columnName column => target.columnName relation column
  | .condition asked => target.compile relation asked
  | .filter text => target.compileFilter relation text

/-- Whether a question is a filter that cannot be read, so that no relation is looked at. -/
def Unreadable (question : Question) : Prop :=
  ∃ text fault, question = filter text ∧ Filter.condition? text = .error fault

/-- Whether a question fails: the relation would have to be described for a logger. -/
def Fails (question : Question) (logger : Option Logger) (relation : Relation) : Prop :=
  logger ≠ none ∧ relation.Textless ∧ ¬ question.Unreadable

end Question

namespace Target

/-- The target with another logger, or with none. -/
def withLogger (target : Target) (logger : Option Logger) : Target := { target with logger }

/-- The target without its logger. -/
def silenced (target : Target) : Target := target.withLogger none

variable {target : Target} {relation : Relation}

theorem answers_iff :
    target.Answers relation ↔ target.logger = none ∨ ¬ relation.Textless := by
  rw [Answers, Relation.exists_describe_iff]

theorem answers_silenced (target : Target) (relation : Relation) :
    target.silenced.Answers relation := .inl rfl

/-- Where rejections come back, the answer is the one without a logger. -/
theorem outcome_silenced (answers : target.Answers relation) (question : Question) :
    (question.answer target relation).outcome =
      (question.answer target.silenced relation).outcome := by
  have columns (column : String) : (target.columnName relation column).outcome =
      (target.silenced.columnName relation column).outcome := by
    rw [columnName_of_answers answers, columnName_of_answers (answers_silenced target relation)]
    rfl
  have dialect : target.dialect = target.silenced.dialect := rfl
  have conditions (condition : Condition) : (target.compile relation condition).outcome =
      (target.silenced.compile relation condition).outcome :=
    compile_congr dialect fun column _ => columns column
  cases question with
  | datasetName =>
    dsimp only [Question.answer]
    rw [datasetName_eq_report, datasetName_eq_report, report_of_answers answers,
      report_of_answers (answers_silenced target relation)]
    rfl
  | columnName column => exact columns column
  | condition condition => exact conditions condition
  | filter text =>
    dsimp only [Question.answer]
    cases read : Filter.condition? text with
    | error fault => rw [compileFilter_of_unreadable read, compileFilter_of_unreadable read]
    | ok condition =>
      rw [compileFilter_of_readable read, compileFilter_of_readable read]
      exact conditions condition

/-- Without a logger every question is answered. -/
theorem exists_answer_silenced (target : Target) (relation : Relation) (question : Question) :
    ∃ fragment, (question.answer target.silenced relation).outcome = .ok fragment := by
  have answers := answers_silenced target relation
  cases question with
  | datasetName =>
    dsimp only [Question.answer]
    rw [datasetName_eq_report]
    exact ⟨_, report_of_answers answers ..⟩
  | columnName column => exact ⟨_, columnName_of_answers answers column⟩
  | condition condition => exact compile_of_answers answers condition
  | filter text => exact compileFilter_of_answers answers

/-! ## Relations without a description -/

/-- With a logger, what cannot be described cannot be rejected. -/
theorem reject_of_textless (logged : target.logger ≠ none) (textless : relation.Textless)
    (reason : Reason) (column : Option String) :
    (target.reject reason relation column).outcome = .error .noPrimitiveForm := by
  obtain ⟨logger, logged⟩ := Option.ne_none_iff_exists'.mp logged
  cases described : relation.describe with
  | error failure => rw [reject_of_undescribed logged described]
  | ok shown => exact absurd textless (Relation.exists_describe_iff.mp ⟨shown, described⟩)

theorem columnName_of_textless (logged : target.logger ≠ none) (textless : relation.Textless)
    (column : String) :
    (target.columnName relation column).outcome = .error .noPrimitiveForm := by
  rw [columnName_eq_report,
    columnVerdict_of_unresolved (Relation.unresolved_of_textless textless _)]
  exact reject_of_textless logged textless ..

/-- Every condition begins with a column, which is rejected. -/
theorem compile_of_textless (logged : target.logger ≠ none) (textless : relation.Textless)
    (condition : Condition) :
    (target.compile relation condition).outcome = .error .noPrimitiveForm := by
  obtain ⟨column, operator, value, rest, split⟩ := condition.checked_starts
  have failed := columnName_of_textless logged textless column
  have unnamed : ∀ name, (target.columnName relation column).outcome ≠ .ok (.valid name) := by
    simp [failed]
  rw [← failed]
  exact @compile_of_fails target relation condition _ [] rest _ split nofun (.column unnamed)

theorem answer_of_textless (logged : target.logger ≠ none) (textless : relation.Textless)
    {question : Question} (readable : ¬ question.Unreadable) :
    (question.answer target relation).outcome = .error .noPrimitiveForm := by
  cases question with
  | datasetName =>
    dsimp only [Question.answer]
    rw [datasetName_eq_report, datasetVerdict, Relation.unresolved_of_textless textless]
    exact reject_of_textless logged textless ..
  | columnName column => exact columnName_of_textless logged textless column
  | condition condition => exact compile_of_textless logged textless condition
  | filter text =>
    dsimp only [Question.answer]
    cases read : Filter.condition? text with
    | error fault => exact absurd ⟨text, fault, rfl, read⟩ readable
    | ok condition =>
      rw [compileFilter_of_readable read]
      exact compile_of_textless logged textless condition

end Target

/-! ## Sessions -/

namespace Session

/-- The session with another logger, or with none. -/
def withLogger (session : Session) (logger : Option Logger) : Session :=
  { session with target := session.target.withLogger logger }

/-- The session without its logger. -/
def silenced (session : Session) : Session := session.withLogger none

/-- The relation that a step hands over. -/
def Step.given : Step → Option Relation
  | .define _ relation | .keep _ relation => some relation
  | _ => none

/-- Whether every relation with a name can be described. -/
def Describable (session : Session) : Prop := ∀ entry ∈ session.relations, ¬ entry.2.Textless

variable {session : Session}

theorem not_textless_of_named (describable : session.Describable) {name : String}
    {relation : Relation} (named : session.relation? name = some relation) :
    ¬ relation.Textless := by
  obtain ⟨before, after, split, -⟩ := List.lookup_eq_some_iff.mp named
  exact describable (name, relation) (by simp [split])

/-- A name refers to a relation that can be described, also if nobody has given it. -/
theorem answers_referent (describable : session.Describable) (name : String) :
    session.target.Answers (session.referent name) := by
  rw [Target.answers_iff]
  right
  unfold referent
  cases named : session.relation? name with
  | none => exact fun textless => nomatch textless.1
  | some relation => exact not_textless_of_named describable named

/-- What a request asks about the relation of a name, if it asks about one. -/
def Request.question? : Request → Option (String × Question)
  | .datasetName name => some (name, .datasetName)
  | .columnName name column => some (name, .columnName column)
  | .filter name text => some (name, .filter text)
  | .condition name asked => some (name, .condition asked)
  | .sql _ | .invalid _ => none

theorem fulfil_of_question {request : Request} {name : String} {question : Question}
    (asks : request.question? = some (name, question)) :
    session.fulfil request =
      ofTarget (question.answer session.target (session.referent name)) := by
  cases request <;> cases asks <;> rfl

theorem fulfil_of_no_question {request : Request} (asks : request.question? = none)
    (session session' : Session) : session.fulfil request = session'.fulfil request := by
  cases request with
  | sql | invalid => rfl
  | datasetName | columnName | filter | condition => cases asks

theorem fulfil_silenced (describable : session.Describable) (request : Request) :
    (session.silenced.fulfil request).outcome = (session.fulfil request).outcome := by
  cases asks : request.question? with
  | none => rw [fulfil_of_no_question asks session.silenced session]
  | some asked =>
    obtain ⟨name, question⟩ := asked
    rw [fulfil_of_question asks, fulfil_of_question asks]
    exact congrArg (Except.mapError Fault.indescribable)
      (Target.outcome_silenced (answers_referent describable name) question).symm

/-- A step answers the same without a logger, and leads to the same session. -/
theorem step_silenced (describable : session.Describable) (next : Step) :
    (session.silenced.step next).1 = (session.step next).1.silenced ∧
      (session.silenced.step next).2.1 = (session.step next).2.1 := by
  cases next with
  | make request name =>
    simp only [step, fulfil_silenced describable]
    cases (session.fulfil request).outcome with
    | error fault => exact ⟨rfl, rfl⟩
    | ok fragment => cases name <;> exact ⟨rfl, rfl⟩
  | define name relation =>
    simp only [step]
    cases present (some relation) <;> exact ⟨rfl, rfl⟩
  | changeColumns name change =>
    have same : session.silenced.relation? name = session.relation? name := rfl
    simp only [step, same]
    cases orFault (session.relation? name) "columns" with
    | error fault => exact ⟨rfl, rfl⟩
    | ok relation =>
      dsimp only
      cases relation.changeColumns change <;> exact ⟨rfl, rfl⟩
  | keep | showRelation | hasColumn | inspect | isFragment | isFragmentValue | quote | dialect
  | capabilities | splice | query => exact ⟨rfl, rfl⟩

/-- What can be described stays so when its columns change. -/
theorem not_textless_of_changed {relation changed : Relation} {change : Relation.ColumnChange}
    (ended : relation.changeColumns change = .ok changed) (describable : ¬ relation.Textless) :
    ¬ changed.Textless := by
  cases relation with
  | dataset table =>
    rw [Relation.changeColumns_dataset] at ended
    cases ended
  | derived description => cases ended
  | foreign value columns =>
    cases columns with
    | none => cases ended
    | some columns =>
      cases ended
      exact describable

theorem describable_nameRelation (describable : session.Describable) (name : String)
    {relation : Relation} (given : ¬ relation.Textless) :
    (session.nameRelation name relation).Describable :=
  List.forall_mem_cons.mpr ⟨given, describable⟩

/-- What a step can do to a session: nothing, unless it changes columns that can be changed, or it
names a relation or a fragment. -/
inductive Moves (session : Session) (next : Step) : Session → Prop where
  | stays (refused : ∀ name change relation, next = .changeColumns name change →
      session.relation? name = some relation →
      ∃ refusal, relation.changeColumns change = .error refusal) : Moves session next session
  | names {given : String} {relation : Relation}
      (isNaming : next = .define given relation ∨ next = .keep given relation) :
      Moves session next (session.nameRelation given relation)
  | changes {given : String} {change : Relation.ColumnChange} {relation changed : Relation}
      (isChange : next = .changeColumns given change)
      (named : session.relation? given = some relation)
      (ended : relation.changeColumns change = .ok changed) :
      Moves session next (session.nameRelation given changed)
  | makes {request : Request} {given : Option String} (fragment : Fragment)
      (isMaking : next = .make request given) :
      Moves session next (session.nameFragment given fragment)

theorem step_moves (session : Session) (next : Step) : session.Moves next (session.step next).1 := by
  cases next with
  | define given relation =>
    simp only [step]
    cases present (some relation) with
    | error fault => exact .stays nofun
    | ok answer => exact .names (.inl rfl)
  | keep given relation => exact .names (.inr rfl)
  | changeColumns given change =>
    simp only [step]
    cases named : session.relation? given with
    | none =>
      refine .stays fun name _ relation same found => ?_
      cases same
      cases named.symm.trans found
    | some relation =>
      simp only [orFault]
      cases ended : relation.changeColumns change with
      | ok changed => exact .changes rfl named ended
      | error refusal =>
        refine .stays fun name _ other same found => ?_
        cases same
        cases named.symm.trans found
        exact ⟨refusal, ended⟩
  | make request given =>
    simp only [step]
    cases (session.fulfil request).outcome with
    | error fault => exact .stays nofun
    | ok fragment => exact .makes fragment rfl
  | showRelation | hasColumn | inspect | isFragment | isFragmentValue | quote | dialect
  | capabilities | splice | query => exact .stays nofun

theorem step_describable (describable : session.Describable) {next : Step}
    (given : ∀ relation ∈ next.given, ¬ relation.Textless) :
    (session.step next).1.Describable := by
  have moves := session.step_moves next
  generalize (session.step next).1 = session' at moves
  cases moves with
  | stays => exact describable
  | names isNaming =>
    refine describable_nameRelation describable _ (given _ ?_)
    rcases isNaming with rfl | rfl <;> rfl
  | changes isChange named ended =>
    exact describable_nameRelation describable _
      (not_textless_of_changed ended (not_textless_of_named describable named))
  | @makes _ name fragment isMaking => cases name <;> exact describable

/-- The answers of a run, without the records. -/
def answers (session : Session) (steps : List Step) : List Answer :=
  (session.run steps).map Prod.fst

theorem answers_cons (session : Session) (next : Step) (steps : List Step) :
    session.answers (next :: steps) =
      (session.step next).2.1 :: (session.step next).1.answers steps := rfl

/-- A run answers the same without a logger, if every relation that is handed over on the way can
be described. -/
theorem answers_silenced (describable : session.Describable) {steps : List Step}
    (given : ∀ next ∈ steps, ∀ relation ∈ next.given, ¬ relation.Textless) :
    session.silenced.answers steps = session.answers steps := by
  induction steps generalizing session with
  | nil => rfl
  | cons next steps ih =>
    obtain ⟨first, later⟩ := List.forall_mem_cons.mp given
    obtain ⟨session', answer⟩ := step_silenced describable next
    rw [answers_cons, answers_cons, answer, session',
      ih (step_describable describable first) later]

end Session

/-- A question about a relation has one answer, which it gets without a logger and with each, unless
there is a logger and the relation cannot be described: then every question fails but for a filter
that cannot be read.  If every relation that has a name or is handed over can be described, the
answers of all steps are the same with any two loggers. -/
theorem loggers_change_only_textless_answers (session : Session) :
    (∀ (relation : Relation) (question : Question), ∃ fragment, ∀ logger,
      (¬ question.Fails logger relation →
        (question.answer (session.target.withLogger logger) relation).outcome = .ok fragment) ∧
      (question.Fails logger relation →
        (question.answer (session.target.withLogger logger) relation).outcome =
          .error .noPrimitiveForm)) ∧
    (session.Describable → ∀ steps : List Session.Step,
      (∀ next ∈ steps, ∀ relation ∈ next.given, ¬ relation.Textless) → ∀ logger logger',
        (session.withLogger logger).answers steps =
          (session.withLogger logger').answers steps) := by
  refine ⟨fun relation question => ?_, fun describable steps given logger logger' => ?_⟩
  · obtain ⟨fragment, silent⟩ :=
      Target.exists_answer_silenced session.target relation question
    refine ⟨fragment, fun logger => ⟨fun answered => ?_, fun ⟨logged, textless, readable⟩ =>
      Target.answer_of_textless logged textless readable⟩⟩
    by_cases unreadable : question.Unreadable
    · -- Nothing is rejected, so there is nothing to describe.
      obtain ⟨text, fault, rfl, read⟩ := unreadable
      rw [← silent]
      dsimp only [Question.answer]
      rw [Target.compileFilter_of_unreadable read, Target.compileFilter_of_unreadable read]
    · have answers : (session.target.withLogger logger).Answers relation := by
        rw [Target.answers_iff]
        by_cases logged : logger = none
        · exact .inl logged
        · exact .inr fun textless => answered ⟨logged, textless, unreadable⟩
      exact (Target.outcome_silenced answers question).trans silent
  · have one (logger : Option Logger) :
        session.silenced.answers steps = (session.withLogger logger).answers steps :=
      @Session.answers_silenced (session.withLogger logger) describable steps given
    exact (one logger).symm.trans (one logger')

/-- An engine that is a list has a text, also for a logger; one that is a record with a member in
the place of its text has none, so that columns of it are rejected only without a logger. -/
theorem listed_engine_is_described :
    (∃ fragment, ((Question.columnName "id").answer (Target.withLogger {} (some {}))
        (.foreign (.record [("kind", .text "dataset"), ("engine", .list [.null, .list []])])
          none)).outcome = .ok fragment) ∧
      ((Question.columnName "id").answer (Target.withLogger {} (some {}))
        (.foreign (.record [("kind", .text "dataset"),
          ("engine", .record [("toString", .null)])]) none)).outcome =
        .error .noPrimitiveForm ∧
      (Session.withLogger ⟨{}, [], []⟩ (some {})).answers
          [.keep "r" (.foreign (.record [("kind", .text "dataset"), ("engine", .list [])]) none),
            .make (.datasetName "r") none] =
        (Session.withLogger ⟨{}, [], []⟩ none).answers
          [.keep "r" (.foreign (.record [("kind", .text "dataset"), ("engine", .list [])]) none),
            .make (.datasetName "r") none] := by
  obtain ⟨questions, sessions⟩ := loggers_change_only_textless_answers ⟨{}, [], []⟩
  have readable : ¬ (Question.columnName "id").Unreadable := by
    rintro ⟨text, fault, same, -⟩
    cases same
  refine ⟨?_, ?_, ?_⟩
  · obtain ⟨fragment, answers⟩ := questions (.foreign (.record [("kind", .text "dataset"),
      ("engine", .list [.null, .list []])]) none) (.columnName "id")
    refine ⟨fragment, (answers (some {})).1 fun fails => ?_⟩
    exact Relation.exists_describe_iff.mp ⟨_, rfl⟩ fails.2.1
  · obtain ⟨fragment, answers⟩ := questions (.foreign (.record [("kind", .text "dataset"),
      ("engine", .record [("toString", .null)])]) none) (.columnName "id")
    refine (answers (some {})).2 ⟨nofun, ⟨rfl, "engine", ?_, _, rfl, .record rfl⟩, readable⟩
    simp
  · refine sessions (List.forall_mem_nil _) _ ?_ _ _
    have described := Relation.exists_describe_iff.mp (Exists.intro (Value.text ":undefined") rfl :
      ∃ shown, Relation.describe (.foreign (.record [("kind", .text "dataset"),
        ("engine", .list [])]) none) = .ok shown)
    simpa [Session.Step.given] using described

/-- A silent logger is enough for the rejection of a value to fail. -/
theorem silent_logger_hides_rejection :
    (Target.datasetName { logger := some {} } (.foreign (.record [("kind", .text "dataset"),
        ("engine", .record [("toString", .boolean true)])]) none)).outcome =
        .error .noPrimitiveForm ∧
      (Target.datasetName {} (.foreign (.record [("kind", .text "dataset"),
        ("engine", .record [("toString", .boolean true)])]) none)).outcome =
        .ok (.invalid .unsupportedRelation) :=
  ⟨rfl, rfl⟩

end FilterPushdown
