import Mathlib.Data.List.Forall2
import FilterPushdown.Session

/-!
What a statement consists of.  A part is written with regard to the parameters before it only, and
a fragment is written as it is, whatever looks like a parameter in it.  Main statement: a statement
has the texts of its parts and the values of its parameters in order, a parameter being written as
its number, and there is none exactly if some fragment is invalid, the first of which is the reason.
-/

namespace FilterPushdown

namespace Part

/-- The value of a parameter. -/
def value? : Part → Option Literal
  | .parameter value => some value
  | .text _ => none
  | .fragment _ => none

/-- The reason of an invalid fragment. -/
def reason? : Part → Option Reason
  | .fragment made => made.reason?
  | .text _ => none
  | .parameter _ => none

/-- The text of a part with so many parameters before it, if it has one. -/
def written? (before : Nat) : Part → Option String
  | .text sql => some sql
  | .fragment made => made.sql?
  | .parameter _ => some ("$" ++ toString (before + 1))

/-- A part has a text unless it is an invalid fragment, which has a reason. -/
theorem written?_or_reason? (before : Nat) (part : Part) :
    (∃ sql, part.written? before = some sql ∧ part.reason? = none) ∨
      ∃ reason, part.written? before = none ∧ part.reason? = some reason := by
  cases part with
  | text sql => exact .inl ⟨_, rfl, rfl⟩
  | parameter value => exact .inl ⟨_, rfl, rfl⟩
  | fragment made =>
    cases made with
    | valid sql => exact .inl ⟨_, rfl, rfl⟩
    | invalid reason => exact .inr ⟨_, rfl, rfl⟩

theorem reason?_eq_some_iff {part : Part} {reason : Reason} :
    part.reason? = some reason ↔ part = .fragment (.invalid reason) := by
  constructor
  · intro invalid
    cases part with
    | text | parameter => cases invalid
    | fragment made =>
      cases made with
      | valid => cases invalid
      | invalid own =>
        cases invalid
        rfl
  · rintro rfl
    rfl

end Part

namespace Statement

/-- The values of the parameters among parts, in order. -/
def values (parts : List Part) : List Literal := parts.filterMap Part.value?

/-- The texts of parts that come after so many parameters. -/
def texts (before : Nat) (parts : List Part) : List (Option String) :=
  parts.mapIdx fun place part => part.written? (before + (values (parts.take place)).length)

variable {before : Nat} {part : Part} {parts : List Part} {statement : Statement}

theorem values_cons (part : Part) (parts : List Part) :
    values (part :: parts) = part.value?.toList ++ values parts := by
  cases part <;> rfl

theorem texts_cons (before : Nat) (part : Part) (parts : List Part) :
    texts before (part :: parts) =
      part.written? before :: texts (before + part.value?.toList.length) parts := by
  rw [texts, texts, List.mapIdx_cons]
  simp only [List.take_succ_cons, values_cons, List.length_append, Nat.add_assoc]
  rfl

/-- The text of a part stands before those of the others, which are numbered on from it. -/
theorem ofPartsFrom_of_written {sql : String} (written : part.written? before = some sql)
    (parts : List Part) :
    ofPartsFrom (before + 1) (part :: parts) =
      (ofPartsFrom (before + part.value?.toList.length + 1) parts).map fun rest =>
        ⟨sql ++ rest.sql, part.value?.toList ++ rest.parameters⟩ := by
  cases part with
  | text own =>
    cases written
    rfl
  | parameter value =>
    cases written
    rfl
  | fragment made =>
    cases made with
    | valid own =>
      cases written
      rfl
    | invalid reason => cases written

theorem ofPartsFrom_of_reason {reason : Reason} (invalid : part.reason? = some reason)
    (number : Nat) (parts : List Part) :
    ofPartsFrom number (part :: parts) = .error ⟨reason⟩ := by
  obtain rfl := Part.reason?_eq_some_iff.mp invalid
  rfl

/-- The first invalid fragment leaves no statement. -/
theorem ofPartsFrom_eq_error_iff {failure : SpliceError} :
    ofPartsFrom (before + 1) parts = .error failure ↔
      parts.findSome? Part.reason? = some failure.reason := by
  induction parts generalizing before with
  | nil => exact ⟨nofun, nofun⟩
  | cons part parts ih =>
    rw [List.findSome?_cons]
    rcases Part.written?_or_reason? before part with ⟨sql, written, valid⟩ | ⟨reason, -, invalid⟩
    · rw [ofPartsFrom_of_written written, valid]
      dsimp only
      rw [← ih]
      cases ofPartsFrom (before + part.value?.toList.length + 1) parts with
      | error own => simp [Except.map]
      | ok rest => simp [Except.map]
    · rw [ofPartsFrom_of_reason invalid, invalid]
      obtain ⟨own⟩ := failure
      simp

theorem exists_failure_iff :
    (∃ failure, ofPartsFrom (before + 1) parts = .error failure) ↔
      ∃ fragment, Part.fragment fragment ∈ parts ∧ fragment.isValid = false := by
  constructor
  · rintro ⟨failure, failed⟩
    obtain ⟨part, member, invalid⟩ :=
      List.exists_of_findSome?_eq_some (ofPartsFrom_eq_error_iff.mp failed)
    obtain rfl := Part.reason?_eq_some_iff.mp invalid
    exact ⟨_, member, rfl⟩
  · rintro ⟨fragment, member, invalid⟩
    cases fragment with
    | valid sql => cases invalid
    | invalid reason =>
      have faulty : (parts.findSome? Part.reason?).isSome :=
        List.findSome?_isSome_iff.mpr ⟨_, member, rfl⟩
      obtain ⟨first, found⟩ := Option.isSome_iff_exists.mp faulty
      exact ⟨⟨first⟩, ofPartsFrom_eq_error_iff.mpr found⟩

/-- Otherwise every part has a text, and the statement consists of these texts. -/
theorem ofPartsFrom_eq_ok_iff :
    ofPartsFrom (before + 1) parts = .ok statement ↔
      ∃ pieces : List String, texts before parts = pieces.map some ∧
        statement = ⟨String.join pieces, values parts⟩ := by
  induction parts generalizing before statement with
  | nil =>
    constructor
    · intro made
      cases made
      exact ⟨[], rfl, rfl⟩
    · rintro ⟨pieces, same, rfl⟩
      obtain rfl := List.map_eq_nil_iff.mp same.symm
      rfl
  | cons part parts ih =>
    rw [texts_cons, values_cons]
    rcases Part.written?_or_reason? before part with ⟨sql, written, -⟩ | ⟨reason, unwritten, invalid⟩
    · rw [ofPartsFrom_of_written written, written]
      constructor
      · intro made
        cases last : ofPartsFrom (before + part.value?.toList.length + 1) parts with
        | error failure =>
          rw [last] at made
          cases made
        | ok rest =>
          rw [last] at made
          cases made
          obtain ⟨pieces, same, rfl⟩ := ih.mp last
          exact ⟨sql :: pieces, by rw [same, List.map_cons], by rw [String.join_cons]⟩
      · rintro ⟨all, same, rfl⟩
        obtain ⟨first, pieces, rfl, begins, others⟩ := List.map_eq_cons_iff.mp same.symm
        cases begins
        rw [ih.mpr ⟨pieces, others.symm, rfl⟩, String.join_cons]
        rfl
    · rw [ofPartsFrom_of_reason invalid, unwritten]
      constructor
      · exact nofun
      · rintro ⟨pieces, same, -⟩
        obtain ⟨_, _, _, begins, -⟩ := List.map_eq_cons_iff.mp same.symm
        cases begins

end Statement

namespace Session

/-- Whether a named part stands for a part in a session that knows its fragment. -/
inductive StandsFor (session : Session) : NamedPart → Part → Prop where
  | text (sql : String) : StandsFor session (.text sql) (.text sql)
  | fragment {name : String} {made : Fragment} (known : session.fragment? name = some made) :
      StandsFor session (.fragment name) (.fragment made)
  | parameter (value : Literal) : StandsFor session (.parameter value) (.parameter value)

variable {session : Session} {named : List NamedPart} {parts : List Part}

/-- A part that can be spliced is found for its name. -/
theorem StandsFor.part?_of_written {name : NamedPart} {part : Part} {before : Nat} {sql : String}
    (stands : session.StandsFor name part) (written : part.written? before = some sql) :
    session.part? name = .ok part := by
  cases stands with
  | text | parameter => rfl
  | @fragment name made known =>
    cases made with
    | invalid reason => cases written
    | valid own =>
      rw [part?, known]
      rfl

theorem StandsFor.part?_of_reason {name : NamedPart} {part : Part} {reason : Reason}
    (stands : session.StandsFor name part) (invalid : part.reason? = some reason) :
    session.part? name = .error (.unspliceable ⟨reason⟩) := by
  obtain rfl := Part.reason?_eq_some_iff.mp invalid
  cases stands with
  | fragment known =>
    rw [part?, known]
    rfl

/-- Looking up all parts fails exactly if writing them fails, and for the same reason. -/
theorem mapM_part? (stand : List.Forall₂ session.StandsFor named parts) (before : Nat) :
    named.mapM session.part? =
      ((Statement.ofPartsFrom (before + 1) parts).mapError .unspliceable).map fun _ => parts := by
  induction stand generalizing before with
  | nil => rfl
  | @cons name part named parts stands _ ih =>
    rw [List.mapM_cons]
    rcases Part.written?_or_reason? before part with ⟨sql, written, -⟩ | ⟨reason, -, invalid⟩
    · rw [Statement.ofPartsFrom_of_written written, stands.part?_of_written written,
        ih (before + part.value?.toList.length)]
      cases Statement.ofPartsFrom (before + part.value?.toList.length + 1) parts <;> rfl
    · rw [Statement.ofPartsFrom_of_reason invalid, stands.part?_of_reason invalid]
      rfl

/-- A query answers with the statement of its parts or with the reason why there is none.  It changes
nothing and writes no records. -/
theorem step_query (stand : List.Forall₂ session.StandsFor named parts) :
    session.step (.query named) =
      (session,
        match Statement.ofParts parts with
        | .ok statement => .statement statement
        | .error failure => .failure (.unspliceable failure),
        []) := by
  have looked : named.mapM session.part? =
      ((Statement.ofParts parts).mapError .unspliceable).map fun _ => parts := mapM_part? stand 0
  rw [step, looked]
  cases made : Statement.ofParts parts with
  | error failure => rfl
  | ok statement =>
    simp [Except.mapError, Except.map, bind, Except.bind, pure, Except.pure, answer, made]

end Session

/-- There is no statement if and only if some fragment is invalid, and the reason of the first such
fragment is the message.  Otherwise the statement is the texts of the parts in order, a fragment as
it is and a parameter as the number of its place among the parameters, with the values of the
parameters in order.  A query in a session that knows the fragments answers just this, and changes
and records nothing. -/
theorem statement_consists_of_its_parts (parts : List Part) :
    ((∃ failure, Statement.ofParts parts = .error failure) ↔
        ∃ fragment, Part.fragment fragment ∈ parts ∧ fragment.isValid = false) ∧
      (∀ message,
        (∃ failure, Statement.ofParts parts = .error failure ∧ failure.message = message) ↔
          ∃ reason, parts.findSome? Part.reason? = some reason ∧
            message = "Failed to translate expression: " ++ reason.message) ∧
      (∀ statement, Statement.ofParts parts = .ok statement ↔
        ∃ pieces, Statement.texts 0 parts = pieces.map some ∧
          statement = ⟨String.join pieces, Statement.values parts⟩) ∧
      ∀ (session : Session) (named : List Session.NamedPart),
        List.Forall₂ session.StandsFor named parts →
          session.step (.query named) =
            (session,
              match Statement.ofParts parts with
              | .ok statement => .statement statement
              | .error failure => .failure (.unspliceable failure),
              []) := by
  refine ⟨?_, fun message => ?_, fun _ => Statement.ofPartsFrom_eq_ok_iff,
    fun _ _ => Session.step_query⟩
  · exact Statement.exists_failure_iff
  · constructor
    · rintro ⟨failure, failed, rfl⟩
      exact ⟨_, Statement.ofPartsFrom_eq_error_iff.mp failed, rfl⟩
    · rintro ⟨reason, first, rfl⟩
      exact ⟨⟨reason⟩, Statement.ofPartsFrom_eq_error_iff.mpr first, rfl⟩

/-- What looks like a parameter in a fragment is not counted, and of two invalid fragments the first
one is the reason. -/
theorem dollar_in_fragment_is_no_parameter :
    Session.step ⟨{}, [], [("cost", .valid "`$2?`")]⟩ (.query [.text "select ", .fragment "cost",
        .text " in (", .parameter (.text "a"), .text ", ", .parameter .null, .text ")"]) =
      (⟨{}, [], [("cost", .valid "`$2?`")]⟩,
        .statement ⟨"select `$2?` in ($1, $2)", [.text "a", .null]⟩, []) ∧
    ∃ failure, Statement.ofParts [.parameter .null, .fragment (.invalid .patternNotText),
        .fragment (.invalid .unsupportedRelation)] = .error failure ∧
      failure.message = "Failed to translate expression: LIKE requires a string pattern" := by
  constructor
  · obtain ⟨-, -, made, queried⟩ := statement_consists_of_its_parts [.text "select ",
      .fragment (.valid "`$2?`"), .text " in (", .parameter (.text "a"), .text ", ",
      .parameter .null, .text ")"]
    rw [queried _ _ (.cons (.text _) (.cons (.fragment rfl) (.cons (.text _)
      (.cons (.parameter _) (.cons (.text _) (.cons (.parameter _) (.cons (.text _) .nil))))))),
      (made _).mpr ⟨["select ", "`$2?`", " in (", "$1", ", ", "$2", ")"], rfl, rfl⟩]
    rfl
  · exact ((statement_consists_of_its_parts _).2.1 _).mpr ⟨.patternNotText, rfl, rfl⟩

end FilterPushdown
