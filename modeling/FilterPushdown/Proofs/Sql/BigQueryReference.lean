import FilterPushdown.Proofs.Reference
import FilterPushdown.Proofs.Sql.QuotedText

/-!
References in GoogleSQL.  There a backslash between backticks takes the next letter with it, while
only backticks are escaped when a reference is made.  Main statement: a valid reference is one
complete quoted identifier that denotes its name exactly if the name holds no backslash.
-/

namespace FilterPushdown.Sql

/-- GoogleSQL's quoted identifiers: a backslash and the next letter stand for that letter. -/
def googleIdentifier : Quoting where
  quote := '\x60'
  pair? c d := if c = '\\' then some d else none

/-- Whether SQL text is one complete quoted identifier that denotes a name. -/
def Quoting.Names (rules : Quoting) (sql name : String) : Prop :=
  rules.read sql.toList = some (name.toList, [])

instance (rules : Quoting) (sql name : String) : Decidable (rules.Names sql name) :=
  inferInstanceAs (Decidable (_ = _))

/-- The letters of a name between the backticks of a reference. -/
private def written (name : List Char) : List Char := Text.replaceLetter '\x60' ['\\', '\x60'] name

private theorem reference_written (name : String) :
    (Dialect.bigQuery.reference name).toList = '\x60' :: (written name.toList ++ ['\x60']) :=
  Dialect.reference_toList ..

private theorem written_cons (c : Char) (name : List Char) :
    written (c :: name) = (if c = '\x60' then ['\\', '\x60'] else [c]) ++ written name :=
  Text.replaceLetter_cons ..

/-- Without backslashes the only pairs are the escaped backticks. -/
private theorem written_denotes {name : List Char} (noBackslash : '\\' ∉ name) :
    googleIdentifier.Denotes (written name) name := by
  induction name with
  | nil => exact .nil
  | cons c name ih =>
    have notBackslash : c ≠ '\\' := fun same => noBackslash (same ▸ List.mem_cons_self)
    have rest := ih fun member => noBackslash (List.mem_cons_of_mem c member)
    rw [written_cons]
    by_cases backtick : c = '\x60'
    · rw [if_pos backtick, backtick]
      exact .pair rfl rest
    · rw [if_neg backtick]
      exact .plain backtick (fun d => if_neg notBackslash) rest

private theorem closes_google (rest : List Char) : googleIdentifier.Closes rest := fun _ _ => rfl

private theorem readBody_letter {c : Char} (notBacktick : c ≠ '\x60') (notBackslash : c ≠ '\\')
    (text : List Char) :
    googleIdentifier.readBody (c :: text) =
      (googleIdentifier.readBody text).map fun (value, rest) => (c :: value, rest) :=
  Quoting.readBody_plain notBacktick fun _ => if_neg notBackslash

/-- Every letter that is read comes from a letter of the name, and a backslash of the name is lost:
it takes the next letter with it, and if that is the backslash in front of a backtick, then the
backtick closes the identifier. -/
private theorem length_of_readBody_written {name value rest : List Char}
    (found : googleIdentifier.readBody (written name ++ ['\x60']) = some (value, rest)) :
    value.length + (if '\\' ∈ name then 1 else 0) ≤ name.length := by
  match name with
  | [] =>
    cases found
    exact Nat.le_refl 0
  | c :: name =>
    rw [written_cons, List.append_assoc] at found
    by_cases backtick : c = '\x60'
    · subst backtick
      obtain ⟨⟨inner, after⟩, later, same⟩ := Option.map_eq_some_iff.mp found
      cases same
      have shorter := length_of_readBody_written later
      have same : '\\' ∈ '\x60' :: name ↔ '\\' ∈ name := by simp
      simp only [same, List.length_cons]
      omega
    rw [if_neg backtick] at found
    by_cases backslash : c = '\\'
    · subst backslash
      match name with
      | [] => cases found
      | d :: name =>
        rw [written_cons, List.append_assoc] at found
        by_cases backtick : d = '\x60'
        · rw [if_pos backtick] at found
          obtain ⟨⟨inner, after⟩, later, same⟩ := Option.map_eq_some_iff.mp found
          cases same
          have closed := Quoting.readBody_quote (closes_google (written name ++ ['\x60']))
          cases closed.symm.trans later
          simp
        · rw [if_neg backtick] at found
          obtain ⟨⟨inner, after⟩, later, same⟩ := Option.map_eq_some_iff.mp found
          cases same
          have shorter := length_of_readBody_written later
          simp only [List.mem_cons, List.length_cons, true_or, if_true]
          omega
    · rw [List.singleton_append, readBody_letter backtick backslash] at found
      obtain ⟨⟨inner, after⟩, later, same⟩ := Option.map_eq_some_iff.mp found
      cases same
      have shorter := length_of_readBody_written later
      have same : '\\' ∈ c :: name ↔ '\\' ∈ name := by simp [Ne.symm backslash]
      simp only [same, List.length_cons]
      omega

/-- A reference denotes its name if and only if the name holds no backslash. -/
theorem names_reference_iff (name : String) :
    googleIdentifier.Names (Dialect.bigQuery.reference name) name ↔ '\\' ∉ name.toList := by
  rw [Quoting.Names, reference_written]
  constructor
  · intro found backslash
    have shorter := length_of_readBody_written found
    rw [if_pos backslash] at shorter
    omega
  · intro noBackslash
    exact Quoting.read_denotes (written_denotes noBackslash) (closes_google [])

/-- A valid reference to a dataset or to one of its columns is one complete GoogleSQL identifier
that denotes the name, under either policy, exactly if the name holds no backslash. -/
theorem bigQuery_reference_names_iff {target : Target} (dialect : target.dialect = .bigQuery)
    {relation : Relation} {dataset : Dataset}
    (resolved : relation.resolve? "bigquery" = some dataset) :
    (∀ sql, (target.datasetName relation).outcome = .ok (.valid sql) →
        (googleIdentifier.Names sql dataset.identifier ↔ '\\' ∉ dataset.identifier.toList)) ∧
      ∀ column sql, (target.columnName relation column).outcome = .ok (.valid sql) →
        (googleIdentifier.Names sql column ↔ '\\' ∉ column.toList) := by
  have engine : target.dialect.engine = "bigquery" := by
    rw [dialect]
    rfl
  constructor
  · intro sql valid
    obtain ⟨found, same, -, rfl⟩ := Target.datasetName_eq_valid_iff.mp valid
    rw [engine, resolved] at same
    cases same
    rw [dialect]
    exact names_reference_iff dataset.identifier
  · intro column sql valid
    obtain ⟨-, -, -, -, rfl⟩ := Target.columnName_eq_valid_iff.mp valid
    rw [dialect]
    exact names_reference_iff column

/-- Of two names that are written with backslashes, the escaped quote is read back and the name
that ends in a backslash is not. -/
theorem escaped_quote_names_and_last_backslash_does_not :
    (Target.datasetName { embeddedQuotes := .escape }
        (.ofColumns "bigquery" "sales\\" ["a`b"])).outcome = .ok (.valid "`sales\\`") ∧
      (Target.columnName { embeddedQuotes := .escape }
        (.ofColumns "bigquery" "sales\\" ["a`b"]) "a`b").outcome = .ok (.valid "`a\\`b`") ∧
      ¬ googleIdentifier.Names "`sales\\`" "sales\\" ∧ googleIdentifier.Names "`a\\`b`" "a`b" := by
  have dataset : (Target.datasetName { embeddedQuotes := .escape }
      (.ofColumns "bigquery" "sales\\" ["a`b"])).outcome = .ok (.valid "`sales\\`") := rfl
  have column : (Target.columnName { embeddedQuotes := .escape }
      (.ofColumns "bigquery" "sales\\" ["a`b"]) "a`b").outcome = .ok (.valid "`a\\`b`") := rfl
  obtain ⟨datasets, columns⟩ := @bigQuery_reference_names_iff { embeddedQuotes := .escape } rfl
    (.ofColumns "bigquery" "sales\\" ["a`b"]) ⟨"bigquery", "sales\\", .ofList ["a`b"]⟩ rfl
  refine ⟨dataset, column, fun named => ?_, (columns _ _ column).mpr (by decide)⟩
  exact (datasets _ dataset).mp named (by decide)

/-- A backslash at the end of a name takes the closing backtick with it. -/
theorem last_backslash_leaves_identifier_open :
    (Target.datasetName {} (.ofColumns "bigquery" "sales\\" [])).outcome =
        .ok (.valid "`sales\\`") ∧
      googleIdentifier.read "`sales\\`".toList = none :=
  ⟨rfl, by decide⟩

end FilterPushdown.Sql
