import FilterPushdown.Proofs.Dialect.Requirements
import FilterPushdown.Proofs.Sql.DialectLexicon

/-!
Identifiers between quotes that are doubled inside.  This is what a dialect does unless it is told
otherwise, with any single character as its quote.  Main statement: a valid reference to a dataset
or to a column is read as the name, in front of every text that does not begin with the quote; and
where quotes are rejected, the name between them holds none.
-/

namespace FilterPushdown

namespace Sql

/-- Quoted text in which two quotes stand for one, and the first single quote ends the text. -/
def Quoting.doubling (quote : Char) : Quoting where
  quote := quote
  pair? c d := if c = quote ∧ d = quote then some quote else none

/-- A name with doubled quotes stands for the name. -/
theorem doubling_denotes (quote : Char) (name : List Char) :
    (Quoting.doubling quote).Denotes (Text.replaceLetter quote [quote, quote] name) name := by
  induction name with
  | nil => exact .nil
  | cons c name ih =>
    rw [Text.replaceLetter_cons]
    by_cases same : c = quote
    · rw [if_pos same, same]
      exact .pair (if_pos ⟨rfl, rfl⟩) ih
    · rw [if_neg same]
      exact .plain same (fun d => if_neg fun doubled => same doubled.1) ih

/-- SQL text that ends a name where it has to, for one target. -/
structure Delimits (target : Target) (sql name : String) : Prop where
  /-- Whatever comes after it, unless it begins with the quote. -/
  reads : (Quoting.doubling target.dialect.identifierQuote).ReadsBefore sql name
  /-- Where quotes are rejected, the first and the last letter are the only ones. -/
  outermost : target.embeddedQuotes = .reject →
    ∃ letters, target.dialect.identifierQuote ∉ letters ∧
      sql.toList = target.dialect.identifierQuote :: (letters ++ [target.dialect.identifierQuote])

end Sql

namespace Dialect

/-- Whether a quote inside an identifier is written twice. -/
def DoublesQuote (dialect : Dialect) : Prop :=
  dialect.escapedIdentifierQuote = String.ofList [dialect.identifierQuote, dialect.identifierQuote]

/-- A dialect that is not told how to escape its quote doubles it. -/
theorem doublesQuote_of_default {options : Options} {dialect : Dialect}
    (accepted : ofOptions options = .ok dialect) (default : options.escapedIdentifierQuote = none) :
    dialect.DoublesQuote := by
  rw [DoublesQuote, (rules_of_ofOptions accepted).1, default, Option.getD_none]

end Dialect

namespace Target

variable {target : Target}

/-- The reference to a name that the policy admits ends where it has to. -/
theorem delimits_reference (doubles : target.dialect.DoublesQuote) {name : String}
    (admits : target.Admits name) : Sql.Delimits target (target.dialect.reference name) name where
  reads := by
    have written := target.dialect.reference_toList name
    rw [doubles, String.toList_ofList] at written
    exact Sql.Quoting.readsBefore_of_denotes written (Sql.doubling_denotes _ name.toList)
      fun d other => if_neg fun doubled => other doubled.2
  outermost := by
    intro rejects
    have unquoted : target.dialect.identifierQuote ∉ name.toList := by
      intro quoted
      have policy := admits quoted
      rw [rejects] at policy
      cases policy
    refine ⟨name.toList, unquoted, ?_⟩
    rw [Dialect.reference_toList, Text.replaceLetter_of_not_mem unquoted]

/-- In a dialect that doubles its quote, whatever character that is, the names that have a valid
reference are those that the policy admits, and every valid reference to a dataset or to one of its
columns is read as the name, in front of whatever does not begin with the quote. -/
theorem doubled_reference_reads_back (doubles : target.dialect.DoublesQuote) {relation : Relation}
    {dataset : Dataset} (resolved : relation.resolve? target.dialect.engine = some dataset) :
    (((∃ sql, (target.datasetName relation).outcome = .ok (.valid sql)) ↔
          target.Admits dataset.identifier) ∧
        ∀ sql, (target.datasetName relation).outcome = .ok (.valid sql) →
          Sql.Delimits target sql dataset.identifier) ∧
      ∀ column,
        ((∃ sql, (target.columnName relation column).outcome = .ok (.valid sql)) ↔
            column ∈ dataset.columns ∧ target.Admits column) ∧
          ∀ sql, (target.columnName relation column).outcome = .ok (.valid sql) →
            Sql.Delimits target sql column := by
  refine ⟨⟨?_, ?_⟩, fun column => ⟨?_, ?_⟩⟩
  · simp [datasetName_eq_valid_iff, resolved]
  · intro sql valid
    obtain ⟨found, same, admits, rfl⟩ := datasetName_eq_valid_iff.mp valid
    rw [resolved] at same
    cases same
    exact delimits_reference doubles admits
  · simp [columnName_eq_valid_iff, resolved]
  · intro sql valid
    obtain ⟨_, _, _, admits, rfl⟩ := columnName_eq_valid_iff.mp valid
    exact delimits_reference doubles admits

/-- The quote may be a character outside the basic plane, and is doubled by default: a column that
begins and ends with it is read back in front of a text that holds further quotes. -/
theorem column_of_quotes_reads_back :
    ∃ dialect : Dialect,
      Dialect.ofOptions ⟨"Signs", "signs", "😀", none, none, none⟩ = .ok dialect ∧
        dialect.DoublesQuote ∧
        (Relation.ofColumns "signs" "t" ["😀a😀"]).resolve? dialect.engine =
          some ⟨"signs", "t", .ofList ["😀a😀"]⟩ ∧
        ∃ sql, (columnName ⟨dialect, .escape, none⟩ (.ofColumns "signs" "t" ["😀a😀"])
            "😀a😀").outcome = .ok (.valid sql) ∧
          (Sql.Quoting.doubling '😀').read (sql ++ " = 😀b😀").toList =
            some ("😀a😀".toList, " = 😀b😀".toList) := by
  have accepted : ∃ dialect, Dialect.ofOptions ⟨"Signs", "signs", "😀", none, none, none⟩ =
      .ok dialect ∧ dialect.identifierQuote = '😀' ∧ dialect.engine = "signs" := ⟨_, rfl, rfl, rfl⟩
  obtain ⟨dialect, accepted, quote, engine⟩ := accepted
  have doubles := Dialect.doublesQuote_of_default accepted rfl
  have resolved : (Relation.ofColumns "signs" "t" ["😀a😀"]).resolve? dialect.engine =
      some ⟨"signs", "t", .ofList ["😀a😀"]⟩ := by
    rw [engine]
    rfl
  obtain ⟨-, columns⟩ := @doubled_reference_reads_back ⟨dialect, .escape, none⟩ doubles _ _ resolved
  obtain ⟨named, delimits⟩ := columns "😀a😀"
  obtain ⟨sql, valid⟩ := named.mpr ⟨by decide, fun _ => rfl⟩
  refine ⟨dialect, accepted, doubles, resolved, sql, valid, ?_⟩
  have read := (delimits sql valid).reads " = 😀b😀"
  simp only [quote] at read
  exact read (by decide)

end Target

end FilterPushdown
