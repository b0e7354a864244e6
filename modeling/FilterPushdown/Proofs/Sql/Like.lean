import FilterPushdown.Proofs.Compilation.FirstFault
import FilterPushdown.Proofs.Sql.DialectLexicon
import FilterPushdown.Proofs.Sql.WildcardTranslation

/-!
Wildcards and SQL patterns.  Both kinds of pattern are given by what they match, and the
translation between them works letter by letter.  Main statement: what a LIKE comparison is
compiled to matches a text exactly if the wildcard does, as long as the wildcard holds no
backslash.
-/

namespace FilterPushdown

/-! ## The two kinds of pattern -/

/-- Whether a text matches a wildcard: a star stands for any run of letters, a question mark for
one letter, and every other letter for itself. -/
inductive Wildcard.Matches : List Char → List Char → Prop where
  | nil : Matches [] []
  | star (run : List Char) (rest : Matches pattern text) :
      Matches ('*' :: pattern) (run ++ text)
  | mark (c : Char) (rest : Matches pattern text) : Matches ('?' :: pattern) (c :: text)
  | letter (notStar : c ≠ '*') (notMark : c ≠ '?') (rest : Matches pattern text) :
      Matches (c :: pattern) (c :: text)

/-- Whether a text is LIKE an SQL pattern: a percent sign stands for any run of letters, an
underscore for one letter, a backslash and the next letter for that letter, and every other letter
for itself. -/
inductive Sql.Like : List Char → List Char → Prop where
  | nil : Like [] []
  | percent (run : List Char) (rest : Like pattern text) : Like ('%' :: pattern) (run ++ text)
  | underscore (c : Char) (rest : Like pattern text) : Like ('_' :: pattern) (c :: text)
  | escaped (c : Char) (rest : Like pattern text) : Like ('\\' :: c :: pattern) (c :: text)
  | letter (notPercent : c ≠ '%') (notUnderscore : c ≠ '_') (notBackslash : c ≠ '\\')
      (rest : Like pattern text) : Like (c :: pattern) (c :: text)

/-! ## What they match, letter by letter -/

namespace Wildcard

variable {pattern text : List Char}

theorem matches_nil_iff : Matches [] text ↔ text = [] := by
  constructor
  · rintro ⟨⟩
    rfl
  · rintro rfl
    exact .nil

theorem matches_star_iff :
    Matches ('*' :: pattern) text ↔ ∃ run rest, text = run ++ rest ∧ Matches pattern rest := by
  constructor
  · intro found
    cases found with
    | star run rest => exact ⟨run, _, rfl, rest⟩
    | letter notStar => exact absurd rfl notStar
  · rintro ⟨run, rest, rfl, found⟩
    exact .star run found

theorem matches_mark_iff :
    Matches ('?' :: pattern) text ↔ ∃ c rest, text = c :: rest ∧ Matches pattern rest := by
  constructor
  · intro found
    cases found with
    | mark c rest => exact ⟨c, _, rfl, rest⟩
    | letter _ notMark => exact absurd rfl notMark
  · rintro ⟨c, rest, rfl, found⟩
    exact .mark c found

theorem matches_letter_iff {c : Char} (notStar : c ≠ '*') (notMark : c ≠ '?') :
    Matches (c :: pattern) text ↔ ∃ rest, text = c :: rest ∧ Matches pattern rest := by
  constructor
  · intro found
    cases found with
    | star => exact absurd rfl notStar
    | mark => exact absurd rfl notMark
    | letter _ _ rest => exact ⟨_, rfl, rest⟩
  · rintro ⟨rest, rfl, found⟩
    exact .letter notStar notMark found

end Wildcard

namespace Sql

variable {pattern text : List Char}

theorem like_nil_iff : Like [] text ↔ text = [] := by
  constructor
  · rintro ⟨⟩
    rfl
  · rintro rfl
    exact .nil

theorem like_percent_iff :
    Like ('%' :: pattern) text ↔ ∃ run rest, text = run ++ rest ∧ Like pattern rest := by
  constructor
  · intro found
    cases found with
    | percent run rest => exact ⟨run, _, rfl, rest⟩
    | letter notPercent => exact absurd rfl notPercent
  · rintro ⟨run, rest, rfl, found⟩
    exact .percent run found

theorem like_underscore_iff :
    Like ('_' :: pattern) text ↔ ∃ c rest, text = c :: rest ∧ Like pattern rest := by
  constructor
  · intro found
    cases found with
    | underscore c rest => exact ⟨c, _, rfl, rest⟩
    | letter _ notUnderscore => exact absurd rfl notUnderscore
  · rintro ⟨c, rest, rfl, found⟩
    exact .underscore c found

theorem like_escaped_iff {c : Char} :
    Like ('\\' :: c :: pattern) text ↔ ∃ rest, text = c :: rest ∧ Like pattern rest := by
  constructor
  · intro found
    cases found with
    | escaped _ rest => exact ⟨_, rfl, rest⟩
    | letter _ _ notBackslash => exact absurd rfl notBackslash
  · rintro ⟨rest, rfl, found⟩
    exact .escaped c found

theorem like_letter_iff {c : Char} (notPercent : c ≠ '%') (notUnderscore : c ≠ '_')
    (notBackslash : c ≠ '\\') :
    Like (c :: pattern) text ↔ ∃ rest, text = c :: rest ∧ Like pattern rest := by
  constructor
  · intro found
    cases found with
    | percent => exact absurd rfl notPercent
    | underscore => exact absurd rfl notUnderscore
    | escaped => exact absurd rfl notBackslash
    | letter _ _ _ rest => exact ⟨_, rfl, rest⟩
  · rintro ⟨rest, rfl, found⟩
    exact .letter notPercent notUnderscore notBackslash found

/-- The SQL pattern of a wildcard without backslashes matches what the wildcard matches. -/
theorem like_toSqlPattern_iff {wildcard : List Char} (noBackslash : '\\' ∉ wildcard) :
    Like (Wildcard.toSqlPattern wildcard) text ↔ Wildcard.Matches wildcard text := by
  induction wildcard generalizing text with
  | nil => rw [Wildcard.toSqlPattern_nil, like_nil_iff, Wildcard.matches_nil_iff]
  | cons c wildcard ih =>
    simp only [List.mem_cons, not_or] at noBackslash
    have later (rest : List Char) := @ih rest noBackslash.2
    rw [Wildcard.toSqlPattern_cons]
    rcases Wildcard.replaced_or_kept c with
      rfl | rfl | rfl | rfl | ⟨⟨percent, underscore, star, mark⟩, kept⟩
    · change Like ('\\' :: '%' :: Wildcard.toSqlPattern wildcard) text ↔ _
      rw [like_escaped_iff, Wildcard.matches_letter_iff (by decide) (by decide)]
      simp only [later]
    · change Like ('\\' :: '_' :: Wildcard.toSqlPattern wildcard) text ↔ _
      rw [like_escaped_iff, Wildcard.matches_letter_iff (by decide) (by decide)]
      simp only [later]
    · change Like ('%' :: Wildcard.toSqlPattern wildcard) text ↔ _
      rw [like_percent_iff, Wildcard.matches_star_iff]
      simp only [later]
    · change Like ('_' :: Wildcard.toSqlPattern wildcard) text ↔ _
      rw [like_underscore_iff, Wildcard.matches_mark_iff]
      simp only [later]
    · rw [kept, List.singleton_append, Wildcard.matches_letter_iff star mark,
        like_letter_iff percent underscore (Ne.symm noBackslash.1)]
      simp only [later]

end Sql

/-! ## Compiled comparisons -/

namespace Dialect

/-- How string literals are read: a doubled apostrophe stands for one, and where backslashes escape
a backslash and the next letter stand for that letter. -/
def literalRules (dialect : Dialect) : Sql.Quoting where
  quote := '\''
  pair? c d :=
    if c = '\\' ∧ dialect.backslashEscapes = true then some d
    else if c = '\'' ∧ d = '\'' then some '\''
    else none

/-- These rules are good for every built-in dialect, however it escapes an apostrophe. -/
theorem undoes_literalRules {dialect : Dialect} (member : dialect ∈ builtIn) :
    Undoes dialect.literalRules dialect where
  quote := rfl
  escape := by
    obtain ⟨mark, written, regime⟩ := literalMark_of_mem_builtIn member
    refine ⟨mark, written, ?_⟩
    rcases regime with rfl | ⟨rfl, escapes⟩
    · simp [literalRules]
    · simp [literalRules, escapes]
  doubled escapes := by simp [literalRules, escapes]
  plain c apostrophe doubled d := by simp [literalRules, apostrophe, doubled]

end Dialect

namespace Target

variable {target : Target} {relation : Relation}

/-- A comparison of patterns has SQL text if its column has a name, and which. -/
theorem compile_like_eq_valid_iff {column value sql : String} :
    (target.compile relation (.comparison column .like (.text value))).outcome =
        .ok (.valid sql) ↔
      ∃ name, (target.columnName relation column).outcome = .ok (.valid name) ∧
        sql = name ++ " LIKE " ++ target.dialect.quoteString (Wildcard.sqlPattern value) := by
  rw [compile, outcome_andThen_eq_valid_iff]
  simp [comparison, eq_comm]

/-- Under every built-in dialect, a comparison of patterns is compiled to LIKE and a string literal
that is read back as an SQL pattern, with doubled apostrophes as well as with the dialect's own
escapes.  This pattern matches exactly the texts that the wildcard matches, whatever percent signs,
underscores and apostrophes it holds; only backslashes it must not hold. -/
theorem like_literal_matches_wildcard (member : target.dialect ∈ Dialect.builtIn)
    (column : String) {value : String} (noBackslash : '\\' ∉ value.toList) :
    ∃ literal pattern,
      (∀ sql, (target.compile relation (.comparison column .like (.text value))).outcome =
          .ok (.valid sql) ↔
        ∃ name, (target.columnName relation column).outcome = .ok (.valid name) ∧
          sql = name ++ " LIKE " ++ literal) ∧
      target.dialect.literalRules.read literal.toList = some (pattern, []) ∧
      target.dialect.lexicon.literal.read literal.toList = some (pattern, []) ∧
      ∀ subject : String,
        Sql.Like pattern subject.toList ↔ Wildcard.Matches value.toList subject.toList := by
  obtain ⟨mark, marked⟩ := Dialect.literalMark_of_mem_builtIn member
  have doubled := (Dialect.undoes_literalRules member).read_quoteString (Wildcard.sqlPattern value)
  have own := (Dialect.undoes_lexicon marked).read_quoteString (Wildcard.sqlPattern value)
  rw [Wildcard.sqlPattern, String.toList_ofList] at doubled own
  exact ⟨target.dialect.quoteString (Wildcard.sqlPattern value),
    Wildcard.toSqlPattern value.toList, fun _ => compile_like_eq_valid_iff, doubled, own,
    fun _ => Sql.like_toSqlPattern_iff noBackslash⟩

/-- In MySQL, where backslashes and apostrophes are doubled in literals, a percent sign of a
wildcard matches a percent sign only, and its apostrophe an apostrophe. -/
theorem percent_sign_matches_itself :
    ∃ literal pattern,
      (Target.compile { dialect := .mySql } (.ofColumns "mysql" "t" ["a"])
        (.comparison "a" .like (.text "5%*'?"))).outcome = .ok (.valid ("`a` LIKE " ++ literal)) ∧
      Dialect.mySql.literalRules.read literal.toList = some (pattern, []) ∧
      Sql.Like pattern "5% it's".toList ∧ ¬ Sql.Like pattern "50 it's".toList := by
  have noBackslash : '\\' ∉ "5%*'?".toList := by simp
  have member : Dialect.mySql ∈ Dialect.builtIn := by simp [Dialect.builtIn]
  obtain ⟨literal, pattern, compiled, read, -, same⟩ :=
    @like_literal_matches_wildcard { dialect := .mySql } (.ofColumns "mysql" "t" ["a"]) member "a"
      _ noBackslash
  refine ⟨literal, pattern, (compiled _).mpr ⟨"`a`", rfl, rfl⟩, read, (same "5% it's").mpr ?_,
    fun found => ?_⟩
  · have last : Wildcard.Matches ['\'', '?'] ['\'', 's'] :=
      .letter (by decide) (by decide) (.mark 's' .nil)
    exact .letter (by decide) (by decide)
      (.letter (by decide) (by decide) (.star [' ', 'i', 't'] last))
  · have matched := (same "50 it's").mp found
    simp [Wildcard.matches_letter_iff] at matched

end Target

end FilterPushdown
