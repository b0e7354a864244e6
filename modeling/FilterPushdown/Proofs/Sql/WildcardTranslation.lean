import FilterPushdown.Wildcard

/-!
The translation of wildcards to SQL patterns as one substitution.  What one of its passes puts in is
not found by those after it, so each letter has a pattern of its own, and the translation of a text
is put together from those of its parts.  A backslash of a wildcard is left as it is and can be
taken for an escape.  Main statement: the passes replace all letters at once, and wildcards without
backslashes can be told from their translations.
-/

namespace FilterPushdown.Wildcard

variable {v w pattern : List Char}

/-! ## One pass for four -/

/-- The SQL pattern of one letter of a wildcard. -/
def letterPattern (c : Char) : List Char :=
  if c = '%' then ['\\', '%']
  else if c = '_' then ['\\', '_']
  else if c = '*' then ['%']
  else if c = '?' then ['_']
  else [c]

theorem toSqlPattern_nil : toSqlPattern [] = [] := rfl

/-- Every pass goes through the parts of a text one after another. -/
theorem toSqlPattern_append (v w : List Char) :
    toSqlPattern (v ++ w) = toSqlPattern v ++ toSqlPattern w := by
  unfold toSqlPattern
  rw [Text.replaceLetter_append, Text.replaceLetter_append, Text.replaceLetter_append,
    Text.replaceLetter_append]

/-- Four letters are replaced, and the others stay. -/
theorem replaced_or_kept (c : Char) :
    c = '%' ∨ c = '_' ∨ c = '*' ∨ c = '?' ∨
      (c ≠ '%' ∧ c ≠ '_' ∧ c ≠ '*' ∧ c ≠ '?') ∧ letterPattern c = [c] := by
  by_cases percent : c = '%'
  · exact .inl percent
  by_cases underscore : c = '_'
  · exact .inr (.inl underscore)
  by_cases star : c = '*'
  · exact .inr (.inr (.inl star))
  by_cases mark : c = '?'
  · exact .inr (.inr (.inr (.inl mark)))
  simp [letterPattern, percent, underscore, star, mark]

/-- What one pass puts in for a letter is not found by those after it. -/
theorem toSqlPattern_singleton (c : Char) : toSqlPattern [c] = letterPattern c := by
  rcases replaced_or_kept c with
    rfl | rfl | rfl | rfl | ⟨⟨percent, underscore, star, mark⟩, kept⟩
  · rfl
  · rfl
  · rfl
  · rfl
  · rw [kept]
    simp [toSqlPattern, Text.replaceLetter, percent, underscore, star, mark]

theorem toSqlPattern_cons (c : Char) (pattern : List Char) :
    toSqlPattern (c :: pattern) = letterPattern c ++ toSqlPattern pattern := by
  rw [← List.singleton_append, toSqlPattern_append, toSqlPattern_singleton]

theorem toSqlPattern_eq_flatMap (pattern : List Char) :
    toSqlPattern pattern = pattern.flatMap letterPattern := by
  induction pattern with
  | nil => rfl
  | cons c pattern ih => rw [toSqlPattern_cons, ih, List.flatMap_cons]

/-! ## What the translation merges -/

/-- A wildcard as its translation shows it: a star after a backslash is a percent sign, and a
question mark after a backslash an underscore. -/
def merged : List Char → List Char
  | [] => []
  | '\\' :: '*' :: pattern => '%' :: merged pattern
  | '\\' :: '?' :: pattern => '_' :: merged pattern
  | c :: pattern => c :: merged pattern

/-- The wildcard that an SQL pattern shows. -/
def ofSqlPattern : List Char → List Char
  | [] => []
  | '\\' :: '%' :: pattern => '%' :: ofSqlPattern pattern
  | '\\' :: '_' :: pattern => '_' :: ofSqlPattern pattern
  | '%' :: pattern => '*' :: ofSqlPattern pattern
  | '_' :: pattern => '?' :: ofSqlPattern pattern
  | c :: pattern => c :: ofSqlPattern pattern

/-- No star and no question mark of a wildcard comes after a backslash. -/
def Unmasked (pattern : List Char) : Prop :=
  ¬ ['\\', '*'] <:+: pattern ∧ ¬ ['\\', '?'] <:+: pattern

theorem Unmasked.tail {c : Char} (unmasked : Unmasked (c :: pattern)) : Unmasked pattern :=
  ⟨fun inside => unmasked.1 (List.infix_cons inside),
    fun inside => unmasked.2 (List.infix_cons inside)⟩

theorem merged_of_unmasked (unmasked : Unmasked pattern) : merged pattern = pattern := by
  fun_induction merged pattern with
  | case1 => rfl
  | case2 pattern => exact absurd (List.prefix_append ['\\', '*'] pattern).isInfix unmasked.1
  | case3 pattern => exact absurd (List.prefix_append ['\\', '?'] pattern).isInfix unmasked.2
  | case4 c pattern _ _ ih => rw [ih unmasked.tail]

/-- Percent signs and underscores that nothing escapes come from stars and question marks only. -/
theorem first_of_toSqlPattern {d : Char} {rest : List Char}
    (begins : toSqlPattern pattern = d :: rest) :
    (d = '%' → ∃ more, pattern = '*' :: more) ∧ (d = '_' → ∃ more, pattern = '?' :: more) := by
  cases pattern with
  | nil => cases begins
  | cons c pattern =>
    rw [toSqlPattern_cons] at begins
    unfold letterPattern at begins
    split at begins
    · cases begins
      simp
    split at begins
    · cases begins
      simp
    split at begins
    · cases begins
      simp_all
    split at begins
    · cases begins
      simp_all
    · cases begins
      simp_all

/-- The translation of a wildcard shows it as merged. -/
theorem ofSqlPattern_toSqlPattern (pattern : List Char) :
    ofSqlPattern (toSqlPattern pattern) = merged pattern := by
  fun_induction merged pattern with
  | case1 => rfl
  | case2 pattern ih =>
    rw [toSqlPattern_cons, toSqlPattern_cons]
    exact congrArg (List.cons '%') ih
  | case3 pattern ih =>
    rw [toSqlPattern_cons, toSqlPattern_cons]
    exact congrArg (List.cons '_') ih
  | case4 c pattern noStar noMark ih =>
    rw [toSqlPattern_cons, ← ih]
    rcases replaced_or_kept c with rfl | rfl | rfl | rfl | ⟨⟨percent, underscore, -, -⟩, kept⟩
    · rfl
    · rfl
    · rfl
    · rfl
    rw [kept, List.singleton_append, ofSqlPattern]
    · intro rest backslash begins
      obtain ⟨more, same⟩ := (first_of_toSqlPattern begins).1 rfl
      exact noStar more backslash same
    · intro rest backslash begins
      obtain ⟨more, same⟩ := (first_of_toSqlPattern begins).2 rfl
      exact noMark more backslash same
    · exact percent
    · exact underscore

/-- A wildcard is translated as it is merged. -/
theorem toSqlPattern_merged (pattern : List Char) :
    toSqlPattern (merged pattern) = toSqlPattern pattern := by
  fun_induction merged pattern with
  | case1 => rfl
  | case2 pattern ih =>
    simp only [toSqlPattern_cons, ih]
    rfl
  | case3 pattern ih =>
    simp only [toSqlPattern_cons, ih]
    rfl
  | case4 c pattern _ _ ih => simp only [toSqlPattern_cons, ih]

theorem toSqlPattern_eq_iff : toSqlPattern v = toSqlPattern w ↔ merged v = merged w := by
  constructor
  · intro same
    rw [← ofSqlPattern_toSqlPattern, same, ofSqlPattern_toSqlPattern]
  · intro same
    rw [← toSqlPattern_merged, same, toSqlPattern_merged]

/-- Without backslashes nothing is merged. -/
theorem merged_of_not_mem (noBackslash : '\\' ∉ pattern) : merged pattern = pattern :=
  merged_of_unmasked
    ⟨fun inside => noBackslash (inside.subset List.mem_cons_self),
      fun inside => noBackslash (inside.subset List.mem_cons_self)⟩

/-! ## Wildcards as texts -/

/-- The four passes replace every letter of a wildcard by its own pattern, all at once.  So the
translation of two wildcards in a row is that of the first and then that of the second, and two
wildcards without backslashes have the same translation only if they are the same. -/
theorem sqlPattern_replaces_letters_at_once :
    (∀ wildcard : String,
        sqlPattern wildcard = String.ofList (wildcard.toList.flatMap letterPattern)) ∧
      (∀ first second : String,
        sqlPattern (first ++ second) = sqlPattern first ++ sqlPattern second) ∧
      ∀ first second : String, '\\' ∉ first.toList → '\\' ∉ second.toList →
        (sqlPattern first = sqlPattern second ↔ first = second) := by
  refine ⟨fun wildcard => ?_, fun first second => ?_, fun first second left right => ?_⟩
  · rw [sqlPattern, toSqlPattern_eq_flatMap]
  · rw [sqlPattern, String.toList_append, toSqlPattern_append, String.ofList_append]
    rfl
  · rw [sqlPattern, sqlPattern, String.ofList_inj, toSqlPattern_eq_iff, merged_of_not_mem left,
      merged_of_not_mem right, String.toList_inj]

/-- Signs that SQL takes for wildcards and wildcards that become such signs are kept apart. -/
theorem percent_sign_and_star_are_translated_apart :
    sqlPattern "5%*" = String.ofList ("5%*".toList.flatMap letterPattern) ∧
      sqlPattern "5%*" = sqlPattern "5%" ++ sqlPattern "*" ∧
      sqlPattern "5%*" ≠ sqlPattern "5*%" := by
  obtain ⟨letters, parts, apart⟩ := sqlPattern_replaces_letters_at_once
  refine ⟨letters "5%*", parts "5%" "*", fun same => ?_⟩
  simpa using (apart "5%*" "5*%" (by simp) (by simp)).mp same

end FilterPushdown.Wildcard
