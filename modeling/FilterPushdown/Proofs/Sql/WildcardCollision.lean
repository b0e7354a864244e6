import FilterPushdown.Proofs.Sql.Like

/-!
Wildcards that the translation to SQL confuses.  A backslash of a wildcard is left as it is, so in
front of a star it makes the escaped percent sign that a percent sign makes too, and in front of a
question mark the escaped underscore.  Main statement: this is all that is confused, and two
wildcards that are confused are always told apart by some text.
-/

namespace FilterPushdown

namespace Wildcard

variable {v w pattern : List Char}

/-! ## Confused wildcards are told apart -/

/-- A wildcard without its stars. -/
def withoutStars (pattern : List Char) : List Char := pattern.filter (· ≠ '*')

theorem withoutStars_star (pattern : List Char) :
    withoutStars ('*' :: pattern) = withoutStars pattern := by
  simp [withoutStars]

theorem withoutStars_cons {c : Char} (notStar : c ≠ '*') (pattern : List Char) :
    withoutStars (c :: pattern) = c :: withoutStars pattern := by
  simp [withoutStars, notStar]

/-- What is left of a wildcard without its stars is a text that it matches. -/
theorem matches_withoutStars (pattern : List Char) : Matches pattern (withoutStars pattern) := by
  induction pattern with
  | nil => exact .nil
  | cons c pattern ih =>
    by_cases star : c = '*'
    · subst star
      rw [withoutStars_star]
      exact .star [] ih
    rw [withoutStars_cons star]
    by_cases mark : c = '?'
    · subst mark
      exact .mark '?' ih
    · exact .letter star mark ih

/-- It is one of the shortest. -/
theorem length_withoutStars_le {text : List Char} (found : Matches pattern text) :
    (withoutStars pattern).length ≤ text.length := by
  induction found with
  | nil => exact Nat.le_refl 0
  | star run rest ih =>
    rw [withoutStars_star, List.length_append]
    exact Nat.le_add_left_of_le ih
  | mark c rest ih =>
    rw [withoutStars_cons (by decide)]
    exact Nat.succ_le_succ ih
  | letter notStar notMark rest ih =>
    rw [withoutStars_cons notStar]
    exact Nat.succ_le_succ ih

/-- In a shortest text no star stands for a letter. -/
theorem withoutStars_matches {text : List Char} (found : Matches pattern text)
    (shortest : text.length ≤ (withoutStars pattern).length) :
    Matches (withoutStars pattern) text := by
  induction found with
  | nil => exact .nil
  | @star pattern text run rest ih =>
    rw [withoutStars_star, List.length_append] at shortest
    have most := length_withoutStars_le rest
    have noRun : run = [] := List.eq_nil_of_length_eq_zero (by omega)
    subst noRun
    rw [withoutStars_star]
    exact ih (Nat.le_trans (Nat.le_add_left ..) shortest)
  | mark c rest ih =>
    rw [withoutStars_cons (by decide)] at shortest ⊢
    exact .mark c (ih (Nat.le_of_succ_le_succ shortest))
  | letter notStar notMark rest ih =>
    rw [withoutStars_cons notStar] at shortest ⊢
    exact .letter notStar notMark (ih (Nat.le_of_succ_le_succ shortest))

/-- A first letter that is no star matches any letter or itself. -/
theorem matches_cons_cons {c d : Char} {text : List Char} (notStar : c ≠ '*')
    (found : Matches (c :: pattern) (d :: text)) : (c = '?' ∨ c = d) ∧ Matches pattern text := by
  by_cases mark : c = '?'
  · subst mark
    obtain ⟨_, _, same, rest⟩ := matches_mark_iff.mp found
    cases same
    exact ⟨.inl rfl, rest⟩
  · obtain ⟨_, same, rest⟩ := (matches_letter_iff notStar mark).mp found
    cases same
    exact ⟨.inr rfl, rest⟩

/-- Two wildcards without stars that match each other are the same. -/
theorem eq_of_matches_each_other (noStar : '*' ∉ v) (noStar' : '*' ∉ w) (left : Matches v w)
    (right : Matches w v) : v = w := by
  induction v generalizing w with
  | nil => exact (matches_nil_iff.mp left).symm
  | cons c v ih =>
    cases w with
    | nil => exact matches_nil_iff.mp right
    | cons d w =>
      rw [List.mem_cons, not_or] at noStar noStar'
      obtain ⟨first, left⟩ := matches_cons_cons (Ne.symm noStar.1) left
      obtain ⟨second, right⟩ := matches_cons_cons (Ne.symm noStar'.1) right
      have same : c = d := by
        rcases first with rfl | same
        · rcases second with rfl | same
          · rfl
          · exact same.symm
        · exact same
      rw [same, ih noStar.2 noStar'.2 left right]

/-- Wildcards that match the same texts differ by stars only. -/
theorem withoutStars_eq_of_matches_iff
    (agree : ∀ text, Matches v text ↔ Matches w text) : withoutStars v = withoutStars w := by
  have left := (agree (withoutStars w)).mpr (matches_withoutStars w)
  have right := (agree (withoutStars v)).mp (matches_withoutStars v)
  have most := length_withoutStars_le left
  have least := length_withoutStars_le right
  have noStar (pattern : List Char) : '*' ∉ withoutStars pattern := by simp [withoutStars]
  exact eq_of_matches_each_other (noStar v) (noStar w) (withoutStars_matches left least)
    (withoutStars_matches right most)

theorem merged_eq_nil (ends : merged pattern = []) : pattern = [] := by
  rw [merged.eq_def] at ends
  split at ends
  · rfl
  all_goals cases ends

/-- The ways in which a merged wildcard begins. -/
theorem merged_eq_cons {d : Char} {rest : List Char} (begins : merged pattern = d :: rest) :
    (∃ more, pattern = d :: more ∧ merged more = rest) ∨
      (∃ more, pattern = '\\' :: '*' :: more ∧ d = '%' ∧ merged more = rest) ∨
        ∃ more, pattern = '\\' :: '?' :: more ∧ d = '_' ∧ merged more = rest := by
  rw [merged.eq_def] at begins
  split at begins
  · cases begins
  · cases begins
    exact .inr (.inl ⟨_, rfl, rfl, rfl⟩)
  · cases begins
    exact .inr (.inr ⟨_, rfl, rfl, rfl⟩)
  · cases begins
    exact .inl ⟨_, rfl, rfl⟩

/-- The letters outside stars tell which of the confused wildcards it is: one of them has a
backslash where the other has a percent sign or an underscore. -/
theorem eq_of_merged_eq (same : merged v = merged w) (letters : withoutStars v = withoutStars w) :
    v = w := by
  fun_induction merged v generalizing w with
  | case1 => exact (merged_eq_nil same.symm).symm
  | case2 v ih =>
    rcases merged_eq_cons same.symm with ⟨w, rfl, later⟩ | ⟨w, rfl, -, later⟩ | ⟨w, rfl, no, -⟩
    · simp [withoutStars] at letters
    · rw [ih later.symm (by simpa [withoutStars] using letters)]
    · cases no
  | case3 v ih =>
    rcases merged_eq_cons same.symm with ⟨w, rfl, later⟩ | ⟨w, rfl, no, -⟩ | ⟨w, rfl, -, later⟩
    · simp [withoutStars] at letters
    · cases no
    · rw [ih later.symm (by simpa [withoutStars] using letters)]
  | case4 c v _ _ ih =>
    rcases merged_eq_cons same.symm with ⟨w, rfl, later⟩ | ⟨w, rfl, rfl, -⟩ | ⟨w, rfl, rfl, -⟩
    · by_cases star : c = '*'
      · subst star
        rw [withoutStars_star, withoutStars_star] at letters
        rw [ih later.symm letters]
      · rw [withoutStars_cons star, withoutStars_cons star] at letters
        rw [ih later.symm (List.cons.inj letters).2]
    · simp [withoutStars] at letters
    · simp [withoutStars] at letters

/-- Two different wildcards with the same translation are told apart by some text. -/
theorem exists_text_of_merged_eq (same : merged v = merged w) (differ : v ≠ w) :
    ∃ text, ¬ (Matches v text ↔ Matches w text) := by
  refine Classical.byContradiction fun none => differ ?_
  have agree text : Matches v text ↔ Matches w text :=
    Classical.byContradiction fun apart => none ⟨text, apart⟩
  exact eq_of_merged_eq same (withoutStars_eq_of_matches_iff agree)

end Wildcard

/-! ## Compiled comparisons -/

namespace Dialect

/-- Different values are written as different literals. -/
theorem quoteString_eq_iff {dialect : Dialect} {mark : Char} (marked : dialect.LiteralMark mark)
    {first second : String} :
    dialect.quoteString first = dialect.quoteString second ↔ first = second := by
  constructor
  · intro same
    have left := (undoes_lexicon marked).read_quoteString first
    have right := (undoes_lexicon marked).read_quoteString second
    rw [same, right] at left
    exact (String.toList_injective (congrArg Prod.fst (Option.some.inj left))).symm
  · rintro rfl
    rfl

end Dialect

namespace Target

variable {target : Target} {relation : Relation}

/-- For one column of a dataset, under every built-in dialect, all comparisons of patterns have SQL
text.  Two wildcards have the same text, though some subject matches only one of them, exactly if
they are different and the same once merged: if they differ only in that one has a star after a
backslash where the other has a percent sign, or a question mark after a backslash where the other
has an underscore.  Wildcards without stars and question marks after backslashes are never
confused. -/
theorem wildcards_confused_iff (member : target.dialect ∈ Dialect.builtIn) {column name : String}
    (accepted : (target.columnName relation column).outcome = .ok (.valid name)) (v w : String) :
    ∃ first second,
      (target.compile relation (.comparison column .like (.text v))).outcome =
          .ok (.valid first) ∧
        (target.compile relation (.comparison column .like (.text w))).outcome =
          .ok (.valid second) ∧
        ((first = second ∧ ∃ subject : String,
            ¬ (Wildcard.Matches v.toList subject.toList ↔
              Wildcard.Matches w.toList subject.toList)) ↔
          v ≠ w ∧ Wildcard.merged v.toList = Wildcard.merged w.toList) ∧
        (Wildcard.Unmasked v.toList → Wildcard.Unmasked w.toList → ∀ subject : String,
          Wildcard.Matches v.toList subject.toList →
            ¬ Wildcard.Matches w.toList subject.toList → first ≠ second) := by
  obtain ⟨mark, marked⟩ := Dialect.literalMark_of_mem_builtIn member
  let sql (value : String) : String :=
    name ++ " LIKE " ++ target.dialect.quoteString (Wildcard.sqlPattern value)
  have compiled (value : String) :
      (target.compile relation (.comparison column .like (.text value))).outcome =
        .ok (.valid (sql value)) := compile_like_eq_valid_iff.mpr ⟨name, accepted, rfl⟩
  have same_iff : sql v = sql w ↔ Wildcard.merged v.toList = Wildcard.merged w.toList := by
    rw [← Wildcard.toSqlPattern_eq_iff, String.append_right_inj, Dialect.quoteString_eq_iff marked]
    exact String.ofList_inj
  refine ⟨sql v, sql w, compiled v, compiled w, ?_, ?_⟩
  · rw [same_iff]
    constructor
    · rintro ⟨same, subject, apart⟩
      refine ⟨?_, same⟩
      rintro rfl
      exact apart Iff.rfl
    · rintro ⟨differ, same⟩
      obtain ⟨text, apart⟩ := Wildcard.exists_text_of_merged_eq same
        fun letters => differ (String.toList_injective letters)
      refine ⟨same, String.ofList text, ?_⟩
      rwa [String.toList_ofList]
  · intro unmasked unmasked' subject found missed same
    rw [same_iff, Wildcard.merged_of_unmasked unmasked,
      Wildcard.merged_of_unmasked unmasked'] at same
    rw [same] at found
    exact missed found

/-- In MySQL a text that begins with a backslash and a text that begins with a percent sign are
looked for by one condition, while a wildcard with an underscore keeps a condition of its own. -/
theorem star_after_backslash_is_percent_sign :
    (∃ sql, (Target.compile { dialect := .mySql } (.ofColumns "mysql" "t" ["a"])
          (.comparison "a" .like (.text "\\*?"))).outcome = .ok (.valid sql) ∧
        (Target.compile { dialect := .mySql } (.ofColumns "mysql" "t" ["a"])
          (.comparison "a" .like (.text "%?"))).outcome = .ok (.valid sql) ∧
        ∃ subject : String, ¬ (Wildcard.Matches "\\*?".toList subject.toList ↔
          Wildcard.Matches "%?".toList subject.toList)) ∧
      ∃ first second,
        (Target.compile { dialect := .mySql } (.ofColumns "mysql" "t" ["a"])
          (.comparison "a" .like (.text "_"))).outcome = .ok (.valid first) ∧
        (Target.compile { dialect := .mySql } (.ofColumns "mysql" "t" ["a"])
          (.comparison "a" .like (.text "?"))).outcome = .ok (.valid second) ∧ first ≠ second := by
  have member : Dialect.mySql ∈ Dialect.builtIn := by simp [Dialect.builtIn]
  have compiled := @wildcards_confused_iff { dialect := .mySql } (.ofColumns "mysql" "t" ["a"])
    member "a" "`a`" rfl
  constructor
  · obtain ⟨sql, _, first, second, confused, -⟩ := compiled "\\*?" "%?"
    obtain ⟨rfl, apart⟩ := confused.mpr ⟨by simp, by decide⟩
    exact ⟨sql, first, second, apart⟩
  · obtain ⟨sql, sql', first, second, confused, -⟩ := compiled "_" "?"
    refine ⟨sql, sql', first, second, fun same => ?_⟩
    have apart : ¬ (Wildcard.Matches "_".toList "a".toList ↔
        Wildcard.Matches "?".toList "a".toList) := by
      simp [Wildcard.matches_letter_iff, Wildcard.matches_mark_iff, Wildcard.matches_nil_iff]
    exact absurd (confused.mp ⟨same, "a", apart⟩).2 (by decide)

/-- A backslash with a star and a percent sign have one SQL text, though a backslash alone matches
only the first. -/
theorem backslash_matches_only_one_of_two_equal_conditions :
    (Target.compile { dialect := .ansi } (.ofColumns "ansi" "t" ["a"])
        (.comparison "a" .like (.text "\\*"))).outcome = .ok (.valid "\"a\" LIKE '\\%'") ∧
      (Target.compile { dialect := .ansi } (.ofColumns "ansi" "t" ["a"])
        (.comparison "a" .like (.text "%"))).outcome = .ok (.valid "\"a\" LIKE '\\%'") ∧
      Wildcard.Matches "\\*".toList "\\".toList ∧ ¬ Wildcard.Matches "%".toList "\\".toList := by
  refine ⟨rfl, rfl, ?_, ?_⟩
  · exact .letter (by decide) (by decide) (.star [] .nil)
  · simp [Wildcard.matches_letter_iff]

end Target

end FilterPushdown
