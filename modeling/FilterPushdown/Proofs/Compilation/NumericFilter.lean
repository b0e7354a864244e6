import FilterPushdown.Proofs.Compilation.FilterErrors
import FilterPushdown.Proofs.Filter.WrittenTag
import FilterPushdown.Proofs.Sql.NumberValue

/-!
Numbers on their way from a filter text into SQL text.  A number is a double in between, so it
arrives as the shortest decimal that is read as that double.  Main statement: below the overflow
every number arrives as a numeric literal for this decimal, which is the number itself if it has
few digits or is whole and not too large.
-/

namespace FilterPushdown

namespace Filter

open Grammar Number

/-! ## Numbers as they are written -/

/-- The decimal that a number is written as. -/
def Numeral.toRat (numeral : Numeral) : ℚ :=
  Double.decimal numeral.negative (digitsValue (numeral.whole ++ numeral.fraction))
    (-(numeral.fraction.length : ℤ))

theorem Numeral.value_eq_nearest (numeral : Numeral) :
    numeral.value = Double.nearest numeral.toRat := Double.ofDecimal_eq_nearest ..

variable {word : List Char} {parts : Numeral}

private theorem isDigit_of_digits (digits : Digits word) : ∀ c ∈ word, c.isDigit = true :=
  fun c member => digits.2 c member

/-- The digits of a number, with its point, are worth what the number is without its sign. -/
private theorem unsigned?_digits {whole fraction places : List Char} (before : Digits whole)
    (after : Fraction fraction places) :
    Sql.unsigned? (whole ++ fraction) =
      some (Double.decimal false (digitsValue (whole ++ places)) (-(places.length : ℤ))) := by
  rw [Double.decimal, if_neg Bool.false_ne_true, one_mul]
  cases after with
  | absent => exact Sql.unsigned?_plain before.1 (isDigit_of_digits before) (List.forall_mem_nil _)
  | present digits =>
    have read := Sql.unsigned?_plain before.1 (isDigit_of_digits before) (isDigit_of_digits digits)
    rwa [Sql.withPoint, if_neg digits.1] at read

/-- A number of the grammar is a numeric literal for the same decimal. -/
theorem number?_of_isNumeral (inside : IsNumeral word parts) :
    Sql.number? word = some parts.toRat := by
  cases inside with
  | positive whole fraction => exact Sql.number?_of_unsigned? (unsigned?_digits whole fraction)
  | negative whole fraction =>
    rw [Sql.number?, unsigned?_digits whole fraction, Option.map_some, Numeral.toRat,
      Double.decimal, Double.decimal, if_pos rfl, if_neg Bool.false_ne_true, one_mul, neg_one_mul]

theorem isNumeral_of_digits (digits : Digits word) : IsNumeral word ⟨false, word, []⟩ := by
  have numeral := IsNumeral.positive digits .absent
  rwa [List.append_nil] at numeral

end Filter

namespace Target

open FilterPushdown.Filter Number

variable {target : Target} {relation : Relation}

/-- A number is compared as its text. -/
theorem comparison_number (name : String) (sign : Sign) (x : Double) :
    target.comparison name sign.operator (.number x) =
      .valid (name ++ " " ++ sign.operator.sql ++ " " ++ x.text) := by
  cases sign <;> rfl

section

variable {field mark number name : String} {column : Name} {operator : Operator} {parts : Numeral}

/-- A filter that compares a column with a number has SQL text as soon as the column has a name. -/
theorem compileFilter_number (named : Grammar.IsName field.toList column)
    (accepted : (target.columnName relation column.text).outcome = .ok (.valid name))
    (signed : WritesOperator operator mark) (numeral : Grammar.IsNumeral number.toList parts) :
    (target.compileFilter relation (field ++ mark ++ number)).outcome =
      .ok (.valid (name ++ " " ++ operator.sql ++ " " ++ parts.value.text)) := by
  obtain ⟨sign, letters, rfl⟩ := exists_sign_of_writes signed
  have written : (field ++ mark ++ number).toList =
      field.toList ++ (sign.letters ++ number.toList) := by
    rw [String.toList_append, String.toList_append, letters, List.append_assoc]
  have read := (onlyTerm_numeral numeral).condition?_tag named written rfl
  rw [compileFilter_of_readable read, comparison_eq, if_neg (fun pattern => pattern.2.elim),
    compile, outcome_andThen_of_valid accepted, comparison_number]
  rfl

/-- Below the overflow, a filter that compares a column with a number has SQL text as soon as the
column has a name, and what is compared there is a numeric literal.  It denotes the shortest decimal
with the same nearest double as the number, which is the number itself if that has at most fifteen
digits, or is a whole number up to the first one that has no double. -/
theorem number_reaches_sql (named : Grammar.IsName field.toList column)
    (accepted : (target.columnName relation column.text).outcome = .ok (.valid name))
    (signed : WritesOperator operator mark) (numeral : Grammar.IsNumeral number.toList parts)
    (inside : |parts.toRat| < 2 ^ 1024 - 2 ^ 970) :
    ∃ literal value,
      (target.compileFilter relation (field ++ mark ++ number)).outcome =
          .ok (.valid (name ++ " " ++ operator.sql ++ " " ++ literal)) ∧
        Sql.number? number.toList = some parts.toRat ∧
        Sql.number? literal.toList = some value ∧
        Double.StandsFor value parts.toRat := by
  have finite := Double.isFinite_nearest inside
  refine ⟨parts.value.text, (Double.nearest parts.toRat).written,
    compileFilter_number named accepted signed numeral, number?_of_isNumeral numeral, ?_,
    Double.standsFor_written finite⟩
  rw [parts.value_eq_nearest]
  exact Sql.number?_text finite

end

/-- A number that is written out with all its zeros keeps its value, though its text in SQL is
another one. -/
theorem number_with_zeros_reaches_sql :
    (columnName { dialect := .ansi } (.ofColumns "ansi" "t" ["a b"]) "a b").outcome =
        .ok (.valid "\"a b\"") ∧
      ∃ literal,
        (compileFilter { dialect := .ansi } (.ofColumns "ansi" "t" ["a b"])
            "'a b':<=-1000000000000000000000").outcome =
          .ok (.valid ("\"a b\" <= " ++ literal)) ∧
        Sql.number? literal.toList = some (-10 ^ 21) := by
  have accepted : (columnName { dialect := .ansi } (.ofColumns "ansi" "t" ["a b"]) "a b").outcome =
      .ok (.valid "\"a b\"") := rfl
  have named : Grammar.IsName "'a b'".toList ⟨.single, "a b"⟩ :=
    .single (isQuoted_inQuotes (.inr rfl) "a b")
  have digits : Grammar.Digits ('1' :: List.replicate 21 '0') :=
    ⟨List.cons_ne_nil _ _, List.all_eq_true.mp rfl⟩
  have numeral : Grammar.IsNumeral "-1000000000000000000000".toList
      ⟨true, '1' :: List.replicate 21 '0', []⟩ := .negative digits .absent
  have value : Numeral.toRat ⟨true, '1' :: List.replicate 21 '0', []⟩ = -10 ^ 21 := by
    decide +kernel
  have size : |(-10 ^ 21 : ℚ)| = 10 ^ 21 := by norm_num
  have inside : |Numeral.toRat ⟨true, '1' :: List.replicate 21 '0', []⟩| < 2 ^ 1024 - 2 ^ 970 := by
    rw [value, size]
    decide +kernel
  have normal : 1 / 2 ^ 1022 ≤ |(-10 ^ 21 : ℚ)| := by
    rw [size]
    decide +kernel
  have one : HasDigits 15 (-10 ^ 21) := ⟨1, by decide, 21, by rw [size]; norm_num⟩
  obtain ⟨literal, r, compiled, -, reads, stands⟩ :=
    number_reaches_sql named accepted .lessOrEqual numeral inside
  rw [value] at stands
  refine ⟨accepted, literal, compiled, ?_⟩
  rw [reads, stands.fewDigits normal one]

/-- The first whole number that has no double is compared as its neighbour, and a number beyond the
doubles as a word that is no number. -/
theorem numbers_without_double_change :
    ((compileFilter {} (.ofColumns "bigquery" "t" ["a"]) "a:9007199254740993").outcome =
          .ok (.valid "`a` = 9007199254740992") ∧
        Sql.number? "9007199254740993".toList = some 9007199254740993 ∧
        Sql.number? "9007199254740992".toList = some 9007199254740992) ∧
      (compileFilter {} (.ofColumns "bigquery" "t" ["a"])
          ("a:" ++ String.ofList ('1' :: List.replicate 309 '0'))).outcome =
        .ok (.valid "`a` = Infinity") ∧
      Sql.number? "Infinity".toList = none := by
  have accepted : (columnName {} (.ofColumns "bigquery" "t" ["a"]) "a").outcome =
      .ok (.valid "`a`") := rfl
  have named : Grammar.IsName "a".toList ⟨.bare, "a"⟩ := .bare ⟨rfl, List.forall_mem_nil _⟩
  have compiled (number text : String) (digits : Grammar.Digits number.toList)
      (written : (Numeral.value ⟨false, number.toList, []⟩).text = text) :
      (compileFilter {} (.ofColumns "bigquery" "t" ["a"]) ("a:" ++ number)).outcome =
        .ok (.valid ("`a` = " ++ text)) := by
    have field : "a:" = "a" ++ ":" := rfl
    have before : "`a` = " = "`a`" ++ " " ++ Operator.equal.sql ++ " " := rfl
    rw [← written, field, before]
    exact compileFilter_number named accepted .colon (isNumeral_of_digits digits)
  have odd : Grammar.Digits "9007199254740993".toList := ⟨nofun, List.all_eq_true.mp rfl⟩
  have neighbour := compiled "9007199254740993" "9007199254740992" odd (by decide +kernel)
  have huge : Grammar.Digits ('1' :: List.replicate 309 '0') :=
    ⟨List.cons_ne_nil _ _, List.all_eq_true.mp (by decide +kernel)⟩
  have overflow := compiled (String.ofList ('1' :: List.replicate 309 '0')) "Infinity"
    (by rwa [String.toList_ofList]) (by rw [String.toList_ofList]; decide +kernel)
  exact ⟨⟨neighbour, by decide +kernel, by decide +kernel⟩, overflow, rfl⟩

end Target

end FilterPushdown
