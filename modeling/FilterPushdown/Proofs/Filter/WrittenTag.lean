import FilterPushdown.Proofs.Filter.Tag

/-!
Any name and any value can be written in a filter text: between quotes three characters are
escaped, and all others stand for themselves.  Whatever the quoted texts look like, the tag that is
written so means its comparison and nothing else.
-/

namespace FilterPushdown.Filter

open Grammar

/-! ## Writing -/

/-- How a character is written between quotes of one kind. -/
def writtenLetter (delimiter c : Char) : List Char :=
  if c = '\\' then ['\\', '\\']
  else if c = delimiter then ['\\', delimiter]
  else if c = '\n' then ['\\', 'n']
  else [c]

/-- A text between quotes of one kind. -/
def inQuotes (delimiter : Char) (text : String) : String :=
  String.ofList (delimiter :: (text.toList.flatMap (writtenLetter delimiter) ++ [delimiter]))

/-- The texts that stand for a name in front of a sign. -/
inductive WritesName (name : String) : String → Prop where
  | bare (letters : Run startsName continuesName name.toList) : WritesName name name
  | quoted (quote : IsQuote delimiter) : WritesName name (inQuotes delimiter name)

/-- The texts that stand for an operator. -/
inductive WritesOperator : Operator → String → Prop where
  | colon : WritesOperator .equal ":"
  | equal : WritesOperator .equal ":="
  | greater : WritesOperator .greater ":>"
  | greaterOrEqual : WritesOperator .greaterOrEqual ":>="
  | less : WritesOperator .less ":<"
  | lessOrEqual : WritesOperator .lessOrEqual ":<="

/-- The texts that stand for a literal after a sign, unless it is a number. -/
inductive WritesLiteral : Literal → String → Prop where
  | true : WritesLiteral (.boolean true) "true"
  | false : WritesLiteral (.boolean false) "false"
  | null : WritesLiteral .null "null"
  | quoted (quote : IsQuote delimiter) : WritesLiteral (.text value) (inQuotes delimiter value)

/-! ## Quoted texts are read back -/

variable {delimiter : Char}

private theorem isPiece_writtenLetter (quote : IsQuote delimiter) (c : Char) :
    IsPiece delimiter (writtenLetter delimiter c) (.char c) := by
  unfold writtenLetter
  split
  next backslash =>
    subst backslash
    exact .escape rfl
  split
  next same =>
    subst same
    exact .quote
  split
  next feed =>
    subst feed
    exact .escape rfl
  next notBackslash notQuote notFeed => exact .plain notFeed notQuote notBackslash

private theorem arePieces_written (quote : IsQuote delimiter) (text : List Char) :
    ArePieces delimiter (text.flatMap (writtenLetter delimiter)) (text.map .char) := by
  induction text with
  | nil => exact .nil
  | cons c text ih => exact .cons (isPiece_writtenLetter quote c) ih

private theorem decode_chars (text : List Char) : decode (text.map .char) = text := by
  rw [decode, List.flatMap_map]
  exact Text.Utf16.decode_encode text

/-- What is written between quotes is read as it was. -/
theorem isQuoted_inQuotes (quote : IsQuote delimiter) (text : String) :
    IsQuoted delimiter (inQuotes delimiter text).toList text := by
  have quoted := IsQuoted.quoted (arePieces_written quote text.toList)
  rw [decode_chars, String.ofList_toList] at quoted
  rw [inQuotes, String.toList_ofList]
  exact quoted

/-! ## The parts of a written tag -/

theorem isName_of_writes {name field : String} (writes : WritesName name field) :
    ∃ quotation, IsName field.toList ⟨quotation, name⟩ := by
  cases writes with
  | bare letters =>
    have inside := IsName.bare letters
    rw [String.ofList_toList] at inside
    exact ⟨_, inside⟩
  | quoted quote =>
    rcases quote with rfl | rfl
    · exact ⟨_, .double (isQuoted_inQuotes (.inl rfl) name)⟩
    · exact ⟨_, .single (isQuoted_inQuotes (.inr rfl) name)⟩

theorem exists_sign_of_writes {operator : Operator} {mark : String}
    (writes : WritesOperator operator mark) :
    ∃ sign : Sign, mark.toList = sign.letters ∧ sign.operator = operator := by
  cases writes with
  | colon => exact ⟨.colon, rfl, rfl⟩
  | equal => exact ⟨.equal, rfl, rfl⟩
  | greater => exact ⟨.greater, rfl, rfl⟩
  | greaterOrEqual => exact ⟨.greaterOrEqual, rfl, rfl⟩
  | less => exact ⟨.less, rfl, rfl⟩
  | lessOrEqual => exact ⟨.lessOrEqual, rfl, rfl⟩

theorem exists_onlyTerm_of_writes {literal : Literal} {value : String}
    (writes : WritesLiteral literal value) :
    ∃ term, OnlyTerm value.toList term ∧ term.literal? = .ok literal := by
  cases writes with
  | true =>
    have only : OnlyTerm ['t', 'r', 'u', 'e'] (.boolean true) :=
      onlyTerm_word rfl (.word ⟨rfl, List.all_eq_true.mp rfl⟩ (by decide))
    exact ⟨_, only, rfl⟩
  | false =>
    have only : OnlyTerm ['f', 'a', 'l', 's', 'e'] (.boolean false) :=
      onlyTerm_word rfl (.word ⟨rfl, List.all_eq_true.mp rfl⟩ (by decide))
    exact ⟨_, only, rfl⟩
  | null =>
    have only : OnlyTerm ['n', 'u', 'l', 'l'] .null :=
      onlyTerm_word rfl (.word ⟨rfl, List.all_eq_true.mp rfl⟩ (by decide))
    exact ⟨_, only, rfl⟩
  | quoted quote => exact ⟨_, onlyTerm_quoted quote (isQuoted_inQuotes quote _), rfl⟩

/-! ## Written tags -/

/-- A written tag means the comparison of its name with its literal by its operator, or by pattern
where equality is asked of a text with a wildcard in it. -/
theorem written_tag_means_comparison {name field mark value : String} {operator : Operator}
    {literal : Literal} (named : WritesName name field) (signed : WritesOperator operator mark)
    (valued : WritesLiteral literal value) :
    condition? (field ++ mark ++ value) =
      .ok (.comparison name
        (if operator = .equal ∧ literal.HoldsWildcard then .like else operator) literal) := by
  obtain ⟨quotation, isName⟩ := isName_of_writes named
  obtain ⟨sign, letters, rfl⟩ := exists_sign_of_writes signed
  obtain ⟨term, only, stands⟩ := exists_onlyTerm_of_writes valued
  have written : (field ++ mark ++ value).toList =
      field.toList ++ (sign.letters ++ value.toList) := by
    rw [String.toList_append, String.toList_append, letters, List.append_assoc]
  rw [only.condition?_tag isName written stands, comparison_eq]

/-- Quotes, signs and backslashes inside the quoted texts belong to the name and to the value. -/
theorem signs_within_quotes_belong_to_texts :
    condition? "\"a:\\\">b\":='/* OR c:1 \\\\'" =
      .ok (.comparison "a:\">b" .like (.text "/* OR c:1 \\")) := by
  have name : inQuotes '"' "a:\">b" = "\"a:\\\">b\"" := by decide
  have value : inQuotes '\'' "/* OR c:1 \\" = "'/* OR c:1 \\\\'" := by decide
  have pattern : (Literal.text "/* OR c:1 \\").HoldsWildcard := by decide
  have named : WritesName "a:\">b" (inQuotes '"' "a:\">b") := .quoted (.inl rfl)
  have valued : WritesLiteral (.text "/* OR c:1 \\") (inQuotes '\'' "/* OR c:1 \\") :=
    .quoted (.inr rfl)
  have read := written_tag_means_comparison named .equal valued
  rw [name, value, if_pos ⟨rfl, pattern⟩] at read
  exact read

end FilterPushdown.Filter
