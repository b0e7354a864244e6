import FilterPushdown.Proofs.Filter.Scan

/-!
How phrases end.  The last word of a text is what comes after its last space.  No phrase ends in a
space, and the last word of a phrase is no reserved word: AND, OR and NOT are read as what joins
and negates, never as a value, unless something is written right in front of them.
-/

namespace FilterPushdown.Filter

open Grammar

/-- The letters after the last space. -/
def lastWord (text : List Char) : List Char :=
  (text.reverse.takeWhile fun c => !isSpace c).reverse

variable {u v gap text : List Char} {c : Char}

/-- A text of a class that is not empty ends in a letter of the class. -/
private theorem exists_last {accepts : Char → Bool} (nonempty : text ≠ [])
    (inside : ∀ c ∈ text, accepts c = true) : ∃ u c, text = u ++ [c] ∧ accepts c = true := by
  rcases List.eq_nil_or_concat text with none | ⟨u, c, same⟩
  · exact absurd none nonempty
  · rw [List.concat_eq_append] at same
    exact ⟨u, c, same, inside c (by rw [same]; simp)⟩

private theorem takeWhile_before {accepts : Char → Bool} {c : Char} (stops : accepts c = false)
    (u v : List Char) : (u ++ c :: v).takeWhile accepts = u.takeWhile accepts := by
  induction u with
  | nil => simp [stops]
  | cons d u ih =>
    rw [List.cons_append, List.takeWhile_cons, List.takeWhile_cons, ih]

theorem lastWord_after_space (space : isSpace c = true) :
    lastWord (u ++ c :: v) = lastWord v := by
  have reversed : (u ++ c :: v).reverse = v.reverse ++ c :: u.reverse := by simp
  have stops : (!isSpace c) = false := by rw [space]; rfl
  unfold lastWord
  rw [reversed, takeWhile_before stops]

theorem lastWord_after_gap (between : SomeSpaces gap) :
    lastWord (u ++ (gap ++ v)) = lastWord v := by
  obtain ⟨more, c, rfl, space⟩ := exists_last between.1 between.2
  rw [List.append_assoc, List.singleton_append, ← List.append_assoc]
  exact lastWord_after_space space

theorem lastWord_of_spaceless (spaceless : ∀ d ∈ text, isSpace d = false) :
    lastWord text = text := by
  unfold lastWord
  rw [← List.append_nil text.reverse, List.takeWhile_append_of_pos]
  · simp
  · intro d member
    rw [spaceless d (List.mem_reverse.mp member)]
    rfl

/-- What no space follows belongs to the last word. -/
theorem mem_lastWord (spaceless : ∀ d ∈ c :: v, isSpace d = false) :
    c ∈ lastWord (u ++ c :: v) := by
  have reversed : (u ++ c :: v).reverse = (v.reverse ++ [c]) ++ u.reverse := by simp
  unfold lastWord
  rw [reversed, List.takeWhile_append_of_pos]
  · simp
  · intro d member
    have inside : d ∈ c :: v := by simpa [or_comm] using member
    rw [spaceless d inside]
    rfl

/-! ## Texts that end well -/

/-- The letters of reserved words. -/
def reservedLetters : List Char := ['A', 'N', 'D', 'O', 'R', 'T']

private theorem reservedWords_letters :
    ∀ word ∈ reservedWords, ∀ c ∈ word, c ∈ reservedLetters := by
  simp [reservedWords, reservedLetters]

/-- A text that ends neither in a space nor in a reserved word. -/
structure Ends (text : List Char) : Prop where
  last : ∃ u c, text = u ++ [c] ∧ isSpace c = false
  free : lastWord text ∉ reservedWords

/-- A letter with which no reserved word ends. -/
theorem ends_of_last (visible : isSpace c = false) (other : c ∉ reservedLetters) :
    Ends (u ++ [c]) := by
  refine ⟨⟨u, c, rfl, visible⟩, fun reserved => ?_⟩
  have member : c ∈ lastWord (u ++ [c]) := mem_lastWord (by simpa using visible)
  exact other (reservedWords_letters _ reserved c member)

theorem Ends.after_gap (ends : Ends v) (between : SomeSpaces gap) : Ends (u ++ (gap ++ v)) := by
  obtain ⟨⟨w, c, rfl, visible⟩, free⟩ := ends
  refine ⟨⟨u ++ (gap ++ w), c, by simp only [List.append_assoc], visible⟩, ?_⟩
  rwa [lastWord_after_gap between]

/-- A letter in front of a text either belongs to the last word or makes no difference to it. -/
theorem Ends.cons (ends : Ends text) (visible : isSpace c = false) (other : c ∉ reservedLetters) :
    Ends (c :: text) := by
  obtain ⟨⟨u, d, same, last⟩, free⟩ := ends
  refine ⟨⟨c :: u, d, by rw [same]; rfl, last⟩, fun reserved => ?_⟩
  by_cases spaceless : ∀ e ∈ text, isSpace e = false
  · have member : c ∈ lastWord ([] ++ c :: text) := by
      apply mem_lastWord
      intro e within
      rcases List.mem_cons.mp within with rfl | later
      · exact visible
      · exact spaceless e later
    exact other (reservedWords_letters _ reserved c member)
  · simp only [Classical.not_forall, Bool.not_eq_false] at spaceless
    obtain ⟨e, within, space⟩ := spaceless
    obtain ⟨a, b, rfl⟩ := List.append_of_mem within
    rw [← List.cons_append, lastWord_after_space space] at reserved
    rw [lastWord_after_space space] at free
    exact free reserved

theorem ends_closing : Ends (u ++ [')']) := ends_of_last rfl (by decide)

/-- A phrase in parentheses ends well. -/
theorem ends_parentheses : Ends ('(' :: (u ++ [')'])) :=
  @ends_closing ('(' :: u)

/-! ## Terms and tags -/

/-- A letter with which a term may end if it is no bare word, or a sign may. -/
private def endsTerm (c : Char) : Bool :=
  isDigit c || isFlag c || ['/', ']', '\x7d', '"', '\'', ':', '=', '>', '<'].contains c

/-- A text that ends in such a letter. -/
private def EndsTerm (text : List Char) : Prop := ∃ u c, text = u ++ [c] ∧ endsTerm c = true

private theorem EndsTerm.after (ends : EndsTerm v) : EndsTerm (u ++ v) := by
  obtain ⟨w, c, rfl, closes⟩ := ends
  exact ⟨u ++ w, c, (List.append_assoc ..).symm, closes⟩

private theorem endsTerm_of_digits {word : List Char} (digits : Digits word) : EndsTerm word := by
  obtain ⟨u, c, rfl, digit⟩ := exists_last digits.1 digits.2
  exact ⟨u, c, rfl, by simp [endsTerm, digit]⟩

private theorem endsTerm_of_isNumeral {word : List Char} {parts : Numeral}
    (inside : IsNumeral word parts) : EndsTerm word := by
  have fractions {whole rest places : List Char} (digits : Digits whole)
      (fraction : Fraction rest places) : EndsTerm (whole ++ rest) := by
    cases fraction with
    | absent =>
      rw [List.append_nil]
      exact endsTerm_of_digits digits
    | @present word fractionDigits =>
      rw [List.append_cons]
      exact (endsTerm_of_digits fractionDigits).after
  cases inside with
  | positive whole fraction => exact fractions whole fraction
  | negative whole fraction =>
    rw [← List.singleton_append]
    exact (fractions whole fraction).after

private theorem endsTerm_of_isQuoted {delimiter : Char} (quote : IsQuote delimiter)
    {word : List Char} {value : String} (inside : IsQuoted delimiter word value) :
    EndsTerm word := by
  cases inside with
  | @quoted body _ pieces =>
    refine ⟨delimiter :: body, delimiter, rfl, ?_⟩
    rcases quote with rfl | rfl <;> rfl

private theorem endsTerm_sign (sign : Sign) : EndsTerm sign.letters := by
  cases sign
  · exact ⟨[], ':', rfl, rfl⟩
  · exact ⟨[':'], '=', rfl, rfl⟩
  · exact ⟨[':'], '>', rfl, rfl⟩
  · exact ⟨[':', '>'], '=', rfl, rfl⟩
  · exact ⟨[':'], '<', rfl, rfl⟩
  · exact ⟨[':', '<'], '=', rfl, rfl⟩

/-- A term that does not end like this is a bare word. -/
private theorem endsTerm_or_isBareWord {word : List Char} {term : Term}
    (inside : IsTerm word term) : EndsTerm word ∨ IsBareWord word := by
  cases inside with
  | number numeral => exact .inl (endsTerm_of_isNumeral numeral)
  | @regex body flags shielded letters =>
    rw [← List.cons_append]
    refine .inl (EndsTerm.after ?_)
    by_cases empty : flags = []
    · rw [empty]
      exact ⟨[], '/', rfl, rfl⟩
    · obtain ⟨u, c, rfl, flag⟩ := exists_last empty letters
      exact ⟨'/' :: u, c, rfl, by simp [endsTerm, flag]⟩
  | @range first _ low _ high _ last _ opening lowest highest closing =>
    refine .inl ⟨first :: (low ++ ([' ', 'T', 'O', ' '] ++ high)), last, ?_, ?_⟩
    · simp only [List.append_assoc, List.cons_append]
    · cases closing <;> rfl
  | bare letters => exact .inr letters
  | single text => exact .inl (endsTerm_of_isQuoted (.inr rfl) text)
  | double text => exact .inl (endsTerm_of_isQuoted (.inl rfl) text)

theorem not_isSpace_of_class {accepts : Char → Bool}
    (none : ['\t', '\n', '\x0b', '\x0c', ' '].any accepts = false) (inside : accepts c = true) :
    isSpace c = false := by
  have other := not_mem_of_class none inside
  simp only [List.mem_cons, List.not_mem_nil, or_false, not_or] at other
  simp [isSpace, other]

private theorem EndsTerm.ends (ends : EndsTerm text) : Ends text := by
  obtain ⟨u, c, rfl, closes⟩ := ends
  exact ends_of_last (not_isSpace_of_class (by decide) closes)
    (not_mem_of_class (by decide) closes)

private theorem EndsTerm.not_closing (ends : EndsTerm text) : text ≠ u ++ [')'] := by
  obtain ⟨w, c, rfl, closes⟩ := ends
  intro same
  have last := List.append_inj_right' same rfl
  cases last
  cases closes

private theorem isBareWord_ne_nil : ¬ IsBareWord [] := by
  intro inside
  generalize same : [] = word at inside
  cases inside with
  | word letters free =>
    cases same
    cases letters
  | afterDigits digits letters => exact digits.1 (List.append_eq_nil_iff.mp same.symm).1

theorem continuesWord_of_mem {word : List Char} (inside : IsBareWord word) :
    ∀ c ∈ word, continuesWord c = true := by
  have runs {first : Char → Bool} (within : ∀ c, first c = true → continuesWord c = true)
      {word : List Char} (run : Run first continuesWord word) :
      ∀ c ∈ word, continuesWord c = true := by
    cases word with
    | nil => cases run
    | cons d word =>
      intro c member
      rcases List.mem_cons.mp member with rfl | later
      · exact within c run.1
      · exact run.2 c later
  cases inside with
  | word letters free => exact runs (fun c starts => by simp [continuesWord, starts]) letters
  | afterDigits digits letters =>
    intro c member
    rcases List.mem_append.mp member with digit | later
    · simp [continuesWord, digits.2 c digit]
    · refine runs (fun c ends => ?_) letters c later
      simp only [endsDigits, Bool.or_eq_true] at ends
      rcases ends with starts | dash
      · simp [continuesWord, starts]
      · simp [continuesWord, dash]

private theorem spaceless_of_isBareWord {word : List Char} (inside : IsBareWord word) :
    ∀ c ∈ word, isSpace c = false := fun c member =>
  not_isSpace_of_class (by decide) (continuesWord_of_mem inside c member)

private theorem isBareWord_free {word : List Char} (inside : IsBareWord word) :
    word ∉ reservedWords := by
  cases inside with
  | word letters free => exact free
  | @afterDigits digits rest areDigits letters =>
    obtain ⟨u, c, same, digit⟩ := exists_last areDigits.1 areDigits.2
    have foreign : c ∉ reservedLetters := not_mem_of_class (by decide) digit
    intro reserved
    exact foreign (reservedWords_letters _ reserved c (by simp [same]))

private theorem isBareWord_last {word : List Char} (inside : IsBareWord word) :
    ∃ v c, word = v ++ [c] ∧ continuesWord c = true :=
  exists_last (fun empty => isBareWord_ne_nil (empty ▸ inside)) (continuesWord_of_mem inside)

private theorem isBareWord_ends {word : List Char} (inside : IsBareWord word) : Ends word := by
  obtain ⟨v, c, same, continues⟩ := isBareWord_last inside
  refine ⟨⟨v, c, same, not_isSpace_of_class (by decide) continues⟩, ?_⟩
  rw [lastWord_of_spaceless (spaceless_of_isBareWord inside)]
  exact isBareWord_free inside

/-- A sign in front of a bare word belongs to its last word. -/
private theorem EndsTerm.ends_isBareWord (sign : EndsTerm u) {word : List Char}
    (inside : IsBareWord word) : Ends (u ++ word) := by
  obtain ⟨w, d, rfl, closes⟩ := sign
  obtain ⟨v, c, same, continues⟩ := isBareWord_last inside
  have visible : isSpace c = false := not_isSpace_of_class (by decide) continues
  refine ⟨⟨w ++ d :: v, c, by simp [same], visible⟩, fun reserved => ?_⟩
  have member : d ∈ lastWord (w ++ d :: word) := by
    apply mem_lastWord
    intro e within
    rcases List.mem_cons.mp within with rfl | later
    · exact not_isSpace_of_class (by decide) closes
    · exact spaceless_of_isBareWord inside e later
  rw [← List.append_cons] at reserved
  have foreign : d ∉ reservedLetters := not_mem_of_class (by decide) closes
  exact foreign (reservedWords_letters _ reserved d member)

theorem isTag_ends {word : List Char} {tree : Tree} (inside : IsTag word tree) : Ends word := by
  cases inside with
  | @named _ _ rest _ sign field value =>
    rw [← List.append_assoc]
    rcases endsTerm_or_isBareWord value with ends | bare
    · exact ends.after.ends
    · exact (endsTerm_sign sign).after.ends_isBareWord bare
  | @unfinished _ _ sign field => exact (endsTerm_sign sign).after.ends
  | unnamed value =>
    rcases endsTerm_or_isBareWord value with ends | bare
    · exact ends.ends
    · exact isBareWord_ends bare

private theorem isBareWord_not_closing {word : List Char} (inside : IsBareWord word) :
    u ++ word ≠ v ++ [')'] := by
  obtain ⟨w, c, rfl, continues⟩ := isBareWord_last inside
  intro same
  rw [← List.append_assoc] at same
  have last := List.append_inj_right' same rfl
  cases last
  cases continues

/-- No tag ends in a parenthesis. -/
theorem isTag_not_closing {word : List Char} {tree : Tree} (inside : IsTag word tree) :
    word ≠ u ++ [')'] := by
  cases inside with
  | @named _ _ rest _ sign field value =>
    rw [← List.append_assoc]
    rcases endsTerm_or_isBareWord value with ends | bare
    · exact ends.after.not_closing
    · exact isBareWord_not_closing bare
  | @unfinished _ _ sign field => exact (endsTerm_sign sign).after.not_closing
  | unnamed value =>
    rcases endsTerm_or_isBareWord value with ends | bare
    · exact ends.not_closing
    · exact @isBareWord_not_closing [] _ _ bare

/-! ## Phrases -/

/-- What is between parentheses in a group. -/
theorem isGroup_inner {word : List Char} {tree : Tree} (inside : IsGroup word tree) :
    ∃ inner t, word = '(' :: (inner ++ [')']) ∧ tree = .group t ∧ IsFilter inner t := by
  cases inside with
  | @group left word t right before inner after =>
    refine ⟨left ++ (word ++ right), t, ?_, rfl, .filter before inner after⟩
    simp only [List.append_assoc]

theorem isGroup_of_isFilter {inner : List Char} {tree : Tree} (inside : IsFilter inner tree) :
    IsGroup ('(' :: (inner ++ [')'])) (.group tree) := by
  cases inside with
  | @filter left word _ right before chain after =>
    have group := IsGroup.group before chain after
    simpa only [List.append_assoc] using group

theorem isSmallGroup_isGroup {word : List Char} {tree : Tree} (inside : IsSmallGroup word tree) :
    IsGroup word tree := by
  cases inside with
  | group before inner after => exact .group before (.operand inner) after

theorem isGroup_ends {word : List Char} {tree : Tree} (inside : IsGroup word tree) :
    Ends word := by
  obtain ⟨inner, _, rfl, -, -⟩ := isGroup_inner inside
  exact ends_parentheses

theorem isOperand_ends {word : List Char} {tree : Tree} (inside : IsOperand word tree) :
    Ends word := by
  cases inside with
  | nothing between => exact ends_parentheses
  | group inner => exact isGroup_ends inner
  | notGroup between inner => exact (isGroup_ends inner).after_gap between
  | notTag between inner => exact (isTag_ends inner).after_gap between
  | dash inner => exact (isTag_ends inner).cons rfl (by decide)
  | tag inner => exact isTag_ends inner

/-- No chain ends in a space or in a reserved word. -/
theorem isChain_ends {word : List Char} {tree : Tree} (inside : IsChain word tree) :
    Ends word := by
  cases inside with
  | operand single => exact isOperand_ends single
  | linked before after =>
    cases after with
    | spaced between right =>
      rw [← List.append_assoc]
      exact (isOperand_ends right).after_gap between
    | group right =>
      obtain ⟨inner, _, rfl, -, -⟩ := isGroup_inner (isSmallGroup_isGroup right)
      rw [← List.cons_append, ← List.append_assoc, ← List.append_assoc]
      exact ends_closing
  | spaced before between after => exact (isOperand_ends after).after_gap between
  | groupSpaced before between after => exact (isOperand_ends after).after_gap between
  | spacedGroup before between after =>
    exact (isGroup_ends (isSmallGroup_isGroup after)).after_gap between
  | groupSpacedGroup before between after =>
    exact (isGroup_ends (isSmallGroup_isGroup after)).after_gap between

end FilterPushdown.Filter
