import FilterPushdown.Proofs.Filter.Regular
import FilterPushdown.Proofs.Filter.Unbroken

/-!
Texts of a name, a sign and a value.  The name ends before the first colon that stands outside
quotes, and no value begins with the second letter of a sign; so if the value is one term only, and
no space breaks it, the whole text is one filter only.
-/

namespace FilterPushdown.Filter

open Grammar

/-- How a text between quotes of one kind is quoted. -/
def quotationOf (delimiter : Char) : Quotation := if delimiter = '"' then .double else .single

/-! ## First letters -/

/-- A letter with which terms begin that are neither quoted texts nor bare words that begin with a
letter. -/
def opensOther (c : Char) : Bool := isDigit c || ['-', '/', '[', '\x7b'].contains c

/-- What the first letter of a term says about the term. -/
inductive OpenedTerm : Char → List Char → Term → Prop where
  | bare (starts : startsWord c = true) (letters : IsBareWord word) :
      OpenedTerm c word (wordTerm word)
  | text (quote : IsQuote delimiter) (inside : IsQuoted delimiter word value) :
      OpenedTerm delimiter word (.text (quotationOf delimiter) value)
  | other {term : Term} (opens : opensOther c = true) : OpenedTerm c word term

/-- What the first letter of a name says about the name. -/
inductive OpenedName : Char → List Char → Name → Prop where
  | bare (starts : startsName c = true) (letters : Run startsName continuesName word) :
      OpenedName c word ⟨.bare, String.ofList word⟩
  | text (quote : IsQuote delimiter) (inside : IsQuoted delimiter word value) :
      OpenedName delimiter word ⟨quotationOf delimiter, value⟩

variable {u v r s word : List Char} {c delimiter : Char}

/-! ## Terms -/

private theorem exists_first_digit (digits : Digits word) (rest : List Char) :
    ∃ c more, word ++ rest = c :: more ∧ opensOther c = true := by
  obtain ⟨c, word, rfl⟩ := List.exists_cons_of_ne_nil digits.1
  exact ⟨c, word ++ rest, rfl, by simp [opensOther, digits.2 c List.mem_cons_self]⟩

private theorem isNumeral_first {parts : Numeral} (inside : IsNumeral word parts) :
    ∃ c rest, word = c :: rest ∧ opensOther c = true := by
  cases inside with
  | @positive _ rest _ whole fraction => exact exists_first_digit whole rest
  | negative => exact ⟨_, _, rfl, rfl⟩

theorem isTerm_opened {term : Term} (inside : IsTerm word term) :
    ∃ c rest, word = c :: rest ∧ OpenedTerm c word term := by
  cases inside with
  | number numeral =>
    obtain ⟨c, rest, same, opens⟩ := isNumeral_first numeral
    exact ⟨c, rest, same, .other opens⟩
  | regex => exact ⟨_, _, rfl, .other rfl⟩
  | range opening => cases opening <;> exact ⟨_, _, rfl, .other rfl⟩
  | bare letters =>
    cases id letters with
    | word run free =>
      cases word with
      | nil => cases run
      | cons c rest => exact ⟨c, rest, rfl, .bare run.1 letters⟩
    | @afterDigits _ rest digits run =>
      obtain ⟨c, more, same, opens⟩ := exists_first_digit digits rest
      exact ⟨c, more, same, .other opens⟩
  | single text =>
    cases id text with
    | quoted => exact ⟨_, _, rfl, .text (.inr rfl) text⟩
  | double text =>
    cases id text with
    | quoted => exact ⟨_, _, rfl, .text (.inl rfl) text⟩

private theorem startsWord_of_opensOther (opens : opensOther c = true) : startsWord c = false := by
  rw [← Bool.not_eq_true]
  intro starts
  rw [opensOther, Bool.or_eq_true] at opens
  rcases opens with digit | mark
  · simp only [isDigit, startsWord, isLetter, isForeign, Bool.and_eq_true, Bool.or_eq_true,
      decide_eq_true_eq, beq_iff_eq, Char.le_def, UInt32.le_iff_toNat_le, Char.ext_iff,
      ← UInt32.toNat_inj] at digit starts
    simp only [Char.toNat, UInt32.reduceToNat, Char.reduceVal] at digit starts
    omega
  · exact not_mem_of_class (by decide) starts (List.contains_iff_mem.mp mark)

/-- A term that begins with the first letter of a bare word is a bare word. -/
theorem isTerm_of_startsWord {term : Term} (starts : startsWord c = true)
    (inside : IsTerm (c :: word) term) :
    IsBareWord (c :: word) ∧ term = wordTerm (c :: word) := by
  obtain ⟨_, _, same, opened⟩ := isTerm_opened inside
  cases same
  cases opened with
  | bare _ letters => exact ⟨letters, rfl⟩
  | text quote => rcases quote with rfl | rfl <;> cases starts
  | other opens =>
    rw [startsWord_of_opensOther opens] at starts
    cases starts

/-- A term that begins with a quote is a text between such quotes. -/
theorem isTerm_of_quote {term : Term} (quote : IsQuote delimiter)
    (inside : IsTerm (delimiter :: word) term) :
    ∃ value, IsQuoted delimiter (delimiter :: word) value ∧
      term = .text (quotationOf delimiter) value := by
  obtain ⟨_, _, same, opened⟩ := isTerm_opened inside
  cases same
  cases opened with
  | bare starts => rcases quote with rfl | rfl <;> cases starts
  | text _ quoted => exact ⟨_, quoted, rfl⟩
  | other opens => rcases quote with rfl | rfl <;> cases opens

/-- The letters that may come after the colon of a sign. -/
def isSignEnd (c : Char) : Bool := ['=', '>', '<'].contains c

/-- No term begins with the second letter of a sign. -/
theorem isTerm_after_sign {term : Term} (inside : IsTerm word term) :
    ∀ c ∈ word.head?, isSignEnd c = false := by
  obtain ⟨c, rest, rfl, opened⟩ := isTerm_opened inside
  intro d first
  cases first
  refine Bool.eq_false_iff.mpr fun ends => ?_
  have member := List.contains_iff_mem.mp ends
  cases opened with
  | bare starts => exact not_mem_of_class (by decide) starts member
  | text quote => rcases quote with rfl | rfl <;> cases ends
  | other opens => exact not_mem_of_class (by decide) opens member

/-! ## Names -/

theorem isName_opened {name : Name} (inside : IsName word name) :
    ∃ c rest, word = c :: rest ∧ OpenedName c word name := by
  cases inside with
  | bare letters =>
    cases word with
    | nil => cases letters
    | cons c rest => exact ⟨c, rest, rfl, .bare letters.1 letters⟩
  | single text =>
    cases id text with
    | quoted => exact ⟨_, _, rfl, .text (.inr rfl) text⟩
  | double text =>
    cases id text with
    | quoted => exact ⟨_, _, rfl, .text (.inl rfl) text⟩

private theorem startsName_cases (starts : startsName c = true) : c = '$' ∨ isLetter c = true := by
  simpa [startsName] using starts

private theorem continuesName_of_mem (letters : Run startsName continuesName word) :
    ∀ c ∈ word, continuesName c = true := by
  cases word with
  | nil => cases letters
  | cons d word =>
    intro c member
    rcases List.mem_cons.mp member with rfl | later
    · rcases startsName_cases letters.1 with rfl | letter
      · rfl
      · simp [continuesName, letter]
    · exact letters.2 c later

/-- The first place of a letter splits a text in one way only. -/
private theorem first_place_unique (left : c ∉ u) (right : c ∉ v)
    (same : u ++ c :: r = v ++ c :: s) : u = v ∧ r = s := by
  induction u generalizing v with
  | nil =>
    cases v with
    | nil => exact ⟨rfl, (List.cons.inj same).2⟩
    | cons d v => exact absurd ((List.cons.inj same).1 ▸ List.mem_cons_self) right
  | cons d u ih =>
    cases v with
    | nil => exact absurd ((List.cons.inj same).1 ▸ List.mem_cons_self) left
    | cons e v =>
      obtain ⟨rfl, later⟩ := List.cons.inj same
      rw [List.mem_cons, not_or] at left right
      obtain ⟨rfl, after⟩ := ih left.2 right.2 later
      exact ⟨rfl, after⟩

/-- Where a colon comes after a name, the name is fixed. -/
theorem isName_before_colon {first second : Name} (left : IsName u first)
    (right : IsName v second) (same : u ++ ':' :: r = v ++ ':' :: s) :
    u = v ∧ first = second ∧ r = s := by
  have noColon {word : List Char} (letters : Run startsName continuesName word) : ':' ∉ word :=
    fun member => nomatch continuesName_of_mem letters ':' member
  obtain ⟨c, _, rfl, opened⟩ := isName_opened left
  obtain ⟨d, _, rfl, opened'⟩ := isName_opened right
  obtain rfl : c = d := (List.cons.inj same).1
  cases opened with
  | bare starts letters =>
    cases opened' with
    | bare _ letters' =>
      obtain ⟨agree, after⟩ := first_place_unique (noColon letters) (noColon letters') same
      exact ⟨agree, by rw [agree], after⟩
    | text quote => rcases quote with rfl | rfl <;> cases starts
  | text quote inside =>
    cases opened' with
    | bare starts => rcases quote with rfl | rfl <;> cases starts
    | text _ inside' =>
      obtain ⟨agree, rfl, after⟩ := isQuoted_unique quote.isDelimiter inside inside' same
      exact ⟨agree, rfl, (List.cons.inj after).2⟩

/-- No term begins with a name and a colon. -/
theorem not_isTerm_of_isName {name : Name} {term : Term} (named : IsName u name) :
    ¬ IsTerm (u ++ ':' :: v) term := by
  intro inside
  obtain ⟨c, _, rfl, opened⟩ := isName_opened named
  cases opened with
  | bare starts =>
    have startsWord : startsWord c = true := by
      rcases startsName_cases starts with rfl | letter
      · rfl
      · simp [startsWord, letter]
    have letters := (isTerm_of_startsWord startsWord inside).1
    cases continuesWord_of_mem letters ':' (by simp)
  | text quote text =>
    obtain ⟨_, whole, -⟩ := isTerm_of_quote quote inside
    have same := isQuoted_unique quote.isDelimiter text whole (List.append_nil _).symm
    cases same.2.2

theorem isName_ne_dash {name : Name} (named : IsName u name) : u ++ v ≠ '-' :: r := by
  intro same
  obtain ⟨_, _, rfl, opened⟩ := isName_opened named
  obtain ⟨rfl, -⟩ := List.cons.inj same
  cases opened with
  | bare starts => cases starts
  | text quote => rcases quote with same | same <;> cases same

theorem unbroken_of_isName {name : Name} (named : IsName word name) : Unbroken word := by
  obtain ⟨_, _, -, opened⟩ := isName_opened named
  cases opened with
  | bare _ letters =>
    refine .of_plain fun c member => ?_
    have continues := continuesName_of_mem letters c member
    exact ⟨not_mem_of_class (by decide) continues, not_isSpace_of_class (by decide) continues⟩
  | text quote inside => exact .of_isQuoted quote inside

/-! ## Signs -/

/-- A sign begins with a colon. -/
theorem sign_letters (sign : Sign) :
    ∃ ends, sign.letters = ':' :: ends ∧ ∀ c ∈ ends, isSignEnd c = true := by
  cases sign <;> exact ⟨_, rfl, by simp [isSignEnd]⟩

/-- A sign ends where a letter comes that is none of a sign's. -/
theorem sign_unique {first second : Sign} (left : ∀ c ∈ u.head?, isSignEnd c = false)
    (right : ∀ c ∈ v.head?, isSignEnd c = false)
    (same : first.letters ++ u = second.letters ++ v) : first = second ∧ u = v := by
  have ended {word : List Char} (stops : ∀ c ∈ word.head?, isSignEnd c = false) :
      word.takeWhile isSignEnd = [] := by
    cases word with
    | nil => rfl
    | cons c word => exact List.takeWhile_cons_of_neg (by rw [stops c rfl]; exact Bool.false_ne_true)
  obtain ⟨ends, letters, all⟩ := sign_letters first
  obtain ⟨ends', letters', all'⟩ := sign_letters second
  have later : ends ++ u = ends' ++ v := by
    rw [letters, letters'] at same
    exact (List.cons.inj same).2
  have agree : ends = ends' := by
    have taken := congrArg (List.takeWhile isSignEnd) later
    rw [List.takeWhile_append_of_pos all, List.takeWhile_append_of_pos all', ended left,
      ended right, List.append_nil, List.append_nil] at taken
    exact taken
  subst agree
  have signs := letters.trans letters'.symm
  refine ⟨?_, List.append_cancel_left later⟩
  cases first <;> cases second <;> first | rfl | cases signs

/-! ## Tags -/

/-- A text that is one term only, and that no space breaks. -/
structure OnlyTerm (text : List Char) (term : Term) : Prop where
  isTerm_iff : ∀ other, IsTerm text other ↔ other = term
  unbroken : Unbroken text

variable {term : Term}

theorem OnlyTerm.isTerm (only : OnlyTerm v term) : IsTerm v term := (only.isTerm_iff term).mpr rfl

theorem onlyTerm_word (starts : startsWord c = true) (letters : IsBareWord (c :: word)) :
    OnlyTerm (c :: word) (wordTerm (c :: word)) where
  isTerm_iff other := by
    constructor
    · intro inside
      exact (isTerm_of_startsWord starts inside).2
    · rintro rfl
      exact .bare letters
  unbroken := .of_plain fun d member =>
    have continues := continuesWord_of_mem letters d member
    ⟨not_mem_of_class (by decide) continues, not_isSpace_of_class (by decide) continues⟩

theorem onlyTerm_quoted {value : String} (quote : IsQuote delimiter)
    (inside : IsQuoted delimiter v value) : OnlyTerm v (.text (quotationOf delimiter) value) where
  isTerm_iff other := by
    constructor
    · intro another
      cases id inside with
      | quoted =>
        obtain ⟨value', inside', rfl⟩ := isTerm_of_quote quote another
        obtain ⟨-, rfl, -⟩ := isQuoted_unique (r := []) (s := []) quote.isDelimiter inside inside' rfl
        rfl
    · rintro rfl
      rcases quote with rfl | rfl
      · exact .double inside
      · exact .single inside
  unbroken := .of_isQuoted quote inside

private theorem unsigned_letters {places : List Char} (whole : Digits u)
    (fraction : Fraction v places) : ∀ c ∈ u ++ v, isDigit c = true ∨ c = '.' := by
  intro c member
  rcases List.mem_append.mp member with inWhole | inFraction
  · exact .inl (whole.2 c inWhole)
  · cases fraction with
    | absent => cases inFraction
    | present digits =>
      rcases List.mem_cons.mp inFraction with rfl | inDigits
      · exact .inr rfl
      · exact .inl (digits.2 c inDigits)

/-- A letter of a number. -/
private def isNumeralLetter (c : Char) : Bool := isDigit c || ['.', '-'].contains c

private theorem isNumeralLetter_of_mem {parts : Numeral} (inside : IsNumeral word parts) :
    ∀ c ∈ word, isNumeralLetter c = true := by
  have unsigned {c : Char} (letter : isDigit c = true ∨ c = '.') : isNumeralLetter c = true := by
    rcases letter with digit | rfl
    · simp [isNumeralLetter, digit]
    · rfl
  intro c member
  cases inside with
  | positive whole fraction => exact unsigned (unsigned_letters whole fraction c member)
  | negative whole fraction =>
    rcases List.mem_cons.mp member with rfl | later
    · rfl
    · exact unsigned (unsigned_letters whole fraction c later)

/-- A number is no bare word, though these may begin with digits: what comes after the digits of a
number is neither a first letter of a word nor a dash. -/
private theorem not_isBareWord_of_isNumeral {parts : Numeral} (inside : IsNumeral word parts) :
    ¬ IsBareWord word := by
  intro letters
  obtain ⟨c, rest, same, opens⟩ := isNumeral_first inside
  generalize twin : word = other at letters
  cases letters with
  | word run =>
    rw [← twin, same] at run
    have starts := startsWord_of_opensOther opens
    rw [run.1] at starts
    cases starts
  | @afterDigits digits after before run =>
    cases after with
    | nil => cases run
    | cons d after =>
      cases inside with
      | positive whole fraction =>
        rcases unsigned_letters whole fraction d (by rw [twin]; simp) with digit | rfl
        · have ends := run.1
          rw [endsDigits, startsWord_of_opensOther (by simp [opensOther, digit]),
            Bool.false_or, beq_iff_eq] at ends
          subst ends
          cases digit
        · cases run.1
      | negative whole fraction =>
        obtain ⟨e, digits, rfl⟩ := List.exists_cons_of_ne_nil before.1
        have digit := before.2 e List.mem_cons_self
        rw [← (List.cons.inj twin).1] at digit
        cases digit

theorem onlyTerm_numeral {parts : Numeral} (inside : IsNumeral v parts) :
    OnlyTerm v (.number parts.value) where
  isTerm_iff other := by
    have letters := isNumeralLetter_of_mem inside
    constructor
    · intro another
      cases another with
      | number numeral => rw [isNumeral_unique numeral inside]
      | regex => cases letters '/' List.mem_cons_self
      | range opening => cases opening <;> cases letters _ List.mem_cons_self
      | bare word => exact absurd word (not_isBareWord_of_isNumeral inside)
      | single text =>
        cases text with
        | quoted => cases letters _ List.mem_cons_self
      | double text =>
        cases text with
        | quoted => cases letters _ List.mem_cons_self
    · rintro rfl
      exact .number inside
  unbroken := .of_plain fun c member =>
    have letter := isNumeralLetter_of_mem inside c member
    ⟨not_mem_of_class (by decide) letter, not_isSpace_of_class (by decide) letter⟩

variable {name : Name} {sign : Sign} {tree : Tree}

/-- A text that is one term only makes one tag only, after a name and a sign. -/
theorem OnlyTerm.isTag_iff (only : OnlyTerm v term) (named : IsName u name) :
    IsTag (u ++ (sign.letters ++ v)) tree ↔ tree = .tag (some (name, sign)) term := by
  have starts := isTerm_after_sign only.isTerm
  -- Any name before a sign is the one that is written, and the same is left after it.
  have begins {word rest : List Char} {other : Name} {mark : Sign} (field : IsName word other)
      (same : u ++ (sign.letters ++ v) = word ++ (mark.letters ++ rest)) :
      name = other ∧ sign.letters ++ v = mark.letters ++ rest := by
    obtain ⟨ends, letters, -⟩ := sign_letters sign
    obtain ⟨ends', letters', -⟩ := sign_letters mark
    rw [letters, letters'] at same ⊢
    obtain ⟨-, agree, after⟩ := isName_before_colon named field same
    exact ⟨agree, congrArg (List.cons ':') after⟩
  constructor
  · intro inside
    generalize same : u ++ (sign.letters ++ v) = text at inside
    cases inside with
    | named field value =>
      obtain ⟨rfl, after⟩ := begins field same
      obtain ⟨rfl, rfl⟩ := sign_unique starts (isTerm_after_sign value) after
      rw [(only.isTerm_iff _).mp value]
    | @unfinished _ _ mark field =>
      rw [← List.append_nil mark.letters] at same
      obtain ⟨-, after⟩ := begins field same
      obtain ⟨-, rfl⟩ := sign_unique starts (by simp) after
      exact absurd only.isTerm isTerm_ne_nil
    | unnamed value =>
      obtain ⟨ends, letters, -⟩ := sign_letters sign
      rw [← same, letters] at value
      exact absurd value (not_isTerm_of_isName named)
  · rintro rfl
    exact .named named only.isTerm

/-- Such a tag is one filter only. -/
theorem OnlyTerm.isFilter_iff (only : OnlyTerm v term) (named : IsName u name) :
    IsFilter (u ++ (sign.letters ++ v)) tree ↔ tree = .tag (some (name, sign)) term := by
  have marks : Unbroken sign.letters := by
    cases sign <;> exact .of_plain (by simp [marks, Sign.letters, isSpace])
  have whole := (unbroken_of_isName named).append (marks.append only.unbroken)
  rw [whole.isFilter_iff, only.isTag_iff named]
  constructor
  · rintro (same | ⟨rest, inner, same, -, -⟩)
    · exact same
    · exact absurd same (isName_ne_dash named)
  · exact .inl

/-- The condition of such a tag compares the name with the literal that the term stands for. -/
theorem OnlyTerm.condition?_tag {text : String} {literal : Literal} (only : OnlyTerm v term)
    (named : IsName u name) (written : text.toList = u ++ (sign.letters ++ v))
    (stands : term.literal? = .ok literal) :
    condition? text = .ok (comparison name.text sign literal) := by
  refine condition?_eq_ok_iff.mpr ⟨.tag (some (name, sign)) term, fun other => ?_, ?_⟩
  · rw [written]
    exact only.isFilter_iff named
  · exact Tree.condition?_tag_eq_ok_iff.mpr ⟨literal, stands, rfl⟩

end FilterPushdown.Filter
