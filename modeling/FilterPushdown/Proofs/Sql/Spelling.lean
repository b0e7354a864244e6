import FilterPushdown.Proofs.Sql.Token

/-!
What a piece of text is read as, whatever comes after it.  A piece ends in front of a space, of a
closing parenthesis or at the end of the text, so pieces are read one by one however they are put
together: with a space between them, or inside parentheses.
-/

namespace FilterPushdown.Sql

/-- Where a piece of text may end. -/
def Boundary (rest : List Char) : Prop := ∀ c ∈ rest.head?, c = ' ' ∨ c = ')'

theorem boundary_nil : Boundary [] := nofun

theorem boundary_space (rest : List Char) : Boundary (' ' :: rest) := by
  intro c first
  cases first
  exact .inl rfl

theorem boundary_closing (rest : List Char) : Boundary (')' :: rest) := by
  intro c first
  cases first
  exact .inr rfl

/-- A letter that may begin a piece of text without quotes, or end one. -/
def isBare (c : Char) : Bool :=
  c == ' ' || c == '(' || c == ')' || c == '-' || isSignLetter c || c.isAlphanum

/-- The quotes differ from each other and from bare letters, and close at every boundary. -/
structure Lexicon.Clear (lexicon : Lexicon) : Prop where
  identifier_not_bare : isBare lexicon.identifier.quote = false
  literal_not_bare : isBare lexicon.literal.quote = false
  quotes_differ : lexicon.literal.quote ≠ lexicon.identifier.quote
  identifier_closes : ∀ rest, Boundary rest → lexicon.identifier.Closes rest
  literal_closes : ∀ rest, Boundary rest → lexicon.literal.Closes rest

/-- A piece of text is read as a list of tokens, in front of every boundary. -/
def Lexes (lexicon : Lexicon) (text : List Char) (tokens : List Token) : Prop :=
  ∀ rest, Boundary rest →
    lexicon.tokens (text ++ rest) = (lexicon.tokens rest).map (tokens ++ ·)

namespace Lexes

variable {lexicon : Lexicon} {u v : List Char} {first second : List Token}

/-- A piece that is the whole text. -/
theorem tokens_eq (whole : Lexes lexicon u first) : lexicon.tokens u = some first := by
  have read := whole [] boundary_nil
  rw [List.append_nil, Lexicon.tokens_nil] at read
  rw [read, Option.map_some, List.append_nil]

/-- Two pieces with a space between them. -/
theorem spaced (left : Lexes lexicon u first) (right : Lexes lexicon v second) :
    Lexes lexicon (u ++ ' ' :: v) (first ++ second) := by
  intro rest boundary
  rw [List.append_assoc, List.cons_append, left _ (boundary_space _), Lexicon.tokens_space,
    right rest boundary, Option.map_map]
  congr 1
  funext tokens
  exact (List.append_assoc ..).symm

/-- A single token that is read in front of every boundary. -/
theorem of_readToken {c : Char} {text : List Char} {token : Token} (notSpace : c ≠ ' ')
    (found : ∀ rest, Boundary rest →
      lexicon.readToken (c :: text ++ rest) = some (token, rest)) :
    Lexes lexicon (c :: text) [token] := by
  intro rest boundary
  exact Lexicon.tokens_of_readToken notSpace (found rest boundary)

/-- A piece in parentheses. -/
theorem parentheses (inner : Lexes lexicon u first) :
    Lexes lexicon ('(' :: (u ++ [')'])) (.opening :: (first ++ [.closing])) := by
  intro rest _
  have opened : lexicon.readToken ('(' :: (u ++ ')' :: rest)) =
      some (.opening, u ++ ')' :: rest) := rfl
  have closed : lexicon.readToken (')' :: rest) = some (.closing, rest) := rfl
  rw [List.cons_append, List.append_assoc, List.singleton_append,
    Lexicon.tokens_of_readToken (by decide) opened, inner _ (boundary_closing rest),
    Lexicon.tokens_of_readToken (by decide) closed, Option.map_map, Option.map_map]
  congr 1
  funext tokens
  simp

end Lexes

/-! ## Bare letters are not quotes -/

/-- A letter of a class differs from a letter outside it. -/
theorem ne_of_class {accepts : Char → Bool} {c d : Char} (inside : accepts c = true)
    (outside : accepts d = false) : c ≠ d := by
  intro same
  rw [same, outside] at inside
  cases inside

private theorem isBare_of_isSignLetter {c : Char} (sign : isSignLetter c = true) :
    isBare c = true := by
  simp [isBare, sign]

private theorem isBare_of_isAlpha {c : Char} (letter : c.isAlpha = true) : isBare c = true := by
  simp [isBare, Char.isAlphanum, letter]

private theorem isBare_of_isDigit {c : Char} (digit : c.isDigit = true) : isBare c = true := by
  simp [isBare, Char.isAlphanum, digit]

/-! ## Words and signs -/

/-- A run of letters of a class ends where a letter of another class comes. -/
private theorem readRun_append {accepts : Char → Bool} {table : List (String × Token)}
    {text rest : List Char} {token : Token} (inside : ∀ c ∈ text, accepts c = true)
    (outside : ∀ c ∈ rest.head?, accepts c = false)
    (known : table.lookup (String.ofList text) = some token) :
    readRun accepts table (text ++ rest) = some (token, rest) := by
  have noMore : rest.takeWhile accepts = [] ∧ rest.dropWhile accepts = rest := by
    cases rest with
    | nil => exact ⟨rfl, rfl⟩
    | cons c rest =>
      have different := outside c rfl
      simp [different]
  rw [readRun, List.takeWhile_append_of_pos inside, List.dropWhile_append_of_pos inside, noMore.1,
    noMore.2, List.append_nil, known, Option.map_some]

/-- No class without spaces and closing parentheses goes on over a boundary. -/
private theorem Boundary.outside {accepts : Char → Bool} {rest : List Char}
    (boundary : Boundary rest) (space : accepts ' ' = false) (closing : accepts ')' = false) :
    ∀ c ∈ rest.head?, accepts c = false := by
  intro c first
  rcases boundary c first with rfl | rfl
  · exact space
  · exact closing

theorem lexes_sign {lexicon : Lexicon} (clear : lexicon.Clear) {c : Char} {text : List Char}
    {token : Token} (letters : (c :: text).all isSignLetter = true)
    (known : signs.lookup (String.ofList (c :: text)) = some token) :
    Lexes lexicon (c :: text) [token] := by
  rw [List.all_eq_true] at letters
  have sign := letters c List.mem_cons_self
  have notOpening : c ≠ '(' := ne_of_class sign rfl
  have notClosing : c ≠ ')' := ne_of_class sign rfl
  have notSpace : c ≠ ' ' := ne_of_class sign rfl
  have bare := isBare_of_isSignLetter sign
  apply Lexes.of_readToken notSpace
  intro rest boundary
  rw [List.cons_append, Lexicon.readToken, if_neg notOpening, if_neg notClosing,
    if_neg (ne_of_class bare clear.identifier_not_bare),
    if_neg (ne_of_class bare clear.literal_not_bare), if_pos sign]
  exact readRun_append letters (boundary.outside rfl rfl) known

/-- A letter of a class without comparison signs is none. -/
private theorem not_sign_of_class {accepts : Char → Bool} {c : Char} (inside : accepts c = true)
    (equal : accepts '=' = false) (less : accepts '<' = false) (greater : accepts '>' = false) :
    ¬ isSignLetter c = true := by
  simp [isSignLetter, ne_of_class inside equal, ne_of_class inside less, ne_of_class inside greater]

theorem lexes_word {lexicon : Lexicon} (clear : lexicon.Clear) {c : Char} {text : List Char}
    {token : Token} (letters : (c :: text).all Char.isAlpha = true)
    (known : words.lookup (String.ofList (c :: text)) = some token) :
    Lexes lexicon (c :: text) [token] := by
  rw [List.all_eq_true] at letters
  have letter := letters c List.mem_cons_self
  have notOpening : c ≠ '(' := ne_of_class letter rfl
  have notClosing : c ≠ ')' := ne_of_class letter rfl
  have notSpace : c ≠ ' ' := ne_of_class letter rfl
  have bare := isBare_of_isAlpha letter
  apply Lexes.of_readToken notSpace
  intro rest boundary
  rw [List.cons_append, Lexicon.readToken, if_neg notOpening, if_neg notClosing,
    if_neg (ne_of_class bare clear.identifier_not_bare),
    if_neg (ne_of_class bare clear.literal_not_bare),
    if_neg (not_sign_of_class letter rfl rfl rfl), if_pos letter]
  exact readRun_append letters (boundary.outside rfl rfl) known

/-! ## Quoted text -/

theorem lexes_identifier {lexicon : Lexicon} (clear : lexicon.Clear) {text name : List Char}
    (denotes : lexicon.identifier.Denotes text name) :
    Lexes lexicon (lexicon.identifier.quote :: (text ++ [lexicon.identifier.quote]))
      [.identifier (String.ofList name)] := by
  have notBare {c : Char} (bare : isBare c = true) : lexicon.identifier.quote ≠ c :=
    (ne_of_class bare clear.identifier_not_bare).symm
  apply Lexes.of_readToken (notBare rfl)
  intro rest boundary
  have read := Quoting.read_denotes denotes (clear.identifier_closes rest boundary)
  rw [List.cons_append, List.append_assoc, List.singleton_append, Lexicon.readToken,
    if_neg (notBare rfl), if_neg (notBare rfl), if_pos rfl, read, Option.map_some]

theorem lexes_text {lexicon : Lexicon} (clear : lexicon.Clear) {text value : List Char}
    (denotes : lexicon.literal.Denotes text value) :
    Lexes lexicon (lexicon.literal.quote :: (text ++ [lexicon.literal.quote]))
      [.literal (.text (String.ofList value))] := by
  have notBare {c : Char} (bare : isBare c = true) : lexicon.literal.quote ≠ c :=
    (ne_of_class bare clear.literal_not_bare).symm
  apply Lexes.of_readToken (notBare rfl)
  intro rest boundary
  have read := Quoting.read_denotes denotes (clear.literal_closes rest boundary)
  rw [List.cons_append, List.append_assoc, List.singleton_append, Lexicon.readToken,
    if_neg (notBare rfl), if_neg (notBare rfl), if_neg clear.quotes_differ, if_pos rfl, read,
    Option.map_some]

/-! ## Numbers -/

namespace NumberPhase

/-- How far a text brings a number. -/
def run? (phase : NumberPhase) : List Char → Option NumberPhase
  | [] => some phase
  | c :: text => (phase.next? c).bind fun next => next.run? text

/-- Whether a whole text is a number. -/
def Accepts (text : List Char) : Prop := ∃ phase, start.run? text = some phase ∧ phase.complete

theorem run?_append {phase : NumberPhase} {u v : List Char} :
    phase.run? (u ++ v) = (phase.run? u).bind fun next => next.run? v := by
  induction u generalizing phase with
  | nil => rfl
  | cons c u ih =>
    rw [List.cons_append, run?, run?]
    cases phase.next? c with
    | none => rfl
    | some next => exact ih

/-- No number goes on over a boundary. -/
private theorem next?_boundary {rest : List Char} (boundary : Boundary rest) {c : Char}
    (first : c ∈ rest.head?) (phase : NumberPhase) : phase.next? c = none := by
  rcases boundary c first with rfl | rfl
  · cases phase <;> rfl
  · cases phase <;> rfl

theorem read_of_run? {phase last : NumberPhase} {text rest : List Char} (boundary : Boundary rest)
    (run : phase.run? text = some last) (ends : last.complete = true) :
    phase.read (text ++ rest) = some (text, rest) := by
  induction text generalizing phase with
  | nil =>
    cases run
    cases rest with
    | nil => rw [List.append_nil, read, if_pos ends]
    | cons c rest => rw [List.nil_append, read, next?_boundary boundary rfl, if_pos ends]
  | cons c text ih =>
    obtain ⟨next, step, later⟩ := Option.bind_eq_some_iff.mp run
    rw [List.cons_append, read, step]
    simp only [ih later, Option.map_some]

end NumberPhase

private theorem not_isAlpha_of_isDigit {c : Char} (digit : c.isDigit = true) :
    ¬ c.isAlpha = true := by
  intro letter
  delta Char.isDigit at digit
  delta Char.isAlpha Char.isUpper Char.isLower at letter
  simp only [Bool.or_eq_true, Bool.and_eq_true, decide_eq_true_eq, ge_iff_le,
    UInt32.le_iff_toNat_le] at digit letter
  have nine : '9'.val.toNat = 57 := rfl
  have upper : 'A'.val.toNat = 65 := rfl
  have lower : 'a'.val.toNat = 97 := rfl
  omega

/-- A number begins with a digit or a minus sign. -/
private theorem first_of_number {c : Char} {text : List Char}
    (number : NumberPhase.Accepts (c :: text)) : c = '-' ∨ c.isDigit = true := by
  obtain ⟨last, run, -⟩ := number
  obtain ⟨next, step, -⟩ := Option.bind_eq_some_iff.mp run
  rw [NumberPhase.next?] at step
  split at step
  · rename_i minus
    exact .inl minus
  · split at step
    · rename_i digit
      exact .inr digit
    · cases step

private theorem readToken_number {lexicon : Lexicon} (clear : lexicon.Clear) {c : Char}
    (first : c = '-' ∨ c.isDigit = true) (text : List Char) :
    lexicon.readToken (c :: text) =
      (NumberPhase.start.read (c :: text)).map fun (number, rest) =>
        (.literal (.number (String.ofList number)), rest) := by
  have bare : isBare c = true := by
    rcases first with rfl | digit
    · rfl
    · exact isBare_of_isDigit digit
  have others : c ≠ '(' ∧ c ≠ ')' ∧ ¬ isSignLetter c = true ∧ ¬ c.isAlpha = true := by
    rcases first with rfl | digit
    · decide
    · exact ⟨ne_of_class digit rfl, ne_of_class digit rfl, not_sign_of_class digit rfl rfl rfl,
        not_isAlpha_of_isDigit digit⟩
  obtain ⟨notOpening, notClosing, notSign, notLetter⟩ := others
  rw [Lexicon.readToken, if_neg notOpening, if_neg notClosing,
    if_neg (ne_of_class bare clear.identifier_not_bare),
    if_neg (ne_of_class bare clear.literal_not_bare), if_neg notSign, if_neg notLetter]

theorem lexes_number {lexicon : Lexicon} (clear : lexicon.Clear) {text : List Char}
    (number : NumberPhase.Accepts text) :
    Lexes lexicon text [.literal (.number (String.ofList text))] := by
  cases text with
  | nil =>
    obtain ⟨last, run, ends⟩ := number
    cases run
    cases ends
  | cons c text =>
    have first := first_of_number number
    obtain ⟨last, run, ends⟩ := number
    have notSpace : c ≠ ' ' := by
      rcases first with rfl | digit
      · decide
      · exact ne_of_class digit rfl
    apply Lexes.of_readToken notSpace
    intro rest boundary
    have read := NumberPhase.read_of_run? boundary run ends
    rw [List.cons_append, readToken_number clear first]
    rw [List.cons_append] at read
    rw [read, Option.map_some]

end FilterPushdown.Sql
