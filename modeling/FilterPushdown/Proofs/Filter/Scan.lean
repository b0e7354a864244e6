import FilterPushdown.Proofs.Filter.Meaning

/-!
A scan of filter texts that knows nothing of phrases: it counts parentheses outside quotes.  A
slash outside quotes begins a regular expression, in which anything may stand, and the scan is
lost there.  Every phrase is balanced, or the scan is lost in it and its tree means nothing; so in
a balanced text every derivation finds the same parentheses.
-/

namespace FilterPushdown.Filter

open Grammar

/-! ## The scan -/

/-- Where a scan stands. -/
inductive Scan where
  | outside (depth : Nat)
  | quoted (delimiter : Char) (depth : Nat)
  /-- After a backslash between quotes. -/
  | shielded (delimiter : Char) (depth : Nat)
  | lost
  deriving DecidableEq, Repr

namespace Scan

/-- The scan after one more letter. -/
def next : Scan → Char → Scan
  | outside depth, c =>
    if c = '(' then outside (depth + 1)
    else if c = ')' then if depth = 0 then lost else outside (depth - 1)
    else if c = '"' ∨ c = '\'' then quoted c depth
    else if c = '/' then lost
    else outside depth
  | quoted delimiter depth, c =>
    if c = '\\' then shielded delimiter depth
    else if c = delimiter then outside depth
    else quoted delimiter depth
  | shielded delimiter depth, _ => quoted delimiter depth
  | lost, _ => lost

/-- The scan after a text. -/
def after (scan : Scan) (text : List Char) : Scan := text.foldl next scan

theorem after_nil (scan : Scan) : scan.after [] = scan := rfl

theorem after_cons (scan : Scan) (c : Char) (text : List Char) :
    scan.after (c :: text) = (scan.next c).after text := rfl

theorem after_append (scan : Scan) (u v : List Char) :
    scan.after (u ++ v) = (scan.after u).after v :=
  List.foldl_append

/-- Nothing brings a lost scan back. -/
theorem after_lost (text : List Char) : lost.after text = lost := by
  induction text with
  | nil => rfl
  | cons c text ih => exact ih

/-- The same scan inside one more parenthesis. -/
def deeper : Scan → Scan
  | outside depth => outside (depth + 1)
  | quoted delimiter depth => quoted delimiter (depth + 1)
  | shielded delimiter depth => shielded delimiter (depth + 1)
  | lost => lost

theorem next_deeper {scan : Scan} {c : Char} (kept : scan.next c ≠ lost) :
    scan.deeper.next c = (scan.next c).deeper := by
  cases scan with
  | outside depth =>
    simp only [deeper, next] at kept ⊢
    by_cases opening : c = '('
    · simp only [if_pos opening]
    · simp only [if_neg opening] at kept ⊢
      by_cases closing : c = ')'
      · simp only [if_pos closing] at kept ⊢
        by_cases bottom : depth = 0
        · exact absurd (if_pos bottom) kept
        · simp only [if_neg bottom, if_neg (Nat.succ_ne_zero depth)]
          congr 1
          omega
      · simp only [if_neg closing] at kept ⊢
        by_cases quote : c = '"' ∨ c = '\''
        · simp only [if_pos quote]
        · simp only [if_neg quote] at kept ⊢
          by_cases slash : c = '/'
          · exact absurd (if_pos slash) kept
          · simp only [if_neg slash]
  | quoted delimiter depth =>
    simp only [deeper, next]
    split
    · rfl
    · split <;> rfl
  | shielded delimiter depth => rfl
  | lost => exact absurd rfl kept

/-- A scan that does not get lost takes the same way inside one more parenthesis. -/
theorem after_deeper {scan : Scan} {text : List Char} (kept : scan.after text ≠ lost) :
    scan.deeper.after text = (scan.after text).deeper := by
  induction text generalizing scan with
  | nil => rfl
  | cons c text ih =>
    rw [after_cons] at kept ⊢
    have keptFirst : scan.next c ≠ lost := by
      intro gone
      rw [gone, after_lost] at kept
      exact kept rfl
    rw [next_deeper keptFirst, ih kept, after_cons]

end Scan

/-- A text after which the scan stands where it stood before. -/
def Balanced (text : List Char) : Prop :=
  ∀ depth, (Scan.outside depth).after text = .outside depth

/-- A text in which the scan is lost. -/
def Astray (text : List Char) : Prop := ∀ depth, (Scan.outside depth).after text = .lost

section

variable {u v : List Char}

theorem balanced_nil : Balanced [] := fun _ => rfl

theorem Balanced.append (first : Balanced u) (second : Balanced v) : Balanced (u ++ v) := by
  intro depth
  rw [Scan.after_append, first, second]

theorem Balanced.append_astray (first : Balanced u) (second : Astray v) : Astray (u ++ v) := by
  intro depth
  rw [Scan.after_append, first, second]

theorem Astray.append (first : Astray u) (rest : List Char) : Astray (u ++ rest) := by
  intro depth
  rw [Scan.after_append, first, Scan.after_lost]

theorem Balanced.not_astray (balanced : Balanced u) : ¬ Astray u := by
  intro astray
  have same := (balanced 0).symm.trans (astray 0)
  cases same

theorem Balanced.parentheses (inner : Balanced u) : Balanced ('(' :: (u ++ [')'])) := by
  intro depth
  have opened : (Scan.outside depth).next '(' = .outside (depth + 1) := rfl
  have closed : (Scan.outside (depth + 1)).after [')'] = .outside depth := rfl
  rw [Scan.after_cons, opened, Scan.after_append, inner, closed]

theorem Astray.parentheses (inner : Astray u) (rest : List Char) :
    Astray ('(' :: (u ++ rest)) := by
  intro depth
  have opened : (Scan.outside depth).next '(' = .outside (depth + 1) := rfl
  rw [Scan.after_cons, opened, Scan.after_append, inner, Scan.after_lost]

end

/-- The parenthesis that the last one closes is found by scanning: no other place before it leaves
two balanced texts. -/
private theorem no_later_opening {u v x w : List Char} (balanced : Balanced (u ++ '(' :: x))
    (outer : Balanced u) (inner : Balanced w) : w ≠ x ++ '(' :: v := by
  rintro rfl
  have ended := balanced 0
  have opened : (Scan.outside 0).next '(' = (Scan.outside 0).deeper := rfl
  rw [Scan.after_append, outer, Scan.after_cons, opened] at ended
  have kept : (Scan.outside 0).after x ≠ .lost := by
    intro gone
    have whole := inner 0
    rw [Scan.after_append, gone, Scan.after_lost] at whole
    cases whole
  rw [Scan.after_deeper kept] at ended
  cases reached : (Scan.outside 0).after x <;> rw [reached] at ended <;> cases ended

theorem last_parentheses_unique {u v u' v' : List Char} (before : Balanced u)
    (inner : Balanced v) (before' : Balanced u') (inner' : Balanced v')
    (same : u ++ '(' :: (v ++ [')']) = u' ++ '(' :: (v' ++ [')'])) : u = u' ∧ v = v' := by
  have inits : u ++ '(' :: v = u' ++ '(' :: v' := by
    apply (List.append_left_inj [')']).mp
    simpa only [List.append_assoc, List.cons_append] using same
  rcases List.append_eq_append_iff.mp inits with ⟨x, longer, rest⟩ | ⟨x, longer, rest⟩
  · cases x with
    | nil =>
      rw [List.append_nil] at longer
      exact ⟨longer.symm, (List.cons.inj rest).2⟩
    | cons c x =>
      obtain ⟨rfl, later⟩ := List.cons.inj rest
      rw [longer] at before'
      exact absurd later (no_later_opening before' before inner)
  · cases x with
    | nil =>
      rw [List.append_nil] at longer
      exact ⟨longer, (List.cons.inj rest).2.symm⟩
    | cons c x =>
      obtain ⟨rfl, later⟩ := List.cons.inj rest
      rw [longer] at before
      exact absurd later (no_later_opening before before' inner')

/-! ## Letters that the scan does not see -/

/-- The letters that the scan sees outside quotes. -/
def marks : List Char := ['(', ')', '"', '\'', '/']

theorem next_outside {c : Char} (plain : c ∉ marks) (depth : Nat) :
    (Scan.outside depth).next c = .outside depth := by
  simp only [marks, List.mem_cons, List.not_mem_nil, or_false, not_or] at plain
  simp [Scan.next, plain]

theorem balanced_of_plain {text : List Char} (plain : ∀ c ∈ text, c ∉ marks) : Balanced text := by
  intro depth
  induction text with
  | nil => rfl
  | cons c text ih =>
    rw [Scan.after_cons, next_outside (plain c List.mem_cons_self)]
    exact ih fun d member => plain d (List.mem_cons_of_mem c member)

/-- A letter of a class is none of the letters that are outside it. -/
theorem not_mem_of_class {accepts : Char → Bool} {letters : List Char}
    (none : letters.any accepts = false) {c : Char} (inside : accepts c = true) : c ∉ letters := by
  intro member
  have some := List.any_eq_true.mpr ⟨c, member, inside⟩
  rw [none] at some
  cases some

private theorem balanced_of_class {accepts : Char → Bool} (none : marks.any accepts = false)
    {text : List Char} (inside : ∀ c ∈ text, accepts c = true) : Balanced text :=
  balanced_of_plain fun c member => not_mem_of_class none (inside c member)

theorem balanced_of_spaces {gap : List Char} (spaces : Spaces gap) : Balanced gap :=
  balanced_of_class (by decide) spaces

private theorem balanced_of_digits {word : List Char} (digits : Digits word) : Balanced word :=
  balanced_of_class (by decide) digits.2

private theorem balanced_of_run {first rest : Char → Bool} (noFirst : marks.any first = false)
    (noRest : marks.any rest = false) {word : List Char} (run : Run first rest word) :
    Balanced word := by
  cases word with
  | nil => cases run
  | cons c word =>
    have head : Balanced [c] := balanced_of_class noFirst (by simpa using run.1)
    exact head.append (balanced_of_class noRest run.2)

theorem balanced_sign (sign : Sign) : Balanced sign.letters := by
  cases sign <;> exact balanced_of_plain (by simp [marks, Sign.letters])

theorem balanced_symbol (connective : Connective) : Balanced connective.symbol.toList := by
  cases connective <;> exact balanced_of_plain (by simp [marks, Connective.symbol])

theorem balanced_not : Balanced ['N', 'O', 'T'] := balanced_of_plain (by simp [marks])

/-! ## Terms and names -/

private theorem balanced_of_isNumeral {word : List Char} {parts : Numeral}
    (inside : IsNumeral word parts) : Balanced word := by
  have fractions {rest places : List Char} (fraction : Fraction rest places) : Balanced rest := by
    cases fraction with
    | absent => exact balanced_nil
    | present digits =>
      have point : Balanced ['.'] := balanced_of_plain (by simp [marks])
      exact point.append (balanced_of_digits digits)
  cases inside with
  | positive whole fraction => exact (balanced_of_digits whole).append (fractions fraction)
  | negative whole fraction =>
    have minus : Balanced ['-'] := balanced_of_plain (by simp [marks])
    exact minus.append ((balanced_of_digits whole).append (fractions fraction))

/-- The two quotes of filter texts. -/
def IsQuote (delimiter : Char) : Prop := delimiter = '"' ∨ delimiter = '\''

theorem IsQuote.isDelimiter {delimiter : Char} (quote : IsQuote delimiter) :
    IsDelimiter delimiter :=
  Or.symm quote

/-- A hexadecimal digit neither ends a quoted text nor shields what comes after it. -/
theorem next_hexadecimal {delimiter c : Char} (quote : IsQuote delimiter) {value : Nat}
    (digit : hexValue? c = some value) (depth : Nat) :
    (Scan.quoted delimiter depth).next c = .quoted delimiter depth := by
  have notBackslash : c ≠ '\\' := by
    rintro rfl
    cases digit
  have notQuote : c ≠ delimiter := by
    rintro rfl
    rcases quote with rfl | rfl <;> cases digit
  simp [Scan.next, notBackslash, notQuote]

theorem after_piece {delimiter : Char} (quote : IsQuote delimiter) {word : List Char}
    {piece : Piece} (inside : IsPiece delimiter word piece) (depth : Nat) :
    (Scan.quoted delimiter depth).after word = .quoted delimiter depth := by
  cases inside with
  | plain notFeed notQuote notBackslash =>
    simp [Scan.after, Scan.next, notQuote, notBackslash]
  | quote => simp [Scan.after, Scan.next]
  | escape stands => simp [Scan.after, Scan.next]
  | unit first second third fourth =>
    have shielded : ((Scan.quoted delimiter depth).next '\\').next 'u' =
        .quoted delimiter depth := by
      simp [Scan.next]
    rw [Scan.after_cons, Scan.after_cons, shielded, Scan.after_cons, next_hexadecimal quote first,
      Scan.after_cons, next_hexadecimal quote second, Scan.after_cons,
      next_hexadecimal quote third, Scan.after_cons, next_hexadecimal quote fourth,
      Scan.after_nil]

theorem after_pieces {delimiter : Char} (quote : IsQuote delimiter) {word : List Char}
    {pieces : List Piece} (inside : ArePieces delimiter word pieces) (depth : Nat) :
    (Scan.quoted delimiter depth).after word = .quoted delimiter depth := by
  induction inside with
  | nil => rfl
  | cons first rest ih => rw [Scan.after_append, after_piece quote first, ih]

theorem balanced_of_isQuoted {delimiter : Char} (quote : IsQuote delimiter) {word : List Char}
    {value : String} (inside : IsQuoted delimiter word value) : Balanced word := by
  cases inside with
  | quoted pieces =>
    intro depth
    have opened : (Scan.outside depth).next delimiter = .quoted delimiter depth := by
      rcases quote with rfl | rfl <;> rfl
    have closed : (Scan.quoted delimiter depth).after [delimiter] = .outside depth := by
      rcases quote with rfl | rfl <;> simp [Scan.after, Scan.next]
    rw [Scan.after_cons, opened, Scan.after_append, after_pieces quote pieces, closed]

private theorem balanced_of_isName {word : List Char} {name : Name} (inside : IsName word name) :
    Balanced word := by
  cases inside with
  | bare letters => exact balanced_of_run (by decide) (by decide) letters
  | single text => exact balanced_of_isQuoted (.inr rfl) text
  | double text => exact balanced_of_isQuoted (.inl rfl) text

private theorem balanced_of_isBareWord {word : List Char} (inside : IsBareWord word) :
    Balanced word := by
  cases inside with
  | word letters free => exact balanced_of_run (by decide) (by decide) letters
  | afterDigits digits letters =>
    exact (balanced_of_digits digits).append (balanced_of_run (by decide) (by decide) letters)

/-- A bracket is no mark. -/
private theorem balanced_bracket {square curly c : Char} {includes : Bool}
    (plainSquare : square ∉ marks) (plainCurly : curly ∉ marks)
    (bracket : Bracket square curly c includes) : Balanced [c] := by
  cases bracket with
  | square => exact balanced_of_plain (by simpa using plainSquare)
  | curly => exact balanced_of_plain (by simpa using plainCurly)

/-- The scan is lost in regular expressions only, and they stand for no literal. -/
private theorem scan_term {word : List Char} {term : Term} (inside : IsTerm word term) :
    Balanced word ∨ Astray word ∧ ∀ value, term.literal? ≠ .ok value := by
  cases inside with
  | number numeral => exact .inl (balanced_of_isNumeral numeral)
  | regex body letters =>
    refine .inr ⟨fun depth => ?_, nofun⟩
    have slash : (Scan.outside depth).next '/' = .lost := rfl
    rw [Scan.after_cons, slash, Scan.after_lost]
  | range opening lowest highest closing =>
    have first := balanced_bracket (by decide) (by decide) opening
    have last := balanced_bracket (by decide) (by decide) closing
    have between : Balanced [' ', 'T', 'O', ' '] := balanced_of_plain (by simp [marks])
    have low := balanced_of_isNumeral lowest
    have high := balanced_of_isNumeral highest
    exact .inl (first.append (low.append (between.append (high.append last))))
  | bare letters => exact .inl (balanced_of_isBareWord letters)
  | single text => exact .inl (balanced_of_isQuoted (.inr rfl) text)
  | double text => exact .inl (balanced_of_isQuoted (.inl rfl) text)

/-! ## Phrases -/

/-- A text is balanced, or the scan is lost in it and its tree means nothing. -/
def Scanned (word : List Char) (tree : Tree) : Prop :=
  Balanced word ∨ Astray word ∧ ∀ condition, tree.condition? ≠ .ok condition

private theorem scanned_tag {word : List Char} {tree : Tree} (inside : IsTag word tree) :
    Scanned word tree := by
  cases inside with
  | @named _ _ _ _ sign field value =>
    have before := (balanced_of_isName field).append (balanced_sign sign)
    rw [← List.append_assoc]
    rcases scan_term value with balanced | ⟨astray, nothing⟩
    · exact .inl (before.append balanced)
    · refine .inr ⟨before.append_astray astray, fun condition converts => ?_⟩
      rw [Tree.condition?_tag] at converts
      cases found : Term.literal? _ with
      | error fault =>
        rw [found] at converts
        cases converts
      | ok literal => exact nothing literal found
  | @unfinished _ _ sign field =>
    exact .inl ((balanced_of_isName field).append (balanced_sign sign))
  | unnamed value =>
    rcases scan_term value with balanced | ⟨astray, -⟩
    · exact .inl balanced
    · refine .inr ⟨astray, fun condition converts => ?_⟩
      cases converts

private theorem balanced_glue {connective : Connective} {glue : List Char}
    (between : Glue connective glue) : Balanced glue := by
  cases between with
  | symbol connective before after =>
    exact (balanced_of_spaces before).append
      ((balanced_symbol connective).append (balanced_of_spaces after))
  | spaces between => exact balanced_of_spaces between.2

/-- A negation means nothing if its operand means nothing. -/
private theorem Scanned.negated {lead word : List Char} {tree : Tree} {negation : Negation}
    (before : Balanced lead) (scanned : Scanned word tree) :
    Scanned (lead ++ word) (.negated negation tree) := by
  rcases scanned with balanced | ⟨astray, nothing⟩
  · exact .inl (before.append balanced)
  · refine .inr ⟨before.append_astray astray, fun condition converts => ?_⟩
    obtain ⟨inner, operand, -⟩ := Tree.condition?_negated_eq_ok_iff.mp converts
    exact nothing inner operand

private theorem phraseProperty_scanned : PhraseProperty Scanned where
  nothing spaces := .inl (balanced_of_spaces spaces).parentheses
  tag := scanned_tag
  dash := by
    intro word tree inside
    have minus : Balanced ['-'] := balanced_of_plain (by simp [marks])
    exact (scanned_tag inside).negated minus
  not := by
    intro gap word tree between scanned
    rw [← List.append_assoc]
    exact scanned.negated (balanced_not.append (balanced_of_spaces between.2))
  group := by
    intro left word tree right before scanned after
    have whole : left ++ (word ++ (right ++ [')'])) = (left ++ (word ++ right)) ++ [')'] := by
      simp only [List.append_assoc]
    rw [whole]
    rcases scanned with balanced | ⟨astray, nothing⟩
    · exact .inl ((balanced_of_spaces before).append
        (balanced.append (balanced_of_spaces after))).parentheses
    · have inner := (balanced_of_spaces before).append_astray (astray.append right)
      exact .inr ⟨inner.parentheses _, nothing⟩
  joined := by
    intro left first glue right second connective scannedLeft between scannedRight
    rcases scannedLeft with balancedLeft | ⟨astray, nothing⟩
    · have before := balancedLeft.append (balanced_glue between)
      rw [← List.append_assoc]
      rcases scannedRight with balancedRight | ⟨astray, nothing⟩
      · exact .inl (before.append balancedRight)
      · refine .inr ⟨before.append_astray astray, fun condition converts => ?_⟩
        obtain ⟨_, b, -, operand, -⟩ := Tree.condition?_logical_eq_ok_iff.mp converts
        exact nothing b operand
    · refine .inr ⟨astray.append _, fun condition converts => ?_⟩
      obtain ⟨a, _, operand, -, -⟩ := Tree.condition?_logical_eq_ok_iff.mp converts
      exact nothing a operand

theorem scanned_of_isChain {word : List Char} {tree : Tree} (inside : IsChain word tree) :
    Scanned word tree :=
  phraseProperty_scanned.of_isChain inside

theorem scanned_of_isFilter {word : List Char} {tree : Tree} (inside : IsFilter word tree) :
    Scanned word tree := by
  cases inside with
  | filter before inner after =>
    rcases scanned_of_isChain inner with balanced | ⟨astray, nothing⟩
    · exact .inl ((balanced_of_spaces before).append
        (balanced.append (balanced_of_spaces after)))
    · exact .inr ⟨(balanced_of_spaces before).append_astray (astray.append _), nothing⟩

end FilterPushdown.Filter
