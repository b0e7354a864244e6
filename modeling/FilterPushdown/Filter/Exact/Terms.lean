import FilterPushdown.Filter.Exact.Numbers
import FilterPushdown.Filter.Exact.Texts

/-!
Regular expressions, bare words, names and terms are read exactly as the grammar has them.  The
reserved words are left out of the bare words without losing longer words that begin with them:
every beginning of a bare word goes on to one that is not reserved.
-/

namespace FilterPushdown.Filter

open Parsing Grammar

variable {τ : Type} [Letter τ] {good : TextClass τ}

/-! ## Regular expressions -/

/-- One letter of a regular expression, or a backslash and the letter after it. -/
inductive RegexPiece : List Char → Prop where
  | plain (notBackslash : c ≠ '\\') : RegexPiece [c]
  | shielded : RegexPiece ['\\', c]

private theorem reads_regexPiece : Reads good regexPiece fun word cs =>
    cs = word ∧ RegexPiece word := by
  refine (((Reads.oneOf ⟨'a', by decide⟩).map fun _ _ _ _ _ same => (List.cons.inj same).1).or
    ((Reads.char '\\').seq (Reads.oneOf ⟨'a', rfl⟩) ⟨['a'], 'a', rfl, rfl⟩
      (fun _ _ _ _ _ _ _ _ _ => rfl)
      (fun _ _ _ _ _ _ _ _ same =>
        (List.cons.inj (List.cons.inj same).2).1))).congr fun word cs => ?_
  constructor
  · rintro (⟨c, ⟨rfl, plain⟩, rfl⟩ | @⟨_, _, _, _, rfl, ⟨rfl, -⟩⟩)
    · exact ⟨rfl, .plain (bne_iff_ne.mp plain)⟩
    · exact ⟨rfl, .shielded⟩
  · rintro ⟨rfl, notBackslash | _⟩
    · exact .inl ⟨_, ⟨rfl, bne_iff_ne.mpr notBackslash⟩, rfl⟩
    · exact .inr (.seq (u := ['\\']) (a := ()) rfl ⟨rfl, rfl⟩)

private theorem items_regex {word : List Char} {items : List (List Char)}
    (pieces : TreeLanguage.Items (fun word cs => cs = word ∧ RegexPiece word) word items) :
    RegexBody word ∧ ∀ start, items.foldl List.append start = start ++ word := by
  induction pieces with
  | nil => exact ⟨.nil, fun start => (List.append_nil start).symm⟩
  | cons first _ ih =>
    obtain ⟨rfl, piece⟩ := first
    refine ⟨?_, fun start => ?_⟩
    · cases piece with
      | plain notBackslash => exact .plain notBackslash ih.1
      | shielded => exact .shielded ih.1
    · rw [List.foldl_cons, ih.2]
      exact List.append_assoc ..

private theorem regex_items {word : List Char} (body : RegexBody word) :
    ∃ items, TreeLanguage.Items (fun word cs => cs = word ∧ RegexPiece word) word items := by
  induction body with
  | nil => exact ⟨[], .nil⟩
  | plain notBackslash _ ih =>
    obtain ⟨items, rest⟩ := ih
    exact ⟨_, .cons (u := [_]) ⟨rfl, .plain notBackslash⟩ rest⟩
  | shielded _ ih =>
    obtain ⟨items, rest⟩ := ih
    exact ⟨_, .cons (u := [_, _]) ⟨rfl, .shielded⟩ rest⟩

private theorem reads_regexBody : Reads good regexBody fun word cs =>
    cs = word ∧ RegexBody word := by
  refine ((Reads.result []).chain (f := List.append) reads_regexPiece (fun _ no => nomatch no.2)
    (fun _ _ _ _ _ _ _ _ same => List.append_cancel_right same)
    (fun _ _ _ _ _ _ _ _ same => List.append_cancel_left same)).congr fun word cs => ?_
  rw [TreeLanguage.chain_iff]
  constructor
  · rintro ⟨_, _, v, items, ⟨rfl, rfl⟩, rest, rfl, rfl⟩
    exact ⟨(items_regex rest).2 [], (items_regex rest).1⟩
  · rintro ⟨rfl, body⟩
    obtain ⟨items, rest⟩ := regex_items body
    exact ⟨[], [], cs, items, ⟨rfl, rfl⟩, rest, rfl, ((items_regex rest).2 []).symm⟩

/-- A regular expression with its slashes and flags. -/
inductive RegexWord : List Char → Term → Prop where
  | regex (body : RegexBody word) (letters : ∀ c ∈ flags, isFlag c = true) :
      RegexWord ('/' :: (word ++ '/' :: flags))
        (.regex (String.ofList ('/' :: (word ++ '/' :: flags))))

private theorem someFlag : ∃ c, isFlag c = true := ⟨'g', by decide⟩

theorem reads_regex : Reads good regex RegexWord := by
  have body : Reads good regexBody fun word cs => cs = word ∧ RegexBody word := reads_regexBody
  have closed := body.seqLeft (Reads.char '/') ⟨_, (), rfl⟩
  have enclosed := (Reads.char '/').seqRight closed ⟨_, _, .seq (b := ()) ⟨rfl, .nil⟩ rfl⟩
  have text {first second : List Char}
      (same : Term.regex (String.ofList first) = Term.regex (String.ofList second)) :
      first = second := String.ofList_injective (Term.regex.inj same)
  have read := enclosed.seq (f := fun body flags =>
      Term.regex (String.ofList ('/' :: (body ++ '/' :: flags))))
    (reads_letters someFlag) ⟨[], [], rfl, fun _ no => absurd no List.not_mem_nil⟩
    (fun _ _ _ _ _ _ _ _ same => List.append_cancel_right (List.cons.inj (text same)).2)
    (fun _ _ _ _ _ _ _ _ same =>
      (List.cons.inj (List.append_cancel_left (List.cons.inj (text same)).2)).2)
  refine read.congr fun word term => ?_
  constructor
  · rintro @⟨_, _, _, _, @⟨_, _, _, _, rfl, @⟨u, _, _, _, ⟨rfl, body⟩, rfl⟩⟩, ⟨rfl, flags⟩⟩
    simpa using RegexWord.regex body flags
  · rintro @⟨word, flags, body, letters⟩
    exact .of_eq (.seq (u := ['/']) (a := ()) rfl (.seq (b := ()) ⟨rfl, body⟩ rfl)) ⟨rfl, letters⟩
      (by simp) rfl

/-! ## Bare words -/

/-- A word that is bare unless it is reserved. -/
inductive LooseWord : List Char → Prop where
  | word (letters : Run startsWord continuesWord word) : LooseWord word
  | afterDigits (digits : Digits word) (letters : Run endsDigits continuesWord rest) :
      LooseWord (word ++ rest)

private theorem reads_looseWord : Reads good
    (Reader.or (run startsWord continuesWord)
      (Reader.seq List.append digits (run endsDigits continuesWord)))
    fun word cs => cs = word ∧ LooseWord word := by
  have someStart : ∃ c, startsWord c = true := ⟨'a', by decide⟩
  have someLetter : ∃ c, continuesWord c = true := ⟨'a', by decide⟩
  have someEnd : ∃ c, endsDigits c = true := ⟨'a', by decide⟩
  have letter : Run endsDigits continuesWord ['a'] :=
    ⟨by decide, fun _ no => absurd no List.not_mem_nil⟩
  refine ((reads_run someStart someLetter).or
    (reads_digits.seq (f := List.append) (reads_run someEnd someLetter) ⟨_, _, rfl, letter⟩
      (fun _ _ _ _ _ _ _ _ same => List.append_cancel_right same)
      (fun _ _ _ _ _ _ _ _ same => List.append_cancel_left same))).congr fun word cs => ?_
  constructor
  · rintro (⟨rfl, letters⟩ | @⟨_, _, _, _, ⟨rfl, digits⟩, ⟨rfl, letters⟩⟩)
    · exact ⟨rfl, .word letters⟩
    · exact ⟨rfl, .afterDigits digits letters⟩
  · rintro ⟨rfl, letters | ⟨digits, letters⟩⟩
    · exact .inl ⟨rfl, letters⟩
    · exact .inr (.seq ⟨rfl, digits⟩ ⟨rfl, letters⟩)

private theorem run_snoc {first rest : Char → Bool} {word : List Char} {c : Char}
    (inside : Run first rest word) (next : rest c = true) : Run first rest (word ++ [c]) := by
  cases word with
  | nil => exact inside.elim
  | cons d word =>
    refine ⟨inside.1, fun e member => ?_⟩
    rcases List.mem_append.mp member with member | member
    · exact inside.2 e member
    · exact List.mem_singleton.mp member ▸ next

/-- A bare word may always be made longer. -/
private theorem looseWord_snoc {word : List Char} (inside : LooseWord word) :
    LooseWord (word ++ ['a']) := by
  cases inside with
  | word letters => exact .word (run_snoc letters (by decide))
  | afterDigits digits letters =>
    rw [List.append_assoc]
    exact .afterDigits digits (run_snoc letters (by decide))

private theorem snoc_free (word : List Char) :
    reservedWords.contains (word ++ ['a']) = false := by
  rw [← Bool.not_eq_true, List.contains_iff_mem]
  intro member
  have last : ∀ reserved ∈ reservedWords, reserved.getLast? ≠ some 'a' := by decide
  exact last _ member List.getLast?_concat

private theorem afterDigits_free {word rest : List Char} (digits : Digits word) :
    word ++ rest ∉ reservedWords := by
  have first : ∀ reserved ∈ reservedWords, (reserved.head?.map isDigit) = some false := by decide
  intro member
  cases word with
  | nil => exact digits.1 rfl
  | cons c word =>
    have letter := first _ member
    simp [digits.2 c List.mem_cons_self] at letter

theorem reads_bareWord : Reads good bareWord fun word term =>
    IsBareWord word ∧ term = wordTerm word := by
  refine ((reads_looseWord.refuse (fun _ _ _ left right => left.1.trans right.1.symm)
    (fun before rest cs inside => ⟨rest ++ ['a'], before ++ rest ++ ['a'],
      ⟨(List.append_assoc ..), List.append_assoc before rest ['a'] ▸ looseWord_snoc inside.2⟩,
      snoc_free _⟩)).map fun _ _ _ left right _ => left.1.1.trans right.1.1.symm).congr
    fun word term => ?_
  constructor
  · rintro ⟨_, ⟨⟨rfl, letters | ⟨digits, letters⟩⟩, free⟩, rfl⟩
    · refine ⟨.word letters fun member => ?_, rfl⟩
      rw [List.contains_iff_mem.mpr member] at free
      cases free
    · exact ⟨.afterDigits digits letters, rfl⟩
  · rintro ⟨⟨letters, free⟩ | ⟨digits, letters⟩, rfl⟩
    · refine ⟨word, ⟨⟨rfl, .word letters⟩, ?_⟩, rfl⟩
      rw [← Bool.not_eq_true, List.contains_iff_mem]
      exact free
    · refine ⟨_, ⟨⟨rfl, .afterDigits digits letters⟩, ?_⟩, rfl⟩
      rw [← Bool.not_eq_true, List.contains_iff_mem]
      exact afterDigits_free digits

/-! ## Names and terms -/

theorem reads_name : Reads good name IsName := by
  have someStart : ∃ c, startsName c = true := ⟨'a', by decide⟩
  have someLetter : ∃ c, continuesName c = true := ⟨'a', by decide⟩
  refine (((reads_run someStart someLetter).map
      fun _ _ _ left right _ => left.1.trans right.1.symm).or
    ((reads_singleQuoted.map fun _ _ _ _ _ same => (Name.mk.inj same).2).or
      (reads_doubleQuoted.map fun _ _ _ _ _ same => (Name.mk.inj same).2))).congr
    fun word name => ?_
  constructor
  · rintro (⟨_, ⟨rfl, letters⟩, rfl⟩ | ⟨_, text, rfl⟩ | ⟨_, text, rfl⟩)
    · exact .bare letters
    · exact .single text
    · exact .double text
  · rintro (letters | text | text)
    · exact .inl ⟨_, ⟨rfl, letters⟩, rfl⟩
    · exact .inr (.inl ⟨_, text, rfl⟩)
    · exact .inr (.inr ⟨_, text, rfl⟩)

theorem reads_term : Reads good term IsTerm := by
  refine ((reads_number.map fun _ _ _ _ _ same => Term.number.inj same).or
    (reads_regex.or (reads_range.or (reads_bareWord.or
      ((reads_singleQuoted.map fun _ _ _ _ _ same => (Term.text.inj same).2).or
        (reads_doubleQuoted.map fun _ _ _ _ _ same => (Term.text.inj same).2)))))).congr
    fun word term => ?_
  constructor
  · rintro (⟨_, ⟨_, numeral, rfl⟩, rfl⟩ | ⟨body, letters⟩ |
      ⟨opening, lowest, highest, closing⟩ | ⟨letters, rfl⟩ | ⟨_, text, rfl⟩ | ⟨_, text, rfl⟩)
    · exact .number numeral
    · exact .regex body letters
    · exact .range opening lowest highest closing
    · exact .bare letters
    · exact .single text
    · exact .double text
  · rintro (numeral | ⟨body, letters⟩ | ⟨opening, lowest, highest, closing⟩ | letters | text | text)
    · exact .inl ⟨_, ⟨_, numeral, rfl⟩, rfl⟩
    · exact .inr (.inl (.regex body letters))
    · exact .inr (.inr (.inl (.range opening lowest highest closing)))
    · exact .inr (.inr (.inr (.inl ⟨letters, rfl⟩)))
    · exact .inr (.inr (.inr (.inr (.inl ⟨_, text, rfl⟩))))
    · exact .inr (.inr (.inr (.inr (.inr ⟨_, text, rfl⟩))))

end FilterPushdown.Filter
