import FilterPushdown.Proofs.Reference
import FilterPushdown.Proofs.Sql.Spelling

/-!
The lexical rules of a dialect, and why what the dialect quotes is read back.  The three built-in
dialects escape a quote by one letter in front of it, a mark: the quote itself or a backslash.  A
name may hold the mark only if the mark is the quote; in a literal a backslash that is a mark has
been doubled.
-/

namespace FilterPushdown

namespace Dialect

/-- A quoted identifier ends at the first quote that is no part of the escape sequence.  A string
literal ends at the first apostrophe that is no part of the escape sequence and, where backslashes
escape, does not come after a backslash. -/
def lexicon (dialect : Dialect) : Sql.Lexicon where
  identifier := {
    quote := dialect.identifierQuote
    pair? c d :=
      if [c, d] = dialect.escapedIdentifierQuote.toList then some dialect.identifierQuote
      else none }
  literal := {
    quote := '\''
    pair? c d :=
      if c = '\\' ∧ dialect.backslashEscapes = true then some d
      else if [c, d] = dialect.escapedStringQuote.toList then some '\''
      else none }

/-- The dialects that come with the library. -/
def builtIn : List Dialect := [bigQuery, ansi, mySql]

/-! ## Marks -/

/-- The escape sequence of an identifier quote is the quote with a mark in front of it. -/
def IdentifierMark (dialect : Dialect) (mark : Char) : Prop :=
  dialect.escapedIdentifierQuote.toList = [mark, dialect.identifierQuote]

/-- The escape sequence of an apostrophe is the apostrophe with a mark in front of it, and the mark
is the apostrophe itself or a backslash that has to be doubled. -/
def LiteralMark (dialect : Dialect) (mark : Char) : Prop :=
  dialect.escapedStringQuote.toList = [mark, '\''] ∧
    (mark = '\'' ∨ mark = '\\' ∧ dialect.backslashEscapes = true)

variable {dialect : Dialect} {mark : Char}

/-- Among the built-in dialects only GoogleSQL marks an identifier quote by another letter. -/
theorem identifierMark_of_mem_builtIn (member : dialect ∈ builtIn) :
    ∃ mark, dialect.IdentifierMark mark ∧
      (mark = dialect.identifierQuote ∨ mark = '\\' ∧ dialect = bigQuery) := by
  simp only [builtIn, List.mem_cons, List.not_mem_nil, or_false] at member
  rcases member with rfl | rfl | rfl
  · exact ⟨'\\', rfl, .inr ⟨rfl, rfl⟩⟩
  · exact ⟨'"', rfl, .inl rfl⟩
  · exact ⟨'\x60', rfl, .inl rfl⟩

theorem literalMark_of_mem_builtIn (member : dialect ∈ builtIn) :
    ∃ mark, dialect.LiteralMark mark := by
  simp only [builtIn, List.mem_cons, List.not_mem_nil, or_false] at member
  rcases member with rfl | rfl | rfl
  · exact ⟨'\\', rfl, .inr ⟨rfl, rfl⟩⟩
  · exact ⟨'\'', rfl, .inl rfl⟩
  · exact ⟨'\'', rfl, .inl rfl⟩

theorem identifierQuote_of_mem_builtIn (member : dialect ∈ builtIn) :
    Sql.isBare dialect.identifierQuote = false ∧ '\'' ≠ dialect.identifierQuote := by
  simp only [builtIn, List.mem_cons, List.not_mem_nil, or_false] at member
  rcases member with rfl | rfl | rfl <;> decide

private theorem identifier_pair? (c d : Char) : dialect.lexicon.identifier.pair? c d =
    if [c, d] = dialect.escapedIdentifierQuote.toList then some dialect.identifierQuote
    else none := rfl

private theorem literal_pair? (c d : Char) : dialect.lexicon.literal.pair? c d =
    if c = '\\' ∧ dialect.backslashEscapes = true then some d
    else if [c, d] = dialect.escapedStringQuote.toList then some '\'' else none := rfl

/-! ## Quoted identifiers -/

/-- An escaped name stands for the name if the mark is the quote or does not occur in it. -/
theorem denotes_escaped (marked : dialect.IdentifierMark mark) {name : List Char}
    (unmarked : mark = dialect.identifierQuote ∨ mark ∉ name) :
    dialect.lexicon.identifier.Denotes
      (Text.replaceLetter dialect.identifierQuote dialect.escapedIdentifierQuote.toList name)
      name := by
  induction name with
  | nil => exact .nil
  | cons c name ih =>
    have later : mark = dialect.identifierQuote ∨ mark ∉ name :=
      unmarked.imp_right fun absent member => absent (List.mem_cons_of_mem c member)
    rw [Text.replaceLetter_cons]
    by_cases quote : c = dialect.identifierQuote
    · rw [if_pos quote, marked, quote]
      rw [marked] at ih
      refine .pair ?_ (ih later)
      rw [identifier_pair?, if_pos marked.symm]
    · have notMark : c ≠ mark := by
        rintro rfl
        rcases unmarked with same | absent
        · exact quote same
        · exact absent List.mem_cons_self
      rw [if_neg quote]
      refine .plain quote (fun d => ?_) (ih later)
      have notEscape : [c, d] ≠ dialect.escapedIdentifierQuote.toList := by
        intro same
        rw [marked] at same
        exact notMark (List.cons.inj same).1
      rw [identifier_pair?, if_neg notEscape]

/-! ## String literals -/

theorem literalBody_nil : dialect.literalBody [] = [] := by
  unfold literalBody
  split <;> rfl

theorem literalBody_cons (c : Char) (value : List Char) :
    dialect.literalBody (c :: value) =
      (if c = '\'' then dialect.escapedStringQuote.toList
        else if c = '\\' ∧ dialect.backslashEscapes = true then ['\\', '\\']
        else [c]) ++ dialect.literalBody value := by
  unfold literalBody
  by_cases escapes : dialect.backslashEscapes = true
  · simp only [escapes, and_true, Text.replaceLetter_cons, if_true]
    by_cases backslash : c = '\\'
    · subst backslash
      rfl
    · simp only [if_neg backslash, List.singleton_append, Text.replaceLetter_cons]
  · simp [escapes, Text.replaceLetter_cons]

/-- Rules under which what a dialect puts between apostrophes is read back: the escape sequence
stands for an apostrophe, and doubled backslashes, where there are any, for one; every other letter
is on its own. -/
structure Undoes (rules : Sql.Quoting) (dialect : Dialect) : Prop where
  quote : rules.quote = '\''
  escape : ∃ mark, dialect.escapedStringQuote.toList = [mark, '\''] ∧
    rules.pair? mark '\'' = some '\''
  doubled : dialect.backslashEscapes = true → rules.pair? '\\' '\\' = some '\\'
  plain : ∀ c, c ≠ '\'' → ¬ (c = '\\' ∧ dialect.backslashEscapes = true) →
    ∀ d, rules.pair? c d = none

/-- What stands between the apostrophes of a literal stands for its value. -/
theorem Undoes.denotes {rules : Sql.Quoting} (undoes : Undoes rules dialect)
    (value : List Char) : rules.Denotes (dialect.literalBody value) value := by
  obtain ⟨mark, escape, stands⟩ := undoes.escape
  induction value with
  | nil =>
    rw [literalBody_nil]
    exact .nil
  | cons c value ih =>
    rw [literalBody_cons]
    by_cases apostrophe : c = '\''
    · rw [if_pos apostrophe, escape, apostrophe]
      exact .pair stands ih
    rw [if_neg apostrophe]
    by_cases doubled : c = '\\' ∧ dialect.backslashEscapes = true
    · rw [if_pos doubled, doubled.1]
      exact .pair (undoes.doubled doubled.2) ih
    · rw [if_neg doubled]
      refine .plain ?_ (undoes.plain c apostrophe doubled) ih
      rw [undoes.quote]
      exact apostrophe

/-- A whole literal is read as its value. -/
theorem Undoes.read_quoteString {rules : Sql.Quoting} (undoes : Undoes rules dialect)
    (value : String) :
    rules.read (dialect.quoteString value).toList = some (value.toList, []) := by
  have read := @Sql.Quoting.read_denotes rules _ _ [] (undoes.denotes value.toList) nofun
  rw [undoes.quote] at read
  simpa [quoteString] using read

/-- The dialect's own rules undo what it writes if a mark escapes its apostrophes. -/
theorem undoes_lexicon (marked : dialect.LiteralMark mark) :
    Undoes dialect.lexicon.literal dialect where
  quote := rfl
  escape := by
    refine ⟨mark, marked.1, ?_⟩
    rw [literal_pair?, if_pos marked.1.symm]
    split <;> rfl
  doubled := by
    intro escapes
    rw [literal_pair?, if_pos ⟨rfl, escapes⟩]
  plain := by
    intro c apostrophe doubled d
    have notEscape : [c, d] ≠ dialect.escapedStringQuote.toList := by
      intro same
      rw [marked.1] at same
      obtain ⟨rfl, -⟩ := List.cons.inj same
      exact marked.2.elim apostrophe doubled
    rw [literal_pair?, if_neg doubled, if_neg notEscape]

theorem denotes_literalBody (marked : dialect.LiteralMark mark) (value : List Char) :
    dialect.lexicon.literal.Denotes (dialect.literalBody value) value :=
  (undoes_lexicon marked).denotes value

/-! ## Boundaries -/

private theorem closes_identifier (marked : dialect.IdentifierMark mark)
    (notBare : Sql.isBare dialect.identifierQuote = false) {rest : List Char}
    (boundary : Sql.Boundary rest) : dialect.lexicon.identifier.Closes rest := by
  intro d first
  have notQuote : d ≠ dialect.identifierQuote := by
    rintro rfl
    rcases boundary _ first with same | same <;> rw [same] at notBare <;> cases notBare
  have notEscape : [dialect.identifierQuote, d] ≠ dialect.escapedIdentifierQuote.toList := by
    intro same
    rw [marked] at same
    exact notQuote (List.cons.inj (List.cons.inj same).2).1
  change dialect.lexicon.identifier.pair? dialect.identifierQuote d = none
  rw [identifier_pair?, if_neg notEscape]

private theorem closes_literal (marked : dialect.LiteralMark mark) {rest : List Char}
    (boundary : Sql.Boundary rest) : dialect.lexicon.literal.Closes rest := by
  intro d first
  have notApostrophe : d ≠ '\'' := by
    rintro rfl
    rcases boundary _ first with same | same <;> cases same
  have notEscape : ['\'', d] ≠ dialect.escapedStringQuote.toList := by
    intro same
    rw [marked.1] at same
    exact notApostrophe (List.cons.inj (List.cons.inj same).2).1
  have notBackslash : ¬ ('\'' = '\\' ∧ dialect.backslashEscapes = true) := by simp
  change dialect.lexicon.literal.pair? '\'' d = none
  rw [literal_pair?, if_neg notBackslash, if_neg notEscape]

/-- The rules of the built-in dialects keep quoted text apart from everything else. -/
theorem clear_lexicon (member : dialect ∈ builtIn) : dialect.lexicon.Clear := by
  obtain ⟨_, identifierMarked, -⟩ := identifierMark_of_mem_builtIn member
  obtain ⟨_, literalMarked⟩ := literalMark_of_mem_builtIn member
  obtain ⟨notBare, differ⟩ := identifierQuote_of_mem_builtIn member
  exact {
    identifier_not_bare := notBare
    literal_not_bare := rfl
    quotes_differ := differ
    identifier_closes := fun _ boundary => closes_identifier identifierMarked notBare boundary
    literal_closes := fun _ boundary => closes_literal literalMarked boundary }

end Dialect

end FilterPushdown
