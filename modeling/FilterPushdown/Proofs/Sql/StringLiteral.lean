import FilterPushdown.Proofs.Sql.DialectLexicon

/-!
String literals in front of any text.  The reader knows two pairs of letters at most: the dialect's
escape sequence of an apostrophe, and a doubled backslash where backslashes escape.  Main statement:
a literal is read as its value and ends where its own last apostrophe stands, whatever quotes and
backslashes the value holds and whatever comes after it.
-/

namespace FilterPushdown

namespace Dialect

/-- How a string literal is read: the escape sequence stands for an apostrophe, two backslashes for
one where backslashes escape, and every other apostrophe ends the literal. -/
def literalPairs (dialect : Dialect) : Sql.Quoting where
  quote := '\''
  pair? c d :=
    if [c, d] = dialect.escapedStringQuote.toList then some '\''
    else if dialect.backslashEscapes = true ∧ c = '\\' ∧ d = '\\' then some '\\'
    else none

/-- The ways to escape an apostrophe that keep literals readable: to double it, or to put a
backslash in front of it where backslashes are escaped themselves. -/
def EscapesApostrophes (dialect : Dialect) : Prop :=
  dialect.escapedStringQuote = "''" ∨
    dialect.escapedStringQuote = "\\'" ∧ dialect.backslashEscapes = true

variable {dialect : Dialect} {mark : Char}

theorem literalMark_of_escapesApostrophes (escapes : dialect.EscapesApostrophes) :
    ∃ mark, dialect.LiteralMark mark := by
  rcases escapes with doubled | ⟨marked, backslash⟩
  · exact ⟨'\'', by rw [doubled]; rfl, .inl rfl⟩
  · exact ⟨'\\', by rw [marked]; rfl, .inr ⟨rfl, backslash⟩⟩

/-- These pairs undo what the dialect writes: a letter that begins one is an apostrophe or a
backslash that has been doubled. -/
theorem undoes_literalPairs (marked : dialect.LiteralMark mark) :
    Undoes dialect.literalPairs dialect where
  quote := rfl
  escape := ⟨mark, marked.1, if_pos marked.1.symm⟩
  doubled := by
    intro escapes
    have notEscape : ['\\', '\\'] ≠ dialect.escapedStringQuote.toList := by
      rw [marked.1]
      simp
    change (if _ then _ else _) = _
    rw [if_neg notEscape, if_pos ⟨escapes, rfl, rfl⟩]
  plain := by
    intro c apostrophe single d
    have notEscape : [c, d] ≠ dialect.escapedStringQuote.toList := by
      intro same
      rw [marked.1] at same
      obtain ⟨rfl, -⟩ := List.cons.inj same
      exact marked.2.elim apostrophe single
    change (if _ then _ else _) = _
    rw [if_neg notEscape, if_neg fun doubled => single ⟨doubled.2.1, doubled.1⟩]

/-- An apostrophe is the first letter of no pair but its own escape sequence. -/
private theorem literalPairs_apostrophe (marked : dialect.LiteralMark mark) {d : Char}
    (other : d ≠ '\'') : dialect.literalPairs.pair? '\'' d = none := by
  have notEscape : ['\'', d] ≠ dialect.escapedStringQuote.toList := by
    intro same
    rw [marked.1] at same
    exact other (List.cons.inj (List.cons.inj same).2).1
  change (if _ then _ else _) = _
  rw [if_neg notEscape, if_neg (by simp)]

/-- In front of every text that does not begin with an apostrophe, a string literal is read as its
value, and what is left is that text. -/
theorem quoteString_readsBefore (escapes : dialect.EscapesApostrophes) (value : String) :
    dialect.literalPairs.ReadsBefore (dialect.quoteString value) value := by
  obtain ⟨mark, marked⟩ := literalMark_of_escapesApostrophes escapes
  apply Sql.Quoting.readsBefore_of_denotes _ ((undoes_literalPairs marked).denotes value.toList)
  · exact fun d other => literalPairs_apostrophe marked other
  · simp [quoteString, literalPairs]

/-- In GoogleSQL a value that ends in a backslash and an apostrophe neither ends its literal early
nor takes the next literal in. -/
theorem value_ending_in_escapes_reads_back :
    bigQuery.EscapesApostrophes ∧ bigQuery.quoteString "\\'" = "'\\\\\\''" ∧
      bigQuery.literalPairs.read "'\\\\\\'' OR 'x' = 'x'".toList =
        some ("\\'".toList, " OR 'x' = 'x'".toList) := by
  have escapes : bigQuery.EscapesApostrophes := .inr ⟨rfl, rfl⟩
  have written : bigQuery.quoteString "\\'" = "'\\\\\\''" := by decide
  have read := quoteString_readsBefore escapes "\\'" " OR 'x' = 'x'" (by decide)
  rw [written] at read
  exact ⟨escapes, written, read⟩

end Dialect

end FilterPushdown
