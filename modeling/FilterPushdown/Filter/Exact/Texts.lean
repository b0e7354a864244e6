import FilterPushdown.Filter.Exact.Words

/-!
Quoted texts are read exactly as the grammar has them.  As a text is read as the characters that
its pieces stand for, this needs that the pieces of a text are fixed: no piece begins another one,
and a quote ends the text unless a backslash stands before it.
-/

namespace FilterPushdown.Filter

open Parsing Grammar

variable {τ : Type} [Letter τ] {good : TextClass τ}

/-- The two characters that may enclose a text. -/
def IsDelimiter (c : Char) : Prop := c = '\'' ∨ c = '"'

private theorem delimiter_ne {delimiter : Char} (quote : IsDelimiter delimiter) {c : Char}
    (single : c ≠ '\'') (double : c ≠ '"') : delimiter ≠ c := by
  rcases quote with rfl | rfl
  · exact single.symm
  · exact double.symm

private theorem escaped_delimiter {delimiter d : Char} (quote : IsDelimiter delimiter)
    (stands : escaped? delimiter = some d) : d = delimiter := by
  rcases quote with rfl | rfl
  · cases stands
  · exact (Option.some.inj stands).symm

/-! ## Pieces -/

/-- A UTF-16 unit in four hexadecimal digits. -/
inductive HexUnit : List Char → Nat → Prop where
  | unit (first : hexValue? a = some i) (second : hexValue? b = some j)
      (third : hexValue? c = some k) (fourth : hexValue? d = some l) :
      HexUnit [a, b, c, d] (256 * (16 * i + j) + (16 * k + l))

private theorem reads_hexPair : Reads good
    (Reader.seq (fun a b => 16 * a + b) (Reader.letter hexValue?) (Reader.letter hexValue?))
    (TreeLanguage.Seq (fun a b => 16 * a + b) (TreeLanguage.letter hexValue?)
      (TreeLanguage.letter hexValue?)) :=
  (Reads.letter ⟨'0', 0, rfl⟩).seq (Reads.letter ⟨'0', 0, rfl⟩) ⟨_, _, '0', rfl, rfl⟩
    (fun _ _ _ _ _ _ _ _ same => by omega) (fun _ _ _ _ _ _ _ _ same => by omega)

private theorem reads_hexUnit : Reads good hexUnit HexUnit := by
  refine (reads_hexPair.seq reads_hexPair ⟨_, _, .seq ⟨'0', rfl, rfl⟩ ⟨'0', rfl, rfl⟩⟩
    (fun _ _ _ _ _ _ _ _ same => by omega)
    (fun _ _ _ _ _ _ _ _ same => by omega)).congr fun word code => ?_
  constructor
  · rintro @⟨_, _, _, _, @⟨_, _, _, _, ⟨a, rfl, first⟩, ⟨b, rfl, second⟩⟩,
      @⟨_, _, _, _, ⟨c, rfl, third⟩, ⟨d, rfl, fourth⟩⟩⟩
    exact .unit first second third fourth
  · rintro ⟨first, second, third, fourth⟩
    exact .seq (u := [_, _]) (.seq (u := [_]) ⟨_, rfl, first⟩ ⟨_, rfl, second⟩)
      (.seq (u := [_]) ⟨_, rfl, third⟩ ⟨_, rfl, fourth⟩)

private theorem zeroDigit : hexValue? '0' = some 0 := by decide

/-- What may follow a backslash between quotes of one kind. -/
inductive Escape (delimiter : Char) : List Char → Piece → Prop where
  | quote : Escape delimiter [delimiter] (.char delimiter)
  | letter (stands : escaped? c = some d) : Escape delimiter [c] (.char d)
  | unit (code : HexUnit word value) : Escape delimiter ('u' :: word) (.unit value)

private theorem reads_escape {delimiter : Char} (quote : IsDelimiter delimiter) :
    Reads good (escape delimiter) (Escape delimiter) := by
  refine ((Reads.letter ⟨delimiter, .char delimiter, if_pos rfl⟩).or ((Reads.char 'u').seqRight
    (reads_hexUnit.map fun _ _ _ _ _ same => Piece.unit.inj same)
    ⟨_, _, _, .unit zeroDigit zeroDigit zeroDigit zeroDigit, rfl⟩)).congr fun word piece => ?_
  constructor
  · rintro (⟨c, rfl, found⟩ | @⟨_, _, _, _, rfl, ⟨code, inside, rfl⟩⟩)
    · dsimp only at found
      split at found
      · rename_i same
        cases found
        exact same ▸ .quote
      · obtain ⟨d, stands, rfl⟩ := Option.map_eq_some_iff.mp found
        exact .letter stands
    · exact .unit inside
  · rintro (_ | @⟨c, d, stands⟩ | code)
    · exact .inl ⟨delimiter, rfl, if_pos rfl⟩
    · refine .inl ⟨c, rfl, ?_⟩
      dsimp only
      split
      · rename_i same
        subst same
        rw [escaped_delimiter quote stands]
      · rw [stands]
        rfl
    · exact .inr (.seq (u := ['u']) (a := ()) rfl ⟨_, code, rfl⟩)

theorem reads_piece {delimiter : Char} (quote : IsDelimiter delimiter) :
    Reads good (piece delimiter) (IsPiece delimiter) := by
  have someLetter : (('a' != '\n' && 'a' != delimiter && 'a' != '\\') : Bool) = true := by
    rcases quote with rfl | rfl <;> decide
  refine (((Reads.oneOf ⟨'a', someLetter⟩).map fun _ _ _ _ _ same => Piece.char.inj same).or
    ((Reads.char '\\').seqRight (reads_escape quote) ⟨_, _, .quote⟩)).congr fun word piece => ?_
  constructor
  · rintro (⟨c, ⟨rfl, plain⟩, rfl⟩ | @⟨_, _, _, _, rfl, inside⟩)
    · simp only [Bool.and_eq_true, bne_iff_ne, ne_eq] at plain
      exact .plain plain.1.1 plain.1.2 plain.2
    · rcases inside with _ | stands | ⟨first, second, third, fourth⟩
      · exact .quote
      · exact .escape stands
      · exact .unit first second third fourth
  · rintro (⟨notFeed, notQuote, notBackslash⟩ | _ | stands | ⟨first, second, third, fourth⟩)
    · exact .inl ⟨_, ⟨rfl, by simp [notFeed, notQuote, notBackslash]⟩, rfl⟩
    · exact .inr (.seq (u := ['\\']) (a := ()) rfl .quote)
    · exact .inr (.seq (u := ['\\']) (a := ()) rfl (.letter stands))
    · exact .inr (.seq (u := ['\\']) (a := ()) rfl (.unit (.unit first second third fourth)))

/-- No piece begins another one. -/
theorem isPiece_unique {delimiter : Char} (quote : IsDelimiter delimiter) {u v r s : List Char}
    {first second : Piece} (left : IsPiece delimiter u first) (right : IsPiece delimiter v second)
    (same : u ++ r = v ++ s) : u = v ∧ first = second ∧ r = s := by
  have notLetter : delimiter ≠ 'u' := delimiter_ne quote (by decide) (by decide)
  have noStand : escaped? 'u' = none := by decide
  have own := @escaped_delimiter delimiter
  cases left with
  | plain _ _ notBackslash => cases right <;> grind
  | quote => cases right <;> grind
  | escape stands => cases right <;> grind
  | unit _ _ _ _ => cases right <;> grind

theorem isPiece_ne_nil {delimiter : Char} {piece : Piece} : ¬ IsPiece delimiter [] piece := nofun

/-! ## Whole texts -/

private theorem items_pieces {delimiter : Char} {word : List Char} {pieces : List Piece} :
    TreeLanguage.Items (IsPiece delimiter) word pieces ↔ ArePieces delimiter word pieces := by
  constructor
  · intro items
    induction items with
    | nil => exact .nil
    | cons first _ ih => exact .cons first ih
  · intro pieces
    induction pieces with
    | nil => exact .nil
    | cons first _ ih => exact .cons first ih

/-- A piece does not begin with the quote that would end its text. -/
private theorem isPiece_not_quote {delimiter : Char} (quote : IsDelimiter delimiter)
    {word rest other : List Char} {piece : Piece} (inside : IsPiece delimiter word piece) :
    word ++ rest ≠ delimiter :: other := by
  have notBackslash : delimiter ≠ '\\' := delimiter_ne quote (by decide) (by decide)
  cases inside with
  | plain _ notQuote => simp [notQuote]
  | quote | escape | unit => simp [Ne.symm notBackslash]

/-- The first quote that belongs to no piece ends a text, whatever comes after it. -/
theorem arePieces_before_quote {delimiter : Char} (quote : IsDelimiter delimiter)
    {u v r s : List Char} {first second : List Piece} (left : ArePieces delimiter u first)
    (right : ArePieces delimiter v second)
    (same : u ++ delimiter :: r = v ++ delimiter :: s) : u = v ∧ first = second ∧ r = s := by
  induction left generalizing v second with
  | nil =>
    cases right with
    | nil => exact ⟨rfl, rfl, (List.cons.inj same).2⟩
    | cons piece _ =>
      rw [List.append_assoc] at same
      exact absurd same.symm (isPiece_not_quote quote piece)
  | cons head _ ih =>
    rw [List.append_assoc] at same
    cases right with
    | nil => exact absurd same (isPiece_not_quote quote head)
    | cons head' rest' =>
      rw [List.append_assoc] at same
      obtain ⟨rfl, rfl, later⟩ := isPiece_unique quote head head' same
      obtain ⟨rfl, rfl, after⟩ := ih rest' later
      exact ⟨rfl, rfl, after⟩

theorem arePieces_unique {delimiter : Char} (quote : IsDelimiter delimiter) {word : List Char}
    {first second : List Piece} (left : ArePieces delimiter word first)
    (right : ArePieces delimiter word second) : first = second :=
  (arePieces_before_quote quote left right (Eq.refl (word ++ [delimiter]))).2.1

/-- No quoted text begins another one. -/
theorem isQuoted_unique {delimiter : Char} (quote : IsDelimiter delimiter)
    {u v r s : List Char} {first second : String} (left : IsQuoted delimiter u first)
    (right : IsQuoted delimiter v second) (same : u ++ r = v ++ s) :
    u = v ∧ first = second ∧ r = s := by
  cases left with
  | quoted pieces =>
    cases right with
    | quoted pieces' =>
      simp only [List.cons_append, List.append_assoc, List.nil_append, List.cons.injEq,
        true_and] at same
      obtain ⟨rfl, rfl, after⟩ := arePieces_before_quote quote pieces pieces' same
      exact ⟨rfl, rfl, after⟩

theorem reads_quoted {delimiter : Char} (quote : IsDelimiter delimiter) :
    Reads good (quoted delimiter) (IsQuoted delimiter) := by
  have pieces : Reads good (Reader.star (piece delimiter)) (ArePieces delimiter) :=
    ((reads_piece quote).star fun _ => isPiece_ne_nil).congr fun _ _ => items_pieces
  have closed := pieces.seqLeft (Reads.char delimiter) ⟨_, (), rfl⟩
  have enclosed := (Reads.char delimiter).seqRight closed
    ⟨_, _, .seq (b := ()) ArePieces.nil rfl⟩
  refine (enclosed.map ?_).congr fun word value => ?_
  · rintro _ _ _ @⟨_, _, _, _, rfl, @⟨u, _, _, _, left, rfl⟩⟩ right -
    generalize same : [delimiter] ++ (u ++ [delimiter]) = other at right
    obtain @⟨_, _, _, _, rfl, @⟨v, _, _, _, right, rfl⟩⟩ := right
    have inside : u ++ [delimiter] = v ++ [delimiter] := (List.cons.inj same).2
    obtain rfl := List.append_cancel_right inside
    exact arePieces_unique quote left right
  · constructor
    · rintro ⟨_, @⟨_, _, _, _, rfl, @⟨_, _, _, _, pieces, rfl⟩⟩, rfl⟩
      exact .quoted pieces
    · rintro ⟨pieces⟩
      exact ⟨_, .seq (u := [delimiter]) (a := ()) rfl (.seq (b := ()) pieces rfl), rfl⟩

theorem reads_singleQuoted : Reads good singleQuoted (IsQuoted '\'') := reads_quoted (.inl rfl)

theorem reads_doubleQuoted : Reads good doubleQuoted (IsQuoted '"') := reads_quoted (.inr rfl)

theorem isQuoted_ne_nil {delimiter : Char} {value : String} : ¬ IsQuoted delimiter [] value := nofun

end FilterPushdown.Filter
