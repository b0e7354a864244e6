import FilterPushdown.Proofs.Dialect.Requirements
import FilterPushdown.Proofs.Reference
import FilterPushdown.Proofs.Text.Reversible

/-!
Which accepted dialects keep different names and different values apart.  Options are checked for a
quote that is one character and an escape sequence that is not empty, which is less than quoting
needs.  Main statement: names are kept apart exactly if the escape sequence of the identifier quote
holds that quote, and values exactly if that of the apostrophe holds an apostrophe or cannot be
taken for backslashes that have been doubled.
-/

namespace FilterPushdown

namespace Text

/-- A text with every backslash written twice. -/
def doubleBackslashes (text : List Char) : List Char := replaceLetter '\\' ['\\', '\\'] text

/-- Letters in which every backslash is one of a pair. -/
inductive Paired : List Char → Prop where
  | nil : Paired []
  | pair (rest : Paired text) : Paired ('\\' :: '\\' :: text)
  | other (single : c ≠ '\\') (rest : Paired text) : Paired (c :: text)

/-- The letters before the first backslash that has no partner, though another letter follows. -/
inductive BreaksAfter : List Char → List Char → Prop where
  | here (single : c ≠ '\\') : BreaksAfter [] ('\\' :: c :: rest)
  | pair (later : BreaksAfter before text) :
      BreaksAfter ('\\' :: '\\' :: before) ('\\' :: '\\' :: text)
  | other (single : c ≠ '\\') (later : BreaksAfter before text) :
      BreaksAfter (c :: before) (c :: text)

variable {text more before other : List Char}

/-! ## Pairs of backslashes -/

theorem doubleBackslashes_injective : Function.Injective doubleBackslashes :=
  replaceLetter_injective (by simp)

theorem paired_doubleBackslashes (text : List Char) : Paired (doubleBackslashes text) := by
  induction text with
  | nil => exact .nil
  | cons c text ih =>
    rw [doubleBackslashes, replaceLetter_cons]
    by_cases backslash : c = '\\'
    · rw [if_pos backslash]
      exact .pair ih
    · rw [if_neg backslash]
      exact .other backslash ih

/-- Paired letters are those of some text whose backslashes have been doubled. -/
theorem Paired.exists_doubled (paired : Paired text) :
    ∃ value, doubleBackslashes value = text ∧ ∀ c ∈ value, c ∈ text := by
  induction paired with
  | nil => exact ⟨[], rfl, nofun⟩
  | pair _ ih =>
    obtain ⟨value, same, members⟩ := ih
    refine ⟨'\\' :: value, ?_, ?_⟩
    · rw [doubleBackslashes, replaceLetter_cons, if_pos rfl, ← doubleBackslashes, same]
      rfl
    · simpa using fun c inside => .inr (members c inside)
  | @other c _ single _ ih =>
    obtain ⟨value, same, members⟩ := ih
    refine ⟨c :: value, ?_, ?_⟩
    · rw [doubleBackslashes, replaceLetter_cons, if_neg single, ← doubleBackslashes, same]
      rfl
    · simpa using fun c inside => .inr (members c inside)

theorem Paired.append (first : Paired text) (second : Paired more) : Paired (text ++ more) := by
  induction first with
  | nil => exact second
  | pair _ ih => exact .pair ih
  | other single _ ih => exact .other single ih

theorem Paired.reverse (paired : Paired text) : Paired text.reverse := by
  induction paired with
  | nil => exact .nil
  | pair _ ih => simpa using ih.append (.pair .nil)
  | other single _ ih => simpa using ih.append (.other single .nil)

/-! ## Backslashes without a partner -/

theorem BreaksAfter.unique (left : BreaksAfter before text) (right : BreaksAfter other text) :
    before = other := by
  induction left generalizing other with
  | here single =>
    cases right with
    | here => rfl
    | pair => exact absurd rfl single
    | other lone => exact absurd rfl lone
  | pair _ ih =>
    cases right with
    | here lone => exact absurd rfl lone
    | pair later => rw [ih later]
    | other lone => exact absurd rfl lone
  | other single _ ih =>
    cases right with
    | here => exact absurd rfl single
    | pair => exact absurd rfl single
    | other _ later => rw [ih later]

theorem BreaksAfter.not_paired (breaks : BreaksAfter before text) : ¬ Paired text := by
  intro paired
  induction breaks with
  | here single =>
    cases paired with
    | pair => exact single rfl
    | other lone => exact lone rfl
  | pair _ ih =>
    cases paired with
    | pair rest => exact ih rest
    | other lone => exact lone rfl
  | other single _ ih =>
    cases paired with
    | pair => exact single rfl
    | other _ rest => exact ih rest

theorem BreaksAfter.append (breaks : BreaksAfter before text) (more : List Char) :
    BreaksAfter before (text ++ more) := by
  induction breaks with
  | here single => exact .here single
  | pair _ ih => exact .pair ih
  | other single _ ih => exact .other single ih

theorem Paired.breaksAfter (paired : Paired more) (breaks : BreaksAfter before text) :
    BreaksAfter (more ++ before) (more ++ text) := by
  induction paired with
  | nil => exact breaks
  | pair _ ih => exact .pair ih
  | other single _ ih => exact .other single ih

/-- Either all backslashes have partners, or one of them has none: within the letters, or as the
last of them. -/
theorem paired_or_breaksAfter : (text : List Char) →
    Paired text ∨ (∃ before, BreaksAfter before text) ∨
      ∃ before, Paired before ∧ text = before ++ ['\\']
  | [] => .inl .nil
  | [c] => by
    by_cases backslash : c = '\\'
    · exact .inr (.inr ⟨[], .nil, by rw [backslash, List.nil_append]⟩)
    · exact .inl (.other backslash .nil)
  | c :: d :: text => by
    by_cases backslash : c = '\\'
    · subst backslash
      by_cases partner : d = '\\'
      · subst partner
        rcases paired_or_breaksAfter text with paired | ⟨before, breaks⟩ | ⟨before, paired, rfl⟩
        · exact .inl (.pair paired)
        · exact .inr (.inl ⟨_, .pair breaks⟩)
        · exact .inr (.inr ⟨_, .pair paired, rfl⟩)
      · exact .inr (.inl ⟨[], .here partner⟩)
    · rcases paired_or_breaksAfter (d :: text) with paired | ⟨before, breaks⟩ | ⟨before, paired, same⟩
      · exact .inl (.other backslash paired)
      · exact .inr (.inl ⟨_, .other backslash breaks⟩)
      · exact .inr (.inr ⟨_, .other backslash paired, by rw [same, List.cons_append]⟩)

/-- One more backslash in front takes the partner away from the backslash before the first other
letter. -/
theorem Paired.breaks_behind_backslash (paired : Paired text) (letter : ∃ c ∈ text, c ≠ '\\') :
    ∃ before, BreaksAfter before ('\\' :: text) := by
  induction paired with
  | nil => simp at letter
  | pair _ ih =>
    obtain ⟨before, breaks⟩ := ih (by simpa using letter)
    exact ⟨_, .pair breaks⟩
  | other single _ _ => exact ⟨[], .here single⟩

theorem Paired.backslashes (paired : Paired text) (only : ∀ c ∈ text, c = '\\')
    (after : Paired more) : Paired ('\\' :: (text ++ '\\' :: more)) := by
  induction paired with
  | nil => exact .pair after
  | pair _ ih => exact .pair (ih (by simpa using only))
  | other single _ _ => exact absurd (only _ List.mem_cons_self) single

/-- Letters that do not become paired when they are written twice have a backslash without a partner
inside, read from the left or from the right. -/
theorem breaks_of_not_paired_twice (alone : ¬ Paired (text ++ text)) :
    (∃ before, BreaksAfter before text) ∨ ∃ before, BreaksAfter before text.reverse := by
  rcases paired_or_breaksAfter text with paired | breaks | ⟨before, paired, rfl⟩
  · exact absurd (paired.append paired) alone
  · exact .inl breaks
  · by_cases letter : ∃ c ∈ before, c ≠ '\\'
    · right
      rw [List.reverse_append]
      exact paired.reverse.breaks_behind_backslash (by simpa using letter)
    · have only : ∀ c ∈ before, c = '\\' := by simpa using letter
      have twice := paired.append (paired.backslashes only .nil)
      exact absurd (by simpa using twice) alone

/-! ## Apostrophes among doubled backslashes -/

/-- A text with its backslashes doubled and a sequence in the place of its apostrophes. -/
def escapeApostrophes (escape text : List Char) : List Char :=
  replaceLetter '\'' escape (doubleBackslashes text)

variable {escape value first second : List Char}

private theorem escapeApostrophes_of_not_mem (absent : '\'' ∉ value) :
    escapeApostrophes escape value = doubleBackslashes value := by
  apply replaceLetter_of_not_mem
  intro inside
  obtain ⟨c, member, stands⟩ := List.mem_flatMap.mp inside
  split at stands
  · simp at stands
  · exact absent (List.mem_singleton.mp stands ▸ member)

private theorem escapeApostrophes_before (absent : '\'' ∉ value) :
    escapeApostrophes escape (value ++ '\'' :: more) =
      doubleBackslashes value ++ (escape ++ escapeApostrophes escape more) := by
  have front : escapeApostrophes escape value = doubleBackslashes value :=
    escapeApostrophes_of_not_mem absent
  rw [← front]
  simp [escapeApostrophes, doubleBackslashes, replaceLetter_append, replaceLetter_cons]

/-- The first backslash without a partner shows where the first apostrophe was. -/
private theorem eq_of_breaks (breaks : BreaksAfter before escape) {first second : List Char}
    (same : escapeApostrophes escape first = escapeApostrophes escape second) :
    first = second := by
  have broken {value more : List Char} (absent : '\'' ∉ value) :
      BreaksAfter (doubleBackslashes value ++ before)
        (escapeApostrophes escape (value ++ '\'' :: more)) := by
    rw [escapeApostrophes_before absent]
    exact (paired_doubleBackslashes value).breaksAfter (breaks.append _)
  have whole {value : List Char} (absent : '\'' ∉ value) :
      Paired (escapeApostrophes escape value) := by
    rw [escapeApostrophes_of_not_mem absent]
    exact paired_doubleBackslashes value
  by_cases inFirst : '\'' ∈ first
  · obtain ⟨u, v, rfl, absent⟩ := List.eq_append_cons_of_mem inFirst
    by_cases inSecond : '\'' ∈ second
    · obtain ⟨u', v', rfl, absent'⟩ := List.eq_append_cons_of_mem inSecond
      have places := (broken absent).unique (same ▸ broken absent')
      obtain rfl := doubleBackslashes_injective (List.append_cancel_right places)
      rw [escapeApostrophes_before absent, escapeApostrophes_before absent] at same
      rw [eq_of_breaks breaks (List.append_cancel_left (List.append_cancel_left same))]
    · exact absurd (whole inSecond) (same ▸ broken absent).not_paired
  · by_cases inSecond : '\'' ∈ second
    · obtain ⟨u', v', rfl, absent'⟩ := List.eq_append_cons_of_mem inSecond
      exact absurd (same ▸ whole inFirst) (broken absent').not_paired
    · rw [escapeApostrophes_of_not_mem inFirst, escapeApostrophes_of_not_mem inSecond] at same
      exact doubleBackslashes_injective same
termination_by first.length

private theorem reverse_replaceLetter (letter : Char) (replacement text : List Char) :
    (replaceLetter letter replacement text).reverse =
      replaceLetter letter replacement.reverse text.reverse := by
  induction text with
  | nil => rfl
  | cons c text ih =>
    rw [replaceLetter_cons, List.reverse_append, ih, List.reverse_cons, replaceLetter_append,
      replaceLetter_cons]
    split <;> simp [replaceLetter_nil]

private theorem reverse_escapeApostrophes :
    (escapeApostrophes escape value).reverse = escapeApostrophes escape.reverse value.reverse := by
  rw [escapeApostrophes, reverse_replaceLetter, doubleBackslashes, reverse_replaceLetter]
  rfl

/-- Texts whose backslashes are doubled are told apart exactly if the sequence holds an apostrophe or
is not taken for doubled backslashes, not even where two apostrophes stand together. -/
theorem escapeApostrophes_injective_iff :
    Function.Injective (escapeApostrophes escape) ↔
      '\'' ∈ escape ∨ ¬ Paired (escape ++ escape) := by
  constructor
  · intro injective
    by_cases held : '\'' ∈ escape
    · exact .inl held
    · refine .inr fun paired => ?_
      obtain ⟨value, same, members⟩ := paired.exists_doubled
      have absent : '\'' ∉ value := fun inside => held (by simpa using members _ inside)
      have collides : escapeApostrophes escape value = escapeApostrophes escape ['\'', '\''] := by
        rw [escapeApostrophes_of_not_mem absent, same]
        simp [escapeApostrophes, doubleBackslashes, replaceLetter]
      rw [injective collides] at absent
      simp at absent
  · rintro (held | alone)
    · exact fun _ _ same => doubleBackslashes_injective (replaceLetter_injective held same)
    · intro first second same
      rcases breaks_of_not_paired_twice alone with ⟨before, breaks⟩ | ⟨before, breaks⟩
      · exact eq_of_breaks breaks same
      · have reversed := congrArg List.reverse same
        rw [reverse_escapeApostrophes, reverse_escapeApostrophes] at reversed
        exact List.reverse_inj.mp (eq_of_breaks breaks reversed)

end Text

namespace Dialect

variable {dialect : Dialect}

/-- Whether a target that escapes quotes gives different columns of a dataset different texts. -/
def NamesApart (dialect : Dialect) : Prop :=
  ∀ (logger : Option Logger) (relation : Relation) (dataset : Dataset),
    relation.resolve? dialect.engine = some dataset →
      ∀ first ∈ dataset.columns, ∀ second ∈ dataset.columns, first ≠ second →
        ∃ sql other,
          (Target.columnName ⟨dialect, .escape, logger⟩ relation first).outcome =
              .ok (.valid sql) ∧
            (Target.columnName ⟨dialect, .escape, logger⟩ relation second).outcome =
              .ok (.valid other) ∧ sql ≠ other

/-- Whether different values have different literals. -/
def LiteralsApart (dialect : Dialect) : Prop :=
  ∀ first second : String, first ≠ second →
    dialect.quoteString first ≠ dialect.quoteString second

theorem reference_eq_iff {first second : String} :
    dialect.reference first = dialect.reference second ↔
      Text.replaceLetter dialect.identifierQuote dialect.escapedIdentifierQuote.toList
          first.toList =
        Text.replaceLetter dialect.identifierQuote dialect.escapedIdentifierQuote.toList
          second.toList := by
  rw [← String.toList_inj, reference_toList, reference_toList]
  simp

/-- Names are kept apart exactly if the escape sequence holds the quote. -/
theorem namesApart_iff :
    dialect.NamesApart ↔ dialect.identifierQuote ∈ dialect.escapedIdentifierQuote.toList := by
  constructor
  · intro apart
    by_cases held : dialect.identifierQuote ∈ dialect.escapedIdentifierQuote.toList
    · exact held
    · -- The quote and its own escape sequence are two columns with one text.
      have differ : String.singleton dialect.identifierQuote ≠ dialect.escapedIdentifierQuote := by
        intro same
        rw [← same] at held
        simp at held
      obtain ⟨sql, other, left, right, distinct⟩ := apart none
        (.ofColumns dialect.engine "t"
          [String.singleton dialect.identifierQuote, dialect.escapedIdentifierQuote])
        _ (if_pos rfl) _ (ColumnSet.mem_ofList.mpr List.mem_cons_self) _
        (ColumnSet.mem_ofList.mpr (List.mem_cons_of_mem _ List.mem_cons_self)) differ
      obtain ⟨-, -, -, -, rfl⟩ := Target.columnName_eq_valid_iff.mp left
      obtain ⟨-, -, -, -, rfl⟩ := Target.columnName_eq_valid_iff.mp right
      refine absurd (reference_eq_iff.mpr ?_) distinct
      rw [Text.replaceLetter_of_not_mem held, String.toList_singleton, Text.replaceLetter_cons,
        if_pos rfl, Text.replaceLetter_nil, List.append_nil]
  · intro held logger relation dataset resolved first inside second also differ
    refine ⟨dialect.reference first, dialect.reference second,
      Target.columnName_eq_valid_iff.mpr ⟨dataset, resolved, inside, fun _ => rfl, rfl⟩,
      Target.columnName_eq_valid_iff.mpr ⟨dataset, resolved, also, fun _ => rfl, rfl⟩, ?_⟩
    intro same
    have letters := Text.replaceLetter_injective held (reference_eq_iff.mp same)
    exact differ (String.toList_injective letters)

/-- Literals differ exactly if what stands between their apostrophes does. -/
theorem literalsApart_iff_injective :
    dialect.LiteralsApart ↔ Function.Injective dialect.literalBody := by
  have same_iff (first second : String) : dialect.quoteString first = dialect.quoteString second ↔
      dialect.literalBody first.toList = dialect.literalBody second.toList := by
    simp [quoteString, String.ofList_inj]
  constructor
  · intro apart first second same
    by_cases equal : first = second
    · exact equal
    · refine absurd ((same_iff (.ofList first) (.ofList second)).mpr (by simpa using same)) ?_
      exact apart _ _ fun names => equal (String.ofList_injective names)
  · intro injective first second differ same
    exact differ (String.toList_injective (injective ((same_iff first second).mp same)))

/-- Values are kept apart exactly if the escape sequence of the apostrophe holds an apostrophe or,
where backslashes are doubled, cannot be taken for doubled backslashes. -/
theorem literalsApart_iff :
    dialect.LiteralsApart ↔
      '\'' ∈ dialect.escapedStringQuote.toList ∨
        dialect.backslashEscapes = true ∧
          ¬ Text.Paired (dialect.escapedStringQuote.toList ++ dialect.escapedStringQuote.toList) := by
  rw [literalsApart_iff_injective]
  cases escapes : dialect.backslashEscapes with
  | true =>
    have body : dialect.literalBody =
        Text.escapeApostrophes dialect.escapedStringQuote.toList := by
      funext value
      simp only [literalBody, escapes, if_true]
      rfl
    rw [body, Text.escapeApostrophes_injective_iff]
    simp
  | false =>
    have body : dialect.literalBody =
        Text.replaceLetter '\'' dialect.escapedStringQuote.toList := by
      funext value
      simp [literalBody, escapes]
    rw [body, Text.replaceLetter_injective_iff]
    simp

/-- In a dialect made from accepted options, different columns of a dataset have different texts
under the policy that escapes quotes exactly if an escape sequence that was given holds the quote.
Different values have different literals exactly if a sequence that was given for the apostrophe
holds an apostrophe or, where backslashes are doubled, does not consist of pairs of backslashes and
of other letters even when it is written twice.  The defaults do both.  Names and sequences are
texts of whole characters here: a sequence in which halves of surrogate pairs stand alone could hold
the quote and still merge names. -/
theorem accepted_dialect_unambiguous_iff {options : Options} {dialect : Dialect}
    (accepted : ofOptions options = .ok dialect) :
    (dialect.NamesApart ↔
        ∀ escape, options.escapedIdentifierQuote = some escape →
          dialect.identifierQuote ∈ escape.toList) ∧
      (dialect.LiteralsApart ↔
        ∀ escape, options.escapedStringQuote = some escape →
          '\'' ∈ escape.toList ∨
            options.backslashEscapes = some true ∧
              ¬ Text.Paired (escape.toList ++ escape.toList)) := by
  obtain ⟨identifierRule, stringRule, backslashRule⟩ := rules_of_ofOptions accepted
  rw [namesApart_iff, literalsApart_iff, identifierRule, stringRule, backslashRule]
  constructor
  · cases options.escapedIdentifierQuote with
    | none => simp
    | some escape => simp
  · cases options.escapedStringQuote with
    | none => simp
    | some escape => cases options.backslashEscapes <;> simp

/-- A sequence without an apostrophe serves for values where backslashes are doubled, if it begins
with a single one; a sequence without the quote never serves for names. -/
theorem hexadecimal_escape_serves_values_only :
    ∃ dialect,
      ofOptions ⟨"Hex", "hex", "`", some "%60", some "\\x27", some true⟩ = .ok dialect ∧
        ¬ dialect.NamesApart ∧ dialect.LiteralsApart := by
  have accepted : ∃ dialect,
      ofOptions ⟨"Hex", "hex", "`", some "%60", some "\\x27", some true⟩ = .ok dialect ∧
        dialect.identifierQuote = '\x60' := ⟨_, rfl, rfl⟩
  obtain ⟨dialect, accepted, quote⟩ := accepted
  obtain ⟨names, values⟩ := accepted_dialect_unambiguous_iff accepted
  refine ⟨dialect, accepted, ?_, ?_⟩
  · rw [names, quote]
    simp
  · rw [values]
    intro escape given
    cases given
    have breaks : Text.BreaksAfter [] ("\\x27".toList ++ "\\x27".toList) := .here (by decide)
    exact .inr ⟨rfl, breaks.not_paired⟩

/-- Options are accepted with which the quote and another letter become one column, and an apostrophe
disappears. -/
theorem accepted_dialect_merges_names_and_values :
    ∃ dialect, ofOptions ⟨"Plain", "plain", "\"", some "x", some "", none⟩ = .ok dialect ∧
      (Target.columnName ⟨dialect, .escape, none⟩ (.ofColumns "plain" "t" ["\"", "x"])
          "\"").outcome = .ok (.valid "\"x\"") ∧
        (Target.columnName ⟨dialect, .escape, none⟩ (.ofColumns "plain" "t" ["\"", "x"])
          "x").outcome = .ok (.valid "\"x\"") ∧
        dialect.quoteString "'" = dialect.quoteString "" :=
  ⟨_, rfl, rfl, rfl, rfl⟩

end Dialect

end FilterPushdown
