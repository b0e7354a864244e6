import FilterPushdown.Dialect.Basic

/-!
Which options make a dialect.  A dialect needs a name and an engine that show something, a quote of
one character and an escape sequence that is not empty.  Main statement: options that meet these
requirements make a dialect that keeps what was given and fills in the rest, and other options are
refused for the first requirement that they do not meet.  A dialect spelled out as options makes
itself again.
-/

namespace FilterPushdown

namespace Text

/-- White space: controls within a line, the space separators of all scripts, the zero width
no-break space, and the ends of lines. -/
def whiteSpace : List Char :=
  ['\t', '\x0b', '\x0c'] ++
    [' ', '\u00a0', '\u1680', '\u2000', '\u2001', '\u2002', '\u2003', '\u2004', '\u2005', '\u2006',
      '\u2007', '\u2008', '\u2009', '\u200a', '\u202f', '\u205f', '\u3000'] ++
    ['\ufeff'] ++ ['\n', '\r', '\u2028', '\u2029']

/-- Whether a text shows something. -/
def Visible (text : String) : Prop := ∃ c ∈ text.toList, c ∉ whiteSpace

/-- The ranges of white space hold these characters and no others. -/
theorem isBlank_iff {c : Char} : isBlank c = true ↔ c ∈ whiteSpace := by
  simp only [isBlank, blankRanges, whiteSpace, List.any_cons, List.any_nil, List.cons_append,
    List.nil_append, List.mem_cons, List.not_mem_nil, Bool.or_false, or_false, Bool.or_eq_true,
    Bool.and_eq_true, decide_eq_true_eq, ← Char.toNat_inj, Char.reduceToNat]
  omega

example : whiteSpace.length = 25 := rfl

theorem allBlank_eq_false_iff {text : String} : allBlank text = false ↔ Visible text := by
  simp [allBlank, Visible, ← isBlank_iff]

end Text

namespace Dialect

/-! ## What is required -/

/-- What options have to meet, in the order in which it is checked, and what is said if they do
not. -/
def Options.requirements (options : Options) : List (Prop × String) :=
  [(Text.Visible options.name, "Dialect name must not be empty"),
    (Text.Visible options.engine, "Dialect " ++ options.name ++ " must declare an engine"),
    (∃ quote, options.identifierQuote = String.singleton quote,
      "Dialect " ++ options.name ++ " identifier quote must be a single character, got \"" ++
        options.identifierQuote ++ "\""),
    (options.escapedIdentifierQuote ≠ some "",
      "Dialect " ++ options.name ++ " escape sequence must not be empty")]

/-- What is said of the first of several requirements that is not met. -/
inductive FirstUnmet : List (Prop × String) → String → Prop where
  | here (unmet : ¬ requirement) : FirstUnmet ((requirement, message) :: later) message
  | later (met : requirement) (rest : FirstUnmet later message) :
      FirstUnmet ((requirement, other) :: later) message

variable {requirements : List (Prop × String)} {message other : String}

theorem FirstUnmet.unique (first : FirstUnmet requirements message)
    (second : FirstUnmet requirements other) : message = other := by
  induction first with
  | here unmet =>
    cases second with
    | here => rfl
    | later met => exact absurd met unmet
  | later met _ ih =>
    cases second with
    | here unmet => exact absurd met unmet
    | later _ rest => exact ih rest

theorem FirstUnmet.not_all_met (first : FirstUnmet requirements message) :
    ¬ ∀ requirement ∈ requirements, requirement.1 := by
  intro met
  induction first with
  | here unmet => exact unmet (met _ List.mem_cons_self)
  | later _ _ ih => exact ih (List.forall_mem_cons.mp met).2

/-! ## What is made -/

/-- A dialect that keeps what options give, and fills in the rest. -/
structure Completes (dialect : Dialect) (options : Options) : Prop where
  name : dialect.name = options.name
  engine : dialect.engine = options.engine
  identifierQuote : String.singleton dialect.identifierQuote = options.identifierQuote
  escapedIdentifierQuote : dialect.escapedIdentifierQuote =
    options.escapedIdentifierQuote.getD (options.identifierQuote ++ options.identifierQuote)
  escapedStringQuote : dialect.escapedStringQuote = options.escapedStringQuote.getD "''"
  backslashEscapes : dialect.backslashEscapes = options.backslashEscapes.getD false

theorem singleChar?_eq_some_iff {text : String} {c : Char} :
    singleChar? text = some c ↔ text = String.singleton c := by
  rw [← String.toList_inj, String.toList_singleton, singleChar?]
  split
  next d single => simp [single]
  next other => simpa using other c

theorem singleChar?_eq_none_iff {text : String} :
    singleChar? text = none ↔ ¬ ∃ c, text = String.singleton c := by
  simp only [← singleChar?_eq_some_iff]
  exact Option.eq_none_iff_forall_ne_some.trans not_exists.symm

private theorem doubled_quote {text : String} {quote : Char}
    (single : text = String.singleton quote) : String.ofList [quote, quote] = text ++ text := by
  rw [single, ← String.toList_inj]
  simp

/-- Options are completed in one way only. -/
theorem Completes.unique {options : Options} {first second : Dialect}
    (left : first.Completes options) (right : second.Completes options) : first = second := by
  have quote : first.identifierQuote = second.identifierQuote :=
    String.singleton_inj.mp (left.identifierQuote.trans right.identifierQuote.symm)
  rw [Dialect.mk.injEq]
  exact ⟨left.name.trans right.name.symm, left.engine.trans right.engine.symm, quote,
    left.escapedIdentifierQuote.trans right.escapedIdentifierQuote.symm,
    left.escapedStringQuote.trans right.escapedStringQuote.symm,
    left.backslashEscapes.trans right.backslashEscapes.symm⟩

/-- What can be completed meets the requirements, as every dialect does. -/
theorem Completes.meets {options : Options} {dialect : Dialect}
    (completes : dialect.Completes options) :
    ∀ requirement ∈ options.requirements, requirement.1 := by
  have name := Text.allBlank_eq_false_iff.mp dialect.name_visible
  have engine := Text.allBlank_eq_false_iff.mp dialect.engine_visible
  rw [completes.name] at name
  rw [completes.engine] at engine
  have escape : options.escapedIdentifierQuote ≠ some "" := by
    intro empty
    apply dialect.escape_nonempty
    rw [completes.escapedIdentifierQuote, empty, Option.getD_some]
  simpa [Options.requirements, name, engine, escape] using
    ⟨_, completes.identifierQuote.symm⟩

/-- What is to become of options. -/
def Outcome (options : Options) : Except OptionsError Dialect → Prop
  | .ok dialect => dialect.Completes options
  | .error fault => FirstUnmet options.requirements fault.message

/-- One check after another is passed or ends in the error of its requirement. -/
theorem ofOptions_outcome (options : Options) : Outcome options (ofOptions options) := by
  unfold ofOptions
  split
  next blank =>
    refine .here ?_
    simpa [← Text.allBlank_eq_false_iff] using blank
  next shown =>
  have name : Text.Visible options.name := Text.allBlank_eq_false_iff.mp (by simpa using shown)
  split
  next blank =>
    refine .later name (.here ?_)
    simpa [← Text.allBlank_eq_false_iff] using blank
  next shown =>
  have engine : Text.Visible options.engine :=
    Text.allBlank_eq_false_iff.mp (by simpa using shown)
  split
  next several => exact .later name (.later engine (.here (singleChar?_eq_none_iff.mp several)))
  next quote single =>
  have single := singleChar?_eq_some_iff.mp single
  have filled := congrArg options.escapedIdentifierQuote.getD (doubled_quote single)
  dsimp only
  split
  next empty =>
    refine .later name (.later engine (.later ⟨quote, single⟩ (.here ?_)))
    cases given : options.escapedIdentifierQuote with
    | none =>
      rw [given, Option.getD_none] at empty
      simp at empty
    | some escape =>
      rw [given, Option.getD_some] at empty
      simp [empty]
  next nonempty => exact ⟨rfl, rfl, single.symm, filled, rfl, rfl⟩

/-- Options make the dialect that completes them, if there is one. -/
theorem ofOptions_eq_ok_iff {options : Options} {dialect : Dialect} :
    ofOptions options = .ok dialect ↔ dialect.Completes options := by
  have outcome := ofOptions_outcome options
  constructor
  · intro accepted
    rwa [accepted] at outcome
  · intro completes
    cases made : ofOptions options with
    | ok own =>
      rw [made] at outcome
      rw [outcome.unique completes]
    | error fault =>
      rw [made] at outcome
      exact absurd completes.meets outcome.not_all_met

/-- Other options are refused for the first requirement that they do not meet. -/
theorem exists_refusal_iff {options : Options} :
    (∃ fault, ofOptions options = .error fault ∧ fault.message = message) ↔
      FirstUnmet options.requirements message := by
  have outcome := ofOptions_outcome options
  constructor
  · rintro ⟨fault, refused, rfl⟩
    rwa [refused] at outcome
  · intro unmet
    cases made : ofOptions options with
    | ok dialect => exact absurd (ofOptions_eq_ok_iff.mp made).meets unmet.not_all_met
    | error fault =>
      rw [made] at outcome
      exact ⟨fault, rfl, outcome.unique unmet⟩

theorem exists_ofOptions_iff {options : Options} :
    (∃ dialect, ofOptions options = .ok dialect) ↔
      ∀ requirement ∈ options.requirements, requirement.1 := by
  constructor
  · rintro ⟨dialect, accepted⟩
    exact (ofOptions_eq_ok_iff.mp accepted).meets
  · intro met
    cases made : ofOptions options with
    | ok dialect => exact ⟨dialect, rfl⟩
    | error fault => exact absurd met (exists_refusal_iff.mp ⟨fault, made, rfl⟩).not_all_met

/-- An accepted dialect has the rules that were asked for, and the defaults of the others. -/
theorem rules_of_ofOptions {options : Options} {dialect : Dialect}
    (accepted : ofOptions options = .ok dialect) :
    dialect.escapedIdentifierQuote =
        options.escapedIdentifierQuote.getD
          (String.ofList [dialect.identifierQuote, dialect.identifierQuote]) ∧
      dialect.escapedStringQuote = options.escapedStringQuote.getD "''" ∧
      dialect.backslashEscapes = options.backslashEscapes.getD false := by
  have completes := ofOptions_eq_ok_iff.mp accepted
  refine ⟨?_, completes.escapedStringQuote, completes.backslashEscapes⟩
  rw [completes.escapedIdentifierQuote, doubled_quote completes.identifierQuote.symm]

/-- Options are accepted if and only if name and engine hold a character that is not white space, the
quote is one character, and an escape sequence is not given or not empty.  Otherwise the error is
that of the first of these requirements that is not met.  What is made has the given name, engine,
quote and rules as they are and the defaults of the other rules, and when all its rules are given as
options they make the same dialect again. -/
theorem options_accepted_iff_requirements_met (options : Options) :
    ((∃ dialect, ofOptions options = .ok dialect) ↔
        ∀ requirement ∈ options.requirements, requirement.1) ∧
      (∀ message, (∃ fault, ofOptions options = .error fault ∧ fault.message = message) ↔
        FirstUnmet options.requirements message) ∧
      ∀ dialect, (ofOptions options = .ok dialect ↔ dialect.Completes options) ∧
        ofOptions dialect.options = .ok dialect := by
  refine ⟨exists_ofOptions_iff, fun _ => exists_refusal_iff, fun dialect => ?_⟩
  exact ⟨ofOptions_eq_ok_iff, ofOptions_eq_ok_iff.mpr ⟨rfl, rfl, rfl, rfl, rfl, rfl⟩⟩

/-- Blanks around a name stay, the quote may lie outside the basic plane, and an apostrophe may be
escaped by nothing.  An engine of blanks is reported before a quote that is too long and an escape
sequence that is empty. -/
theorem blank_engine_comes_before_long_quote :
    (∃ dialect, ofOptions ⟨" \u3000N", "e", "𝄞", none, some "", none⟩ = .ok dialect ∧
        dialect.name = " \u3000N" ∧ dialect.escapedIdentifierQuote = "𝄞𝄞" ∧
        dialect.escapedStringQuote = "" ∧ ofOptions dialect.options = .ok dialect) ∧
      ∃ fault, ofOptions ⟨"N", "\u2029\ufeff", "``", some "", none, none⟩ = .error fault ∧
        fault.message = "Dialect N must declare an engine" := by
  constructor
  · obtain ⟨accepted, -, made⟩ :=
      options_accepted_iff_requirements_met ⟨" \u3000N", "e", "𝄞", none, some "", none⟩
    have met : ∀ requirement ∈
        (Options.mk " \u3000N" "e" "𝄞" none (some "") none).requirements, requirement.1 := by
      have quote : ∃ quote, "𝄞" = String.singleton quote := ⟨'𝄞', rfl⟩
      simpa [Options.requirements, Text.Visible, Text.whiteSpace] using quote
    obtain ⟨dialect, accepted⟩ := accepted.mpr met
    have completes := (made dialect).1.mp accepted
    exact ⟨dialect, accepted, completes.name, completes.escapedIdentifierQuote,
      completes.escapedStringQuote, (made dialect).2⟩
  · obtain ⟨-, refused, -⟩ :=
      options_accepted_iff_requirements_met ⟨"N", "\u2029\ufeff", "``", some "", none, none⟩
    refine (refused _).mpr (.later ?_ (.here ?_))
    · simp [Text.Visible, Text.whiteSpace]
    · simp [Text.Visible, Text.whiteSpace]

end Dialect

end FilterPushdown
