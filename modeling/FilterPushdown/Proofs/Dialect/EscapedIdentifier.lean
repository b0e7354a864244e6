import FilterPushdown.Dialect.Quoting
import FilterPushdown.Proofs.Text.PairReplacement
import FilterPushdown.Proofs.Text.Reversible
import Mathlib.Data.List.Infix

/-!
Which identifiers can be told from what is written for them.  Identifiers are sequences of UTF-16
units, the quote is one code point, and the escape sequence is any sequence of units.  Main
statement: different identifiers stay different exactly if the quote occurs in the escape sequence
and the sequence does not repeat a text without the quote.  Such a repetition has the halves of the
quote at its ends in the wrong order, so no text is one.
-/

namespace FilterPushdown.Identifier

open Text

variable {quote escape identifier : List UInt16}

/-- A single unit that occurs in copies of a text occurs in the text. -/
theorem not_repeats_unit {unit : UInt16} (held : [unit] <:+: escape) :
    ¬ Repeats [unit] escape := by
  rintro ⟨part, count, absent, rfl⟩
  rw [List.singleton_infix_iff, List.mem_flatten] at held
  obtain ⟨copy, copies, member⟩ := held
  rw [(List.mem_replicate.mp copies).2] at member
  exact absent ((List.singleton_infix_iff ..).mpr member)

/-- Where escaping merges no identifiers.  A single unit is replaced letter by letter, a pair of
units as a pair. -/
theorem escaped_reversible_iff (single : Utf16.IsCodePoint quote) :
    Function.Injective (escaped quote escape) ↔ quote <:+: escape ∧ ¬ Repeats quote escape := by
  cases single with
  | unit unit =>
    have letterwise : escaped [unit] escape = replaceLetter unit escape :=
      funext fun identifier => replace_singleton unit escape identifier
    rw [letterwise, replaceLetter_injective_iff, ← List.singleton_infix_iff]
    exact ⟨fun held => ⟨held, not_repeats_unit held⟩, And.left⟩
  | pair isHigh isLow => exact replace_pair_injective_iff (Utf16.ne_of_halves isHigh isLow)

/-- An escape sequence that holds the quote and repeats a text without it holds the quote turned
around: it begins with the second half and ends with the first. -/
theorem halves_of_repeats (single : Utf16.IsCodePoint quote) (held : quote <:+: escape)
    (repeats : Repeats quote escape) :
    ∃ high low, quote = [high, low] ∧ Utf16.isLow low.toNat = true ∧ escape.head? = some low ∧
      escape.getLast? = some high := by
  cases single with
  | unit unit => exact absurd repeats (not_repeats_unit held)
  | pair isHigh isLow => exact ⟨_, _, rfl, isLow, ends_of_repeats held repeats⟩

theorem escaped_of_not_isInfix (single : Utf16.IsCodePoint quote)
    (absent : ¬ quote <:+: identifier) : escaped quote escape identifier = identifier := by
  cases single <;> exact replace_of_not_isInfix absent

/-- Identifiers can be told from what is written for them exactly if the quote occurs in its escape
sequence and the sequence does not repeat a text without the quote.  Such a sequence begins with the
second half of the quote and ends with the first, so that for the units of a text the occurrence of
the quote alone decides.  An identifier without the quote is written as it is. -/
theorem escaped_injective_iff (single : Utf16.IsCodePoint quote) (escape : List UInt16) :
    (Function.Injective (escaped quote escape) ↔
        quote <:+: escape ∧ ¬ Repeats quote escape) ∧
      (quote <:+: escape → Repeats quote escape →
        ∃ high low, quote = [high, low] ∧ escape.head? = some low ∧
          escape.getLast? = some high) ∧
      (∀ text, escape = Utf16.encode text →
        (Function.Injective (escaped quote escape) ↔ quote <:+: escape)) ∧
      ∀ identifier, ¬ quote <:+: identifier → escaped quote escape identifier = identifier := by
  refine ⟨escaped_reversible_iff single, ?_, ?_,
    fun _ absent => escaped_of_not_isInfix single absent⟩
  · intro held repeats
    obtain ⟨high, low, pair, -, ends⟩ := halves_of_repeats single held repeats
    exact ⟨high, low, pair, ends⟩
  · rintro text rfl
    rw [escaped_reversible_iff single]
    refine ⟨And.left, fun held => ⟨held, fun repeats => ?_⟩⟩
    obtain ⟨high, low, -, isLow, begins, -⟩ := halves_of_repeats single held repeats
    exact Utf16.head?_encode_ne isLow text begins

/-- A quote may stand in the middle of its escape sequence, and one that is a pair may be doubled;
without the quote an escape sequence merges two identifiers, though it leaves those without quotes
alone. -/
theorem bracketed_quote_is_told_apart :
    Function.Injective (escaped [0x60] [0x5B, 0x60, 0x5D]) ∧
      Function.Injective (escaped [0xD83D, 0xDE00] [0xD83D, 0xDE00, 0xD83D, 0xDE00]) ∧
      ¬ Function.Injective (escaped [0x60] [0x25, 0x36, 0x30]) ∧
      escaped [0x60] [0x25, 0x36, 0x30] [0x61, 0x5B, 0x5D] = [0x61, 0x5B, 0x5D] := by
  obtain ⟨-, -, bracketed, -⟩ := escaped_injective_iff (.unit 0x60) [0x5B, 0x60, 0x5D]
  have pair : Utf16.IsCodePoint [0xD83D, 0xDE00] := .pair rfl rfl
  obtain ⟨-, -, doubled, -⟩ := escaped_injective_iff pair [0xD83D, 0xDE00, 0xD83D, 0xDE00]
  obtain ⟨encoded, -, -, unchanged⟩ := escaped_injective_iff (.unit 0x60) [0x25, 0x36, 0x30]
  refine ⟨(bracketed ['[', '\x60', ']'] rfl).mpr (by decide),
    (doubled [Char.ofNat 0x1F600, Char.ofNat 0x1F600] rfl).mpr (by decide),
    fun injective => ?_, unchanged [0x61, 0x5B, 0x5D] (by decide)⟩
  exact absurd (encoded.mp injective).1 (by decide)

/-- A sequence that begins with the second half of the quote and ends with the first makes new
quotes with what stands beside it: it holds the quote, and yet two identifiers have one result. -/
theorem turned_quote_merges_identifiers :
    Utf16.IsCodePoint [0xD83D, 0xDE00] ∧
      escaped [0xD83D, 0xDE00] [0xDE00, 0xD83D, 0xDE00, 0xD83D] [0xDE00, 0xD83D, 0xD83D, 0xDE00] =
        escaped [0xD83D, 0xDE00] [0xDE00, 0xD83D, 0xDE00, 0xD83D]
          [0xD83D, 0xDE00, 0xDE00, 0xD83D] ∧
      ¬ (Function.Injective (escaped [0xD83D, 0xDE00] [0xDE00, 0xD83D, 0xDE00, 0xD83D]) ↔
        [0xD83D, 0xDE00] <:+: [0xDE00, 0xD83D, 0xDE00, (0xD83D : UInt16)]) := by
  have merged : escaped [0xD83D, 0xDE00] [0xDE00, 0xD83D, 0xDE00, 0xD83D]
      [0xDE00, 0xD83D, 0xD83D, 0xDE00] =
        escaped [0xD83D, 0xDE00] [0xDE00, 0xD83D, 0xDE00, 0xD83D]
          [0xD83D, 0xDE00, 0xDE00, 0xD83D] := by decide
  refine ⟨.pair rfl rfl, merged, fun claimed => ?_⟩
  exact absurd (claimed.mpr (by decide) merged) (by decide)

end FilterPushdown.Identifier
