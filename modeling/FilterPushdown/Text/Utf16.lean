import FilterPushdown.Text.Replace

/-!
UTF-16.  A character of the basic plane is one unit; every other is a pair, a high half and a low
half.  A sequence of units may hold halves that belong to no pair, and what is put between units can
complete a pair, so replacement among units is finer than among characters.  On texts the two agree.
-/

namespace FilterPushdown.Text.Utf16

/-- The first half of a pair of units that stands for one character. -/
def isHigh (code : Nat) : Bool := 0xD800 ≤ code && code < 0xDC00

/-- The second half of such a pair. -/
def isLow (code : Nat) : Bool := 0xDC00 ≤ code && code < 0xE000

/-- The character of a pair. -/
def pairChar (high low : Nat) : Char :=
  Char.ofNat (0x10000 + (high - 0xD800) * 0x400 + (low - 0xDC00))

/-- The character of a unit on its own; half a pair stands for no character and is replaced. -/
def unitChar (code : Nat) : Char :=
  if isHigh code || isLow code then '\uFFFD' else Char.ofNat code

/-- The units of a character. -/
def ofChar (c : Char) : List UInt16 :=
  if c.toNat < 0x10000 then [UInt16.ofNat c.toNat]
  else
    [UInt16.ofNat (0xD800 + (c.toNat - 0x10000) / 0x400),
      UInt16.ofNat (0xDC00 + (c.toNat - 0x10000) % 0x400)]

/-- The units of a text. -/
def encode (text : List Char) : List UInt16 := text.flatMap ofChar

/-- The characters of a sequence of units. -/
def decode : List UInt16 → List Char
  | [] => []
  | [unit] => [unitChar unit.toNat]
  | first :: second :: units =>
    if isHigh first.toNat && isLow second.toNat then
      pairChar first.toNat second.toNat :: decode units
    else unitChar first.toNat :: decode (second :: units)

/-- A code point in units: one unit, which may be half a pair, or a pair. -/
inductive IsCodePoint : List UInt16 → Prop where
  | unit (unit : UInt16) : IsCodePoint [unit]
  | pair {high low : UInt16} (isHigh : isHigh high.toNat = true) (isLow : isLow low.toNat = true) :
      IsCodePoint [high, low]

/-- The two forms of a character. -/
inductive Encodes (c : Char) : List UInt16 → Prop where
  | single (unit : UInt16) (value : unit.toNat = c.toNat) (notHigh : isHigh unit.toNat = false)
      (notLow : isLow unit.toNat = false) : Encodes c [unit]
  | pair (high low : UInt16) (isHigh : isHigh high.toNat = true) (isLow : isLow low.toNat = true)
      (value : c.toNat = 0x10000 + (high.toNat - 0xD800) * 0x400 + (low.toNat - 0xDC00)) :
      Encodes c [high, low]

theorem encodes_ofChar (c : Char) : Encodes c (ofChar c) := by
  have valid := c.valid
  have value : c.val.toNat = c.toNat := rfl
  unfold ofChar
  split
  · rename_i basic
    have same : (UInt16.ofNat c.toNat).toNat = c.toNat := UInt16.toNat_ofNat_of_lt' basic
    apply Encodes.single _ same
    all_goals
      simp only [isHigh, isLow, same, Bool.and_eq_false_iff, decide_eq_false_iff_not]
      simp only [UInt32.isValidChar, Nat.isValidChar, value] at valid
      omega
  · rename_i beyond
    have bound : c.toNat < 0x110000 := by
      simp only [UInt32.isValidChar, Nat.isValidChar, value] at valid
      omega
    have size : UInt16.size = 0x10000 := rfl
    have high : (UInt16.ofNat (0xD800 + (c.toNat - 0x10000) / 0x400)).toNat =
        0xD800 + (c.toNat - 0x10000) / 0x400 := UInt16.toNat_ofNat_of_lt' (by omega)
    have low : (UInt16.ofNat (0xDC00 + (c.toNat - 0x10000) % 0x400)).toNat =
        0xDC00 + (c.toNat - 0x10000) % 0x400 := UInt16.toNat_ofNat_of_lt' (by omega)
    apply Encodes.pair
    · simp only [isHigh, high, Bool.and_eq_true, decide_eq_true_eq]
      omega
    · simp only [isLow, low, Bool.and_eq_true, decide_eq_true_eq]
      omega
    · omega

/-- A high half is no low half. -/
theorem isLow_of_isHigh {code : Nat} (high : isHigh code = true) : isLow code = false := by
  simp only [isHigh, Bool.and_eq_true, decide_eq_true_eq] at high
  simp only [isLow, Bool.and_eq_false_iff, decide_eq_false_iff_not]
  omega

/-- The halves of a pair differ. -/
theorem ne_of_halves {high low : UInt16} (isHigh : isHigh high.toNat = true)
    (isLow : isLow low.toNat = true) : high ≠ low := by
  rintro rfl
  exact Bool.false_ne_true ((isLow_of_isHigh isHigh).symm.trans isLow)

theorem encode_cons (c : Char) (text : List Char) : encode (c :: text) = ofChar c ++ encode text :=
  List.flatMap_cons

theorem encode_append (first second : List Char) :
    encode (first ++ second) = encode first ++ encode second := List.flatMap_append

theorem encode_singleton (c : Char) : encode [c] = ofChar c := by
  rw [encode_cons]
  exact List.append_nil _

/-- A unit that begins no pair stands for itself. -/
theorem decode_cons {unit : UInt16} (notHigh : isHigh unit.toNat = false) (units : List UInt16) :
    decode (unit :: units) = unitChar unit.toNat :: decode units := by
  cases units with
  | nil => rfl
  | cons second units => simp [decode, notHigh]

/-- The units of a character stand for it, whatever follows. -/
theorem Encodes.decode_append {c : Char} {units : List UInt16} (form : Encodes c units)
    (more : List UInt16) : decode (units ++ more) = c :: decode more := by
  cases form with
  | single unit value notHigh notLow =>
    rw [List.singleton_append, decode_cons notHigh, unitChar, notHigh, notLow, value]
    simp
  | pair high low isHigh isLow value =>
    have pair : pairChar high.toNat low.toNat = c := by rw [pairChar, ← value, Char.ofNat_toNat]
    simp [decode, isHigh, isLow, pair]

/-- A text can be had back from its units. -/
theorem decode_encode (text : List Char) : decode (encode text) = text := by
  induction text with
  | nil => rfl
  | cons c text ih => rw [encode_cons, (encodes_ofChar c).decode_append, ih]

/-- No text begins with the second half of a pair. -/
theorem head?_encode_ne {unit : UInt16} (low : isLow unit.toNat = true) (text : List Char) :
    (encode text).head? ≠ some unit := by
  cases text with
  | nil => nofun
  | cons c text =>
    have form := encodes_ofChar c
    rw [encode_cons]
    generalize ofChar c = own at form
    intro begins
    cases form with
    | single first _ _ notLow =>
      cases begins
      exact Bool.false_ne_true (notLow.symm.trans low)
    | pair high second isHigh =>
      cases begins
      exact Bool.false_ne_true ((isLow_of_isHigh isHigh).symm.trans low)

/-! ## Replacement -/

/-- Among the units of a text those of another character are passed over: no pair begins or ends
inside them. -/
theorem Encodes.replace_append {quote c : Char} {pattern units : List UInt16}
    (quoted : Encodes quote pattern) (form : Encodes c units) (other : c ≠ quote)
    (replacement more : List UInt16) :
    replace pattern replacement (units ++ more) = units ++ replace pattern replacement more := by
  cases quoted with
  | single mark value notHigh notLow =>
    rw [replace_singleton, replace_singleton, replaceLetter_append, replaceLetter_of_not_mem]
    intro member
    cases form with
    | single unit own =>
      cases List.mem_singleton.mp member
      exact other (Char.toNat_inj.mp (own.symm.trans value))
    | pair high low isHigh isLow =>
      simp only [List.mem_cons, List.not_mem_nil, or_false] at member
      rcases member with rfl | rfl
      · exact Bool.false_ne_true (notHigh.symm.trans isHigh)
      · exact Bool.false_ne_true (notLow.symm.trans isLow)
  | pair markHigh markLow markIsHigh markIsLow value =>
    cases form with
    | single unit own notHigh =>
      rw [List.singleton_append, replace_cons_of_not_isPrefix, List.singleton_append]
      intro occurs
      cases (List.cons_prefix_cons.mp occurs).1
      exact Bool.false_ne_true (notHigh.symm.trans markIsHigh)
    | pair high low isHigh isLow own =>
      have notFirst : ¬ [markHigh, markLow] <+: high :: low :: more := by
        intro occurs
        obtain ⟨rfl, later⟩ := List.cons_prefix_cons.mp occurs
        cases (List.cons_prefix_cons.mp later).1
        exact other (Char.toNat_inj.mp (own.trans value.symm))
      have notSecond : ¬ [markHigh, markLow] <+: low :: more := by
        intro occurs
        cases (List.cons_prefix_cons.mp occurs).1
        exact Bool.false_ne_true ((isLow_of_isHigh markIsHigh).symm.trans isLow)
      rw [List.cons_append, List.singleton_append, replace_cons_of_not_isPrefix notFirst,
        replace_cons_of_not_isPrefix notSecond, List.cons_append, List.singleton_append]

/-- Replacing a character of a text is replacing its units. -/
theorem replace_encode (quote : Char) (replacement text : List Char) :
    replace (ofChar quote) (encode replacement) (encode text) =
      encode (replaceLetter quote replacement text) := by
  have quoted := encodes_ofChar quote
  induction text with
  | nil =>
    generalize ofChar quote = pattern at quoted
    cases quoted <;> rfl
  | cons c text ih =>
    rw [encode_cons, replaceLetter_cons, encode_append, ← ih]
    by_cases same : c = quote
    · rw [if_pos same, same]
      generalize ofChar quote = pattern at quoted
      cases quoted <;> exact Text.replace_append
    · rw [if_neg same, encode_singleton]
      exact quoted.replace_append (encodes_ofChar c) same _ _

end FilterPushdown.Text.Utf16
