import FilterPushdown.Dialect.Quoting

/-!
Quoted SQL text, read from left to right.  A reader knows one quote and which two letters stand
together for one character; the text ends at the first quote that belongs to no such pair.  What
comes after the closing quote is handed back, so the reader works in front of any continuation.
-/

namespace FilterPushdown.Sql

/-- How text between two quotes is read. -/
structure Quoting where
  quote : Char
  /-- The character that two letters stand for together. -/
  pair? : Char → Char → Option Char

namespace Quoting

/-- What the letters before the closing quote stand for, and the letters after it. -/
def readBody (rules : Quoting) : List Char → Option (List Char × List Char)
  | [] => none
  | [c] => if c = rules.quote then some ([], []) else none
  | c :: d :: text =>
    match rules.pair? c d with
    | some e => (rules.readBody text).map fun (value, rest) => (e :: value, rest)
    | none =>
      if c = rules.quote then some ([], d :: text)
      else (rules.readBody (d :: text)).map fun (value, rest) => (c :: value, rest)

/-- A quoted text at the start of the given letters, and the letters after it. -/
def read (rules : Quoting) : List Char → Option (List Char × List Char)
  | [] => none
  | c :: text => if c = rules.quote then rules.readBody text else none

/-- Letters that stand for a value if they are read up to a closing quote.  No letter that stands
for itself may begin a pair, whatever comes after it. -/
inductive Denotes (rules : Quoting) : List Char → List Char → Prop where
  | nil : Denotes rules [] []
  | pair (stands : rules.pair? c d = some e) (rest : Denotes rules text value) :
      Denotes rules (c :: d :: text) (e :: value)
  | plain (notQuote : c ≠ rules.quote) (single : ∀ d, rules.pair? c d = none)
      (rest : Denotes rules text value) : Denotes rules (c :: text) (c :: value)

/-- Whether a quote in front of these letters closes a text. -/
def Closes (rules : Quoting) (rest : List Char) : Prop :=
  ∀ d ∈ rest.head?, rules.pair? rules.quote d = none

theorem readBody_quote {rules : Quoting} {rest : List Char} (closes : rules.Closes rest) :
    rules.readBody (rules.quote :: rest) = some ([], rest) := by
  cases rest with
  | nil => simp [readBody]
  | cons d rest => simp [readBody, closes d rfl]

theorem readBody_plain {rules : Quoting} {c : Char} {text : List Char}
    (notQuote : c ≠ rules.quote) (single : ∀ d, rules.pair? c d = none) :
    rules.readBody (c :: text) =
      (rules.readBody text).map fun (value, rest) => (c :: value, rest) := by
  cases text with
  | nil => simp [readBody, notQuote]
  | cons d text => simp [readBody, notQuote, single]

/-- Letters that denote a value are read as it, up to the closing quote and no further. -/
theorem readBody_denotes {rules : Quoting} {text value rest : List Char}
    (denotes : rules.Denotes text value) (closes : rules.Closes rest) :
    rules.readBody (text ++ rules.quote :: rest) = some (value, rest) := by
  induction denotes with
  | nil => exact readBody_quote closes
  | pair stands _ ih =>
    rw [List.cons_append, List.cons_append, readBody, stands]
    simp only [ih, Option.map_some]
  | plain notQuote single _ ih =>
    rw [List.cons_append, readBody_plain notQuote single, ih, Option.map_some]

/-- A whole quoted text is read as the value that it denotes. -/
theorem read_denotes {rules : Quoting} {text value rest : List Char}
    (denotes : rules.Denotes text value) (closes : rules.Closes rest) :
    rules.read (rules.quote :: (text ++ rules.quote :: rest)) = some (value, rest) := by
  rw [read, if_pos rfl]
  exact readBody_denotes denotes closes

/-- Text that is read as a value and no further, in front of everything that does not begin with the
quote. -/
def ReadsBefore (rules : Quoting) (sql value : String) : Prop :=
  ∀ following : String, following.toList.head? ≠ some rules.quote →
    rules.read (sql ++ following).toList = some (value.toList, following.toList)

/-- Where nothing but a second quote goes on after a quote, letters between quotes are read as what
they denote. -/
theorem readsBefore_of_denotes {rules : Quoting} {sql value : String} {text : List Char}
    (written : sql.toList = rules.quote :: (text ++ [rules.quote]))
    (denotes : rules.Denotes text value.toList)
    (closes : ∀ d, d ≠ rules.quote → rules.pair? rules.quote d = none) :
    rules.ReadsBefore sql value := by
  intro following begins
  have closing : rules.Closes following.toList := by
    intro d first
    apply closes d
    rintro rfl
    exact begins first
  rw [String.toList_append, written, List.cons_append, List.append_assoc, List.singleton_append]
  exact read_denotes denotes closing

/-- At least the closing quote is taken off. -/
theorem readBody_shorter {rules : Quoting} {text value rest : List Char}
    (found : rules.readBody text = some (value, rest)) : rest.length < text.length := by
  induction text using readBody.induct rules generalizing value with
  | case1 => cases found
  | case2 =>
    rw [readBody, if_pos rfl] at found
    cases found
    exact Nat.zero_lt_one
  | case3 c other =>
    rw [readBody, if_neg other] at found
    cases found
  | case4 c d text e stands ih =>
    rw [readBody, stands] at found
    obtain ⟨⟨inner, after⟩, later, same⟩ := Option.map_eq_some_iff.mp found
    cases same
    have shorter := ih later
    simp only [List.length_cons]
    omega
  | case5 d text noPair =>
    rw [readBody, noPair] at found
    simp only [if_true] at found
    cases found
    exact Nat.lt_succ_self _
  | case6 c d text noPair other ih =>
    rw [readBody, noPair] at found
    simp only [if_neg other] at found
    obtain ⟨⟨inner, after⟩, later, same⟩ := Option.map_eq_some_iff.mp found
    cases same
    have shorter := ih later
    simp only [List.length_cons] at shorter ⊢
    omega

end Quoting

end FilterPushdown.Sql
