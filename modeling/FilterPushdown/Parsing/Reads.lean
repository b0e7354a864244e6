import FilterPushdown.Parsing.Exactness

/-!
Readers that are exact on a class of texts.  The class is closed under leaving out first letters,
so that it holds every text on which a part of a reader is run.  A reader that consumes a letter
before it runs another one needs the other only on what comes later, which is what makes a chart
of later places enough for phrases inside phrases.
-/

namespace FilterPushdown.Parsing

variable {τ α β γ : Type}

/-- A class of texts that is closed under leaving out first letters. -/
structure TextClass (τ : Type) where
  holds : List τ → Prop
  tail : ∀ t text, holds (t :: text) → holds text

namespace TextClass

theorem drop (good : TextClass τ) {before after : List τ} (whole : good.holds (before ++ after)) :
    good.holds after := by
  induction before with
  | nil => exact whole
  | cons t before ih => exact ih (good.tail t _ whole)

/-- The texts whose proper ends are in a class. -/
def later (good : TextClass τ) : TextClass τ where
  holds
    | [] => True
    | _ :: text => good.holds text
  tail _ text whole := by
    cases text with
    | nil => trivial
    | cons u text => exact good.tail u text whole

theorem later_of (good : TextClass τ) {text : List τ} (whole : good.holds text) :
    good.later.holds text := by
  cases text with
  | nil => trivial
  | cons t text => exact good.tail t text whole

theorem drop_later (good : TextClass τ) {before after : List τ} (some : before ≠ [])
    (whole : good.later.holds (before ++ after)) : good.holds after := by
  cases before with
  | nil => exact absurd rfl some
  | cons t before => exact good.drop whole

/-- The ends of one text. -/
def ends (whole : List τ) : TextClass τ where
  holds text := text <:+ whole
  tail t text := List.IsSuffix.trans (List.suffix_cons t text)

end TextClass

variable [Letter τ]

/-- A reader that is exact for a language on every text of a class. -/
def Reads (good : TextClass τ) (reader : Reader τ α) (L : TreeLanguage α) : Prop :=
  ∀ text, good.holds text → Exact L text (reader text)

namespace Reads

variable {good : TextClass τ}

theorem congr {reader : Reader τ α} {L M : TreeLanguage α} (reads : Reads good reader L)
    (same : ∀ word tree, L word tree ↔ M word tree) : Reads good reader M :=
  fun text whole => (reads text whole).congr same

/-- Being exact on a class, a reader is exact on the proper ends of its texts as well. -/
theorem of_later {reader : Reader τ α} {L : TreeLanguage α} (reads : Reads good.later reader L) :
    Reads good reader L :=
  fun text whole => reads text (good.later_of whole)

theorem result (a : α) : Reads good (Reader.result a) (TreeLanguage.result a) :=
  fun text _ => Exact.result a text

theorem letter {tree? : Char → Option α} (some : ∃ c a, tree? c = some a) :
    Reads good (Reader.letter tree?) (TreeLanguage.letter tree?) :=
  fun text _ => Exact.letter some text

theorem or [DecidableEq α] {first second : Reader τ α} {L M : TreeLanguage α}
    (left : Reads good first L) (right : Reads good second M) :
    Reads good (Reader.or first second) (L.or M) :=
  fun text whole => (left text whole).union (right text whole)

theorem map {reader : Reader τ α} {L : TreeLanguage α} {f : α → β} (reads : Reads good reader L)
    (injective : ∀ word a b, L word a → L word b → f a = f b → a = b) :
    Reads good (Reader.map f reader) (L.map f) :=
  fun text whole => (reads text whole).map injective

theorem refuse {reader : Reader τ α} {L : TreeLanguage α} {refused : α → Bool}
    (reads : Reads good reader L) (single : L.Unambiguous)
    (goesOn : ∀ before rest tree, L (before ++ rest) tree →
      ∃ rest tree, L (before ++ rest) tree ∧ refused tree = false) :
    Reads good (Reader.refuse refused reader) (L.refuse refused) :=
  fun text whole => (reads text whole).refuse single goesOn

theorem seq [DecidableEq γ] {first : Reader τ α} {second : Reader τ β} {L : TreeLanguage α}
    {M : TreeLanguage β} {f : α → β → γ} (left : Reads good first L) (right : Reads good second M)
    (inhabited : M.Inhabited)
    (leftInjective : ∀ u a a' v b, L u a → L u a' → M v b → f a b = f a' b → a = a')
    (rightInjective : ∀ u a v b b', L u a → M v b → M v b' → f a b = f a b' → b = b') :
    Reads good (Reader.seq f first second) (TreeLanguage.Seq f L M) :=
  fun text whole => (left text whole).seq inhabited
    (fun _ after same _ => right after (good.drop (same ▸ whole)))
    leftInjective rightInjective

/-- After a first word with letters, the second reader is run on proper ends only. -/
theorem seq_later [DecidableEq γ] {first : Reader τ α} {second : Reader τ β} {L : TreeLanguage α}
    {M : TreeLanguage β} {f : α → β → γ} (left : Reads good.later first L)
    (right : Reads good second M) (inhabited : M.Inhabited) (nonempty : ∀ a, ¬ L [] a)
    (leftInjective : ∀ u a a' v b, L u a → L u a' → M v b → f a b = f a' b → a = a')
    (rightInjective : ∀ u a v b b', L u a → M v b → M v b' → f a b = f a b' → b = b') :
    Reads good.later (Reader.seq f first second) (TreeLanguage.Seq f L M) := by
  refine fun text whole => (left text whole).seq inhabited ?_ leftInjective rightInjective
  rintro before after same ⟨a, inside⟩
  have some : before ≠ [] := by
    rintro rfl
    exact nonempty a inside
  exact right after (good.drop_later some (same ▸ whole))

theorem chain [DecidableEq α] {first : Reader τ α} {step : Reader τ β} {L : TreeLanguage α}
    {M : TreeLanguage β} {f : α → β → α} (left : Reads good first L) (right : Reads good step M)
    (nonempty : ∀ b, ¬ M [] b)
    (leftInjective : ∀ u a a' v b, TreeLanguage.Chain f L M u a → TreeLanguage.Chain f L M u a' →
      M v b → f a b = f a' b → a = a')
    (rightInjective : ∀ u a v b b', TreeLanguage.Chain f L M u a → M v b → M v b' →
      f a b = f a b' → b = b') :
    Reads good (Reader.chain f first step) (TreeLanguage.Chain f L M) :=
  fun text whole => (left text whole).chain nonempty
    (fun _ after same _ => right after (good.drop (same ▸ whole)))
    leftInjective rightInjective

/-- If the first word has letters, the steps are run on proper ends only. -/
theorem chain_later [DecidableEq α] {first : Reader τ α} {step : Reader τ β} {L : TreeLanguage α}
    {M : TreeLanguage β} {f : α → β → α} (left : Reads good.later first L)
    (right : Reads good step M) (someFirst : ∀ a, ¬ L [] a) (nonempty : ∀ b, ¬ M [] b)
    (leftInjective : ∀ u a a' v b, TreeLanguage.Chain f L M u a → TreeLanguage.Chain f L M u a' →
      M v b → f a b = f a' b → a = a')
    (rightInjective : ∀ u a v b b', TreeLanguage.Chain f L M u a → M v b → M v b' →
      f a b = f a b' → b = b') :
    Reads good.later (Reader.chain f first step) (TreeLanguage.Chain f L M) := by
  refine fun text whole =>
    (left text whole).chain nonempty ?_ leftInjective rightInjective
  rintro before after same ⟨a, inside⟩
  have some : before ≠ [] := by
    rintro rfl
    exact someFirst a ((TreeLanguage.chain_nil nonempty).1 inside)
  exact right after (good.drop_later some (same ▸ whole))

theorem seqRight [DecidableEq β] {first : Reader τ Unit} {second : Reader τ β}
    {L : TreeLanguage Unit} {M : TreeLanguage β} (left : Reads good first L)
    (right : Reads good second M) (inhabited : M.Inhabited) :
    Reads good (Reader.seqRight first second) (TreeLanguage.Seq (fun _ b => b) L M) :=
  left.seq right inhabited (fun _ _ _ _ _ _ _ _ _ => rfl) (fun _ _ _ _ _ _ _ _ same => same)

theorem seqRight_later [DecidableEq β] {first : Reader τ Unit} {second : Reader τ β}
    {L : TreeLanguage Unit} {M : TreeLanguage β} (left : Reads good.later first L)
    (right : Reads good second M) (inhabited : M.Inhabited) (nonempty : ∀ a, ¬ L [] a) :
    Reads good.later (Reader.seqRight first second) (TreeLanguage.Seq (fun _ b => b) L M) :=
  left.seq_later right inhabited nonempty (fun _ _ _ _ _ _ _ _ _ => rfl)
    (fun _ _ _ _ _ _ _ _ same => same)

theorem seqLeft [DecidableEq α] {first : Reader τ α} {second : Reader τ Unit}
    {L : TreeLanguage α} {M : TreeLanguage Unit} (left : Reads good first L)
    (right : Reads good second M) (inhabited : M.Inhabited) :
    Reads good (Reader.seqLeft first second) (TreeLanguage.Seq (fun a _ => a) L M) :=
  left.seq right inhabited (fun _ _ _ _ _ _ _ _ same => same) (fun _ _ _ _ _ _ _ _ _ => rfl)

theorem oneOf {accepts : Char → Bool} (some : ∃ c, accepts c = true) :
    Reads good (Reader.oneOf accepts) fun word c => word = [c] ∧ accepts c = true := by
  obtain ⟨c, accepted⟩ := some
  refine (letter ⟨c, c, by simp [accepted]⟩).congr fun word tree => ⟨?_, ?_⟩
  · rintro ⟨d, rfl, found⟩
    by_cases accepted : accepts d = true
    · simp only [accepted, if_true, Option.some.injEq] at found
      subst found
      exact ⟨rfl, accepted⟩
    · simp [accepted] at found
  · rintro ⟨rfl, accepted⟩
    exact ⟨tree, rfl, by simp [accepted]⟩

theorem char (expected : Char) :
    Reads good (Reader.char expected) fun word (_ : Unit) => word = [expected] := by
  refine (letter ⟨expected, (), by simp⟩).congr fun word tree => ⟨?_, ?_⟩
  · rintro ⟨d, rfl, found⟩
    by_cases same : d = expected
    · rw [same]
    · simp [same] at found
  · rintro rfl
    exact ⟨expected, rfl, by simp⟩

theorem word (letters : List Char) :
    Reads good (Reader.word letters) fun word (_ : Unit) => word = letters := by
  induction letters with
  | nil => exact (result ()).congr fun word tree => ⟨And.left, fun h => ⟨h, rfl⟩⟩
  | cons c letters ih =>
    refine ((char c).seqRight ih ⟨letters, (), rfl⟩).congr fun word tree => ⟨?_, ?_⟩
    · rintro @⟨u, a, v, b, rfl, rfl⟩
      rfl
    · rintro rfl
      exact .seq (u := [c]) (a := ()) (v := letters) (b := ()) rfl rfl

end Reads

/-! ## Repetitions -/

namespace TreeLanguage

/-- Words one after another, with the list of their trees. -/
inductive Items (item : TreeLanguage α) : TreeLanguage (List α) where
  | nil : Items item [] []
  | cons (first : item u a) (rest : Items item v items) : Items item (u ++ v) (a :: items)

theorem Items.snoc {item : TreeLanguage α} {u v : List Char} {items : List α} {a : α}
    (before : Items item u items) (next : item v a) : Items item (u ++ v) (items ++ [a]) := by
  induction before with
  | nil =>
    have single := Items.cons next .nil
    rwa [List.append_nil] at single
  | cons first _ ih => simpa using Items.cons first ih

/-- A chain is a first word and items, folded together. -/
theorem chain_iff {first : TreeLanguage α} {step : TreeLanguage β} {f : α → β → α}
    {word : List Char} {tree : α} :
    Chain f first step word tree ↔
      ∃ u a v items, first u a ∧ Items step v items ∧ word = u ++ v ∧ tree = items.foldl f a := by
  constructor
  · intro chain
    induction chain with
    | @first word tree start => exact ⟨word, tree, [], [], start, .nil, by simp, rfl⟩
    | @step _ _ w b _ next ih =>
      obtain ⟨u, a, v, items, start, rest, rfl, rfl⟩ := ih
      exact ⟨u, a, v ++ w, items ++ [b], start, rest.snoc next, by simp, by simp⟩
  · rintro ⟨u, a, v, items, start, rest, rfl, rfl⟩
    have general : ∀ {v items}, Items step v items → ∀ {u a}, Chain f first step u a →
        Chain f first step (u ++ v) (items.foldl f a) := by
      intro v items rest
      induction rest with
      | nil => exact fun chain => by simpa using chain
      | cons next _ ih => exact fun chain => by simpa using ih (.step chain next)
    exact general rest (.first start)

theorem foldl_snoc (items start : List α) :
    items.foldl (fun items a => items ++ [a]) start = start ++ items := by
  induction items generalizing start with
  | nil => simp
  | cons a items ih => simp [ih]

/-- Letters of a class, as items, are the word itself. -/
theorem items_letters {accepts : Char → Bool} {word cs : List Char} :
    Items (fun word c => word = [c] ∧ accepts c = true) word cs ↔
      cs = word ∧ ∀ c ∈ word, accepts c = true := by
  constructor
  · intro items
    induction items with
    | nil => simp
    | cons first _ ih =>
      obtain ⟨rfl, accepted⟩ := first
      obtain ⟨rfl, others⟩ := ih
      exact ⟨rfl, by simpa [accepted] using others⟩
  · rintro ⟨rfl, accepted⟩
    induction cs with
    | nil => exact .nil
    | cons c cs ih =>
      exact .cons (u := [c]) ⟨rfl, accepted c (by simp)⟩
        (ih fun d inside => accepted d (by simp [inside]))

end TreeLanguage

namespace Reads

variable {good : TextClass τ}

theorem star [DecidableEq α] {item : Reader τ α} {M : TreeLanguage α} (reads : Reads good item M)
    (nonempty : ∀ b, ¬ M [] b) : Reads good (Reader.star item) (TreeLanguage.Items M) := by
  refine ((result []).chain (f := fun items a => items ++ [a]) reads nonempty
    (fun _ _ _ _ _ _ _ _ same => List.append_cancel_right same)
    (fun _ _ _ _ _ _ _ _ same => by simpa using same)).congr fun word tree => ?_
  rw [TreeLanguage.chain_iff]
  constructor
  · rintro ⟨u, a, v, items, ⟨rfl, rfl⟩, rest, rfl, rfl⟩
    rw [TreeLanguage.foldl_snoc]
    exact rest
  · intro items
    exact ⟨[], [], word, tree, ⟨rfl, rfl⟩, items, rfl, (TreeLanguage.foldl_snoc tree []).symm⟩

theorem plus [DecidableEq α] {item : Reader τ α} {M : TreeLanguage α} (reads : Reads good item M)
    (nonempty : ∀ b, ¬ M [] b) :
    Reads good (Reader.plus item) fun word items =>
      items ≠ [] ∧ TreeLanguage.Items M word items := by
  refine ((reads.map (f := fun a => [a]) fun _ _ _ _ _ same => (List.cons.inj same).1).chain
    (f := fun items a => items ++ [a]) reads nonempty
    (fun _ _ _ _ _ _ _ _ same => List.append_cancel_right same)
    (fun _ _ _ _ _ _ _ _ same => by simpa using same)).congr fun word tree => ?_
  rw [TreeLanguage.chain_iff]
  constructor
  · rintro ⟨u, _, v, items, ⟨a, first, rfl⟩, rest, rfl, rfl⟩
    rw [TreeLanguage.foldl_snoc]
    exact ⟨List.cons_ne_nil a items, .cons first rest⟩
  · rintro ⟨some, items⟩
    cases items with
    | nil => exact absurd rfl some
    | @cons u a v items first rest =>
      exact ⟨u, [a], v, items, ⟨a, first, rfl⟩, rest, rfl, (TreeLanguage.foldl_snoc items [a]).symm⟩

end Reads

end FilterPushdown.Parsing
