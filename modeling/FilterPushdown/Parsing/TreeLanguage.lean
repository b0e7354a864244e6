/-!
Languages whose words have trees, and the ways in which larger languages are put together: choice,
sequence, left-nested repetition.  A word may have several trees, and the same tree may come about
in several ways.
-/

namespace FilterPushdown.Parsing

/-- Which trees a word has. -/
abbrev TreeLanguage (α : Type) := List Char → α → Prop

namespace TreeLanguage

variable {α β γ : Type}

/-- The empty word alone, with one tree. -/
def result (a : α) : TreeLanguage α := fun word tree => word = [] ∧ tree = a

/-- The words of one letter, with the tree that is given for it. -/
def letter (tree? : Char → Option α) : TreeLanguage α :=
  fun word tree => ∃ c, word = [c] ∧ tree? c = some tree

/-- The words of either language. -/
def or (first second : TreeLanguage α) : TreeLanguage α :=
  fun word tree => first word tree ∨ second word tree

/-- The same words with other trees. -/
def map (f : α → β) (language : TreeLanguage α) : TreeLanguage β :=
  fun word tree => ∃ a, language word a ∧ f a = tree

/-- The words whose tree is not refused. -/
def refuse (refused : α → Bool) (language : TreeLanguage α) : TreeLanguage α :=
  fun word tree => language word tree ∧ refused tree = false

/-- A word of one language followed by a word of another. -/
inductive Seq (f : α → β → γ) (first : TreeLanguage α) (second : TreeLanguage β) :
    TreeLanguage γ where
  | seq (left : first u a) (right : second v b) : Seq f first second (u ++ v) (f a b)

theorem Seq.of_eq {f : α → β → γ} {first : TreeLanguage α} {second : TreeLanguage β}
    {u v word : List Char} {a : α} {b : β} {tree : γ} (left : first u a) (right : second v b)
    (whole : word = u ++ v) (made : tree = f a b) : Seq f first second word tree := by
  subst whole made
  exact .seq left right

/-- A first word followed by any number of steps, taken together from the left. -/
inductive Chain (f : α → β → α) (first : TreeLanguage α) (step : TreeLanguage β) :
    TreeLanguage α where
  | first (start : first word tree) : Chain f first step word tree
  | step (before : Chain f first step u a) (next : step v b) :
      Chain f first step (u ++ v) (f a b)

/-- Whether a language has a word. -/
def Inhabited (language : TreeLanguage α) : Prop := ∃ word tree, language word tree

/-- Whether no word has two trees. -/
def Unambiguous (language : TreeLanguage α) : Prop :=
  ∀ word a b, language word a → language word b → a = b

/-- What may follow a first letter. -/
def derive (c : Char) (language : TreeLanguage α) : TreeLanguage α :=
  fun word => language (c :: word)

/-- A sequence begins with a word of the second language if the first word is empty, and otherwise
with a letter of the first. -/
theorem seq_iff {first : TreeLanguage α} {second : TreeLanguage β} {f : α → β → γ}
    {word : List Char} {tree : γ} :
    Seq f first second word tree ↔
      (∃ a b, first [] a ∧ second word b ∧ f a b = tree) ∨
        ∃ c rest, word = c :: rest ∧ Seq f (first.derive c) second rest tree := by
  constructor
  · rintro @⟨u, a, v, b, left, right⟩
    cases u with
    | nil => exact Or.inl ⟨a, b, left, right, rfl⟩
    | cons c u => exact Or.inr ⟨c, u ++ v, rfl, .seq left right⟩
  · rintro (⟨a, b, left, right, rfl⟩ | ⟨c, rest, rfl, later⟩)
    · exact .seq (u := []) left right
    · cases later with
      | seq left right => exact .seq (u := c :: _) left right

/-- Without letters a chain is its first word, as every step takes a letter. -/
theorem chain_nil {first : TreeLanguage α} {step : TreeLanguage β} {f : α → β → α}
    (nonempty : ∀ b, ¬ step [] b) {tree : α} : Chain f first step [] tree ↔ first [] tree := by
  constructor
  · intro chain
    generalize same : ([] : List Char) = word at chain
    cases chain with
    | first start => exact start
    | step before next =>
      have none := (List.append_eq_nil_iff.1 same.symm).2
      exact absurd (none ▸ next) (nonempty _)
  · exact .first

/-- What a chain goes on with after a letter: the first word that was begun, or the first step
after an empty first word. -/
def pending (f : α → β → α) (first : TreeLanguage α) (step : TreeLanguage β) (c : Char) :
    TreeLanguage α :=
  (first.derive c).or fun word tree => ∃ a b, first [] a ∧ step (c :: word) b ∧ f a b = tree

/-- After a letter a chain is a chain again, from what is pending. -/
theorem chain_cons {first : TreeLanguage α} {step : TreeLanguage β} {f : α → β → α}
    (nonempty : ∀ b, ¬ step [] b) {c : Char} {word : List Char} {tree : α} :
    Chain f first step (c :: word) tree ↔ Chain f (pending f first step c) step word tree := by
  constructor
  · intro chain
    generalize same : c :: word = whole at chain
    induction chain generalizing word with
    | first start =>
      subst same
      exact .first (.inl start)
    | @step u a v b before next ih =>
      cases u with
      | nil =>
        have start := (chain_nil nonempty).1 before
        simp only [List.nil_append] at same
        subst same
        exact .first (.inr ⟨a, b, start, next, rfl⟩)
      | cons d u =>
        obtain ⟨rfl, rfl⟩ := List.cons.inj same
        exact .step (ih rfl) next
  · intro chain
    induction chain with
    | first start =>
      rcases start with start | ⟨a, b, start, next, rfl⟩
      · exact .first start
      · exact .step (u := []) (.first start) next
    | step before next ih => exact .step ih next

/-- A chain has words if and only if it has a first word. -/
theorem chain_inhabited {first : TreeLanguage α} {step : TreeLanguage β} {f : α → β → α} :
    (Chain f first step).Inhabited ↔ first.Inhabited := by
  constructor
  · rintro ⟨word, tree, chain⟩
    induction chain with
    | first start => exact ⟨_, _, start⟩
    | step _ _ ih => exact ih
  · rintro ⟨word, tree, start⟩
    exact ⟨word, tree, .first start⟩

end TreeLanguage

end FilterPushdown.Parsing
