import FilterPushdown.Filter.Chart
import FilterPushdown.Filter.Exact.Terms

/-!
The chart holds exactly the phrases of the grammar.  A phrase in parentheses begins with a letter
of its own, so reading a phrase at one place needs phrases at later places only, and the chart is
exact from its end backwards.  Main statement: the trail of a text tells exactly the trees that the
grammar gives the beginnings of the text, and ends where no filter text goes on.
-/

namespace FilterPushdown.Filter

open Parsing Grammar

variable {τ : Type} [Letter τ] {good : TextClass τ}

/-! ## Phrases in parentheses -/

/-- A phrase in parentheses, with any spaces inside them. -/
inductive Enclosed (inner : TreeLanguage Tree) : TreeLanguage Tree where
  | enclosed (before : Spaces left) (phrase : inner word tree) (after : Spaces right) :
      Enclosed inner ('(' :: (left ++ (word ++ (right ++ [')'])))) (.group tree)

theorem Enclosed.ne_nil {inner : TreeLanguage Tree} {tree : Tree} : ¬ Enclosed inner [] tree :=
  nofun

theorem isGroup_iff {word : List Char} {tree : Tree} :
    IsGroup word tree ↔ Enclosed IsChain word tree := by
  constructor
  · rintro ⟨before, inner, after⟩
    exact .enclosed before inner after
  · rintro ⟨before, inner, after⟩
    exact .group before inner after

theorem isSmallGroup_iff {word : List Char} {tree : Tree} :
    IsSmallGroup word tree ↔ Enclosed IsOperand word tree := by
  constructor
  · rintro ⟨before, inner, after⟩
    exact .enclosed before inner after
  · rintro ⟨before, inner, after⟩
    exact .group before inner after

private theorem reads_closingParenthesis : Reads good (Reader.seqRight spaces (Reader.char ')'))
    (TreeLanguage.Seq (fun _ b => b) (fun word (_ : Unit) => Spaces word)
      fun word (_ : Unit) => word = [')']) :=
  reads_spaces.seqRight (Reads.char ')') ⟨_, (), rfl⟩

private theorem closingParenthesis_inhabited : TreeLanguage.Inhabited
    (TreeLanguage.Seq (fun _ b => b) (fun word (_ : Unit) => Spaces word)
      fun word (_ : Unit) => word = [')']) :=
  ⟨_, _, .seq (a := ()) (b := ()) spaces_nil rfl⟩

/-- The phrase inside parentheses is read at a later place than the parentheses. -/
theorem reads_grouped {phrase : Reader τ Tree} {L : TreeLanguage Tree} (reads : Reads good phrase L)
    (inhabited : L.Inhabited) : Reads good.later (grouped phrase) (Enclosed L) := by
  obtain ⟨someWord, someTree, inside⟩ := inhabited
  obtain ⟨closing, _, closes⟩ := closingParenthesis_inhabited
  have closed := reads.seqLeft reads_closingParenthesis closingParenthesis_inhabited
  have spaced := reads_spaces.seqRight closed ⟨_, _, .seq inside closes⟩
  have opening : Reads good.later (Reader.char '(') fun word (_ : Unit) => word = ['('] :=
    Reads.char '('
  have enclosed := opening.seqRight_later spaced
    ⟨_, _, .seq (a := ()) spaces_nil (.seq inside closes)⟩ (fun _ no => nomatch no)
  refine (enclosed.map fun _ _ _ _ _ same => Tree.group.inj same).congr fun word tree => ?_
  constructor
  · rintro ⟨_, @⟨_, _, _, _, rfl, @⟨_, _, _, _, before, @⟨_, _, _, _, phrase,
      @⟨_, _, _, _, after, rfl⟩⟩⟩⟩, rfl⟩
    exact .enclosed before phrase after
  · rintro ⟨before, phrase, after⟩
    exact ⟨_, .seq (u := ['(']) (a := ()) rfl (.seq (a := ()) before
      (.seq (b := ()) phrase (.seq (a := ()) (b := ()) after rfl))), rfl⟩

private theorem reads_emptyGroup : Reads good emptyGroup fun word tree =>
    ∃ between, Spaces between ∧ word = '(' :: (between ++ [')']) ∧ tree = .group .empty := by
  have closing : Reads good _ _ := reads_closingParenthesis
  have enclosed := (Reads.char '(').seqRight closing closingParenthesis_inhabited
  refine (enclosed.map fun _ _ _ _ _ _ => rfl).congr fun word tree => ?_
  constructor
  · rintro ⟨_, @⟨_, _, _, _, rfl, @⟨_, _, _, _, between, rfl⟩⟩, rfl⟩
    exact ⟨_, between, rfl, rfl⟩
  · rintro ⟨_, between, rfl, rfl⟩
    exact ⟨(), .seq (u := ['(']) (a := ()) rfl (.seq (a := ()) (b := ()) between rfl), rfl⟩

/-! ## Tags and operands -/

private theorem isName_example : IsName ['a'] ⟨.bare, String.ofList ['a']⟩ :=
  .bare ⟨by decide, fun _ no => absurd no List.not_mem_nil⟩

theorem reads_tag : Reads good tag IsTag := by
  have names : Reads good name IsName := reads_name
  have fields := names.seq reads_sign ⟨_, Sign.colon, rfl⟩
    (fun _ _ _ _ _ _ _ _ same => (Prod.mk.inj same).1)
    (fun _ _ _ _ _ _ _ _ same => (Prod.mk.inj same).2)
  have named := fields.seq (f := fun field term => Tree.tag (some field) term)
    (reads_term.or (Reads.result .missing)) ⟨[], .missing, .inr ⟨rfl, rfl⟩⟩
    (fun _ _ _ _ _ _ _ _ same => Option.some.inj (Tree.tag.inj same).1)
    (fun _ _ _ _ _ _ _ _ same => (Tree.tag.inj same).2)
  refine (named.or (reads_term.map fun _ _ _ _ _ same => (Tree.tag.inj same).2)).congr
    fun word tree => ?_
  constructor
  · rintro (@⟨_, _, _, _, @⟨_, _, _, _, field, rfl⟩, value | ⟨rfl, rfl⟩⟩ | ⟨_, value, rfl⟩)
    · rw [List.append_assoc]
      exact .named field value
    · rw [List.append_nil]
      exact .unfinished field
    · exact .unnamed value
  · rintro (⟨field, value⟩ | field | value)
    · exact .inl (.of_eq (.seq field rfl) (.inl value) (List.append_assoc ..).symm rfl)
    · exact .inl (.of_eq (.seq field rfl) (.inr ⟨rfl, rfl⟩) (List.append_nil _).symm rfl)
    · exact .inr ⟨_, value, rfl⟩

private theorem isTag_example :
    IsTag ['a', ':'] (.tag (some (⟨.bare, String.ofList ['a']⟩, .colon)) .missing) :=
  @IsTag.unfinished _ _ .colon isName_example

theorem isTerm_ne_nil {term : Term} : ¬ IsTerm [] term := by
  intro inside
  generalize same : [] = word at inside
  cases inside with
  | number numeral =>
    cases numeral with
    | positive whole _ => exact whole.1 (List.append_eq_nil_iff.mp same.symm).1
    | negative _ _ => cases same
  | regex _ _ => cases same
  | range _ _ _ _ => cases same
  | bare letters =>
    cases letters with
    | word letters _ => exact (same ▸ letters : Run _ _ [])
    | afterDigits digits _ => exact digits.1 (List.append_eq_nil_iff.mp same.symm).1
  | single text => exact isQuoted_ne_nil (same ▸ text)
  | double text => exact isQuoted_ne_nil (same ▸ text)

private theorem sign_ne_nil (sign : Sign) : sign.letters ≠ [] := by cases sign <;> decide

private theorem isTag_ne_nil {tree : Tree} : ¬ IsTag [] tree := by
  intro inside
  generalize same : [] = word at inside
  cases inside with
  | named _ _ =>
    exact sign_ne_nil _ (List.append_eq_nil_iff.mp (List.append_eq_nil_iff.mp same.symm).2).1
  | unfinished _ => exact sign_ne_nil _ (List.append_eq_nil_iff.mp same.symm).2
  | unnamed value => exact isTerm_ne_nil (same ▸ value)

theorem isOperand_ne_nil {tree : Tree} : ¬ IsOperand [] tree := by
  intro inside
  generalize same : [] = word at inside
  cases inside with
  | nothing _ => cases same
  | group inner =>
    cases inner
    cases same
  | notGroup _ _ => cases same
  | notTag _ _ => cases same
  | dash _ => cases same
  | tag inner => exact isTag_ne_nil (same ▸ inner)

theorem isOperand_inhabited : TreeLanguage.Inhabited IsOperand := ⟨_, _, .tag isTag_example⟩

theorem isChain_inhabited : TreeLanguage.Inhabited IsChain := ⟨_, _, .operand (.tag isTag_example)⟩

/-- An operand is read from the chains that begin at later places. -/
theorem reads_operand {chain : Reader τ Tree} (reads : Reads good chain IsChain) :
    Reads good.later (operand chain) IsOperand := by
  have groups := reads_grouped reads isChain_inhabited
  have tags : Reads good.later tag IsTag := reads_tag
  have inner := groups.or tags
  have someInner : (TreeLanguage.or (Enclosed IsChain) IsTag).Inhabited :=
    ⟨_, _, .inr isTag_example⟩
  have words := (Reads.word ['N', 'O', 'T']).seqRight (reads_someSpaces.seqRight inner someInner)
    ⟨_, _, .seq (a := ()) someSpaces_single (.inr isTag_example)⟩
  have dashes := (Reads.char '-').seqRight tags ⟨_, _, isTag_example⟩
  refine (reads_emptyGroup.or (groups.or
    ((words.map fun _ _ _ _ _ same => (Tree.negated.inj same).2).or
      ((dashes.map fun _ _ _ _ _ same => (Tree.negated.inj same).2).or reads_tag)))).congr
    fun word tree => ?_
  constructor
  · rintro (⟨_, between, rfl, rfl⟩ | inner | ⟨_, @⟨_, _, _, _, rfl, @⟨_, _, _, _, gap,
      inner | inner⟩⟩, rfl⟩ | ⟨_, @⟨_, _, _, _, rfl, inner⟩, rfl⟩ | inner)
    · exact .nothing between
    · exact .group (isGroup_iff.mpr inner)
    · exact .notGroup gap (isGroup_iff.mpr inner)
    · exact .notTag gap inner
    · exact .dash inner
    · exact .tag inner
  · rintro (between | inner | ⟨gap, inner⟩ | ⟨gap, inner⟩ | inner | inner)
    · exact .inl ⟨_, between, rfl, rfl⟩
    · exact .inr (.inl (isGroup_iff.mp inner))
    · exact .inr (.inr (.inl ⟨_, .seq (a := ()) rfl
        (.seq (a := ()) gap (.inl (isGroup_iff.mp inner))), rfl⟩))
    · exact .inr (.inr (.inl ⟨_, .seq (a := ()) rfl (.seq (a := ()) gap (.inr inner)), rfl⟩))
    · exact .inr (.inr (.inr (.inl ⟨_, .seq (u := ['-']) (a := ()) rfl inner, rfl⟩)))
    · exact .inr (.inr (.inr (.inr inner)))

/-! ## Chains -/

private theorem reads_connective : Reads good connective fun word (c : Connective) =>
    word = c.symbol.toList :=
  (reads_choice _ _).congr fun _ c => ⟨And.right, fun same => ⟨by cases c <;> decide, same⟩⟩

/-- A connective and the operand to its right. -/
inductive Link : List Char → Connective × Tree → Prop where
  | link {c : Connective} (after : AfterConnective right second) :
      Link (c.symbol.toList ++ right) (c, second)

/-- An operand that is joined by spaces alone. -/
inductive Juxtaposition : List Char → Connective × Tree → Prop where
  | spaced (between : SomeSpaces gap) (after : IsOperand right second) :
      Juxtaposition (gap ++ right) (.and, second)
  | spacedGroup (between : SomeSpaces gap) (after : IsSmallGroup right second) :
      Juxtaposition (gap ++ right) (.and, second)

theorem reads_link {operand : Reader τ Tree} (reads : Reads good operand IsOperand) :
    Reads good (link operand) Link := by
  have small := (reads_grouped reads isOperand_inhabited).of_later
  have right := (reads_someSpaces.seqRight reads isOperand_inhabited).or small
  have someRight : (TreeLanguage.or (TreeLanguage.Seq (fun _ b => b)
      (fun word (_ : Unit) => SomeSpaces word) IsOperand) (Enclosed IsOperand)).Inhabited :=
    ⟨_, _, .inl (.seq (a := ()) someSpaces_single (.tag isTag_example))⟩
  refine (reads_connective.seq right someRight
    (fun _ _ _ _ _ _ _ _ same => (Prod.mk.inj same).1)
    (fun _ _ _ _ _ _ _ _ same => (Prod.mk.inj same).2)).congr fun word linked => ?_
  constructor
  · rintro @⟨_, connective, _, _, rfl, @⟨_, _, _, _, gap, right⟩ | small⟩
    · exact .link (.spaced gap right)
    · exact .link (.group (isSmallGroup_iff.mpr small))
  · rintro ⟨⟨gap, right⟩ | small⟩
    · exact .seq rfl (.inl (.seq (a := ()) gap right))
    · exact .seq rfl (.inr (isSmallGroup_iff.mp small))

theorem reads_juxtaposition {operand : Reader τ Tree} (reads : Reads good operand IsOperand) :
    Reads good (juxtaposition operand) Juxtaposition := by
  have small := (reads_grouped reads isOperand_inhabited).of_later
  have right := reads_someSpaces.seqRight (reads.or small)
    ⟨_, _, .inl (.tag isTag_example)⟩
  refine (right.map fun _ _ _ _ _ same => (Prod.mk.inj same).2).congr fun word linked => ?_
  constructor
  · rintro ⟨_, @⟨_, _, _, _, gap, right | small⟩, rfl⟩
    · exact .spaced gap right
    · exact .spacedGroup gap (isSmallGroup_iff.mpr small)
  · rintro (⟨gap, right⟩ | ⟨gap, small⟩)
    · exact ⟨_, .seq (a := ()) gap (.inl right), rfl⟩
    · exact ⟨_, .seq (a := ()) gap (.inr (isSmallGroup_iff.mp small)), rfl⟩

/-- What a chain begins with: an operand, or a group with what is joined to it. -/
def Start : TreeLanguage Tree :=
  TreeLanguage.or IsOperand
    (TreeLanguage.Seq join (Enclosed IsChain) (TreeLanguage.or Link Juxtaposition))

/-- What goes on with a chain. -/
def Continuation : TreeLanguage (Connective × Tree) :=
  TreeLanguage.or (TreeLanguage.Seq (fun _ b => b) (fun word (_ : Unit) => SomeSpaces word) Link)
    Juxtaposition

private theorem continuation_ne_nil (linked : Connective × Tree) : ¬ Continuation [] linked := by
  rintro (inside | inside)
  · generalize same : [] = word at inside
    cases inside with
    | seq gap _ => exact gap.1 (List.append_eq_nil_iff.mp same.symm).1
  · generalize same : [] = word at inside
    cases inside with
    | spaced gap _ => exact gap.1 (List.append_eq_nil_iff.mp same.symm).1
    | spacedGroup gap _ => exact gap.1 (List.append_eq_nil_iff.mp same.symm).1

private theorem start_ne_nil (tree : Tree) : ¬ Start [] tree := by
  rintro (inside | inside)
  · exact isOperand_ne_nil inside
  · generalize same : [] = word at inside
    cases inside with
    | seq group _ =>
      obtain ⟨rfl, -⟩ := List.append_eq_nil_iff.mp same.symm
      exact group.ne_nil

/-- A chain begins and goes on. -/
theorem chain_isChain {word : List Char} {tree : Tree}
    (chain : TreeLanguage.Chain join Start Continuation word tree) : IsChain word tree := by
  induction chain with
  | first start =>
    rcases start with single | @⟨_, _, _, _, group, @⟨_, _, _, after⟩ | ⟨gap, right⟩ | ⟨gap, small⟩⟩
    · exact .operand single
    · exact .linked (.group (isGroup_iff.mpr group)) after
    · exact .groupSpaced (isGroup_iff.mpr group) gap right
    · exact .groupSpacedGroup (isGroup_iff.mpr group) gap small
  | step _ next ih =>
    rcases next with @⟨_, _, _, _, gap, @⟨_, _, _, after⟩⟩ | ⟨gap, right⟩ | ⟨gap, small⟩
    · rw [← List.append_assoc]
      exact .linked (.spaced ih gap) after
    · exact .spaced ih gap right
    · exact .spacedGroup ih gap small

private theorem group_start {left right : List Char} {first : Tree} {next : Connective × Tree}
    (group : IsGroup left first) (linked : TreeLanguage.or Link Juxtaposition right next) :
    TreeLanguage.Chain join Start Continuation (left ++ right) (join first next) :=
  .first (.inr (.seq (isGroup_iff.mp group) linked))

theorem isChain_chain {word : List Char} {tree : Tree} (inside : IsChain word tree) :
    TreeLanguage.Chain join Start Continuation word tree := by
  cases inside with
  | operand single => exact .first (.inl single)
  | linked before after =>
    cases before with
    | spaced left gap =>
      rw [List.append_assoc]
      exact .step (isChain_chain left) (.inl (.seq (a := ()) gap (.link after)))
    | group left => exact group_start left (.inl (.link after))
  | spaced before gap after => exact .step (isChain_chain before) (.inr (.spaced gap after))
  | groupSpaced before gap after => exact group_start before (.inr (.spaced gap after))
  | spacedGroup before gap after =>
    exact .step (isChain_chain before) (.inr (.spacedGroup gap after))
  | groupSpacedGroup before gap after => exact group_start before (.inr (.spacedGroup gap after))

theorem isChain_iff {word : List Char} {tree : Tree} :
    IsChain word tree ↔ TreeLanguage.Chain join Start Continuation word tree :=
  ⟨isChain_chain, chain_isChain⟩

theorem isChain_ne_nil {tree : Tree} : ¬ IsChain [] tree := fun inside =>
  start_ne_nil tree ((TreeLanguage.chain_nil continuation_ne_nil).mp (isChain_chain inside))

/-- A chain is read from the operand that begins with it, and from the operands and chains that
begin at later places. -/
theorem reads_chain {here operand chain : Reader τ Tree} (first : Reads good.later here IsOperand)
    (operands : Reads good operand IsOperand) (chains : Reads good chain IsChain) :
    Reads good.later (Filter.chain here operand chain) IsChain := by
  have links := reads_link operands
  have juxtapositions := reads_juxtaposition operands
  have someLink : Link ['A', 'N', 'D', ' ', 'a', ':']
      (.and, .tag (some (⟨.bare, String.ofList ['a']⟩, .colon)) .missing) :=
    .link (c := .and) (.spaced someSpaces_single (.tag isTag_example))
  have left {a a' : Tree} {b : Connective × Tree} (same : join a b = join a' b) : a = a' :=
    (Tree.logical.inj same).2.1
  have right {a : Tree} {b b' : Connective × Tree} (same : join a b = join a b') : b = b' :=
    Prod.ext (Tree.logical.inj same).1 (Tree.logical.inj same).2.2
  have groups := (reads_grouped chains isChain_inhabited).seq_later (f := join)
    (links.or juxtapositions) ⟨_, _, .inl someLink⟩ (fun _ => Enclosed.ne_nil)
    (fun _ _ _ _ _ _ _ _ => left) (fun _ _ _ _ _ _ _ _ => right)
  have steps := (reads_someSpaces.seqRight links ⟨_, _, someLink⟩).or juxtapositions
  exact ((first.or groups).chain_later (f := join) steps start_ne_nil continuation_ne_nil
    (fun _ _ _ _ _ _ _ _ => left) (fun _ _ _ _ _ _ _ _ => right)).congr
    fun _ _ => isChain_iff.symm

/-! ## The chart and the whole text -/

private theorem chart_letters (text : List Char) :
    (chart text).map Letter.char = text.map Letter.char := by
  induction text with
  | nil => rfl
  | cons c text ih => exact congrArg (c :: ·) ih

private theorem reads_chart (text : List Char) :
    Reads (TextClass.ends (chart text)) Place.operandReader IsOperand ∧
      Reads (TextClass.ends (chart text)) Place.chainReader IsChain := by
  induction text with
  | nil =>
    constructor
    · intro places inside
      obtain rfl := List.suffix_nil.mp inside
      exact .last isOperand_inhabited fun _ => isOperand_ne_nil
    · intro places inside
      obtain rfl := List.suffix_nil.mp inside
      exact .last isChain_inhabited fun _ => isChain_ne_nil
  | cons c text ih =>
    obtain ⟨operands, chains⟩ := ih
    have letters : (Place.unread c :: chart text).map Letter.char =
        (chart (c :: text)).map Letter.char := rfl
    have inside : (TextClass.ends (chart text)).later.holds (Place.unread c :: chart text) :=
      List.suffix_refl _
    have operandHere := reads_operand chains
    have chainHere := reads_chain operandHere operands chains
    constructor
    · intro places suffix
      rcases List.suffix_cons_iff.mp suffix with rfl | suffix
      · exact (operandHere _ inside).transfer letters
      · exact operands places suffix
    · intro places suffix
      rcases List.suffix_cons_iff.mp suffix with rfl | suffix
      · exact (chainHere _ inside).transfer letters
      · exact chains places suffix

/-- The trail of a text tells exactly the trees of its beginnings, and ends where no filter text
goes on. -/
theorem exact_trail (text : List Char) : Exact IsFilter text (trail text) := by
  have chains := (reads_chart text).2
  have closed := chains.seqLeft reads_spaces ⟨[], (), spaces_nil⟩
  have spaced := reads_spaces.seqRight closed ⟨_, _, .seq (b := ())
    (.operand (.tag isTag_example)) spaces_nil⟩
  have read := (spaced (chart text) (List.suffix_refl _)).transfer (chart_letters text)
  refine read.congr fun word tree => ?_
  constructor
  · rintro @⟨_, _, _, _, before, @⟨_, _, _, _, inner, after⟩⟩
    exact .filter before inner after
  · rintro ⟨before, inner, after⟩
    exact .seq (a := ()) before (.seq (b := ()) inner after)

private theorem letters_self (text : List Char) : text.map Letter.char = text := List.map_id text

theorem length_trail_le (text : List Char) : (trail text).length ≤ text.length + 1 :=
  (exact_trail text).length_le

/-- The trail reaches a place if and only if some filter text begins with what lies before it. -/
theorem lt_length_trail_iff {text : List Char} {k : Nat} (inside : k ≤ text.length) :
    k < (trail text).length ↔ Viable (text.take k) := by
  have reached := (exact_trail text).lt_length_iff inside
  rwa [letters_self] at reached

/-- What the trail holds at a place are the trees of what lies before it. -/
theorem getElem_trail {text : List Char} {k : Nat} (reached : k < (trail text).length) :
    ((trail text)[k]).Of (IsFilter (text.take k)) := by
  have trees := (exact_trail text).getElem reached
  rwa [letters_self] at trees

end FilterPushdown.Filter
