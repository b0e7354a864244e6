import FilterPushdown.Proofs.Filter.WrittenTag
import Mathlib.Data.List.Forall2

/-!
From the tree of a filter to its condition.  A tree is read leaf by leaf, from left to right: each
tag gives one comparison, and the first leaf that gives none is the fault of the whole tree.  Main
statement: the comparisons of the condition are those of the tags in their order, put together as the
tree puts them, and parentheses make no difference.
-/

namespace FilterPushdown

/-- The comparisons in a condition, from left to right. -/
def Condition.comparisons : Condition → List Condition
  | comparison column operator value => [comparison column operator value]
  | junction _ left right => left.comparisons ++ right.comparisons
  | halfJunction _ left => left.comparisons
  | negation operand => operand.comparisons
  | overfullNegation operand ignored => operand.comparisons ++ ignored.comparisons

namespace Filter

/-! ## Leaves -/

/-- A tag of a tree, or a place where the tree is empty. -/
inductive Leaf where
  | empty
  | tag (field : Option (Name × Sign)) (asked : Term)
  deriving DecidableEq, Repr

/-- The tree that is one leaf. -/
def Leaf.tree : Leaf → Tree
  | empty => .empty
  | tag field asked => .tag field asked

/-- The leaves of a tree, from left to right. -/
def Tree.leaves : Tree → List Leaf
  | empty => [.empty]
  | tag field asked => [.tag field asked]
  | logical _ left right => left.leaves ++ right.leaves
  | negated _ operand => operand.leaves
  | group inner => inner.leaves

/-- The terms that stand for a literal. -/
inductive StandsFor : Term → Literal → Prop where
  | text {quotation : Quotation} {value : String} : StandsFor (.text quotation value) (.text value)
  | number {value : Number.Double} : StandsFor (.number value) (.number value)
  | boolean {value : Bool} : StandsFor (.boolean value) (.boolean value)
  | null : StandsFor .null .null

namespace Leaf

/-- The comparison that a tag asks for.  Its operator is the one that the sign is written for, but a
text with a wildcard in it is compared as a pattern where equality is asked. -/
inductive Denotes : Leaf → Condition → Prop where
  | tag {field : Name} {sign : Sign} {asked : Term} {operator : Operator} {value : Literal}
      (stands : StandsFor asked value)
      (signed : WritesOperator operator (String.ofList sign.letters)) :
      Denotes (.tag (some (field, sign)) asked)
        (.comparison field.text
          (if operator = .equal ∧ value.HoldsWildcard then .like else operator) value)

/-- Whether a leaf is a tag that names a column and holds a literal. -/
inductive NamesLiteral : Leaf → Prop where
  | tag {field : Name × Sign} {asked : Term} {value : Literal} (stands : StandsFor asked value) :
      NamesLiteral (.tag (some field) asked)

/-- What is wrong with a leaf, in words.  A tag without a name is at fault for that, whatever it asks
for. -/
inductive Offends : Leaf → String → Prop where
  | empty : Offends .empty "Filter is empty"
  | unnamed {asked : Term} : Offends (.tag none asked) "Filter terms must name a column"
  | missing {field : Name} {sign : Sign} :
      Offends (.tag (some (field, sign)) .missing)
        ("Unsupported expression for column " ++ field.text ++ ": " ++ "EmptyExpression")
  | regex {field : Name} {sign : Sign} {source : String} :
      Offends (.tag (some (field, sign)) (.regex source))
        ("Unsupported expression for column " ++ field.text ++ ": " ++ "RegexExpression")
  | range {field : Name} {sign : Sign} {lowest highest : Number.Double} {low high : Bool} :
      Offends (.tag (some (field, sign)) (.range lowest highest low high))
        ("Unsupported expression for column " ++ field.text ++ ": " ++ "RangeExpression")

end Leaf

theorem standsFor_iff {asked : Term} {value : Literal} :
    StandsFor asked value ↔ asked.literal? = .ok value := by
  constructor
  · rintro (_ | _ | _ | _) <;> rfl
  · intro literal
    cases asked with
    | text | number | boolean | null =>
      cases literal
      constructor
    | regex | range | missing => cases literal

/-- Every sign is written for the operator that it asks for, and for no other. -/
theorem writesOperator_sign_iff {operator : Operator} {sign : Sign} :
    WritesOperator operator (String.ofList sign.letters) ↔ operator = sign.operator := by
  constructor
  · intro writes
    obtain ⟨other, letters, rfl⟩ := exists_sign_of_writes writes
    rw [String.toList_ofList] at letters
    cases sign <;> cases other <;> first | rfl | cases letters
  · rintro rfl
    cases sign <;> constructor

namespace Leaf

variable {leaf : Leaf}

/-- A leaf means the comparison that it asks for. -/
theorem denotes_iff {condition : Condition} :
    leaf.Denotes condition ↔ leaf.tree.condition? = .ok condition := by
  cases leaf with
  | empty => exact ⟨nofun, nofun⟩
  | tag field asked =>
    cases field with
    | none => exact ⟨nofun, nofun⟩
    | some field =>
      rw [tree, Tree.condition?_tag_eq_ok_iff]
      constructor
      · rintro ⟨stands, signed⟩
        obtain rfl := writesOperator_sign_iff.mp signed
        exact ⟨_, standsFor_iff.mp stands, (comparison_eq ..).symm⟩
      · rintro ⟨value, literal, rfl⟩
        rw [comparison_eq]
        exact .tag (standsFor_iff.mpr literal) (writesOperator_sign_iff.mpr rfl)

theorem namesLiteral_iff :
    leaf.NamesLiteral ↔ ∃ condition, leaf.tree.condition? = .ok condition := by
  simp only [← denotes_iff]
  constructor
  · rintro ⟨stands⟩
    exact ⟨_, .tag stands (writesOperator_sign_iff.mpr rfl)⟩
  · rintro ⟨_, ⟨stands, -⟩⟩
    exact ⟨stands⟩

/-- A leaf that means nothing is at fault for what is wrong with it. -/
theorem offends_iff {message : String} :
    leaf.Offends message ↔
      ∃ fault, leaf.tree.condition? = .error fault ∧ fault.message = message := by
  constructor
  · rintro (_ | _ | _ | _ | _) <;> exact ⟨_, rfl, rfl⟩
  · rintro ⟨fault, fails, rfl⟩
    cases leaf with
    | empty =>
      cases fails
      exact .empty
    | tag field asked =>
      cases field with
      | none =>
        cases fails
        exact .unnamed
      | some field =>
        rw [tree, Tree.condition?_tag] at fails
        cases asked with
        | text | number | boolean | null => cases fails
        | regex | range | missing =>
          cases fails
          constructor

end Leaf

/-! ## Leaf by leaf -/

section Lists

variable {α β ε : Type} {f : α → Except ε β} {items : List α}

/-- A list is read if each of its items is. -/
private theorem mapM_eq_ok_iff {results : List β} :
    items.mapM f = .ok results ↔
      List.Forall₂ (fun item result => f item = .ok result) items results := by
  induction items generalizing results with
  | nil =>
    rw [List.mapM_nil, List.forall₂_nil_left_iff]
    exact ⟨fun same => (Except.ok.inj same).symm, fun same => congrArg _ same.symm⟩
  | cons item items ih =>
    rw [List.mapM_cons, List.forall₂_cons_left_iff]
    simp only [← ih]
    cases f item with
    | error fault => exact ⟨nofun, nofun⟩
    | ok result =>
      cases items.mapM f with
      | error fault => exact ⟨nofun, nofun⟩
      | ok later =>
        constructor
        · intro same
          cases same
          exact ⟨result, later, rfl, rfl, rfl⟩
        · rintro ⟨_, _, first, rest, rfl⟩
          cases first
          cases rest
          rfl

/-- The fault of a list is that of its first item with a fault. -/
private theorem mapM_eq_error_iff {fault : ε} :
    items.mapM f = .error fault ↔
      ∃ before item after, items = before ++ item :: after ∧
        (∀ earlier ∈ before, ∃ result, f earlier = .ok result) ∧ f item = .error fault := by
  induction items with
  | nil => simp [List.mapM_nil, pure, Except.pure]
  | cons item items ih =>
    rw [List.mapM_cons]
    cases read : f item with
    | error own =>
      constructor
      · intro same
        cases same
        exact ⟨[], item, items, rfl, nofun, read⟩
      · rintro ⟨_ | ⟨first, before⟩, other, after, split, earlier, fails⟩
        · cases split
          cases read.symm.trans fails
          rfl
        · obtain ⟨rfl, -⟩ := List.cons.inj split
          obtain ⟨result, own⟩ := earlier item List.mem_cons_self
          cases read.symm.trans own
    | ok result =>
      have rest : (do
          let later ← items.mapM f
          return result :: later : Except ε (List β)) = .error fault ↔
          items.mapM f = .error fault := by
        cases items.mapM f with
        | error own => simp [bind, Except.bind]
        | ok later => exact ⟨nofun, nofun⟩
      refine rest.trans (ih.trans ⟨?_, ?_⟩)
      · rintro ⟨before, other, after, rfl, earlier, fails⟩
        exact ⟨item :: before, other, after, rfl,
          List.forall_mem_cons.mpr ⟨⟨result, read⟩, earlier⟩, fails⟩
      · rintro ⟨_ | ⟨first, before⟩, other, after, split, earlier, fails⟩
        · obtain ⟨rfl, -⟩ := List.cons.inj split
          cases read.symm.trans fails
        · obtain ⟨rfl, rfl⟩ := List.cons.inj split
          exact ⟨before, other, after, rfl, (List.forall_mem_cons.mp earlier).2, fails⟩

end Lists

variable {tree : Tree} {condition : Condition}

/-- A tree is read leaf by leaf: its fault is that of the first leaf with one, and otherwise the
comparisons of its condition are those of the leaves. -/
theorem mapM_leaves (tree : Tree) :
    (tree.leaves.mapM fun leaf => leaf.tree.condition?) =
      tree.condition?.map Condition.comparisons := by
  induction tree with
  | empty => rfl
  | tag field asked =>
    rw [Tree.leaves, List.mapM_cons, List.mapM_nil, Leaf.tree]
    cases converts : (Tree.tag field asked).condition? with
    | error fault => rfl
    | ok condition =>
      cases field with
      | none => cases converts
      | some field =>
        obtain ⟨value, -, rfl⟩ := Tree.condition?_tag_eq_ok_iff.mp converts
        rw [comparison_eq]
        rfl
  | logical connective left right ihLeft ihRight =>
    rw [Tree.leaves, List.mapM_append, ihLeft, ihRight, Tree.condition?_logical]
    cases left.condition? with
    | error fault => rfl
    | ok first => cases right.condition? <;> rfl
  | negated negation operand ih =>
    rw [Tree.leaves, ih, Tree.condition?_negated]
    cases operand.condition? <;> rfl
  | group inner ih => exact ih

/-- The comparisons that the leaves ask for are those of some condition that the tree means. -/
theorem forall₂_denotes_iff {comparisons : List Condition} :
    List.Forall₂ Leaf.Denotes tree.leaves comparisons ↔
      ∃ condition, tree.condition? = .ok condition ∧ condition.comparisons = comparisons := by
  have denotes : Leaf.Denotes = fun leaf condition => leaf.tree.condition? = .ok condition := by
    funext leaf condition
    exact propext Leaf.denotes_iff
  rw [denotes, ← mapM_eq_ok_iff, mapM_leaves]
  cases tree.condition? with
  | error fault => exact ⟨nofun, nofun⟩
  | ok condition => simp [Except.map]

private theorem namesLiteral_of_forall₂ {leaves : List Leaf} {comparisons : List Condition}
    (denote : List.Forall₂ Leaf.Denotes leaves comparisons) :
    ∀ leaf ∈ leaves, leaf.NamesLiteral := by
  induction denote with
  | nil => exact List.forall_mem_nil _
  | cons own _ ih =>
    exact List.forall_mem_cons.mpr ⟨Leaf.namesLiteral_iff.mpr ⟨_, Leaf.denotes_iff.mp own⟩, ih⟩

/-- The fault of a tree is that of its first leaf with a fault. -/
theorem condition?_eq_error_iff {fault : ReadError} :
    tree.condition? = .error fault ↔
      ∃ before leaf after, tree.leaves = before ++ leaf :: after ∧
        (∀ earlier ∈ before, earlier.NamesLiteral) ∧ leaf.tree.condition? = .error fault := by
  simp only [Leaf.namesLiteral_iff]
  rw [← mapM_eq_error_iff, mapM_leaves]
  cases tree.condition? <;> simp [Except.map]

/-- A tree means something if each of its tags names a column and holds a literal, and if it is empty
nowhere. -/
theorem exists_condition?_iff :
    (∃ condition, tree.condition? = .ok condition) ↔ ∀ leaf ∈ tree.leaves, leaf.NamesLiteral := by
  constructor
  · rintro ⟨condition, converts⟩
    exact namesLiteral_of_forall₂ (forall₂_denotes_iff.mpr ⟨condition, converts, rfl⟩)
  · intro named
    cases converts : tree.condition? with
    | ok condition => exact ⟨condition, rfl⟩
    | error fault =>
      obtain ⟨before, leaf, after, split, -, fails⟩ := condition?_eq_error_iff.mp converts
      obtain ⟨condition, read⟩ := Leaf.namesLiteral_iff.mp (named leaf (by simp [split]))
      cases fails.symm.trans read

/-! ## Shape -/

/-- Whether the connectives and negations of a condition are those of a tree, nested the same way.
Word and dash negate alike, and parentheses leave no trace. -/
inductive NestsAs : Tree → Condition → Prop where
  | tag {field : Option (Name × Sign)} {asked : Term} {column : String} {operator : Operator}
      {value : Literal} : NestsAs (.tag field asked) (.comparison column operator value)
  | logical {connective : Connective} {left right : Tree} {first second : Condition}
      (own : NestsAs left first) (other : NestsAs right second) :
      NestsAs (.logical connective left right) (.junction connective first second)
  | negated {negation : Negation} {operand : Tree} {condition : Condition}
      (own : NestsAs operand condition) :
      NestsAs (.negated negation operand) (.negation condition)
  | group {content : Tree} {condition : Condition} (own : NestsAs content condition) :
      NestsAs (.group content) condition

theorem nestsAs_of_condition? (converts : tree.condition? = .ok condition) :
    NestsAs tree condition := by
  induction tree generalizing condition with
  | empty => cases converts
  | tag field asked =>
    cases field with
    | none => cases converts
    | some field =>
      obtain ⟨value, -, rfl⟩ := Tree.condition?_tag_eq_ok_iff.mp converts
      rw [comparison_eq]
      exact .tag
  | logical connective left right ihLeft ihRight =>
    obtain ⟨first, second, own, other, rfl⟩ := Tree.condition?_logical_eq_ok_iff.mp converts
    exact .logical (ihLeft own) (ihRight other)
  | negated negation operand ih =>
    obtain ⟨inner, own, rfl⟩ := Tree.condition?_negated_eq_ok_iff.mp converts
    exact .negated (ih own)
  | group content ih => exact .group (ih converts)

theorem NestsAs.length_comparisons (nests : NestsAs tree condition) :
    condition.comparisons.length = tree.leaves.length := by
  induction nests with
  | tag => rfl
  | logical _ _ first second => simp [Condition.comparisons, Tree.leaves, first, second]
  | negated _ ih => exact ih
  | group _ ih => exact ih

/-- Shape and comparisons make up the whole condition. -/
theorem NestsAs.eq_of_comparisons {first second : Condition} (one : NestsAs tree first)
    (two : NestsAs tree second) (same : first.comparisons = second.comparisons) :
    first = second := by
  induction one generalizing second with
  | tag =>
    cases two
    exact (List.cons.inj same).1
  | logical own other ihLeft ihRight =>
    cases two with
    | logical own' other' =>
      obtain ⟨left, right⟩ := List.append_inj same
        (own.length_comparisons.trans own'.length_comparisons.symm)
      rw [ihLeft own' left, ihRight other' right]
  | negated own ih =>
    cases two with
    | negated own' => rw [ih own' same]
  | group own ih =>
    cases two with
    | group own' => exact ih own' same

theorem condition?_eq_ok_iff_nestsAs :
    tree.condition? = .ok condition ↔
      NestsAs tree condition ∧ List.Forall₂ Leaf.Denotes tree.leaves condition.comparisons := by
  rw [forall₂_denotes_iff]
  constructor
  · exact fun converts => ⟨nestsAs_of_condition? converts, condition, converts, rfl⟩
  · rintro ⟨nests, other, converts, same⟩
    rw [converts, (nestsAs_of_condition? converts).eq_of_comparisons nests same]

/-! ## Parentheses -/

/-- A tree without its parentheses. -/
def Tree.withoutGroups : Tree → Tree
  | empty => empty
  | tag field asked => tag field asked
  | logical connective left right => logical connective left.withoutGroups right.withoutGroups
  | negated negation operand => negated negation operand.withoutGroups
  | group inner => inner.withoutGroups

theorem condition?_withoutGroups (tree : Tree) :
    tree.withoutGroups.condition? = tree.condition? := by
  induction tree with
  | empty => rfl
  | tag field asked => rfl
  | logical connective left right ihLeft ihRight =>
    rw [Tree.withoutGroups, Tree.condition?_logical, ihLeft, ihRight, Tree.condition?_logical]
  | negated negation operand ih =>
    rw [Tree.withoutGroups, Tree.condition?_negated, ih, Tree.condition?_negated]
  | group inner ih => exact ih

/-- A tree means a condition if and only if each of its tags names a column and holds a literal and
it is empty nowhere.  The condition is the one that is put together as the tree is, out of the
comparisons that the tags ask for, in their order.  Otherwise what is wrong with the first leaf that
has a fault is what is wrong with the tree.  Trees that differ in parentheses only have the same
condition, or the same fault. -/
theorem conversion_keeps_order_and_nesting (tree : Tree) :
    ((∃ condition, tree.condition? = .ok condition) ↔
        ∀ leaf ∈ tree.leaves, leaf.NamesLiteral) ∧
      (∀ condition, tree.condition? = .ok condition ↔
        NestsAs tree condition ∧ List.Forall₂ Leaf.Denotes tree.leaves condition.comparisons) ∧
      (∀ message, tree.condition?.mapError ReadError.message = .error message ↔
        ∃ before leaf after, tree.leaves = before ++ leaf :: after ∧
          (∀ earlier ∈ before, earlier.NamesLiteral) ∧ leaf.Offends message) ∧
      ∀ other : Tree, other.withoutGroups = tree.withoutGroups →
        other.condition? = tree.condition? := by
  refine ⟨exists_condition?_iff, fun condition => condition?_eq_ok_iff_nestsAs,
    fun message => ?_, fun other same => ?_⟩
  · have faults : tree.condition?.mapError ReadError.message = .error message ↔
        ∃ fault, tree.condition? = .error fault ∧ fault.message = message := by
      cases tree.condition? <;> simp [Except.mapError]
    rw [faults]
    constructor
    · rintro ⟨fault, fails, same⟩
      obtain ⟨before, leaf, after, split, earlier, own⟩ := condition?_eq_error_iff.mp fails
      exact ⟨before, leaf, after, split, earlier, Leaf.offends_iff.mpr ⟨fault, own, same⟩⟩
    · rintro ⟨before, leaf, after, split, earlier, offends⟩
      obtain ⟨fault, own, same⟩ := Leaf.offends_iff.mp offends
      exact ⟨fault, condition?_eq_error_iff.mpr ⟨before, leaf, after, split, earlier, own⟩, same⟩
  · rw [← condition?_withoutGroups other, same, condition?_withoutGroups]

/-- A regular expression without a name is at fault for the name, before the empty place that comes
after it, and it does not matter where parentheses stand in a negation. -/
theorem unnamed_regex_is_at_fault_for_its_name :
    (Tree.logical .or (.group (.tag (some (⟨.bare, "a"⟩, .equal)) .null))
        (.logical .and (.tag none (.regex "/x/")) .empty)).condition?.mapError ReadError.message =
        .error "Filter terms must name a column" ∧
      (Tree.group (.negated .dash (.tag (some (⟨.bare, "a"⟩, .colon)) .missing))).condition? =
        (Tree.negated .dash
          (.group (.group (.tag (some (⟨.bare, "a"⟩, .colon)) .missing)))).condition? := by
  constructor
  · refine ((conversion_keeps_order_and_nesting _).2.2.1 _).mpr
      ⟨[.tag (some (⟨.bare, "a"⟩, .equal)) .null], .tag none (.regex "/x/"), [.empty], rfl, ?_,
        .unnamed⟩
    exact List.forall_mem_singleton.mpr (.tag .null)
  · exact (conversion_keeps_order_and_nesting _).2.2.2 _ rfl

end Filter

end FilterPushdown
