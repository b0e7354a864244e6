/-!
Column sets: the distinct names of the columns that a dataset exposes, in the order in which they
were first added.  A name that was removed and is added again comes last.
-/

namespace FilterPushdown

/-- Distinct column names in order of insertion. -/
structure ColumnSet where
  names : List String
  nodup : names.Nodup
  deriving DecidableEq

namespace ColumnSet

/-- The set without columns. -/
def empty : ColumnSet := ⟨[], List.nodup_nil⟩

instance : Membership String ColumnSet := ⟨fun columns name => name ∈ columns.names⟩

instance (name : String) (columns : ColumnSet) : Decidable (name ∈ columns) :=
  inferInstanceAs (Decidable (name ∈ columns.names))

/-- Adds a column at the end, unless it is there already. -/
def insert (columns : ColumnSet) (name : String) : ColumnSet :=
  if absent : name ∈ columns.names then columns
  else ⟨columns.names ++ [name], by
    rw [List.nodup_append]
    refine ⟨columns.nodup, by simp, ?_⟩
    rintro a inside b last rfl
    exact absent (List.mem_singleton.mp last ▸ inside)⟩

/-- Removes a column. -/
def erase (columns : ColumnSet) (name : String) : ColumnSet :=
  ⟨columns.names.erase name, columns.nodup.erase name⟩

/-- The set of the names in a list. -/
def ofList (names : List String) : ColumnSet := names.foldl insert empty

theorem mem_insert {columns : ColumnSet} {name other : String} :
    other ∈ columns.insert name ↔ other ∈ columns ∨ other = name := by
  change other ∈ (columns.insert name).names ↔ other ∈ columns.names ∨ other = name
  unfold insert
  split
  · rename_i present
    constructor
    · exact Or.inl
    · rintro (inside | rfl)
      · exact inside
      · exact present
  · simp

theorem not_mem_empty {name : String} : ¬ name ∈ empty := List.not_mem_nil

theorem mem_ofList {names : List String} {name : String} : name ∈ ofList names ↔ name ∈ names := by
  suffices general : ∀ columns : ColumnSet,
      name ∈ names.foldl insert columns ↔ name ∈ columns ∨ name ∈ names by
    simpa [ofList, not_mem_empty] using general empty
  induction names with
  | nil => simp
  | cons first rest ih =>
    intro columns
    rw [List.foldl_cons, ih, mem_insert, List.mem_cons]
    exact or_assoc

end ColumnSet

end FilterPushdown
