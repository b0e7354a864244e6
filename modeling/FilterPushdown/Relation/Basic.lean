import FilterPushdown.Relation.Columns
import FilterPushdown.Value

/-!
Relations: what a planner offers as the source of rows.  A dataset belongs to one engine and
exposes a set of columns that never changes; a derived relation cannot be referenced at all; a
foreign value is anything else that is handed over, of any shape, and counts as a dataset only if
it has all the parts of one.
-/

namespace FilterPushdown

/-- `IDatasetRelation`: a stored table, with the engine that holds it, its name there, and the
columns it exposes. -/
structure Dataset where
  engine : String
  identifier : String
  columns : ColumnSet
  deriving DecidableEq

/-- A source of rows, or what is handed over as one. -/
inductive Relation where
  | dataset (table : Dataset)
  /-- `createOpaqueRelation`: a relation without a name in any engine, such as a join. -/
  | derived (description : Option String)
  /-- A value made elsewhere.  If a column set comes with it, that set stands in the value's
  `columns` member. -/
  | foreign (value : Value) (columns : Option ColumnSet)

namespace Relation

/-- The dataset that `createDatasetRelation` makes; columns that are listed twice are exposed
once. -/
def ofColumns (engine identifier : String) (columns : List String) : Relation :=
  dataset ⟨engine, identifier, ColumnSet.ofList columns⟩

/-- What stands where a relation is asked for and nobody has made one. -/
def nothing : Relation := foreign .null none

/-- The kind that a relation says it is of. -/
def kind? : Relation → Option Value
  | dataset _ => some (.text "dataset")
  | derived _ => some (.text "opaque")
  | foreign value _ => value.member? "kind"

/-- `isDatasetRelation`: whether a relation says it is a dataset. -/
def isDataset (relation : Relation) : Bool :=
  match relation.kind? with
  | some (.text "dataset") => true
  | _ => false

/-- Whether a relation is sealed against changes. -/
def isFrozen : Relation → Bool
  | dataset _ => true
  | derived _ => true
  | foreign _ _ => false

/-- The columns that a relation exposes, if it has a column set. -/
def columns? : Relation → Option ColumnSet
  | dataset table => some table.columns
  | derived _ => none
  | foreign _ columns => columns

/-- The names of the exposed columns, in order. -/
def columnNames (relation : Relation) : List String :=
  match relation.columns? with
  | some columns => columns.names
  | none => []

/-- Why a relation cannot be asked for a column. -/
inductive MembershipError where
  | noMember (cause : Value.NoMember)
  /-- Something stands in the place of the column set. -/
  | noColumnSet
  deriving DecidableEq, Repr

/-- The text of a membership error. -/
def MembershipError.message : MembershipError → String
  | noMember cause => cause.message
  | noColumnSet => "relation.columns.has is not a function"

/-- The column set that is asked for a column. -/
def columnSet? : Relation → Except MembershipError ColumnSet
  | dataset table => .ok table.columns
  | derived _ => .error (.noMember ⟨false, "has"⟩)
  | foreign _ (some columns) => .ok columns
  | foreign .null none => .error (.noMember ⟨true, "columns"⟩)
  | foreign value none =>
    match value.member? "columns" with
    | none => .error (.noMember ⟨false, "has"⟩)
    | some .null => .error (.noMember ⟨true, "has"⟩)
    | some _ => .error .noColumnSet

/-- `hasColumn`: whether a relation exposes a column. -/
def hasColumn (relation : Relation) (column : String) : Except MembershipError Bool := do
  let columns ← relation.columnSet?
  return decide (column ∈ columns)

/-- `resolveRelation`: the dataset that a relation is for one engine.  A foreign value has to name
the kind and the engine, name itself by a text, and come with a column set. -/
def resolve? (engine : String) : Relation → Option Dataset
  | dataset table => if table.engine = engine then some table else none
  | derived _ => none
  | foreign value columns =>
    match value.member? "kind", value.member? "engine", value.member? "datasetIdentifier",
      columns with
    | some (.text "dataset"), some (.text named), some (.text identifier), some columns =>
      if named = engine then some ⟨named, identifier, columns⟩ else none
    | _, _, _, _ => none

/-- The values that count as datasets of an engine. -/
theorem resolve?_foreign_eq_some_iff {engine : String} {value : Value}
    {columns : Option ColumnSet} {table : Dataset} :
    (foreign value columns).resolve? engine = some table ↔
      value.member? "kind" = some (.text "dataset") ∧
        value.member? "engine" = some (.text engine) ∧
        value.member? "datasetIdentifier" = some (.text table.identifier) ∧
        columns = some table.columns ∧ table.engine = engine := by
  dsimp only [resolve?]
  constructor
  · intro resolved
    split at resolved
    · rename_i named identifier columns isKind isEngine isIdentifier
      split at resolved
      · rename_i same
        cases resolved
        exact ⟨isKind, same ▸ isEngine, isIdentifier, rfl, same⟩
      · cases resolved
    · cases resolved
  · rintro ⟨isKind, isEngine, isIdentifier, rfl, rfl⟩
    simp [isKind, isEngine, isIdentifier]

/-- `describeRelation`: what a log record shows of a relation.  That is engine and name of a
dataset, the description of a derived relation if it has one, and otherwise that nothing is known. -/
def describe : Relation → Except Value.Indescribable Value
  | dataset table => .ok (.text (table.engine ++ ":" ++ table.identifier))
  | derived description => .ok (.text (description.getD "opaque"))
  | foreign value _ =>
    match value.member? "kind" with
    | some (.text "dataset") => do
      let engine ← Value.describe? (value.member? "engine")
      let identifier ← Value.describe? (value.member? "datasetIdentifier")
      return .text (engine ++ ":" ++ identifier)
    | some (.text "opaque") =>
      match value.member? "description" with
      | none => .ok (.text "opaque")
      | some .null => .ok (.text "opaque")
      | some description => .ok description
    | _ => .ok (.text "unknown")

/-- A change that somebody tries to make to the columns of a relation. -/
inductive ColumnChange where
  | add (column : String)
  | delete (column : String)
  | clear
  deriving DecidableEq, Repr

/-- Why a change of columns is refused. -/
inductive ColumnError where
  | sealed (change : ColumnChange)
  | noColumnSet
  deriving DecidableEq, Repr

/-- The text of a refused change. -/
def ColumnError.message : ColumnError → String
  | sealed (.add column) => "Cannot add column " ++ column ++ " to a relation"
  | sealed (.delete column) => "Cannot remove column " ++ column ++ " from a relation"
  | sealed .clear => "Cannot clear the columns of a relation"
  | noColumnSet => "The relation has no column set"

/-- The columns after a change. -/
def ColumnChange.apply : ColumnChange → ColumnSet → ColumnSet
  | add column, columns => columns.insert column
  | delete column, columns => columns.erase column
  | clear, _ => .empty

/-- `ReadonlyColumnSet`: the columns of a dataset, and whether they are all in. -/
structure SealableColumns where
  columns : ColumnSet
  isSealed : Bool
  deriving DecidableEq

namespace SealableColumns

/-- The open set without columns. -/
def empty : SealableColumns := ⟨.empty, false⟩

/-- `ReadonlyColumnSet.add`, `delete` and `clear`: columns can be added until the set is sealed, and
can never be taken away. -/
def change (set : SealableColumns) : ColumnChange → Except ColumnError SealableColumns
  | .add column =>
    if set.isSealed then .error (.sealed (.add column))
    else .ok { set with columns := set.columns.insert column }
  | .delete column => .error (.sealed (.delete column))
  | .clear => .error (.sealed .clear)

/-- The constructor of `ReadonlyColumnSet`: columns are added to an open set one by one, and then
the set is sealed. -/
def ofList (names : List String) : Except ColumnError SealableColumns := do
  let filled ← names.foldlM (fun (set : SealableColumns) name => set.change (.add name)) empty
  return { filled with isSealed := true }

/-- The constructor never meets its own seal. -/
theorem ofList_eq (names : List String) : ofList names = .ok ⟨.ofList names, true⟩ := by
  suffices fills : ∀ columns : ColumnSet,
      names.foldlM (fun (set : SealableColumns) name => set.change (.add name)) ⟨columns, false⟩ =
        .ok ⟨names.foldl ColumnSet.insert columns, false⟩ by
    rw [ofList, empty, fills]
    rfl
  induction names with
  | nil => exact fun _ => rfl
  | cons name names ih => exact fun columns => ih (columns.insert name)

/-- Nothing changes a sealed set, whether or not the change would make a difference. -/
theorem change_of_isSealed {set : SealableColumns} (isSealed : set.isSealed = true)
    (attempt : ColumnChange) : set.change attempt = .error (.sealed attempt) := by
  cases attempt with
  | add column => exact if_pos isSealed
  | delete | clear => rfl

end SealableColumns

/-- `createDatasetRelation`: a dataset whose columns are put into a set of its own. -/
def create (engine identifier : String) (columns : List String) : Except ColumnError Relation := do
  let set ← SealableColumns.ofList columns
  return dataset ⟨engine, identifier, set.columns⟩

/-- Every dataset can be made. -/
theorem create_eq (engine identifier : String) (columns : List String) :
    create engine identifier columns = .ok (ofColumns engine identifier columns) := by
  rw [create, SealableColumns.ofList_eq]
  rfl

/-- The relation after a change of its columns.  The set of a dataset has been sealed since it was
made; the column set of a foreign value is its own. -/
def changeColumns (relation : Relation) (change : ColumnChange) : Except ColumnError Relation :=
  match relation with
  | dataset table => do
    let set ← (SealableColumns.mk table.columns true).change change
    return dataset { table with columns := set.columns }
  | derived _ => .error .noColumnSet
  | foreign value columns =>
    match columns with
    | some columns => .ok (foreign value (some (change.apply columns)))
    | none => .error .noColumnSet

theorem changeColumns_dataset (table : Dataset) (change : ColumnChange) :
    (dataset table).changeColumns change = .error (.sealed change) := by
  rw [changeColumns, SealableColumns.change_of_isSealed rfl]
  rfl

end Relation

end FilterPushdown
