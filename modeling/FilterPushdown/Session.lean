import FilterPushdown.Compilation
import FilterPushdown.Statement

/-!
Sessions: one target, and the relations and fragments that have been named so far.  A step answers
and may name what it made; a step that fails names nothing.  A reference through a name that nobody
has given is rejected like any other that is to no relation; only a step that looks into what a
name stands for fails if that is nothing.  Records of rejected references are kept apart from the
answers.
-/

namespace FilterPushdown

/-- A target with its named relations and fragments, the newest first. -/
structure Session where
  target : Target
  relations : List (String × Relation) := []
  fragments : List (String × Fragment) := []

namespace Session

/-- What a fragment is made from. -/
inductive Request where
  /-- SQL text that is trusted as it is. -/
  | sql (text : String)
  | datasetName (relation : String)
  | columnName (relation column : String)
  | filter (relation filter : String)
  | condition (relation : String) (condition : Condition)
  /-- No SQL, for a reason given in words. -/
  | invalid (reason : String)

/-- A piece of a statement, in which fragments are named. -/
inductive NamedPart where
  | text (sql : String)
  | fragment (name : String)
  | parameter (value : Literal)

/-- One step of a session. -/
inductive Step where
  /-- Names a relation and shows it. -/
  | define (name : String) (relation : Relation)
  /-- Names a relation. -/
  | keep (name : String) (relation : Relation)
  | showRelation (relation : String)
  | changeColumns (relation : String) (change : Relation.ColumnChange)
  | hasColumn (relation column : String)
  /-- Makes a fragment, and names it if a name is given. -/
  | make (request : Request) (name : Option String)
  | inspect (fragment : String)
  /-- Whether a named thing is a fragment. -/
  | isFragment (name : String)
  /-- Whether a value from elsewhere is a fragment. -/
  | isFragmentValue (value : Value)
  | quote (identifier : String)
  | dialect
  | capabilities
  | splice (fragment : String)
  | query (parts : List NamedPart)

/-- Why a step has no other answer. -/
inductive Fault where
  | indescribable (cause : Value.Indescribable)
  | refusedReason (cause : Fragment.ReasonError)
  | unspliceable (cause : SpliceError)
  | noMember (cause : Value.NoMember)
  | noMembership (cause : Relation.MembershipError)

/-- The text of a fault. -/
def Fault.message : Fault → String
  | indescribable cause => cause.message
  | refusedReason cause => cause.message
  | unspliceable cause => cause.message
  | noMember cause => cause.message
  | noMembership cause => cause.message

/-- What a step answers. -/
inductive Answer where
  | relation (relation : Relation)
  | changed (outcome : Except Relation.ColumnError Unit) (columns : List String)
  | flag (value : Bool)
  | fragment (fragment : Fragment)
  | text (value : String)
  | dialect (dialect : Dialect)
  | capabilities (single : Capability) (all : List Capability)
  | spliced (possible : Bool) (outcome : Except SpliceError Statement)
  | statement (statement : Statement)
  | failure (fault : Fault)

/-- The relation of a name. -/
def relation? (session : Session) (name : String) : Option Relation :=
  session.relations.lookup name

/-- The fragment of a name. -/
def fragment? (session : Session) (name : String) : Option Fragment :=
  session.fragments.lookup name

/-- What a reference through a name refers to. -/
def referent (session : Session) (name : String) : Relation :=
  (session.relation? name).getD .nothing

/-- What a name stands for, to be asked for one of its members. -/
def orFault {α : Type} (thing : Option α) (member : String) : Except Fault α :=
  match thing with
  | some thing => .ok thing
  | none => .error (.noMember ⟨false, member⟩)

/-- Names a relation. -/
def nameRelation (session : Session) (name : String) (relation : Relation) : Session :=
  { session with relations := (name, relation) :: session.relations }

/-- Names a fragment, if a name is given. -/
def nameFragment (session : Session) (name : Option String) (fragment : Fragment) : Session :=
  match name with
  | some name => { session with fragments := (name, fragment) :: session.fragments }
  | none => session

/-- A computation of the target as part of a session. -/
def ofTarget (computation : Logged Value.Indescribable Fragment) : Logged Fault Fragment where
  outcome := computation.outcome.mapError .indescribable
  records := computation.records

/-- Makes the fragment that is asked for. -/
def fulfil (session : Session) : Request → Logged Fault Fragment
  | .sql text => pure (session.target.fragment text)
  | .datasetName relation => ofTarget (session.target.datasetName (session.referent relation))
  | .columnName relation column =>
    ofTarget (session.target.columnName (session.referent relation) column)
  | .filter relation filter =>
    ofTarget (session.target.compileFilter (session.referent relation) filter)
  | .condition relation condition =>
    ofTarget (session.target.compile (session.referent relation) condition)
  | .invalid reason => Logged.ofExcept ((Fragment.ofReason reason).mapError .refusedReason)

/-- The part that a named part stands for.  A fragment is tried out where it stands, so that of
several faults in a statement the leftmost is reported. -/
def part? (session : Session) : NamedPart → Except Fault Part
  | .text sql => .ok (.text sql)
  | .fragment name => do
    let fragment ← orFault (session.fragment? name) "isValid"
    let _ ← fragment.spliced.mapError .unspliceable
    return .fragment fragment
  | .parameter value => .ok (.parameter value)

/-- Shows a relation, which begins with its kind. -/
def present : Option Relation → Except Fault Answer
  | none => .error (.noMember ⟨false, "kind"⟩)
  | some (.foreign .null _) => .error (.noMember ⟨true, "kind"⟩)
  | some relation => .ok (.relation relation)

/-- The answer of a computation that may fail. -/
def answer (outcome : Except Fault Answer) : Answer :=
  match outcome with
  | .ok answer => answer
  | .error fault => .failure fault

/-- Takes one step.  The result is the session after it, its answer, and the records written. -/
def step (session : Session) : Step → Session × Answer × List LogRecord
  | .define name relation =>
    match present (some relation) with
    | .ok answer => (session.nameRelation name relation, answer, [])
    | .error fault => (session, .failure fault, [])
  | .keep name relation => (session.nameRelation name relation, .flag true, [])
  | .showRelation relation => (session, answer (present (session.relation? relation)), [])
  | .changeColumns name change =>
    match orFault (session.relation? name) "columns" with
    | .error fault => (session, .failure fault, [])
    | .ok relation =>
      match relation.changeColumns change with
      | .ok changed =>
        (session.nameRelation name changed, .changed (.ok ()) changed.columnNames, [])
      | .error refusal => (session, .changed (.error refusal) relation.columnNames, [])
  | .hasColumn relation column =>
    (session, answer (do
      let relation ← orFault (session.relation? relation) "columns"
      let inside ← (relation.hasColumn column).mapError .noMembership
      return .flag inside), [])
  | .make request name =>
    let made := session.fulfil request
    match made.outcome with
    | .ok fragment => (session.nameFragment name fragment, .fragment fragment, made.records)
    | .error fault => (session, .failure fault, made.records)
  | .inspect fragment =>
    (session, answer ((orFault (session.fragment? fragment) "kind").map .fragment), [])
  | .isFragment name => (session, .flag (session.fragment? name).isSome, [])
  | .isFragmentValue _ => (session, .flag false, [])
  | .quote identifier => (session, .text (session.target.dialect.quoteIdentifier identifier), [])
  | .dialect => (session, .dialect session.target.dialect, [])
  | .capabilities =>
    (session, .capabilities session.target.capability session.target.capabilities, [])
  | .splice fragment =>
    (session, answer ((orFault (session.fragment? fragment) "isValid").map fun fragment =>
      .spliced fragment.isValid (Statement.ofFragment fragment)), [])
  | .query parts =>
    (session, answer (do
      let parts ← parts.mapM session.part?
      let statement ← (Statement.ofParts parts).mapError .unspliceable
      return .statement statement), [])

/-- Takes steps one after another and collects answers and records. -/
def run (session : Session) : List Step → List (Answer × List LogRecord)
  | [] => []
  | next :: steps =>
    let (session, answer, records) := session.step next
    (answer, records) :: session.run steps

end Session

end FilterPushdown
