import ObjectDepot.Config
import ObjectDepot.Text.Pieces

/-!
The configuration from command line arguments and environment variables. Arguments come before the
environment, and the environment before the defaults; a variable whose option is given as an
argument is not even read.

The value of an option stands behind `=`, or is the next argument. In the latter case it is looked
at only when the next known option or the end is reached.
-/

namespace ObjectDepot

inductive Setting where
  | maxEntitySize
  | maxBatchDelete
  | extraCoreTypes
  | idField
  | typeField
  | rootApp
  | logLevel
  deriving DecidableEq, Repr

inductive ArgumentFault where
  /-- Something that is no option, or a value that nothing asks for. -/
  | unknownArgument
  | missingValue
  /-- A value that is not a number where one is wanted. -/
  | unreadableValue
  | repeatedOption
  /-- A value for an option that takes none. -/
  | needlessValue
  | helpRequested
  deriving DecidableEq, Repr

namespace Setting

/-- The settings in the order in which the environment is read. -/
def all : List Setting :=
  [.maxEntitySize, .maxBatchDelete, .extraCoreTypes, .idField, .typeField, .rootApp, .logLevel]

/-- The option's name behind `--`. -/
def option : Setting → String
  | maxEntitySize => "max-entity-size-bytes"
  | maxBatchDelete => "max-batch-delete"
  | extraCoreTypes => "extra-core-types"
  | idField => "id-field"
  | typeField => "type-field"
  | rootApp => "root-app"
  | logLevel => "log-level"

def variableName : Setting → String
  | maxEntitySize => "STRATA_MAX_ENTITY_SIZE"
  | maxBatchDelete => "STRATA_MAX_BATCH_DELETE"
  | extraCoreTypes => "STRATA_CORE_TYPES"
  | idField => "STRATA_ID_FIELD"
  | typeField => "STRATA_TYPE_FIELD"
  | rootApp => "STRATA_ROOT_APP"
  | logLevel => "STRATA_LOG_LEVEL"

def ofOption? (name : String) : Option Setting := all.find? (fun s => s.option = name)

end Setting

/-- A number of 64 bits; a plus sign may stand before it. -/
def size? (s : String) : Option Nat :=
  let cs := match s.toList with
    | '+' :: cs => cs
    | cs => cs
  if cs.isEmpty || !cs.all Char.isDigit then none
  else
    cs.foldlM (fun n c =>
      let n := n * 10 + (c.val.toNat - 48)
      if n < Nat.pow 2 64 then some n else none) 0

structure Given where
  maxEntitySize : Option Nat := none
  maxBatchDelete : Option Nat := none
  extraCoreTypes : Option (List String) := none
  idField : Option String := none
  typeField : Option String := none
  rootApp : Option String := none
  logLevel : Option String := none

namespace Given

def has (g : Given) : Setting → Bool
  | .maxEntitySize => g.maxEntitySize.isSome
  | .maxBatchDelete => g.maxBatchDelete.isSome
  | .extraCoreTypes => g.extraCoreTypes.isSome
  | .idField => g.idField.isSome
  | .typeField => g.typeField.isSome
  | .rootApp => g.rootApp.isSome
  | .logLevel => g.logLevel.isSome

/-- Takes in the value of a setting. Lists of types add up. -/
def take (g : Given) (s : Setting) (value : String) : Except ArgumentFault Given :=
  let size : Except ArgumentFault Nat :=
    match size? value with
    | some n => .ok n
    | none => .error .unreadableValue
  match s with
  | .maxEntitySize => size.map (fun n => { g with maxEntitySize := some n })
  | .maxBatchDelete => size.map (fun n => { g with maxBatchDelete := some n })
  | .extraCoreTypes =>
    let types := (Text.pieces ',' value.toList).map String.ofList
    .ok { g with extraCoreTypes := some (g.extraCoreTypes.getD [] ++ types) }
  | .idField => .ok { g with idField := some value }
  | .typeField => .ok { g with typeField := some value }
  | .rootApp => .ok { g with rootApp := some value }
  | .logLevel => .ok { g with logLevel := some value }

/-- Takes in an option of the command line. Only lists of types may be given again. -/
def takeOption (g : Given) (s : Setting) (value : String) : Except ArgumentFault Given :=
  if s != .extraCoreTypes && g.has s then .error .repeatedOption else g.take s value

def toConfig (g : Given) : Config :=
  let c : Config := {}
  { maxEntitySize := g.maxEntitySize.getD c.maxEntitySize
    maxBatchDelete := g.maxBatchDelete.getD c.maxBatchDelete
    extraCoreTypes := g.extraCoreTypes.getD c.extraCoreTypes
    idField := g.idField.getD c.idField
    typeField := g.typeField.getD c.typeField
    rootApp := g.rootApp.getD c.rootApp
    logLevel := g.logLevel.getD c.logLevel }

end Given

/-- An option whose value is not behind `=`: with the next argument once that is read. -/
inductive Awaiting where
  | nothing
  | needed (setting : Setting)
  | settled (setting : Setting) (value : String)

def Awaiting.settle (g : Given) : Awaiting → Except ArgumentFault Given
  | .nothing => .ok g
  | .needed _ => .error .missingValue
  | .settled s value => g.takeOption s value

/-- Reads an argument that starts with two hyphens, given what is behind them. -/
def longOption (g : Given) (a : Awaiting) (cs : List Char) :
    Except ArgumentFault (Given × Awaiting) := do
  let (name, value) := match Text.splitAtFirst? '=' cs with
    | some (name, value) => (String.ofList name, some (String.ofList value))
    | none => (String.ofList cs, none)
  if name = "help" then
    if value.isSome then throw .needlessValue
    let _ ← a.settle g
    throw .helpRequested
  match Setting.ofOption? name with
  | none => throw .unknownArgument
  | some s =>
    let g ← a.settle g
    match value with
    | some value => return (← g.takeOption s value, .nothing)
    | none => return (g, .needed s)

/-- Reads the arguments in turn. Behind `--` there may be nothing. -/
def readArguments (g : Given) (a : Awaiting) : List String → Except ArgumentFault Given
  | [] => a.settle g
  | arg :: rest =>
    match arg.toList with
    | ['-', '-'] => if rest.isEmpty then a.settle g else .error .unknownArgument
    | '-' :: '-' :: cs =>
      match longOption g a cs with
      | .ok (g, a) => readArguments g a rest
      | .error e => .error e
    | '-' :: 'h' :: _ => (a.settle g).bind (fun _ => .error .helpRequested)
    | '-' :: _ :: _ => .error .unknownArgument
    | _ =>
      match a with
      | .needed s => readArguments g (.settled s arg) rest
      | _ => .error .unknownArgument

/-- Takes in the variables of the settings that are not given as arguments. -/
def readEnvironment (given : Given) (environment : KeyMap String) : Except ArgumentFault Given :=
  Setting.all.foldlM
    (fun g s =>
      if given.has s then .ok g
      else
        match environment.get? s.variableName with
        | some value => g.take s value
        | none => .ok g)
    given

namespace Config

def ofArguments (args : List String) (environment : KeyMap String) :
    Except ArgumentFault Config := do
  let given ← readArguments {} .nothing args
  return (← readEnvironment given environment).toConfig

/-- The configuration of the environment, or the defaults if the environment is at fault. -/
def ofEnvironment (environment : KeyMap String) : Config :=
  match ofArguments [] environment with
  | .ok c => c
  | .error _ => {}

end Config

end ObjectDepot
