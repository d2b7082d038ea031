import ManifestMigration.Dict

/-! # TOML values and tables

The values of a TOML document, and how its statements build up the table that it describes. How a
table came about decides what may still be added to it. No statement replaces what an earlier one
has put there: a table or a key that is defined twice is an error, which is no table at all here.
-/

namespace ManifestMigration.Toml

/-- How a table came about. -/
inductive Origin where
  /-- It is written in braces. -/
  | braces
  /-- Only tables below it have been opened. -/
  | implied
  /-- It was opened by a header. -/
  | header
  /-- It stands in the dotted key of an assignment. -/
  | dotted
  deriving DecidableEq, Repr

/-- A value. Numbers, dates and times keep their spelling. -/
inductive Value where
  | string (text : String)
  | boolean (value : Bool)
  | number (text : String)
  | moment (text : String)
  | array (items : List Value)
  | table (origin : Origin) (entries : Dict Value)
  /-- An array whose tables are opened one by one: the latest, and those before it. -/
  | tables (latest : Dict Value) (earlier : List (Dict Value))

abbrev Table := Dict Value

namespace Table

/-- Assign a value to a key, below the tables that the dotted key names. -/
def assign (value : Value) : List String → Table → Option Table
  | [], _ => none
  | [key], t => if t.contains key then none else some (t.insert key value)
  | key :: path, t =>
    match t.get? key with
    | none => (assign value path .empty).map fun inner => t.insert key (.table .dotted inner)
    | some (.table .dotted inner) =>
      (assign value path inner).map fun inner => t.insert key (.table .dotted inner)
    | some _ => none

def openTable : List String → Table → Option Table
  | [], _ => none
  | [key], t =>
    match t.get? key with
    | none => some (t.insert key (.table .header .empty))
    | some (.table .implied inner) => some (t.insert key (.table .header inner))
    | some _ => none
  | key :: path, t =>
    match t.get? key with
    | none => (openTable path .empty).map fun inner => t.insert key (.table .implied inner)
    | some (.table .braces _) => none
    | some (.table origin inner) =>
      (openTable path inner).map fun inner => t.insert key (.table origin inner)
    | some (.tables latest earlier) =>
      (openTable path latest).map fun latest => t.insert key (.tables latest earlier)
    | some _ => none

/-- Open one more table of an array by its header. -/
def openItem : List String → Table → Option Table
  | [], _ => none
  | [key], t =>
    match t.get? key with
    | none => some (t.insert key (.tables .empty []))
    | some (.tables latest earlier) => some (t.insert key (.tables .empty (latest :: earlier)))
    | some _ => none
  | key :: path, t =>
    match t.get? key with
    | none => (openItem path .empty).map fun inner => t.insert key (.table .implied inner)
    | some (.table .braces _) => none
    | some (.table origin inner) =>
      (openItem path inner).map fun inner => t.insert key (.table origin inner)
    | some (.tables latest earlier) =>
      (openItem path latest).map fun latest => t.insert key (.tables latest earlier)
    | some _ => none

/-- Change the table that was opened last under a path. -/
def modifyOpen (change : Table → Option Table) : List String → Table → Option Table
  | [], t => change t
  | key :: path, t =>
    match t.get? key with
    | some (.table origin inner) =>
      (modifyOpen change path inner).map fun inner => t.insert key (.table origin inner)
    | some (.tables latest earlier) =>
      (modifyOpen change path latest).map fun latest => t.insert key (.tables latest earlier)
    | _ => none

end Table

end ManifestMigration.Toml
