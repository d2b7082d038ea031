import ManifestMigration.Dict
import ManifestMigration.Files.Access
import ManifestMigration.Text.Occurrence

/-! # Files in a store

A store holds the files and directories of a system, and the path of the directory that is worked
in. Paths are followed step by step from the root; one that does not start there goes on from the
working directory. Every step leads through a directory that is there. A write either replaces a
whole file or fails and changes nothing.
-/

namespace ManifestMigration

inductive StoreEntry where
  | file (bytes : ByteArray)
  | directory
  /-- A file that is always empty, whatever is written to it. -/
  | nullDevice

/-- The bytes that can be read, unless it is a directory. -/
def StoreEntry.bytes? : StoreEntry → Option ByteArray
  | .file bytes => some bytes
  | .directory => none
  | .nullDevice => some .empty

/-- The files and directories of a system. -/
structure Store where
  /-- What stands at each location but the root, where there is a directory. -/
  entries : Dict StoreEntry
  /-- The path of the working directory from the root. -/
  workingDirectory : String

/-- Where a path leads, whether or not something stands there. -/
structure Place where
  location : String
  /-- The path says by a slash at its end that a directory is meant. -/
  slash : Bool
  deriving DecidableEq, Repr

namespace Store

/-- The location to which names lead from the root, innermost name first. -/
def locationOf : List String → String
  | [] => ""
  | name :: up => locationOf up ++ "/" ++ name

def stepsOf (path : String) : List String :=
  ((Text.splitAll '/' path.toList).filter (!·.isEmpty)).map String.ofList

/-- A path as it goes on from the root. -/
def fromRoot (store : Store) (path : String) : String :=
  if path.toList.head? = some '/' then path else store.workingDirectory ++ "/" ++ path

def at? (store : Store) (location : String) : Option StoreEntry :=
  if location = "" then some .directory else store.entries.get? location

/-- Follow the steps of a path. Every step starts in a directory, and above the root is the root. -/
def follow (store : Store) (names : List String) : List String → Except FileFault (List String)
  | [] => .ok names
  | step :: rest =>
    match store.at? (locationOf names) with
    | none => .error .notFound
    | some .directory =>
      if step = "." then store.follow names rest
      else if step = ".." then store.follow names.tail rest
      else store.follow (step :: names) rest
    | some _ => .error .notADirectory

def locate (store : Store) (path : String) : Except FileFault Place :=
  if path = "" then .error .notFound
  else
    (store.follow [] (stepsOf (store.fromRoot path))).map fun names =>
      ⟨locationOf names, path.toList.getLast? = some '/'⟩

/-- Read a file. Reading a directory fails only after it has been opened. -/
def readBytes (store : Store) (path : String) : Except FileError ByteArray :=
  match store.locate path with
  | .error fault => .error ⟨path, .openFile, fault⟩
  | .ok place =>
    match store.at? place.location with
    | none => .error ⟨path, .openFile, .notFound⟩
    | some entry =>
      match entry.bytes? with
      | none => .error ⟨path, .readFile, .isADirectory⟩
      | some bytes => if place.slash then .error ⟨path, .openFile, .notADirectory⟩ else .ok bytes

/-- The store after bytes have been written at a location. -/
def withBytes (store : Store) (location : String) (bytes : ByteArray) : Store :=
  match store.at? location with
  | some .nullDevice => store
  | _ => { store with entries := store.entries.insert location (.file bytes) }

/-- Write a file, and the store after it. -/
def writeBytes (store : Store) (path : String) (bytes : ByteArray) :
    Except FileError Unit × Store :=
  match store.locate path with
  | .error fault => (.error ⟨path, .createFile, fault⟩, store)
  | .ok place =>
    match place.slash, store.at? place.location with
    | true, _ | false, some .directory => (.error ⟨path, .createFile, .isADirectory⟩, store)
    | false, _ => (.ok (), store.withBytes place.location bytes)

/-- There is a file at the path, and neither a directory nor a device. -/
def isFile (store : Store) (path : String) : Bool :=
  match store.locate path with
  | .error _ => false
  | .ok place =>
    match store.at? place.location with
    | some (.file _) => !place.slash
    | _ => false

def isThere (store : Store) (path : String) : Bool :=
  match store.locate path with
  | .error _ => false
  | .ok place =>
    match store.at? place.location with
    | none => false
    | some .directory => true
    | some _ => !place.slash

end Store

end ManifestMigration
