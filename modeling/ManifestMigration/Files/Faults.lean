import ManifestMigration.Files.Store

/-! # Files that fail

Reading and writing can fail for reasons that a store does not show: a disk is full, a device gives
out, a permission is missing. A run on fallible files is a run on a store in which such faults may
strike every access. A write that fails leaves everything as it was.
-/

namespace ManifestMigration

/-- The faults that strike, by what is accessed and when. -/
structure Faults where
  reading? : Store → String → Option (FileAction × FileFault)
  writing? : Store → String → ByteArray → Option (FileAction × FileFault)

namespace Faults

def none : Faults := ⟨fun _ _ => .none, fun _ _ _ => .none⟩

def readBytes (faults : Faults) (store : Store) (path : String) : Except FileError ByteArray :=
  match faults.reading? store path with
  | some (action, fault) => .error ⟨path, action, fault⟩
  | .none => store.readBytes path

def writeBytes (faults : Faults) (store : Store) (path : String) (bytes : ByteArray) :
    Except FileError Unit × Store :=
  match faults.writing? store path bytes with
  | some (action, fault) => (.error ⟨path, action, fault⟩, store)
  | .none => store.writeBytes path bytes

def readText (faults : Faults) (store : Store) (path : String) : Except FileError String :=
  faults.readBytes store path >>= decodeFile path

end Faults

/-- A run on a store in which faults strike. -/
def Fallible (_ : Faults) (α : Type) : Type := StateM Store α

namespace Fallible

variable {faults : Faults} {α β : Type}

instance : Monad (Fallible faults) := inferInstanceAs (Monad (StateM Store))

instance : FileAccess (Fallible faults) where
  readBytes path store := (faults.readBytes store path, store)
  writeBytes path bytes store := faults.writeBytes store path bytes
  isFile path store := (store.isFile path, store)
  isThere path store := (store.isThere path, store)

/-- What a run gives, and the store that it leaves. -/
def run (x : Fallible faults α) (store : Store) : α × Store := StateT.run x store

@[simp] theorem run_pure (a : α) (store : Store) :
    (pure a : Fallible faults α).run store = (a, store) := rfl

@[simp] theorem run_bind (x : Fallible faults α) (f : α → Fallible faults β) (store : Store) :
    (x >>= f).run store = (f (x.run store).1).run (x.run store).2 := rfl

@[simp] theorem run_readText (path : String) (store : Store) :
    (readText path : Fallible faults _).run store = (faults.readText store path, store) := rfl

@[simp] theorem run_writeText (path text : String) (store : Store) :
    (writeText path text : Fallible faults _).run store =
      faults.writeBytes store path text.toUTF8 := rfl

@[simp] theorem run_isFile (path : String) (store : Store) :
    (FileAccess.isFile path : Fallible faults _).run store = (store.isFile path, store) := rfl

@[simp] theorem run_isThere (path : String) (store : Store) :
    (FileAccess.isThere path : Fallible faults _).run store = (store.isThere path, store) := rfl

end Fallible

end ManifestMigration
