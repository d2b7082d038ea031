import ManifestMigration.Proofs.Files.Places

/-! # What is known when no fault has struck

A text that is read, whatever faults may strike, is what the store holds, and a write that succeeds
is the write of the store. A write that fails has changed nothing.
-/

namespace ManifestMigration.Faults

variable {faults : Faults} {store after : Store} {path : String} {bytes : ByteArray}

theorem eq_toUTF8_of_decodeFile {text : String} (decoded : decodeFile path bytes = .ok text) :
    bytes = text.toUTF8 := by
  unfold decodeFile String.fromUTF8? at decoded
  split at decoded
  · next valid =>
    split at valid
    · cases valid
      cases decoded
      rfl
    · cases valid
  · cases decoded

theorem readBytes_of_readText {text : String} (read : faults.readText store path = .ok text) :
    store.readBytes path = .ok text.toUTF8 := by
  unfold readText readBytes at read
  split at read
  · cases read
  · cases held : store.readBytes path with
    | error e =>
        rw [held] at read
        cases read
    | ok bytes =>
        rw [held] at read
        rw [eq_toUTF8_of_decodeFile read]

theorem toUTF8_eq_empty_iff {text : String} : text.toUTF8 = .empty ↔ text = "" := by
  have nothing : "".toUTF8 = .empty := rfl
  rw [← nothing]
  exact String.toByteArray_inj

theorem writes_of_ok (done : faults.writeBytes store path bytes = (.ok (), after)) :
    store.Writes path bytes after := by
  unfold writeBytes at done
  split at done
  · cases done
  · exact done

theorem left_of_error {e : FileError}
    (fails : faults.writeBytes store path bytes = (.error e, after)) : after = store := by
  unfold writeBytes at fails
  split at fails
  · exact (congrArg Prod.snd fails).symm
  · have left := Store.left_writeBytes_of_error (congrArg Prod.fst fails)
    exact (congrArg Prod.snd fails).symm.trans left

end ManifestMigration.Faults
