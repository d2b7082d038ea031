import ManifestMigration.Document.Node

/-! # Deciding equality of documents

Documents, and results that hold documents, can be compared by evaluation.
-/

namespace ManifestMigration.Node

mutual

def decEq : (x y : Node) → Decidable (x = y)
  | .mapping ⟨xs⟩, .mapping ⟨ys⟩ =>
    match decEqEntries xs ys with
    | .isTrue same => .isTrue (congrArg (fun entries => Node.mapping ⟨entries⟩) same)
    | .isFalse other => .isFalse fun same => other (congrArg Dict.entries (mapping.inj same))
  | .sequence xs, .sequence ys =>
    match decEqItems xs ys with
    | .isTrue same => .isTrue (congrArg Node.sequence same)
    | .isFalse other => .isFalse fun same => other (sequence.inj same)
  | .scalar x, .scalar y => decidable_of_iff (x = y) ⟨congrArg Node.scalar, scalar.inj⟩
  | .mapping _, .sequence _ | .mapping _, .scalar _ | .sequence _, .mapping _
  | .sequence _, .scalar _ | .scalar _, .mapping _ | .scalar _, .sequence _ => .isFalse nofun

def decEqEntries : (xs ys : List (String × Node)) → Decidable (xs = ys)
  | [], [] => .isTrue rfl
  | [], _ :: _ | _ :: _, [] => .isFalse nofun
  | (k, x) :: xs, (l, y) :: ys =>
    match decEq x y, decEqEntries xs ys with
    | .isTrue value, .isTrue rest =>
      decidable_of_iff (k = l) ⟨fun key => by rw [key, value, rest], fun same => by cases same; rfl⟩
    | .isFalse other, _ => .isFalse fun same => other (by cases same; rfl)
    | _, .isFalse other => .isFalse fun same => other (by cases same; rfl)

def decEqItems : (xs ys : List Node) → Decidable (xs = ys)
  | [], [] => .isTrue rfl
  | [], _ :: _ | _ :: _, [] => .isFalse nofun
  | x :: xs, y :: ys =>
    match decEq x y, decEqItems xs ys with
    | .isTrue item, .isTrue rest => .isTrue (by rw [item, rest])
    | .isFalse other, _ => .isFalse fun same => other (List.cons.inj same).1
    | _, .isFalse other => .isFalse fun same => other (List.cons.inj same).2

end

instance : DecidableEq Node := decEq

end ManifestMigration.Node

namespace ManifestMigration

deriving instance DecidableEq for Dict

instance decEqResult {ε α : Type} [DecidableEq ε] [DecidableEq α] : DecidableEq (Except ε α)
  | .ok x, .ok y => decidable_of_iff (x = y) ⟨congrArg Except.ok, Except.ok.inj⟩
  | .error x, .error y => decidable_of_iff (x = y) ⟨congrArg Except.error, Except.error.inj⟩
  | .ok _, .error _ | .error _, .ok _ => .isFalse nofun

end ManifestMigration
