import ManifestMigration.Proofs.Dict.Lookup
import ManifestMigration.Proofs.Document.Paths
import ManifestMigration.Proofs.Json.Number
import ManifestMigration.Proofs.Json.Text

/-! # Documents through JSON

What is printed as JSON is read back as the same tree. Three things do not survive and are left
out: a float is a number of its own only up to its text, an unsigned leaf that a signed one can hold
comes back as a signed one, and beyond the depth limit nothing is read at all. A mapping is read by
storing its fields one after the other, so its keys have to be distinct.
-/

namespace ManifestMigration

namespace Node

mutual

/-- How deep the sequences and mappings of a document nest. -/
def nesting : Node → Nat
  | .scalar _ => 0
  | .sequence items => nestingItems items + 1
  | .mapping ⟨entries⟩ => nestingEntries entries + 1

def nestingItems : List Node → Nat
  | [] => 0
  | item :: rest => max item.nesting (nestingItems rest)

def nestingEntries : List (String × Node) → Nat
  | [] => 0
  | (_, value) :: rest => max value.nesting (nestingEntries rest)

end

mutual

/-- The leaves of a document, in the order of items and fields. -/
def leaves : Node → List Scalar
  | .scalar value => [value]
  | .sequence items => leavesItems items
  | .mapping ⟨entries⟩ => leavesEntries entries

def leavesItems : List Node → List Scalar
  | [] => []
  | item :: rest => item.leaves ++ leavesItems rest

def leavesEntries : List (String × Node) → List Scalar
  | [] => []
  | (_, value) :: rest => value.leaves ++ leavesEntries rest

end

variable {item : Node} {items : List Node} {m : Mapping}

theorem nesting_le_nestingItems (member : item ∈ items) : item.nesting ≤ nestingItems items := by
  induction member with
  | head rest => exact Nat.le_max_left _ _
  | tail other _ ih => exact Nat.le_trans ih (Nat.le_max_right _ _)

theorem nesting_le_nestingEntries {entry : String × Node} {entries : List (String × Node)}
    (member : entry ∈ entries) : entry.2.nesting ≤ nestingEntries entries := by
  induction member with
  | head rest => exact Nat.le_max_left _ _
  | tail other _ ih => exact Nat.le_trans ih (Nat.le_max_right _ _)

/-- A sequence takes one step down, and its items the others. -/
theorem exists_depth_sequence {depth : Nat} (shallow : (sequence items).nesting ≤ depth) :
    ∃ below, depth = below + 1 ∧ ∀ item ∈ items, item.nesting ≤ below := by
  rw [nesting] at shallow
  obtain ⟨below, rfl⟩ := Nat.exists_eq_add_one_of_ne_zero (Nat.ne_zero_of_lt shallow)
  exact ⟨below, rfl, fun item member =>
    Nat.le_trans (nesting_le_nestingItems member) (Nat.le_of_succ_le_succ shallow)⟩

theorem exists_depth_mapping {depth : Nat} (shallow : (mapping m).nesting ≤ depth) :
    ∃ below, depth = below + 1 ∧ ∀ entry ∈ m.entries, entry.2.nesting ≤ below := by
  rw [nesting] at shallow
  obtain ⟨below, rfl⟩ := Nat.exists_eq_add_one_of_ne_zero (Nat.ne_zero_of_lt shallow)
  exact ⟨below, rfl, fun entry member =>
    Nat.le_trans (nesting_le_nestingEntries member) (Nat.le_of_succ_le_succ shallow)⟩

theorem mem_leaves_of_mem (member : item ∈ items) {leaf : Scalar} (inside : leaf ∈ item.leaves) :
    leaf ∈ (sequence items).leaves := by
  rw [leaves]
  induction member with
  | head rest => exact List.mem_append_left _ inside
  | tail other _ ih => exact List.mem_append_right _ ih

theorem mem_leaves_of_mem_entries {entry : String × Node} (member : entry ∈ m.entries)
    {leaf : Scalar} (inside : leaf ∈ entry.2.leaves) : leaf ∈ (mapping m).leaves := by
  obtain ⟨entries⟩ := m
  rw [leaves]
  simp only at member
  induction member with
  | head rest => exact List.mem_append_left _ inside
  | tail other _ ih => exact List.mem_append_right _ ih

end Node

namespace Json

variable {fuel depth : Nat} {text rest : List Char} {value : Scalar}

/-- The leaf comes back from JSON as it was: no float, and unsigned only if it has to be. -/
def Faithful : Scalar → Prop
  | .float _ => False
  | .unsigned value => Nat.pow 2 63 ≤ value.toNat
  | _ => True

/-! ## Leaves -/

/-- The character is one that numbers start with. -/
def StartsNumber (c : Char) : Prop := c = '-' ∨ c.isDigit = true

theorem StartsNumber.ne {c c' : Char} (first : StartsNumber c) (other : ¬ StartsNumber c') :
    c ≠ c' := by
  rintro rfl
  exact other first

theorem StartsNumber.solid {c : Char} (first : StartsNumber c) : isBlank c = false := by
  have noNumber : ∀ c' ∈ [' ', '\n', '\t', '\r'], ¬ StartsNumber c' := by simp [StartsNumber]
  simp only [isBlank, Bool.or_eq_false_iff, beq_eq_false_iff_ne]
  exact ⟨⟨⟨first.ne (noNumber _ (by simp)), first.ne (noNumber _ (by simp))⟩,
    first.ne (noNumber _ (by simp))⟩, first.ne (noNumber _ (by simp))⟩

theorem readValue_of_startsNumber {c : Char} {tail : List Char} (first : StartsNumber c) :
    readValue (fuel + 1) depth (c :: tail) =
      (readNumber (c :: tail)).map fun (value, after) => (.scalar value, after) := by
  have noNumber : ∀ c' ∈ ['n', 't', 'f', '"', '[', '{'], ¬ StartsNumber c' := by
    simp [StartsNumber]
  rw [readValue, skipBlanks_cons first.solid]
  split
  · next same => exact absurd (List.cons.inj same).1 (first.ne (noNumber _ (by simp)))
  · next same => exact absurd (List.cons.inj same).1 (first.ne (noNumber _ (by simp)))
  · next same => exact absurd (List.cons.inj same).1 (first.ne (noNumber _ (by simp)))
  · next same => exact absurd (List.cons.inj same).1 (first.ne (noNumber _ (by simp)))
  · next same => exact absurd (List.cons.inj same).1 (first.ne (noNumber _ (by simp)))
  · next same => exact absurd (List.cons.inj same).1 (first.ne (noNumber _ (by simp)))
  · rfl

theorem toDigits_startsNumber (n : Nat) :
    ∃ c tail, Nat.toDigits 10 n = c :: tail ∧ StartsNumber c := by
  obtain ⟨first, others, starts⟩ :=
    List.exists_cons_of_length_pos (Nat.length_toDigits_pos (b := 10) (n := n))
  exact ⟨first, others, starts,
    .inr (Nat.isDigit_of_mem_toDigits (by decide) (by decide) (starts ▸ List.mem_cons_self))⟩

theorem integer_startsNumber (value : Int64) :
    ∃ c tail, printScalar (.integer value) = c :: tail ∧ StartsNumber c := by
  rw [printScalar]
  split
  · exact ⟨'-', _, rfl, .inl rfl⟩
  · exact toDigits_startsNumber _

theorem readValue_string (text : String) (rest : List Char) :
    readValue (fuel + 1) depth (printString text ++ rest) = some (.string text, rest) := by
  rw [printString_append, readValue, skipBlanks_cons (by decide)]
  simp [readString_escaped]

theorem readValue_printScalar (faithful : Faithful value) (ends : EndsNumber rest) :
    readValue (fuel + 1) depth (printScalar value ++ rest) = some (.scalar value, rest) := by
  cases value with
  | string text => exact readValue_string text rest
  | integer value =>
      obtain ⟨c, tail, starts, first⟩ := integer_startsNumber value
      have read := readNumber_integer ends value
      rw [starts, List.cons_append] at read ⊢
      rw [readValue_of_startsNumber first, read]
      rfl
  | unsigned value =>
      obtain ⟨c, tail, starts, first⟩ := toDigits_startsNumber value.toNat
      have read := readNumber_unsigned ends faithful
      rw [printScalar, starts, List.cons_append] at read ⊢
      rw [readValue_of_startsNumber first, read]
      rfl
  | float value => cases faithful
  | bool value => cases value <;> rfl
  | null => rfl

/-! ## Items and fields -/

/-- With fuel for its text and within so many steps down, the node is read back from its text. -/
def ReadsBack (depth : Nat) (node : Node) : Prop :=
  ∀ {fuel rest}, (printNode node).length < fuel → EndsNumber rest →
    readValue fuel depth (printNode node ++ rest) = some (node, rest)

theorem endsNumber_cons {c : Char} (rest : List Char)
    (mark : c.isDigit = false ∧ c ≠ '.' ∧ c ≠ 'e' ∧ c ≠ 'E') : EndsNumber (c :: rest) := by
  intro c' first
  cases first
  exact mark

theorem endsNumber_nil : EndsNumber [] := nofun

theorem printItems_cons_cons (item next : Node) (others : List Node) :
    printItems (item :: next :: others) = printNode item ++ ',' :: printItems (next :: others) := by
  rw [printItems]
  exact List.cons_ne_nil _ _

theorem printFields_cons_cons (key : String) (value : Node) (next : String × Node)
    (others : List (String × Node)) :
    printFields ((key, value) :: next :: others) =
      printString key ++ ':' :: (printNode value ++ ',' :: printFields (next :: others)) := by
  rw [printFields]
  exact List.cons_ne_nil _ _

theorem readItems_printItems {items : List Node} (nonempty : items ≠ [])
    (back : ∀ item ∈ items, ReadsBack depth item) (enough : (printItems items).length + 1 < fuel) :
    readItems fuel depth (printItems items ++ ']' :: rest) = some (items, rest) := by
  induction items generalizing fuel with
  | nil => exact absurd rfl nonempty
  | cons item others ih =>
      obtain ⟨first, later⟩ := List.forall_mem_cons.mp back
      obtain ⟨fuel, rfl⟩ := Nat.exists_eq_add_one_of_ne_zero (Nat.ne_zero_of_lt enough)
      cases others with
      | nil =>
          rw [printItems] at enough ⊢
          rw [readItems, first (by omega) (endsNumber_cons rest (by decide))]
          simp only [skipBlanks_cons (c := ']') (by decide)]
      | cons next others =>
          rw [printItems_cons_cons, List.length_append, List.length_cons] at enough
          have tail : readItems fuel depth (printItems (next :: others) ++ ']' :: rest) =
              some (next :: others, rest) :=
            ih (List.cons_ne_nil _ _) later (by omega)
          rw [printItems_cons_cons, List.append_assoc, List.cons_append, readItems,
            first (by omega) (endsNumber_cons _ (by decide))]
          simp only [skipBlanks_cons (c := ',') (by decide), tail, Option.map_some]

/-- The reader comes to a value behind its key. -/
theorem readFields_field {key : String} {value : Node} {fields : Mapping}
    (read : readValue fuel depth text = some (value, rest)) :
    readFields (fuel + 1) depth fields (printString key ++ ':' :: text) =
      match skipBlanks rest with
      | '}' :: rest => some (fields.insert key value, rest)
      | ',' :: rest => readFields fuel depth (fields.insert key value) rest
      | _ => none := by
  rw [printString_append, readFields]
  simp only [skipBlanks_cons (c := '"') (by decide), readString_escaped,
    skipBlanks_cons (c := ':') (by decide), String.ofList_toList]
  rewrite [read]
  rfl

theorem readFields_printFields {entries : List (String × Node)} {fields : Mapping}
    (nonempty : entries ≠ []) (back : ∀ entry ∈ entries, ReadsBack depth entry.2)
    (enough : (printFields entries).length + 1 < fuel) :
    readFields fuel depth fields (printFields entries ++ '}' :: rest) =
      some (entries.foldl (fun d entry => d.insert entry.1 entry.2) fields, rest) := by
  induction entries generalizing fuel fields with
  | nil => exact absurd rfl nonempty
  | cons entry others ih =>
      obtain ⟨first, later⟩ := List.forall_mem_cons.mp back
      obtain ⟨key, value⟩ := entry
      have first : ReadsBack depth value := first
      obtain ⟨fuel, rfl⟩ := Nat.exists_eq_add_one_of_ne_zero (Nat.ne_zero_of_lt enough)
      cases others with
      | nil =>
          rw [printFields, List.length_append, List.length_cons] at enough
          rw [printFields, List.append_assoc, List.cons_append,
            readFields_field (first (by omega) (endsNumber_cons rest (by decide)))]
          simp only [skipBlanks_cons (c := '}') (by decide)]
          rfl
      | cons next others =>
          rw [printFields_cons_cons, List.length_append, List.length_cons, List.length_append,
            List.length_cons] at enough
          rw [printFields_cons_cons, List.append_assoc, List.cons_append, List.append_assoc,
            List.cons_append,
            readFields_field (first (by omega) (endsNumber_cons _ (by decide)))]
          simp only [skipBlanks_cons (c := ',') (by decide)]
          exact ih (List.cons_ne_nil _ _) later (by omega)

/-! ## Documents -/

theorem printItems_cons_eq_append (item : Node) (others : List Node) :
    ∃ tail, printItems (item :: others) = printNode item ++ tail := by
  cases others with
  | nil => exact ⟨[], by rw [printItems, List.append_nil]⟩
  | cons next others => exact ⟨_, printItems_cons_cons item next others⟩

theorem printFields_cons_eq_append (entry : String × Node) (others : List (String × Node)) :
    ∃ tail, printFields (entry :: others) = printString entry.1 ++ tail := by
  cases others with
  | nil => exact ⟨_, by rw [printFields]⟩
  | cons next others => exact ⟨_, printFields_cons_cons entry.1 entry.2 next others⟩

/-- No document starts with a blank or with the end of a sequence. -/
theorem printNode_eq_cons {node : Node} (faithful : ∀ leaf ∈ node.leaves, Faithful leaf) :
    ∃ c tail, printNode node = c :: tail ∧ isBlank c = false ∧ c ≠ ']' := by
  have number {text : List Char} (starts : ∃ c tail, text = c :: tail ∧ StartsNumber c) :
      ∃ c tail, text = c :: tail ∧ isBlank c = false ∧ c ≠ ']' := by
    obtain ⟨c, tail, rfl, first⟩ := starts
    exact ⟨c, tail, rfl, first.solid, first.ne (by unfold StartsNumber; decide)⟩
  cases node with
  | mapping m => exact ⟨'{', _, rfl, rfl, by decide⟩
  | sequence items => exact ⟨'[', _, rfl, rfl, by decide⟩
  | scalar value =>
      rw [printNode]
      cases value with
      | string text => exact ⟨'"', _, rfl, rfl, by decide⟩
      | integer value => exact number (integer_startsNumber value)
      | unsigned value => exact number (toDigits_startsNumber value.toNat)
      | float value => cases faithful _ (List.mem_singleton_self _)
      | bool value =>
          cases value with
          | true => exact ⟨'t', _, rfl, rfl, by decide⟩
          | false => exact ⟨'f', _, rfl, rfl, by decide⟩
      | null => exact ⟨'n', _, rfl, rfl, by decide⟩

theorem readValue_items {c : Char} {tail : List Char} (solid : isBlank c = false)
    (inside : c ≠ ']') :
    readValue (fuel + 1) (depth + 1) ('[' :: c :: tail) =
      (readItems fuel depth (c :: tail)).map fun (items, after) => (.sequence items, after) := by
  rw [readValue, skipBlanks_cons (by decide)]
  simp only [skipBlanks_cons solid]
  split
  · next same => exact absurd (List.cons.inj same).1 inside
  · rfl

theorem readValue_fields {tail : List Char} :
    readValue (fuel + 1) (depth + 1) ('{' :: '"' :: tail) =
      (readFields fuel depth .empty ('"' :: tail)).map fun (fields, after) =>
        (.mapping fields, after) := by
  rw [readValue, skipBlanks_cons (by decide)]
  simp only [skipBlanks_cons (c := '"') (by decide)]
  rfl

namespace ReadsBack

theorem scalar (faithful : Faithful value) : ReadsBack depth (.scalar value) := by
  intro fuel rest enough ends
  obtain ⟨fuel, rfl⟩ := Nat.exists_eq_add_one_of_ne_zero (Nat.ne_zero_of_lt enough)
  exact readValue_printScalar faithful ends

theorem sequence {items : List Node}
    (faithful : ∀ leaf ∈ (Node.sequence items).leaves, Faithful leaf)
    (back : ∀ item ∈ items, ReadsBack depth item) : ReadsBack (depth + 1) (.sequence items) := by
  intro fuel rest enough ends
  obtain ⟨fuel, rfl⟩ := Nat.exists_eq_add_one_of_ne_zero (Nat.ne_zero_of_lt enough)
  have text : printNode (.sequence items) ++ rest = '[' :: (printItems items ++ ']' :: rest) := by
    simp [printNode]
  rw [text]
  cases items with
  | nil => rfl
  | cons item others =>
      have long : (printItems (item :: others)).length + 1 < fuel := by
        simp only [printNode, List.length_cons, List.length_append, List.length_nil] at enough
        omega
      have read : readItems fuel depth (printItems (item :: others) ++ ']' :: rest) =
          some (item :: others, rest) :=
        readItems_printItems (List.cons_ne_nil _ _) back long
      obtain ⟨c, tail, starts, solid, inside⟩ := printNode_eq_cons fun leaf leafInside =>
        faithful leaf (Node.mem_leaves_of_mem List.mem_cons_self leafInside)
      obtain ⟨behind, items⟩ := printItems_cons_eq_append item others
      rw [items, starts, List.cons_append, List.cons_append] at read ⊢
      rw [readValue_items solid inside, read]
      rfl

theorem mapping {m : Mapping} (distinct : m.keys.Nodup)
    (back : ∀ entry ∈ m.entries, ReadsBack depth entry.2) : ReadsBack (depth + 1) (.mapping m) := by
  intro fuel rest enough ends
  obtain ⟨fuel, rfl⟩ := Nat.exists_eq_add_one_of_ne_zero (Nat.ne_zero_of_lt enough)
  obtain ⟨entries⟩ := m
  have text : printNode (.mapping ⟨entries⟩) ++ rest =
      '{' :: (printFields entries ++ '}' :: rest) := by
    simp [printNode]
  rw [text]
  cases entries with
  | nil => rfl
  | cons entry others =>
      have long : (printFields (entry :: others)).length + 1 < fuel := by
        simp only [printNode, List.length_cons, List.length_append, List.length_nil] at enough
        omega
      have read : readFields fuel depth .empty (printFields (entry :: others) ++ '}' :: rest) =
          some (.ofList (entry :: others), rest) :=
        readFields_printFields (List.cons_ne_nil _ _) back long
      obtain ⟨behind, fields⟩ := printFields_cons_eq_append entry others
      rw [fields, List.append_assoc, printString_append] at read ⊢
      rw [readValue_fields, read, Dict.ofList_of_nodup distinct]
      rfl

end ReadsBack

/-- Within the depth limit everything that is faithful is read back. -/
theorem readsBack {node : Node} (keyed : node.WellKeyed)
    (faithful : ∀ leaf ∈ node.leaves, Faithful leaf) (shallow : node.nesting ≤ depth) :
    ReadsBack depth node := by
  induction node using Node.parts_induction generalizing depth with
  | scalar value => exact ReadsBack.scalar (faithful value (List.mem_singleton_self _))
  | sequence items ih =>
      obtain ⟨depth, rfl, inside⟩ := Node.exists_depth_sequence shallow
      refine ReadsBack.sequence faithful fun item member => ?_
      exact ih item member (Node.wellKeyed_sequence.mp keyed item member)
        (fun leaf among => faithful leaf (Node.mem_leaves_of_mem member among))
        (inside item member)
  | mapping m ih =>
      obtain ⟨depth, rfl, inside⟩ := Node.exists_depth_mapping shallow
      obtain ⟨distinct, keyedInside⟩ := Node.wellKeyed_mapping.mp keyed
      refine ReadsBack.mapping distinct fun entry member => ?_
      exact ih entry member (keyedInside entry member)
        (fun leaf among => faithful leaf (Node.mem_leaves_of_mem_entries member among))
        (inside entry member)

/-- Documents without floats, with unsigned leaves only beyond the signed ones and nesting within
    the limit, are read back from their JSON. -/
theorem parse?_print {node : Node} (keyed : node.WellKeyed)
    (noFloat : ∀ value, Scalar.float value ∉ node.leaves)
    (large : ∀ value, Scalar.unsigned value ∈ node.leaves → Nat.pow 2 63 ≤ value.toNat)
    (shallow : node.nesting ≤ 127) : parse? (print node) = some node := by
  have faithful : ∀ leaf ∈ node.leaves, Faithful leaf := by
    intro leaf inside
    cases leaf with
    | float value => exact noFloat value inside
    | unsigned value => exact large value inside
    | _ => trivial
  have read := readsBack keyed faithful shallow (Nat.lt_succ_self _) endsNumber_nil
  rw [List.append_nil] at read
  simp only [parse?, print, String.toList_ofList, depthLimit, read]
  rfl

theorem parse?_print_edges :
    let node := Node.mapping ⟨[
      ("", .sequence [.integer Int64.minValue, .integer 0, .integer Int64.maxValue,
        .scalar (.unsigned 9223372036854775808), .scalar (.unsigned 18446744073709551615)]),
      ("\"\\\n\x00", .mapping ⟨[("𝄞", .string "\x1f/")]⟩), ("null", .sequence [.mapping ⟨[]⟩])]⟩
    node.WellKeyed ∧ node.nesting = 3 ∧ parse? (print node) = some node := by
  intro node
  have keyed : node.WellKeyed := by
    simp [node, Node.wellKeyed_mapping, Node.wellKeyed_sequence, Node.wellKeyed_scalar, Dict.keys]
  have leaves_eq : node.leaves = [.integer Int64.minValue, .integer 0, .integer Int64.maxValue,
      .unsigned 9223372036854775808, .unsigned 18446744073709551615, .string "\x1f/"] := rfl
  have depth : node.nesting = 3 := rfl
  refine ⟨keyed, depth, parse?_print keyed ?_ ?_ (by rw [depth]; decide)⟩
  · simp [leaves_eq]
  · simp only [leaves_eq, List.mem_cons, List.not_mem_nil, or_false, reduceCtorEq, false_or,
      Scalar.unsigned.injEq]
    rintro value (rfl | rfl) <;> decide

end Json

end ManifestMigration
