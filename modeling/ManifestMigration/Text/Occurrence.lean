/-! # Occurrences of one text in another

Finding a text inside another one, and replacing its occurrences from left to right. Occurrences
that are replaced do not overlap: the search goes on behind the one just found.
-/

namespace ManifestMigration.Text

def occursIn (needle : List Char) : List Char → Bool
  | [] => needle.isEmpty
  | c :: rest => needle.isPrefixOf (c :: rest) || occursIn needle rest

/-- The text from the first occurrence of the needle on. -/
def fromFirst? (needle : List Char) : List Char → Option (List Char)
  | [] => if needle.isEmpty then some [] else none
  | c :: rest =>
    if needle.isPrefixOf (c :: rest) then some (c :: rest) else fromFirst? needle rest

/-- Leave out so many characters and then replace: where the needle stands, its replacement is
    written and as many characters are left out as the needle has. -/
def replaceAfter (needle replacement : List Char) : Nat → List Char → List Char
  | _, [] => []
  | skip + 1, _ :: rest => replaceAfter needle replacement skip rest
  | 0, c :: rest =>
    if needle.isPrefixOf (c :: rest) then
      replacement ++ replaceAfter needle replacement (needle.length - 1) rest
    else c :: replaceAfter needle replacement 0 rest

/-- Replace the occurrences of a needle that is not empty, leftmost first and without overlap. -/
def replaceAll (needle replacement text : List Char) : List Char :=
  replaceAfter needle replacement 0 text

/-- What stands before and after the first occurrence of a character. -/
def splitOnce (separator : Char) : List Char → Option (List Char × List Char)
  | [] => none
  | c :: rest =>
    if c = separator then some ([], rest)
    else (splitOnce separator rest).map fun (before, after) => (c :: before, after)

/-- The pieces of a text between the occurrences of a character. -/
def splitAll (separator : Char) : List Char → List (List Char)
  | [] => [[]]
  | c :: rest =>
    if c = separator then [] :: splitAll separator rest
    else
      match splitAll separator rest with
      | [] => [[c]]
      | piece :: more => (c :: piece) :: more

/-- A needle is not found in front of a text that it starts, where its first character is missing. -/
theorem fromFirst?_append {c : Char} {needle before rest : List Char} (free : c ∉ before)
    (starts : c :: needle <+: rest) : fromFirst? (c :: needle) (before ++ rest) = some rest := by
  induction before with
  | nil =>
    cases rest with
    | nil => cases List.prefix_nil.mp starts
    | cons d rest => rw [List.nil_append, fromFirst?, if_pos (List.isPrefixOf_iff_prefix.mpr starts)]
  | cons d before ih =>
    obtain ⟨differs, free⟩ := not_or.mp (mt List.mem_cons.mpr free)
    rw [List.cons_append, fromFirst?, if_neg, ih free]
    intro here
    exact differs (List.cons_prefix_cons.mp (List.isPrefixOf_iff_prefix.mp here)).1

theorem splitOnce_eq_some_iff {separator : Char} {text before after : List Char} :
    splitOnce separator text = some (before, after) ↔
      text = before ++ separator :: after ∧ separator ∉ before := by
  induction text generalizing before with
  | nil => simp [splitOnce]
  | cons c rest ih =>
    by_cases h : c = separator
    · subst h
      cases before with
      | nil => simp [splitOnce, eq_comm]
      | cons d before =>
        refine iff_of_false (by simp [splitOnce]) ?_
        rintro ⟨same, free⟩
        exact free (by simp [(List.cons.inj same).1])
    · cases before with
      | nil => simp [splitOnce, h]
      | cons d before =>
        simp only [splitOnce, h, if_false, Option.map_eq_some_iff, Prod.mk.injEq, List.cons.injEq,
          Prod.exists, List.cons_append, List.mem_cons, not_or]
        constructor
        · rintro ⟨b, a, hb, ⟨rfl, rfl⟩, rfl⟩
          obtain ⟨rfl, hn⟩ := ih.1 hb
          exact ⟨⟨rfl, rfl⟩, fun hs => h hs.symm, hn⟩
        · rintro ⟨⟨rfl, ht⟩, -, hn⟩
          exact ⟨before, after, ih.2 ⟨ht, hn⟩, ⟨rfl, rfl⟩, rfl⟩

end ManifestMigration.Text
