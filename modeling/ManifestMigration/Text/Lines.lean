/-! # Lines of a text

A text is cut behind each line break. Every line keeps its break, so only the last one can be
without, and the lines in a row are the text again (`flatten_lines`).
-/

namespace ManifestMigration.Text

/-- The lines of a text, each with its line break. -/
def lines : List Char → List (List Char)
  | [] => []
  | c :: rest =>
    if c = '\n' then [c] :: lines rest
    else
      match lines rest with
      | [] => [[c]]
      | line :: more => (c :: line) :: more

/-- A text that ends its last line. -/
def closeLine (text : List Char) : List Char :=
  if text.getLast? = some '\n' then text else text ++ ['\n']

theorem closeLine_ne_nil (text : List Char) : closeLine text ≠ [] := by
  unfold closeLine
  split
  · next ends =>
    rintro rfl
    cases ends
  · exact List.concat_ne_nil '\n' text

theorem closeLine_of_closed {text : List Char} (closed : text.getLast? = some '\n') :
    closeLine text = text :=
  if_pos closed

@[simp] theorem flatten_lines (text : List Char) : (lines text).flatten = text := by
  induction text with
  | nil => rfl
  | cons c rest ih =>
    unfold lines
    split
    · simp [ih]
    · split
      · next none =>
        rw [none] at ih
        simp [← ih]
      · next line more some =>
        rw [some, List.flatten_cons] at ih
        rw [List.flatten_cons, List.cons_append, ih]

/-! ## What a line is -/

/-- A line is a break with what comes before it, or what comes behind the last break. -/
inductive IsLine : List Char → Prop where
  | closed {body : List Char} (free : '\n' ∉ body) : IsLine (body ++ ['\n'])
  | last {body : List Char} (free : '\n' ∉ body) (some : body ≠ []) : IsLine body

theorem IsLine.cons {c : Char} {line : List Char} (other : '\n' ≠ c) (is : IsLine line) :
    IsLine (c :: line) := by
  cases is with
  | @closed body free =>
    have freeToo : '\n' ∉ c :: body := List.not_mem_cons_of_ne_of_not_mem other free
    exact .closed freeToo
  | last free some => exact .last (List.not_mem_cons_of_ne_of_not_mem other free) nofun

theorem IsLine.ne_nil {line : List Char} (is : IsLine line) : line ≠ [] := by
  cases is with
  | @closed body _ => exact List.concat_ne_nil '\n' body
  | last _ some => exact some

theorem lines_cons_of_ne {c : Char} (other : '\n' ≠ c) (rest : List Char) :
    lines (c :: rest) = (c :: (lines rest).headD []) :: (lines rest).tail := by
  rw [lines, if_neg (Ne.symm other)]
  cases lines rest <;> rfl

theorem isLine_of_mem_lines {line text : List Char} (member : line ∈ lines text) : IsLine line := by
  induction text generalizing line with
  | nil => cases member
  | cons c rest ih =>
    by_cases ends : '\n' = c
    · subst ends
      rcases List.mem_cons.mp member with rfl | later
      · exact IsLine.closed (List.not_mem_nil (a := '\n'))
      · exact ih later
    · rw [lines_cons_of_ne ends] at member
      cases first : lines rest with
      | nil =>
        rw [first] at member
        obtain rfl := List.mem_singleton.mp member
        exact .last (List.not_mem_cons_of_ne_of_not_mem ends List.not_mem_nil) nofun
      | cons line' more =>
        rw [first] at member ih
        rcases List.mem_cons.mp member with rfl | later
        · exact (ih List.mem_cons_self).cons ends
        · exact ih (List.mem_cons_of_mem line' later)

theorem head?_of_lines {line text : List Char} {more : List (List Char)}
    (first : lines text = line :: more) : line.head? = text.head? := by
  cases text with
  | nil => cases first
  | cons c rest =>
    by_cases ends : '\n' = c
    · rw [lines, if_pos ends.symm] at first
      cases first
      rfl
    · rw [lines_cons_of_ne ends] at first
      cases first
      rfl

/-- A break ends a line, whatever follows. -/
theorem lines_append {body : List Char} (free : '\n' ∉ body) (rest : List Char) :
    lines (body ++ '\n' :: rest) = (body ++ ['\n']) :: lines rest := by
  induction body with
  | nil => simp [lines]
  | cons c body ih =>
    obtain ⟨other, free⟩ := not_or.mp (mt List.mem_cons.mpr free)
    rw [List.cons_append, lines_cons_of_ne other, ih free]
    rfl

end ManifestMigration.Text
