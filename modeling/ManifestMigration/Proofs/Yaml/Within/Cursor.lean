import Mathlib.Data.List.TakeWhile
import ManifestMigration.Yaml.Token

/-! # A text among others

A text that consists of whole lines can stand in a larger one, behind other lines and before the
marker of another document. A cursor moves in it as if it stood alone. Whatever the cursor looks at
inside of a line is settled by the line, whose end is there; and at the end of the text it stands at
the start of a line, where the marker stops it as the end would.
-/

namespace ManifestMigration.Yaml

/-! ## Whole lines -/

/-- The characters that end a line. -/
def breaks : List Char :=
  ['\n', '\r', Char.ofNat 0x85, Char.ofNat 0x2028, Char.ofNat 0x2029]

theorem mem_breaks {ch : Char} (ends : isBreak ch = true) : ch ∈ breaks := by
  simp only [isBreak, Bool.or_eq_true, beq_iff_eq] at ends
  have same : ∀ n, ch.toNat = n → ch = Char.ofNat n := by
    rintro n rfl
    exact (Char.ofNat_toNat ch).symm
  simp only [breaks, List.mem_cons, List.not_mem_nil, or_false]
  rcases ends with (((rfl | rfl) | nel) | ls) | ps
  · exact .inl rfl
  · exact .inr (.inl rfl)
  · exact .inr (.inr (.inl (same _ nel)))
  · exact .inr (.inr (.inr (.inl (same _ ls))))
  · exact .inr (.inr (.inr (.inr (same _ ps))))

/-- No character that ends a line passes the test. -/
def Stops (p : Char → Bool) : Prop := ∀ ch ∈ breaks, p ch = false

instance (p : Char → Bool) : Decidable (Stops p) :=
  List.decidableBAll (fun ch => p ch = false) breaks

theorem Stops.not_isBreak {p : Char → Bool} (stops : Stops p) {ch : Char} (passes : p ch = true) :
    isBreak ch = false := by
  cases ends : isBreak ch with
  | false => rfl
  | true => cases (stops ch (mem_breaks ends)).symm.trans passes

/-- The text ends with the end of a line. -/
def EndsLine (text : List Char) : Prop := text.getLast?.any isBreak = true

namespace EndsLine

variable {text after : List Char} {ch : Char}

theorem ne_nil (ends : EndsLine text) : text ≠ [] := by
  rintro rfl
  cases ends

theorem exists_break (ends : EndsLine text) : ∃ last ∈ text, isBreak last = true := by
  cases found : text.getLast? with
  | none =>
      rw [EndsLine, found] at ends
      cases ends
  | some last =>
      rw [EndsLine, found, Option.any_some] at ends
      exact ⟨last, List.mem_of_getLast? found, ends⟩

theorem of_cons (ends : EndsLine (ch :: text)) (more : text ≠ []) : EndsLine text := by
  rwa [EndsLine, List.getLast?_cons_of_ne_nil more] at ends

theorem of_cons_of_not_break (ends : EndsLine (ch :: text)) (inside : isBreak ch = false) :
    EndsLine text := by
  refine ends.of_cons ?_
  rintro rfl
  rw [EndsLine, List.getLast?_singleton, Option.any_some, inside] at ends
  cases ends

theorem drop (ends : EndsLine text) {n : Nat} (more : n < text.length) : EndsLine (text.drop n) := by
  rwa [EndsLine, List.getLast?_drop, if_neg (Nat.not_le.mpr more)]

/-- A run of characters that pass a test ends on its line, wherever the line stands. -/
theorem takeWhile (ends : EndsLine text) {p : Char → Bool} (stops : Stops p) (after : List Char) :
    (text ++ after).takeWhile p = text.takeWhile p ∧ (text.takeWhile p).length < text.length := by
  induction text with
  | nil => cases ends
  | cons ch rest ih =>
      rw [List.cons_append, List.takeWhile_cons, List.takeWhile_cons]
      cases passes : p ch with
      | false => simp
      | true =>
          obtain ⟨same, shorter⟩ := ih (ends.of_cons_of_not_break (stops.not_isBreak passes))
          simp only [if_true, same, List.length_cons]
          exact ⟨trivial, Nat.succ_lt_succ shorter⟩

end EndsLine

/-! ## Surroundings -/

/-- What stands around a text: the text behind it, which is empty or starts with the marker of a
    document, the number of characters and lines before it, and the tokens there, newest first. -/
structure Surroundings where
  after : List Char
  index : Nat
  line : Nat
  older : List Token
  parted : after = [] ∨ ∃ rest, after = '-' :: '-' :: '-' :: '\n' :: rest
  running : ∀ t ∈ older, t.kind ≠ .streamEnd

def Surroundings.none : Surroundings := ⟨[], 0, 0, [], .inl rfl, List.forall_mem_nil _⟩

def Mark.within (m : Mark) (s : Surroundings) : Mark := ⟨m.index + s.index, m.line + s.line, m.column⟩

namespace Cursor

variable {c : Cursor} {s : Surroundings}

def within (c : Cursor) (s : Surroundings) : Cursor := ⟨c.rest ++ s.after, c.mark.within s⟩

@[simp] theorem rest_within : (c.within s).rest = c.rest ++ s.after := rfl

@[simp] theorem mark_within : (c.within s).mark = c.mark.within s := rfl

@[simp] theorem column_within : (c.within s).column = c.column := (rfl)

theorem length_lt_within (c : Cursor) (s : Surroundings) :
    c.rest.length < (c.within s).rest.length + 1 := by
  rw [rest_within, List.length_append]
  omega

/-- The rest of a text of whole lines: there is a line that ends, or nothing is left and the cursor
    is at the start of a line. -/
def InLines (c : Cursor) : Prop := EndsLine c.rest ∨ (c.rest = [] ∧ c.column = 0)

/-! ## The next characters -/

theorem head?_within (ends : EndsLine c.rest) : (c.rest ++ s.after).head? = c.rest.head? := by
  obtain ⟨ch, rest, same⟩ := List.exists_cons_of_ne_nil ends.ne_nil
  rw [same]
  rfl

/-- What is no hyphen is not seen behind the text. -/
theorem head?_any_within (lines : c.InLines) {p : Char → Bool} (hyphen : p '-' = false) :
    (c.rest ++ s.after).head?.any p = c.rest.head?.any p := by
  rcases lines with ends | ⟨nothing, -⟩
  · rw [head?_within ends]
  · rw [nothing, List.nil_append]
    rcases s.parted with none | ⟨rest, marker⟩
    · rw [none]
    · rw [marker, List.head?_cons, Option.any_some, hyphen]
      rfl

theorem sees_within (lines : c.InLines) {ch : Char} (hyphen : ch ≠ '-') :
    (c.within s).sees ch = c.sees ch := by
  have any : ∀ x : Option Char, (x == some ch) = x.any (· == ch) := by
    intro x
    cases x <;> rfl
  rw [sees, sees, any, any]
  exact head?_any_within lines (beq_eq_false_iff_ne.mpr hyphen.symm)

theorem sees_within_of_endsLine (ends : EndsLine c.rest) {ch : Char} :
    (c.within s).sees ch = c.sees ch := by
  rw [sees, sees, rest_within, head?_within ends]

theorem seesBlank_within (lines : c.InLines) : (c.within s).seesBlank = c.seesBlank :=
  head?_any_within lines (by decide)

theorem seesBreak_within (lines : c.InLines) : (c.within s).seesBreak = c.seesBreak :=
  head?_any_within lines (by decide)

theorem startsBlank_append {text after : List Char} (more : text ≠ []) :
    startsBlank (text ++ after) = startsBlank text := by
  cases text with
  | nil => cases more rfl
  | cons ch rest => rfl

theorem seesBlankOrEnd_within (ends : EndsLine c.rest) :
    (c.within s).seesBlankOrEnd = c.seesBlankOrEnd :=
  startsBlank_append ends.ne_nil

theorem atEnd_of_endsLine (ends : EndsLine c.rest) : c.atEnd = false :=
  List.isEmpty_eq_false_iff.mpr ends.ne_nil

theorem atEnd_within_of_endsLine (ends : EndsLine c.rest) : (c.within s).atEnd = false := by
  simp [atEnd, ends.ne_nil]

theorem seesLineEnd_within (ends : EndsLine c.rest) :
    (c.within s).seesLineEnd = c.seesLineEnd := by
  rw [seesLineEnd, seesLineEnd, atEnd_of_endsLine ends, atEnd_within_of_endsLine ends,
    seesBreak_within (.inl ends)]

/-! ## Moves on a line -/

theorem skip_within {n : Nat} (enough : n ≤ c.rest.length) :
    (c.within s).skip n = (c.skip n).within s := by
  simp only [skip, within, Mark.within, List.take_append_of_le_length enough,
    List.drop_append_of_le_length enough]
  congr 2
  omega

theorem endsLine_skip (ends : EndsLine c.rest) {n : Nat} (more : n < c.rest.length) :
    EndsLine (c.skip n).rest :=
  ends.drop more

theorem endsLine_skip_one (ends : EndsLine c.rest) (inside : c.seesBreak = false) :
    EndsLine (c.skip 1).rest := by
  obtain ⟨rest, mark⟩ := c
  cases rest with
  | nil => cases ends
  | cons ch rest => exact ends.of_cons_of_not_break inside

/-- Going over a character that is seen. -/
theorem skip_within_of_sees (lines : c.InLines) {ch : Char} (seen : c.sees ch = true)
    (inside : isBreak ch = false) :
    (c.within s).skip 1 = (c.skip 1).within s ∧ EndsLine (c.skip 1).rest ∧
      (c.skip 1).rest.length < c.rest.length := by
  obtain ⟨rest, mark⟩ := c
  obtain ⟨rest, rfl⟩ := List.head?_eq_some_iff.mp (beq_iff_eq.mp seen)
  have ends : EndsLine (ch :: rest) := lines.resolve_right (by simp)
  exact ⟨skip_within (by simp), ends.of_cons_of_not_break inside, Nat.lt_succ_self _⟩

theorem takeWhile_within (ends : EndsLine c.rest) {p : Char → Bool} (stops : Stops p) :
    (c.within s).takeWhile p = ((c.takeWhile p).1, (c.takeWhile p).2.within s) ∧
      EndsLine (c.takeWhile p).2.rest := by
  obtain ⟨same, shorter⟩ := ends.takeWhile stops s.after
  refine ⟨?_, ends.drop shorter⟩
  simp only [takeWhile, rest_within, same]
  rw [skip_within (Nat.le_of_lt shorter)]

theorem skipWhile_within (ends : EndsLine c.rest) {p : Char → Bool} (stops : Stops p) :
    (c.within s).skipWhile p = (c.skipWhile p).within s ∧ EndsLine (c.skipWhile p).rest := by
  obtain ⟨same, left⟩ := takeWhile_within (s := s) ends stops
  exact ⟨congrArg Prod.snd same, left⟩

/-- A run of characters that are no hyphens does not go on behind the text. -/
theorem takeWhile_append_of_inLines (lines : c.InLines) {p : Char → Bool} (stops : Stops p)
    (hyphen : p '-' = false) : (c.rest ++ s.after).takeWhile p = c.rest.takeWhile p := by
  rcases lines with ends | ⟨nothing, -⟩
  · exact (ends.takeWhile stops s.after).1
  · rw [nothing, List.nil_append]
    rcases s.parted with none | ⟨rest, marker⟩
    · rw [none]
    · simp [marker, hyphen]

theorem inLines_skip (lines : c.InLines) {p : Char → Bool} (stops : Stops p) {n : Nat}
    (le : n ≤ (c.rest.takeWhile p).length) : (c.skip n).InLines := by
  rcases lines with ends | ⟨nothing, column⟩
  · exact .inl (endsLine_skip ends (Nat.lt_of_le_of_lt le (ends.takeWhile stops []).2))
  · rw [nothing, List.takeWhile_nil] at le
    obtain rfl : n = 0 := Nat.le_zero.mp le
    exact .inr ⟨nothing, column⟩

/-! ## Line breaks -/

theorem inLines_newLine {rest : List Char} (ends : EndsLine rest ∨ rest = []) (width : Nat) :
    (c.newLine rest width).InLines :=
  ends.imp_right fun nothing => ⟨nothing, rfl⟩

theorem newLine_within (rest : List Char) (width : Nat) :
    (c.within s).newLine (rest ++ s.after) width = (c.newLine rest width).within s := by
  simp only [newLine, within, Mark.within]
  congr 2 <;> omega

/-- A line break by its first character and the one behind it. -/
theorem lineBreak?_cons (c : Cursor) {ch : Char} {rest : List Char} (next : c.rest = ch :: rest) :
    c.lineBreak? =
      if ch = '\r' ∧ rest.head? = some '\n' then some ('\n', c.newLine rest.tail 2)
      else if isBreak ch then
        some (if ch.toNat = 0x2028 ∨ ch.toNat = 0x2029 then ch else '\n', c.newLine rest 1)
      else none := by
  unfold lineBreak?
  rw [next]
  split
  · next rest' same =>
      cases same
      rfl
  · next ch' rest' single same =>
      cases same
      have other : ¬(ch = '\r' ∧ rest.head? = some '\n') := by
        rintro ⟨rfl, second⟩
        obtain ⟨rest', rfl⟩ := List.head?_eq_some_iff.mp second
        exact single rest' rfl rfl
      rw [if_neg other]
  · next same => cases same

theorem lineBreak?_eq_none_iff : c.lineBreak? = none ↔ c.seesBreak = false := by
  obtain ⟨rest, mark⟩ := c
  cases rest with
  | nil => simp [lineBreak?, seesBreak]
  | cons ch rest =>
      rw [lineBreak?_cons _ rfl]
      simp only [seesBreak, List.head?_cons, Option.any_some]
      split
      · next both => simp [both.1, isBreak]
      · split <;> simp_all

/-- A line break in a text of whole lines is read in the same way wherever the text stands. -/
theorem lineBreak?_within (lines : c.InLines) :
    (c.within s).lineBreak? = c.lineBreak?.map fun x => (x.1, x.2.within s) := by
  obtain ⟨rest, mark⟩ := c
  cases rest with
  | nil =>
      rcases s.parted with none | ⟨rest, marker⟩
      · simp [lineBreak?, none]
      · simp [lineBreak?, marker, isBreak]
  | cons ch rest =>
      have second : (rest ++ s.after).head? = some '\n' ↔ rest.head? = some '\n' := by
        cases rest with
        | cons next rest => rfl
        | nil =>
            rcases s.parted with none | ⟨rest, marker⟩
            · simp [none]
            · simp [marker]
      rw [lineBreak?_cons ⟨ch :: rest, mark⟩ rfl,
        lineBreak?_cons (Cursor.within ⟨ch :: rest, mark⟩ s) (List.cons_append ..)]
      simp only [second]
      split
      · next both =>
          obtain ⟨rest', rfl⟩ := List.head?_eq_some_iff.mp both.2
          simp only [Option.map_some, List.cons_append, List.tail_cons, newLine_within]
      · split
        · simp only [Option.map_some, newLine_within]
        · rfl

theorem of_lineBreak? (lines : c.InLines) {ch : Char} {c' : Cursor}
    (broken : c.lineBreak? = some (ch, c')) :
    c'.InLines ∧ c'.rest.length < c.rest.length ∧ c'.column = 0 := by
  obtain ⟨rest, mark⟩ := c
  cases rest with
  | nil => cases broken
  | cons first rest =>
      have ends : EndsLine (first :: rest) := lines.resolve_right (by simp)
      have left : EndsLine rest ∨ rest = [] := by
        by_cases more : rest = []
        · exact .inr more
        · exact .inl (ends.of_cons more)
      rw [lineBreak?_cons _ rfl] at broken
      split at broken
      · next both =>
          obtain ⟨rest', rfl⟩ := List.head?_eq_some_iff.mp both.2
          cases broken
          refine ⟨inLines_newLine ?_ 2, Nat.lt_succ_of_lt (Nat.lt_succ_self _), rfl⟩
          by_cases more : rest' = []
          · exact .inr more
          · exact .inl ((left.resolve_right (by simp)).of_cons more)
      · split at broken
        · cases broken
          exact ⟨inLines_newLine left 1, by simp [newLine], rfl⟩
        · cases broken

theorem skipBreak_within (lines : c.InLines) :
    (c.within s).skipBreak = c.skipBreak.within s ∧ c.skipBreak.InLines ∧
      c.skipBreak.rest.length ≤ c.rest.length := by
  rw [skipBreak, skipBreak, lineBreak?_within lines]
  cases broken : c.lineBreak? with
  | none => exact ⟨rfl, lines, Nat.le_refl _⟩
  | some x =>
      obtain ⟨left, shorter, -⟩ := of_lineBreak? lines broken
      exact ⟨rfl, left, Nat.le_of_lt shorter⟩

/-- A comment, or the rest of a line. -/
theorem skipToLineEnd_within (ends : EndsLine c.rest) :
    (c.within s).skipToLineEnd = c.skipToLineEnd.within s ∧ EndsLine c.skipToLineEnd.rest :=
  skipWhile_within ends (by decide)

/-- A comment, if there is one. -/
theorem comment_within (ends : EndsLine c.rest) :
    (if (c.within s).sees '#' then (c.within s).skipToLineEnd else c.within s) =
        (if c.sees '#' then c.skipToLineEnd else c).within s ∧
      EndsLine (if c.sees '#' then c.skipToLineEnd else c).rest := by
  rw [sees_within_of_endsLine ends]
  split
  · exact skipToLineEnd_within ends
  · exact ⟨rfl, ends⟩

/-- A line of a text of whole lines has an end. -/
theorem seesBreak_skipToLineEnd (ends : EndsLine c.rest) : c.skipToLineEnd.seesBreak = true := by
  obtain ⟨rest, mark⟩ := c
  simp only [skipToLineEnd, skipWhile, takeWhile, skip, seesBreak]
  induction rest with
  | nil => cases ends
  | cons ch rest ih =>
      rw [List.takeWhile_cons]
      cases isLast : isBreak ch with
      | true => simp [isLast]
      | false =>
          simp only [Bool.not_false, if_true, List.length_cons, List.drop_succ_cons]
          exact ih (ends.of_cons_of_not_break isLast)

/-! ## Document markers -/

/-- Whether a line is a marker is settled inside of the line. -/
theorem atDocumentMarker_within (ends : EndsLine c.rest) :
    (c.within s).atDocumentMarker = c.atDocumentMarker := by
  obtain ⟨rest, mark⟩ := c
  simp only [atDocumentMarker, column_within, rest_within]
  congr 1
  match rest, ends with
  | [a], ends =>
      have last : isBreak a = true := ends
      have apart : a ≠ '-' ∧ a ≠ '.' := by constructor <;> rintro rfl <;> cases last
      simp [apart]
  | [a, b], ends =>
      have last : isBreak b = true := ends
      have apart : b ≠ '-' ∧ b ≠ '.' := by constructor <;> rintro rfl <;> cases last
      simp [apart]
  | [a, b, d], ends =>
      have last : isBreak d = true := ends
      have apart : d ≠ '-' ∧ d ≠ '.' := by constructor <;> rintro rfl <;> cases last
      simp [apart]
  | a :: b :: d :: e :: rest, _ =>
      simp only [List.cons_append]
      split
      · next rest' same =>
          cases same
          rfl
      · next rest' same =>
          cases same
          rfl
      · next hyphens dots =>
          split
          · next rest' same =>
              cases same
              exact absurd rfl (hyphens _)
          · next rest' same =>
              cases same
              exact absurd rfl (dots _)
          · rfl

/-- A marker of a text of whole lines is followed by something. -/
theorem length_of_atDocumentMarker (ends : EndsLine c.rest) (marker : c.atDocumentMarker = true) :
    3 < c.rest.length := by
  have start := (Bool.and_eq_true_iff.mp marker).2
  split at start
  · next rest same =>
      have ends₁ : EndsLine rest := by
        rw [same] at ends
        exact ((ends.of_cons_of_not_break rfl).of_cons_of_not_break rfl).of_cons_of_not_break rfl
      rw [same]
      simpa using List.length_pos_iff.mpr ends₁.ne_nil
  · next rest same =>
      have ends₁ : EndsLine rest := by
        rw [same] at ends
        exact ((ends.of_cons_of_not_break rfl).of_cons_of_not_break rfl).of_cons_of_not_break rfl
      rw [same]
      simpa using List.length_pos_iff.mpr ends₁.ne_nil
  · cases start

/-- Behind the text a marker stands, or nothing at all. -/
theorem atDocumentMarker_within_of_nil (nothing : c.rest = []) (column : c.column = 0) :
    (c.within s).rest = [] ∨ (c.within s).atDocumentMarker = true := by
  rw [rest_within, nothing, List.nil_append]
  refine s.parted.imp_right fun ⟨rest, marker⟩ => ?_
  rw [atDocumentMarker, column_within, column, rest_within, nothing, marker]
  rfl

theorem not_atDocumentMarker_of_nil (nothing : c.rest = []) : c.atDocumentMarker = false := by
  rw [atDocumentMarker, nothing, Bool.and_false]

end Cursor

/-! ## Gaps -/

namespace Gap

variable {s : Surroundings} {c : Cursor}

/-- A gap is read in the same way wherever the text stands. It is not empty where a blank or a line
    break comes next. -/
theorem read_within (indent : Nat) {fuel k : Nat} {g : Gap} (lines : c.InLines)
    (enough : c.rest.length < fuel) (enough' : c.rest.length < k) :
    read indent k (c.within s) g =
        (read indent fuel c g).map (fun x => (x.1, x.2.within s)) ∧
      ∀ x, read indent fuel c g = some x → x.2.InLines ∧ x.2.rest.length ≤ c.rest.length ∧
        ((c.seesBlank || c.seesBreak) = true → x.2.rest.length < c.rest.length) := by
  induction fuel generalizing c g k with
  | zero => cases enough
  | succ fuel ih =>
      obtain ⟨k, rfl⟩ : ∃ n, k = n + 1 := ⟨k - 1, by omega⟩
      rw [read, read, Cursor.lineBreak?_within lines]
      cases broken : c.lineBreak? with
      | some x =>
          obtain ⟨lines', shorter, -⟩ := Cursor.of_lineBreak? lines broken
          have rest := fun g => ih (k := k) (g := g) lines' (by omega) (by omega)
          simp only [Option.map_some]
          refine ⟨(rest _).1, fun y done => ?_⟩
          obtain ⟨after, le, -⟩ := (rest _).2 y done
          exact ⟨after, by omega, fun _ => by omega⟩
      | none =>
          have inside := Cursor.lineBreak?_eq_none_iff.mp broken
          obtain ⟨rest, mark⟩ := c
          cases rest with
          | nil =>
              rcases s.parted with none | ⟨rest, marker⟩
              · simp [none, lines, Cursor.seesBlank, Cursor.seesBreak]
              · simp [marker, lines, Cursor.seesBlank, Cursor.seesBreak]
          | cons ch rest =>
              have ends : EndsLine (ch :: rest) := lines.resolve_right (by simp)
              have skipped : (Cursor.within ⟨ch :: rest, mark⟩ s).skip 1 =
                  (Cursor.skip ⟨ch :: rest, mark⟩ 1).within s := Cursor.skip_within (by simp)
              -- Behind a blank the gap goes on, and at anything else it ends.
              have goOn := fun g => ih (c := Cursor.skip ⟨ch :: rest, mark⟩ 1) (g := g)
                (k := k) (.inl (Cursor.endsLine_skip_one ends inside))
                (Nat.lt_of_succ_lt_succ enough) (Nat.lt_of_succ_lt_succ enough')
              have shorter : ∀ {g x}, read indent fuel (Cursor.skip ⟨ch :: rest, mark⟩ 1) g = some x →
                  x.2.InLines ∧ x.2.rest.length < (ch :: rest).length := fun done =>
                ⟨((goOn _).2 _ done).1, Nat.lt_succ_of_le ((goOn _).2 _ done).2.1⟩
              simp only [Option.map_none, Cursor.rest_within, Cursor.column_within, List.cons_append,
                skipped]
              by_cases space : ch = ' '
              · subst space
                refine ⟨(goOn _).1, fun x done => ?_⟩
                exact ⟨(shorter done).1, Nat.le_of_lt (shorter done).2, fun _ => (shorter done).2⟩
              · by_cases tab : ch = '\t'
                · subst tab
                  by_cases early :
                      (g.broken && (Cursor.column ⟨'\t' :: rest, mark⟩ < indent)) = true
                  · simp only [early, if_true]
                    exact ⟨rfl, fun x done => by cases done⟩
                  · simp only [early, if_false, Bool.false_eq_true]
                    refine ⟨(goOn _).1, fun x done => ?_⟩
                    exact ⟨(shorter done).1, Nat.le_of_lt (shorter done).2,
                      fun _ => (shorter done).2⟩
                · have blank : isBlank ch = false := by simp [isBlank, space, tab]
                  simp [space, tab, lines, Cursor.seesBlank, blank, inside]

end Gap

end ManifestMigration.Yaml
