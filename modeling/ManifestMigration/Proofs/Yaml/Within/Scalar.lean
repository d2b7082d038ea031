import ManifestMigration.Proofs.Yaml.Within.Cursor
import ManifestMigration.Yaml.Token.Scalar

/-! # Scalars in a text among others

Quoted, plain and block scalars are read in the same way wherever the text of whole lines stands that
holds them. All of them go over line breaks, so each is followed from line to line up to the end of
the text, where a quoted scalar cannot end and the other ones must.
-/

namespace ManifestMigration.Text

theorem digitOf?_of_digits? {base n : Nat} {text : List Char} (done : digits? base text = some n) :
    ∀ ch ∈ text, ∃ value, digitOf? base ch = some value := by
  have each : ∀ (text : List Char) (acc : Nat),
      text.foldlM (fun n c => (digitOf? base c).map (base * n + ·)) acc = some n →
        ∀ ch ∈ text, ∃ value, digitOf? base ch = some value := by
    intro text
    induction text with
    | nil => exact fun _ _ => List.forall_mem_nil _
    | cons first rest ih =>
        intro acc done
        rw [List.foldlM_cons] at done
        cases digit : digitOf? base first with
        | none =>
            rw [digit] at done
            cases done
        | some value =>
            rw [digit] at done
            exact List.forall_mem_cons.mpr ⟨⟨value, digit⟩, ih _ done⟩
  unfold digits? at done
  split at done
  · cases done
  · exact each text 0 done

end ManifestMigration.Text

namespace ManifestMigration.Yaml.Token

open Cursor

variable {c c' : Cursor} {s : Surroundings}

/-! ## Quoted scalars -/

theorem not_isBreak_of_digit {ch : Char} {value : Nat} (digit : Text.digitOf? 16 ch = some value) :
    isBreak ch = false := by
  have stops : Stops fun ch => (Text.digitOf? 16 ch).isSome := by decide
  exact stops.not_isBreak (Option.isSome_of_eq_some digit)

/-- A run of digits in a text of whole lines ends before its last character. -/
theorem length_lt_of_digits {rest : List Char} (ends : EndsLine rest) {width code : Nat}
    (digits : Text.digits? 16 (rest.take width) = some code) : width < rest.length := by
  rcases Nat.lt_or_ge width rest.length with more | all
  · exact more
  · exfalso
    rw [List.take_of_length_le all] at digits
    obtain ⟨last, member, isLast⟩ := ends.exists_break
    obtain ⟨value, digit⟩ := Text.digitOf?_of_digits? digits last member
    cases (not_isBreak_of_digit digit).symm.trans isLast

/-- What an escape starts with does not end a line. -/
theorem not_isBreak_of_escape {letter : Char}
    (known : escapedChar? letter ≠ none ∨ escapeWidth? letter ≠ none) : isBreak letter = false := by
  have stops : Stops fun ch => (escapedChar? ch).isSome || (escapeWidth? ch).isSome := by decide
  refine stops.not_isBreak (Bool.or_eq_true_iff.mpr ?_)
  exact known.imp Option.isSome_iff_ne_none.mpr Option.isSome_iff_ne_none.mpr

theorem readEscape_within (ends : EndsLine c.rest) {ch : Char}
    (done : readEscape c = some (ch, c')) :
    readEscape (c.within s) = some (ch, c'.within s) ∧ EndsLine c'.rest ∧
      c'.rest.length < c.rest.length := by
  obtain ⟨rest, mark⟩ := c
  cases rest with
  | nil => cases ends
  | cons letter rest =>
      simp only [readEscape, rest_within, List.cons_append] at done ⊢
      cases single : escapedChar? letter with
      | some decoded =>
          have inside := not_isBreak_of_escape (.inl (single ▸ Option.some_ne_none _))
          simp only [single, Option.some.injEq, Prod.mk.injEq] at done ⊢
          obtain ⟨rfl, rfl⟩ := done
          rw [skip_within (by simp)]
          exact ⟨⟨rfl, rfl⟩, endsLine_skip_one ends inside, by simp [skip]⟩
      | none =>
          simp only [single] at done ⊢
          cases numeric : escapeWidth? letter with
          | none =>
              rw [numeric] at done
              cases done
          | some width =>
              have inside := not_isBreak_of_escape (.inr (numeric ▸ Option.some_ne_none _))
              have ends' := ends.of_cons_of_not_break inside
              simp only [numeric] at done ⊢
              split at done
              · cases done
              · next long =>
                  cases digits : Text.digits? 16 (rest.take width) with
                  | none =>
                      rw [digits] at done
                      cases done
                  | some code =>
                      have shorter := length_lt_of_digits ends' digits
                      rw [List.take_append_of_le_length (Nat.le_of_lt shorter), if_neg long]
                      simp only [digits] at done ⊢
                      split at done
                      · next valid =>
                          cases done
                          have within : width + 1 < (letter :: rest).length :=
                            Nat.succ_lt_succ shorter
                          rw [if_pos valid, skip_within (by simp only; omega)]
                          refine ⟨rfl, endsLine_skip ends (by simp only; omega), ?_⟩
                          simp only [skip, List.length_drop]
                          omega
                      · cases done


/-- The character that closes a quoted scalar. -/
def quote (double : Bool) : Char := if double then '"' else '\''

/-- Where the reading of a piece of a quoted scalar stops: behind an escaped line break, or in a
    line, at a blank, a line break or the closing quote. -/
structure PieceEnd (double : Bool) (c c' : Cursor) : Prop where
  lines : c'.InLines
  le : c'.rest.length ≤ c.rest.length
  stop : c'.rest.length < c.rest.length ∨ (c'.seesBlank || c'.seesBreak) = true ∨
    c'.sees (quote double) = true

theorem PieceEnd.of_shorter {double : Bool} {c c₁ c' : Cursor} (stopped : PieceEnd double c₁ c')
    (shorter : c₁.rest.length < c.rest.length) : PieceEnd double c c' :=
  have le := Nat.lt_of_le_of_lt stopped.le shorter
  ⟨stopped.lines, Nat.le_of_lt le, .inl le⟩

/-- Pieces are read with so much allowance in the larger text as they are alone. -/
def PiecesWithin (s : Surroundings) (double : Bool) (fuel k : Nat) : Prop :=
  ∀ {c c' : Cursor} {read read' : List Char} {escaped : Bool}, EndsLine c.rest →
    c.rest.length < fuel → c.rest.length < k →
    readQuotedPiece double fuel c read = some (read', c', escaped) →
    readQuotedPiece double k (c.within s) read = some (read', c'.within s, escaped) ∧
      PieceEnd double c c'

section Pieces

variable {fuel k : Nat} {read read' : List Char} {escaped : Bool} {rest : List Char} {mark : Mark}

/-- Two single quotes stand for one, and one ends the scalar. -/
theorem PiecesWithin.single_quote (below : PiecesWithin s false fuel k)
    (ends : EndsLine ('\'' :: rest)) (enough : rest.length < fuel) (enough' : rest.length < k)
    (done : readQuotedPiece false (fuel + 1) ⟨'\'' :: rest, mark⟩ read =
      some (read', c', escaped)) :
    readQuotedPiece false (k + 1) (Cursor.within ⟨'\'' :: rest, mark⟩ s) read =
        some (read', c'.within s, escaped) ∧
      PieceEnd false ⟨'\'' :: rest, mark⟩ c' := by
  have ends' : EndsLine rest := ends.of_cons_of_not_break rfl
  have plain : (isBlank '\'' || isBreak '\'') = false := by decide
  have second : (rest ++ s.after).head? = rest.head? := head?_within (c := ⟨rest, mark⟩) ends'
  simp only [readQuotedPiece, rest_within, List.cons_append, plain, Bool.false_eq_true, if_false,
    if_true, second] at done ⊢
  split at done
  · next doubled =>
      obtain ⟨rest, rfl⟩ := List.head?_eq_some_iff.mp doubled
      rw [List.length_cons] at enough enough'
      obtain ⟨same, stopped⟩ := below (c := skip ⟨'\'' :: '\'' :: rest, mark⟩ 2)
        (ends'.of_cons_of_not_break rfl) (Nat.lt_of_succ_lt enough) (Nat.lt_of_succ_lt enough') done
      rw [if_pos doubled, skip_within (Nat.succ_le_succ (Nat.succ_le_succ (Nat.zero_le _)))]
      exact ⟨same, stopped.of_shorter (Nat.lt_succ_of_lt (Nat.lt_succ_self _))⟩
  · next single =>
      cases done
      rw [if_neg single]
      exact ⟨rfl, .inl ends, Nat.le_refl _, .inr (.inr rfl)⟩

/-- A backslash escapes a line break or starts an escape. -/
theorem PiecesWithin.backslash (below : PiecesWithin s true fuel k)
    (ends : EndsLine ('\\' :: rest)) (enough : rest.length < fuel) (enough' : rest.length < k)
    (done : readQuotedPiece true (fuel + 1) ⟨'\\' :: rest, mark⟩ read =
      some (read', c', escaped)) :
    readQuotedPiece true (k + 1) (Cursor.within ⟨'\\' :: rest, mark⟩ s) read =
        some (read', c'.within s, escaped) ∧
      PieceEnd true ⟨'\\' :: rest, mark⟩ c' := by
  have ends' : EndsLine (skip ⟨'\\' :: rest, mark⟩ 1).rest := ends.of_cons_of_not_break rfl
  have plain : (isBlank '\\' || isBreak '\\') = false := by decide
  have other : '\\' ≠ '"' := by decide
  have skipped : (Cursor.within ⟨'\\' :: rest, mark⟩ s).skip 1 =
      (skip ⟨'\\' :: rest, mark⟩ 1).within s := skip_within (Nat.succ_le_succ (Nat.zero_le _))
  have size : (skip ⟨'\\' :: rest, mark⟩ 1).rest.length < rest.length + 1 := Nat.lt_succ_self _
  simp only [readQuotedPiece, rest_within, List.cons_append, plain, other, Bool.false_eq_true,
    if_false, if_true, skipped, seesBreak_within (.inl ends')] at done ⊢
  split at done
  · next broken =>
      cases done
      obtain ⟨same, left, le⟩ := skipBreak_within (s := s) (.inl ends')
      rw [if_pos broken, same]
      have shorter := Nat.lt_of_le_of_lt le size
      exact ⟨rfl, left, Nat.le_of_lt shorter, .inl shorter⟩
  · next unbroken =>
      rw [if_neg unbroken]
      split at done
      · next decoded c₂ decodes =>
          obtain ⟨same, ends₂, shorter⟩ := readEscape_within (s := s) ends' decodes
          have less : c₂.rest.length < rest.length := shorter
          obtain ⟨same₂, stopped⟩ := below ends₂ (less.trans enough) (less.trans enough') done
          simp only [same]
          exact ⟨same₂, stopped.of_shorter (Nat.lt_trans shorter size)⟩
      · cases done

/-- Any other character is read as it is. -/
theorem readQuotedPiece_plain {double : Bool} {ch : Char}
    (inside : (isBlank ch || isBreak ch) = false) (single : ¬(double = false ∧ ch = '\''))
    (escape : ¬(double = true ∧ ch = '\\')) (closing : ¬(double = true ∧ ch = '"')) :
    readQuotedPiece double (fuel + 1) ⟨ch :: rest, mark⟩ read =
      readQuotedPiece double fuel (skip ⟨ch :: rest, mark⟩ 1) (ch :: read) := by
  cases double with
  | false =>
      simp only [true_and] at single
      simp only [readQuotedPiece, inside, single, Bool.false_eq_true, if_false]
  | true =>
      simp only [true_and] at escape closing
      simp only [readQuotedPiece, inside, escape, closing, Bool.false_eq_true, if_true, if_false]

end Pieces

/-- By induction on the allowance; the cases are those of the piece's first character. -/
theorem readQuotedPiece_within {double : Bool} {fuel k : Nat} : PiecesWithin s double fuel k := by
  induction fuel generalizing k with
  | zero => exact fun _ enough => absurd enough (Nat.not_lt_zero _)
  | succ fuel ih =>
      intro c c' read read' escaped ends enough enough' done
      obtain ⟨k, rfl⟩ : ∃ n, k = n + 1 := ⟨k - 1, by omega⟩
      obtain ⟨rest, mark⟩ := c
      cases rest with
      | nil => cases ends
      | cons ch rest =>
          replace enough : rest.length < fuel := Nat.lt_of_succ_lt_succ enough
          replace enough' : rest.length < k := Nat.lt_of_succ_lt_succ enough'
          by_cases gap : (isBlank ch || isBreak ch) = true
          · simp only [readQuotedPiece, rest_within, List.cons_append, gap, if_true,
              Option.some.injEq, Prod.mk.injEq] at done ⊢
            obtain ⟨rfl, rfl, rfl⟩ := done
            exact ⟨⟨rfl, rfl, rfl⟩, .inl ends, Nat.le_refl _, .inr (.inl gap)⟩
          by_cases single : double = false ∧ ch = '\''
          · obtain ⟨rfl, rfl⟩ := single
            exact ih.single_quote ends enough enough' done
          by_cases escape : double = true ∧ ch = '\\'
          · obtain ⟨rfl, rfl⟩ := escape
            exact ih.backslash ends enough enough' done
          by_cases closing : double = true ∧ ch = '"'
          · obtain ⟨rfl, rfl⟩ := closing
            cases done
            exact ⟨rfl, .inl ends, Nat.le_refl _, .inr (.inr rfl)⟩
          have inside : (isBlank ch || isBreak ch) = false := Bool.eq_false_iff.mpr gap
          rw [readQuotedPiece_plain inside single escape closing] at done
          obtain ⟨same, stopped⟩ := ih (endsLine_skip_one (c := ⟨ch :: rest, mark⟩) ends
            (Bool.or_eq_false_iff.mp inside).2) enough enough' done
          rw [← skip_within (Nat.succ_le_succ (Nat.zero_le _))] at same
          exact ⟨(readQuotedPiece_plain inside single escape closing).trans same,
            stopped.of_shorter (Nat.lt_succ_self _)⟩

theorem readQuotedPieces_within {double : Bool} {fuel k : Nat} {read text : List Char}
    (lines : c.InLines) (enough : c.rest.length < k)
    (done : readQuotedPieces double fuel c read = some (text, c')) :
    readQuotedPieces double k (c.within s) read = some (text, c'.within s) ∧
      EndsLine c'.rest := by
  induction fuel generalizing c k read with
  | zero => cases done
  | succ fuel ih =>
      obtain ⟨k, rfl⟩ : ∃ n, k = n + 1 := ⟨k - 1, by omega⟩
      rw [readQuotedPieces] at done ⊢
      split at done
      · cases done
      · next goesOn =>
          have more : c.rest ≠ [] := by
            rintro nothing
            simp [atEnd, nothing] at goesOn
          have ends := lines.resolve_right fun nothing => more nothing.1
          rw [atDocumentMarker_within ends, atEnd_within_of_endsLine ends,
            ← atEnd_of_endsLine ends, if_neg goesOn]
          split at done
          · cases done
          · next read₁ c₁ escaped piece =>
              obtain ⟨same, stopped⟩ := readQuotedPiece_within (s := s)
                (k := (c.within s).rest.length + 1) ends (Nat.lt_succ_self _)
                (length_lt_within c s) piece
              generalize quoted : (if double = true then '"' else '\'') = closing at done ⊢
              have closes : closing ≠ '-' ∧ isBreak closing = false := by
                subst quoted
                cases double <;> decide
              simp only [same, sees_within stopped.lines closes.1]
              split at done
              · next closed =>
                  cases done
                  obtain ⟨skipped, left, -⟩ :=
                    skip_within_of_sees (s := s) stopped.lines closed closes.2
                  rw [if_pos closed, skipped]
                  exact ⟨rfl, left⟩
              · next unclosed =>
                  rw [if_neg unclosed]
                  split at done
                  · cases done
                  · next gap c₂ gapped =>
                      obtain ⟨sameGap, after⟩ := Gap.read_within (s := s) 0
                        (k := (c₁.within s).rest.length + 1)
                        (g := if escaped = true then .escapedBreak else .none) stopped.lines
                        (Nat.lt_succ_self _) (length_lt_within c₁ s)
                      obtain ⟨lines₂, le, progress⟩ := after _ gapped
                      rw [sameGap, gapped]
                      have shorter : c₂.rest.length < c.rest.length := by
                        rcases stopped.stop with less | blank | closed
                        · exact Nat.lt_of_le_of_lt le less
                        · exact Nat.lt_of_lt_of_le (progress blank) stopped.le
                        · exact absurd closed (by rwa [quote, quoted])
                      exact ih (c := c₂) (k := k) lines₂ (by omega) done

/-- A quoted scalar behind its opening quote. -/
theorem readQuoted_within {double : Bool} {text : List Char} (ends : EndsLine c.rest)
    (done : readQuoted double c = some (text, c')) :
    readQuoted double (c.within s) = some (text, c'.within s) ∧ EndsLine c'.rest :=
  readQuotedPieces_within (.inl ends) (length_lt_within c s) done

/-! ## Plain scalars -/

/-- A piece of a plain scalar ends on its line. -/
theorem plainPieceLength_append (inFlow : Bool) {text : List Char} (ends : EndsLine text)
    (after : List Char) :
    plainPieceLength inFlow (text ++ after) = plainPieceLength inFlow text ∧
      ∀ n, plainPieceLength inFlow text = some n → n < text.length := by
  induction text with
  | nil => cases ends
  | cons ch rest ih =>
      rw [List.cons_append, plainPieceLength, plainPieceLength]
      by_cases gap : (isBlank ch || isBreak ch) = true
      · simp [gap]
      · have inside : isBreak ch = false := by
          simp only [Bool.or_eq_true, not_or, Bool.not_eq_true] at gap
          exact gap.2
        have ends' := ends.of_cons_of_not_break inside
        have second : (rest ++ after).head? = rest.head? := by
          obtain ⟨next, more, rfl⟩ := List.exists_cons_of_ne_nil ends'.ne_nil
          rfl
        obtain ⟨same, shorter⟩ := ih ends'
        rw [second, startsBlank_append ends'.ne_nil, same]
        refine ⟨rfl, fun n done => ?_⟩
        rw [if_neg gap] at done
        split at done
        · cases done
        · split at done
          · cases done
            simp
          · obtain ⟨m, found, rfl⟩ := Option.map_eq_some_iff.mp done
            exact Nat.succ_lt_succ (shorter m found)

def PlainRead.within (p : PlainRead) (s : Surroundings) : PlainRead :=
  ⟨p.read, p.last.within s, p.cursor.within s, p.broken⟩

@[simp] theorem PlainRead.cursor_within {p : PlainRead} :
    (p.within s).cursor = p.cursor.within s := rfl

/-- A plain scalar behind one more piece, of the given length. -/
def PlainRead.withPiece (p : PlainRead) (gap : Gap) (n : Nat) : PlainRead :=
  if n = 0 then p
  else ⟨(p.cursor.rest.take n).reverse ++ (gap.text.reverse ++ p.read), (p.cursor.skip n).mark,
    p.cursor.skip n, false⟩

theorem PlainRead.withPiece_within {p : PlainRead} {gap : Gap} {n : Nat}
    (enough : n ≤ p.cursor.rest.length) :
    (p.within s).withPiece gap n = (p.withPiece gap n).within s := by
  simp only [withPiece, cursor_within, rest_within, skip_within enough,
    List.take_append_of_le_length enough]
  split <;> rfl

theorem PlainRead.inLines_withPiece {p : PlainRead} {gap : Gap} {n : Nat}
    (ends : EndsLine p.cursor.rest) (less : n < p.cursor.rest.length) :
    (p.withPiece gap n).cursor.InLines := by
  rw [withPiece]
  split
  · exact .inl ends
  · exact .inl (endsLine_skip ends less)

/-- Read on behind a piece of a plain scalar that ends at the cursor. -/
def PlainRead.readOn (inFlow : Bool) (indent fuel : Nat) (gap : Gap) (c : Cursor)
    (p : PlainRead) : Option PlainRead :=
  if c.seesBlank || c.seesBreak then
    (Gap.read indent (c.rest.length + 1) c gap).bind fun found =>
      if !inFlow && found.2.column < indent then
        some { p with cursor := found.2, broken := found.1.broken }
      else
        readPlainPieces inFlow indent fuel found.1
          { p with cursor := found.2, broken := found.1.broken }
  else some p

theorem readPlainPieces_succ (inFlow : Bool) (indent fuel : Nat) (gap : Gap) (p : PlainRead) :
    readPlainPieces inFlow indent (fuel + 1) gap p =
      if p.cursor.atDocumentMarker || p.cursor.sees '#' then some p
      else (plainPieceLength inFlow p.cursor.rest).bind fun n =>
        (p.withPiece gap n).readOn inFlow indent fuel (if n = 0 then gap else .none)
          (p.cursor.skip n) := by
  rw [readPlainPieces]
  cases plainPieceLength inFlow p.cursor.rest with
  | none => rfl
  | some n =>
      simp only [Option.bind_some, PlainRead.readOn]
      cases Gap.read indent ((p.cursor.skip n).rest.length + 1) (p.cursor.skip n)
        (if n = 0 then gap else .none) <;> rfl

theorem readPlainPieces_of_nil {inFlow : Bool} {indent fuel : Nat} {gap : Gap} {p : PlainRead}
    (nothing : p.cursor.rest = []) :
    readPlainPieces inFlow indent (fuel + 1) gap p = some p := by
  have stop : (p.cursor.skip 0).seesBlank = false ∧ (p.cursor.skip 0).seesBreak = false := by
    simp [seesBlank, seesBreak, skip, nothing]
  simp [readPlainPieces, not_atDocumentMarker_of_nil nothing, sees, nothing, plainPieceLength, stop]

theorem readPlainPieces_of_marker {inFlow : Bool} {indent fuel : Nat} {gap : Gap} {p : PlainRead}
    (marker : p.cursor.atDocumentMarker = true) :
    readPlainPieces inFlow indent (fuel + 1) gap p = some p := by
  simp [readPlainPieces, marker]

/-- Pieces of a plain scalar are read with so much allowance in the larger text as they are
    alone. -/
def PlainPiecesWithin (s : Surroundings) (inFlow : Bool) (indent fuel k : Nat) : Prop :=
  ∀ {gap : Gap} {p p' : PlainRead}, p.cursor.InLines → p.cursor.rest.length < fuel →
    p.cursor.rest.length < k → readPlainPieces inFlow indent fuel gap p = some p' →
    readPlainPieces inFlow indent k gap (p.within s) = some (p'.within s) ∧ p'.cursor.InLines

theorem PlainPiecesWithin.readOn {inFlow : Bool} {indent fuel k : Nat} {gap : Gap}
    {p p' : PlainRead} (below : PlainPiecesWithin s inFlow indent fuel k) (ends : EndsLine c.rest)
    (lines : p.cursor.InLines) (enough : c.rest.length ≤ fuel) (enough' : c.rest.length ≤ k)
    (done : p.readOn inFlow indent fuel gap c = some p') :
    (p.within s).readOn inFlow indent k gap (c.within s) = some (p'.within s) ∧
      p'.cursor.InLines := by
  rw [PlainRead.readOn] at done ⊢
  rw [seesBlank_within (.inl ends), seesBreak_within (.inl ends)]
  split at done
  · next more =>
      obtain ⟨sameGap, after⟩ := Gap.read_within (s := s) indent
        (k := (c.within s).rest.length + 1) (g := gap) (.inl ends) (Nat.lt_succ_self _)
        (length_lt_within c s)
      obtain ⟨⟨gap₂, c₂⟩, gapped, done⟩ := Option.bind_eq_some_iff.mp done
      obtain ⟨lines₂, -, progress⟩ := after _ gapped
      have shorter : c₂.rest.length < c.rest.length := progress more
      rw [if_pos more, sameGap, gapped]
      simp only [Option.map_some, Option.bind_some, column_within] at done ⊢
      split at done
      · next outside =>
          cases done
          rw [if_pos outside]
          exact ⟨rfl, lines₂⟩
      · next indented =>
          rw [if_neg indented]
          exact below (p := { p with cursor := c₂, broken := gap₂.broken }) lines₂
            (Nat.lt_of_lt_of_le shorter enough) (Nat.lt_of_lt_of_le shorter enough') done
  · next stop =>
      cases done
      rw [if_neg stop]
      exact ⟨rfl, lines⟩

theorem readPlainPieces_within {inFlow : Bool} {indent fuel k : Nat} :
    PlainPiecesWithin s inFlow indent fuel k := by
  induction fuel generalizing k with
  | zero => exact fun _ enough => absurd enough (Nat.not_lt_zero _)
  | succ fuel ih =>
      intro gap p p' lines enough enough' done
      obtain ⟨k, rfl⟩ : ∃ n, k = n + 1 := ⟨k - 1, by omega⟩
      rcases lines with ends | ⟨nothing, column⟩
      · rw [readPlainPieces_succ] at done ⊢
        obtain ⟨same, shorter⟩ := plainPieceLength_append inFlow ends s.after
        simp only [PlainRead.cursor_within, atDocumentMarker_within ends, rest_within, same,
          sees_within (.inl ends) (show '#' ≠ '-' by decide)]
        split at done
        · next stop =>
            cases done
            exact ⟨by rw [if_pos stop], .inl ends⟩
        · next goesOn =>
            obtain ⟨n, length, done⟩ := Option.bind_eq_some_iff.mp done
            have less : n < p.cursor.rest.length := shorter n length
            have size : (p.cursor.skip n).rest.length ≤ p.cursor.rest.length := by simp [skip]
            rw [if_neg goesOn, length, Option.bind_some, skip_within (Nat.le_of_lt less),
              PlainRead.withPiece_within (Nat.le_of_lt less)]
            exact ih.readOn (endsLine_skip ends less) (PlainRead.inLines_withPiece ends less)
              (size.trans (Nat.le_of_lt_succ enough)) (size.trans (Nat.le_of_lt_succ enough')) done
      · -- At the end of the text nothing is read any more: the marker stops the scalar as well.
        obtain rfl : p = p' := by
          rw [readPlainPieces_of_nil nothing] at done
          exact Option.some.inj done
        refine ⟨?_, .inr ⟨nothing, column⟩⟩
        rcases atDocumentMarker_within_of_nil (s := s) nothing column with nothing' | marker
        · exact readPlainPieces_of_nil nothing'
        · exact readPlainPieces_of_marker marker

/-- A plain scalar. -/
theorem readPlain_within {inFlow : Bool} {indent : Nat} {p : PlainRead} (ends : EndsLine c.rest)
    (done : readPlain inFlow indent c = some p) :
    readPlain inFlow indent (c.within s) = some (p.within s) ∧ p.cursor.InLines :=
  readPlainPieces_within (p := ⟨[], c.mark, c, false⟩) (.inl ends) (Nat.lt_succ_self _)
    (length_lt_within c s) done

/-! ## Block scalars -/

theorem readChomping_within (ends : EndsLine c.rest) :
    readChomping (c.within s) = (readChomping c).map (fun x => (x.1, x.2.within s)) ∧
      ∀ x, readChomping c = some x → EndsLine x.2.rest := by
  unfold readChomping
  rw [sees_within_of_endsLine ends, sees_within_of_endsLine ends]
  by_cases keep : c.sees '+' = true
  · obtain ⟨skipped, left, -⟩ := skip_within_of_sees (s := s) (.inl ends) keep rfl
    simp [keep, skipped, left]
  · by_cases strip : c.sees '-' = true
    · obtain ⟨skipped, left, -⟩ := skip_within_of_sees (s := s) (.inl ends) strip rfl
      simp [keep, strip, skipped, left]
    · simp [keep, strip]

theorem readIncrement_within (ends : EndsLine c.rest) :
    readIncrement (c.within s) = (readIncrement c).map (fun x => (x.1, x.2.within s)) ∧
      ∀ x, readIncrement c = some x → EndsLine x.2.rest := by
  obtain ⟨rest, mark⟩ := c
  cases rest with
  | nil => cases ends
  | cons ch rest =>
      simp only [readIncrement, rest_within, List.cons_append]
      by_cases zero : ch = '0'
      · simp [zero]
      · by_cases digit : ch.isDigit = true
        · have seen : (⟨ch :: rest, mark⟩ : Cursor).sees ch = true := by simp [sees]
          have stops : Stops Char.isDigit := by decide
          obtain ⟨skipped, left, -⟩ :=
            skip_within_of_sees (s := s) (.inl ends) seen (stops.not_isBreak digit)
          simp only [zero, digit, if_true, if_false, skipped, Option.map_some, true_and]
          rintro x ⟨⟩
          exact left
        · simp only [zero, digit, if_false, Bool.false_eq_true, Option.map_some, true_and]
          rintro x ⟨⟩
          exact ends

theorem readBlockHeader_within (ends : EndsLine c.rest) {header : BlockHeader}
    (done : readBlockHeader c = some (header, c')) :
    readBlockHeader (c.within s) = some (header, c'.within s) ∧ EndsLine c'.rest := by
  obtain ⟨sameChomping, afterChomping⟩ := readChomping_within (s := s) ends
  obtain ⟨sameIncrement, afterIncrement⟩ := readIncrement_within (s := s) ends
  rw [readBlockHeader] at done ⊢
  rw [sameChomping, sameIncrement]
  cases chomping : readChomping c with
  | some x =>
      obtain ⟨same, after⟩ := readIncrement_within (s := s) (afterChomping x chomping)
      simp only [chomping, Option.map_some, same, Option.map_map] at done ⊢
      obtain ⟨y, increment, made⟩ := Option.map_eq_some_iff.mp done
      cases made
      rw [increment]
      exact ⟨rfl, after y increment⟩
  | none =>
      simp only [chomping, Option.map_none] at done ⊢
      cases increment : readIncrement c with
      | none =>
          rw [increment] at done
          cases done
      | some x =>
          obtain ⟨width, c₁⟩ := x
          have ends₁ := afterIncrement _ increment
          obtain ⟨same, after⟩ := readChomping_within (s := s) ends₁
          rw [increment] at done
          cases width with
          | none =>
              cases done
              exact ⟨rfl, ends₁⟩
          | some n =>
              simp only [Option.map_some, same] at done ⊢
              cases chomping₁ : readChomping c₁ with
              | some y =>
                  rw [chomping₁] at done
                  cases done
                  exact ⟨rfl, after y chomping₁⟩
              | none =>
                  rw [chomping₁] at done
                  cases done
                  exact ⟨rfl, ends₁⟩

/-- How many spaces are gone over at the start of a line. -/
def indentWidth (indent : Option Nat) (c : Cursor) : Nat :=
  let spaces := (c.rest.takeWhile (· == ' ')).length
  match indent with
  | some n => min spaces (n - c.column)
  | none => spaces

theorem indentWidth_le (indent : Option Nat) (c : Cursor) :
    indentWidth indent c ≤ (c.rest.takeWhile (· == ' ')).length := by
  cases indent with
  | none => exact Nat.le_refl _
  | some n => exact Nat.min_le_left _ _

theorem indentWidth_within (lines : c.InLines) (indent : Option Nat) :
    indentWidth indent (c.within s) = indentWidth indent c := by
  have spaces : (c.rest ++ s.after).takeWhile (· == ' ') = c.rest.takeWhile (· == ' ') :=
    takeWhile_append_of_inLines lines (by decide) (by decide)
  simp only [indentWidth, rest_within, spaces, column_within]

theorem skip_indentWidth_within (lines : c.InLines) (indent : Option Nat) :
    (c.within s).skip (indentWidth indent c) = (c.skip (indentWidth indent c)).within s ∧
      (c.skip (indentWidth indent c)).InLines ∧
      (c.skip (indentWidth indent c)).rest.length ≤ c.rest.length := by
  have le := indentWidth_le indent c
  have inBounds := Nat.le_trans le (List.takeWhile_prefix _).length_le
  exact ⟨skip_within inBounds, inLines_skip lines (by decide) le, by simp [skip]⟩

def BlockBreaks.within (b : BlockBreaks) (s : Surroundings) : BlockBreaks :=
  ⟨b.breaks, b.widest, b.last.within s, b.cursor.within s⟩

@[simp] theorem BlockBreaks.cursor_within {b : BlockBreaks} :
    (b.within s).cursor = b.cursor.within s := rfl

@[simp] theorem BlockBreaks.widest_within {b : BlockBreaks} : (b.within s).widest = b.widest := rfl

/-- One line before the next line of content. -/
theorem readBlockBreaks_succ (indent : Option Nat) (fuel : Nat) (b : BlockBreaks) :
    readBlockBreaks indent (fuel + 1) b =
      let c := b.cursor.skip (indentWidth indent b.cursor)
      if (indent.all fun n => c.column < n) && c.sees '\t' then none
      else
        match c.lineBreak? with
        | some (ch, c') =>
          readBlockBreaks indent fuel ⟨b.breaks ++ [ch], max b.widest c.column, c'.mark, c'⟩
        | none => some ⟨b.breaks, max b.widest c.column, b.last, c⟩ := by
  cases indent <;> rfl

theorem readBlockBreaks_within (indent : Option Nat) {fuel k : Nat} {b : BlockBreaks}
    (lines : b.cursor.InLines) (enough : b.cursor.rest.length < fuel)
    (enough' : b.cursor.rest.length < k) :
    readBlockBreaks indent k (b.within s) =
        (readBlockBreaks indent fuel b).map (·.within s) ∧
      ∀ b', readBlockBreaks indent fuel b = some b' →
        b'.cursor.InLines ∧ b'.cursor.rest.length ≤ b.cursor.rest.length := by
  induction fuel generalizing b k with
  | zero => cases enough
  | succ fuel ih =>
      obtain ⟨k, rfl⟩ : ∃ n, k = n + 1 := ⟨k - 1, by omega⟩
      obtain ⟨skipped, lines₁, le⟩ := skip_indentWidth_within (s := s) lines indent
      rw [readBlockBreaks_succ, readBlockBreaks_succ, BlockBreaks.cursor_within,
        indentWidth_within lines, skipped]
      generalize b.cursor.skip (indentWidth indent b.cursor) = c₁ at lines₁ le ⊢
      simp only [sees_within lines₁ (show '\t' ≠ '-' by decide), column_within,
        lineBreak?_within lines₁]
      split
      · exact ⟨rfl, fun b' done => by cases done⟩
      · cases broken : c₁.lineBreak? with
        | none =>
            refine ⟨rfl, fun b' done => ?_⟩
            cases done
            exact ⟨lines₁, le⟩
        | some x =>
            obtain ⟨lines₂, shorter, -⟩ := of_lineBreak? lines₁ broken
            obtain ⟨same, after⟩ := ih (k := k)
              (b := ⟨b.breaks ++ [x.1], max b.widest c₁.column, x.2.mark, x.2⟩) lines₂
              (by simp only; omega) (by simp only; omega)
            refine ⟨same, fun b' done => ?_⟩
            obtain ⟨lines', le'⟩ := after b' done
            exact ⟨lines', Nat.le_trans le' (by simp only; omega)⟩

/-- The lines from the cursor on, before the next line of content. -/
theorem readBlockBreaks_start_within (indent : Option Nat) (lines : c.InLines) :
    readBlockBreaks indent ((c.within s).rest.length + 1)
        ⟨[], 0, (c.within s).mark, c.within s⟩ =
        (readBlockBreaks indent (c.rest.length + 1) ⟨[], 0, c.mark, c⟩).map (·.within s) ∧
      ∀ b, readBlockBreaks indent (c.rest.length + 1) ⟨[], 0, c.mark, c⟩ = some b →
        b.cursor.InLines ∧ b.cursor.rest.length ≤ c.rest.length :=
  readBlockBreaks_within indent (b := ⟨[], 0, c.mark, c⟩) lines (Nat.lt_succ_self _)
    (length_lt_within c s)

/-- A line of content ends in a line break. -/
theorem exists_lineBreak (ends : EndsLine c.rest) :
    ∃ x, (c.takeWhile fun ch => !isBreak ch).2.lineBreak? = some x ∧ x.2.InLines ∧
      x.2.rest.length < c.rest.length := by
  have ends₁ := (takeWhile_within (s := .none) ends (p := fun ch => !isBreak ch) (by decide)).2
  have le : (c.takeWhile fun ch => !isBreak ch).2.rest.length ≤ c.rest.length := by
    simp [takeWhile, skip]
  cases broken : (c.takeWhile fun ch => !isBreak ch).2.lineBreak? with
  | none => cases (seesBreak_skipToLineEnd ends).symm.trans (lineBreak?_eq_none_iff.mp broken)
  | some x =>
      obtain ⟨lines, shorter, -⟩ := of_lineBreak? (.inl ends₁) broken
      exact ⟨x, rfl, lines, Nat.lt_of_lt_of_le shorter le⟩

def BlockRead.within (b : BlockRead) (s : Surroundings) : BlockRead :=
  ⟨b.read, b.lineBreak, b.startedBlank, b.before.within s⟩

@[simp] theorem BlockRead.before_within {b : BlockRead} :
    (b.within s).before = b.before.within s := rfl

theorem readBlockLines_within {folded : Bool} {indent fuel k : Nat} {b b' : BlockRead}
    (indented : 0 < indent) (lines : b.before.cursor.InLines)
    (enough : b.before.cursor.rest.length < fuel) (enough' : b.before.cursor.rest.length < k)
    (done : readBlockLines folded indent fuel b = some b') :
    readBlockLines folded indent k (b.within s) = some (b'.within s) ∧
      b'.before.cursor.InLines := by
  induction fuel generalizing b k with
  | zero => cases enough
  | succ fuel ih =>
      obtain ⟨k, rfl⟩ : ∃ n, k = n + 1 := ⟨k - 1, by omega⟩
      rw [readBlockLines] at done ⊢
      simp only [BlockRead.before_within, BlockBreaks.cursor_within, column_within] at done ⊢
      by_cases more : b.before.cursor.column = indent ∧ !b.before.cursor.atEnd
      · have ends : EndsLine b.before.cursor.rest := by
          refine lines.resolve_right fun nothing => ?_
          simp [atEnd, nothing.1] at more
        obtain ⟨sameLine, ends₁⟩ := takeWhile_within (s := s) ends
          (p := fun ch => !isBreak ch) (by decide)
        obtain ⟨⟨ch, c₂⟩, broken, lines₂, shorter⟩ := exists_lineBreak ends
        obtain ⟨sameBreaks, after⟩ := readBlockBreaks_start_within (s := s) (some indent) lines₂
        rw [if_pos more] at done
        rw [if_pos ⟨more.1, by simp [atEnd_within_of_endsLine ends]⟩]
        simp only [sameLine, broken, lineBreak?_within (.inl ends₁), Option.map_some,
          seesBlank_within (.inl ends)] at done ⊢
        rw [sameBreaks]
        split at done
        · cases done
        · next next found =>
            obtain ⟨lines₃, le⟩ := after next found
            have shorter₃ := Nat.lt_of_le_of_lt le shorter
            simp only [found, Option.map_some]
            exact ih (b := ⟨_, some ch, b.before.cursor.seesBlank, next⟩) lines₃
              (Nat.lt_of_lt_of_le shorter₃ (Nat.le_of_lt_succ enough))
              (Nat.lt_of_lt_of_le shorter₃ (Nat.le_of_lt_succ enough')) done
      · -- The lines end: the next one is indented less, as the marker behind the text is.
        rw [if_neg more] at done
        obtain rfl : b = b' := Option.some.inj done
        have more' : ¬(b.before.cursor.column = indent ∧ !(b.before.cursor.within s).atEnd) := by
          rintro ⟨column, -⟩
          rcases lines with ends | ⟨-, start⟩
          · exact more ⟨column, by simp [atEnd_of_endsLine ends]⟩
          · omega
        rw [if_neg more']
        exact ⟨rfl, lines⟩

theorem pos_of_readIncrement {n : Nat} (done : readIncrement c = some (some n, c')) : 0 < n := by
  unfold readIncrement at done
  split at done
  · next ch rest _ =>
      split at done
      · cases done
      · next nonzero =>
          split at done
          · next digit =>
              cases done
              have isDigit : 48 ≤ ch.toNat := by
                simp only [Char.isDigit, Bool.and_eq_true, decide_eq_true_eq] at digit
                exact digit.1
              have differs : ch.toNat ≠ 48 := fun same => nonzero (Char.toNat_inj.mp same)
              have zero : '0'.toNat = 48 := rfl
              omega
          · cases done
  · cases done

/-- An indentation that a header gives is not zero. -/
theorem pos_of_readBlockHeader {header : BlockHeader} {n : Nat}
    (done : readBlockHeader c = some (header, c')) (given : header.increment = some n) : 0 < n := by
  unfold readBlockHeader at done
  split at done
  · obtain ⟨⟨width, c₁⟩, increment, made⟩ := Option.map_eq_some_iff.mp done
    cases made
    obtain rfl : width = some n := given
    exact pos_of_readIncrement increment
  · split at done
    · cases done
    · cases done
      cases given
    · next increment c₁ found =>
        split at done
        · cases done
          cases given
          exact pos_of_readIncrement found
        · cases done
          cases given
          exact pos_of_readIncrement found

/-- The content of a block scalar is indented, whether its header tells how far or not. -/
theorem pos_column {header : BlockHeader} (widest : Nat) (indent : Int)
    (done : readBlockHeader c = some (header, c')) :
    0 < (header.increment.map fun n => (max indent 0).toNat + n).getD
      (max (max widest (indent + 1).toNat) 1) := by
  cases given : header.increment with
  | none => exact Nat.lt_of_lt_of_le Nat.zero_lt_one (Nat.le_max_right _ _)
  | some n => exact Nat.lt_of_lt_of_le (pos_of_readBlockHeader done given) (Nat.le_add_left _ _)

/-- A block scalar behind its indicator. -/
theorem readBlock_within {folded : Bool} {indent : Int} {text : List Char} {last : Mark}
    (ends : EndsLine c.rest) (done : readBlock folded indent c = some (text, last, c')) :
    readBlock folded indent (c.within s) = some (text, last.within s, c'.within s) ∧
      c'.InLines := by
  unfold readBlock at done ⊢
  split at done
  · cases done
  · next header c₁ headed =>
      obtain ⟨sameHeader, ends₁⟩ := readBlockHeader_within (s := s) ends headed
      obtain ⟨sameBlank, ends₂⟩ := skipWhile_within (s := s) ends₁ (p := isBlank) (by decide)
      obtain ⟨sameComment, ends₃⟩ := comment_within (s := s) ends₂
      simp only [sameHeader, sameBlank, sameComment] at done ⊢
      generalize (if (c₁.skipWhile isBlank).sees '#' then (c₁.skipWhile isBlank).skipToLineEnd
        else c₁.skipWhile isBlank) = c₃ at done ends₃ ⊢
      rw [seesLineEnd_within ends₃]
      split at done
      · cases done
      · next onLine =>
          rw [if_neg onLine]
          obtain ⟨sameBreak, lines₄, -⟩ := skipBreak_within (s := s) (.inl ends₃)
          rw [sameBreak]
          generalize c₃.skipBreak = c₄ at done lines₄ ⊢
          obtain ⟨sameBreaks, after⟩ := readBlockBreaks_start_within (s := s)
            (header.increment.map fun n => (max indent 0).toNat + n) lines₄
          rw [sameBreaks]
          split at done
          · cases done
          · next before found =>
              simp only [found, Option.map_some]
              split at done
              · cases done
              · next b lines =>
                  obtain ⟨sameLines, lines₆⟩ := readBlockLines_within (s := s)
                    (k := (before.cursor.within s).rest.length + 1)
                    (b := ⟨[], none, false, before⟩) (pos_column before.widest indent headed)
                    (after before found).1 (Nat.lt_succ_self _)
                    (length_lt_within before.cursor s) lines
                  have first : (⟨[], none, false, before.within s⟩ : BlockRead) =
                      BlockRead.within ⟨[], none, false, before⟩ s := rfl
                  rw [BlockBreaks.cursor_within, BlockBreaks.widest_within, first, sameLines]
                  cases done
                  exact ⟨rfl, lines₆⟩

end ManifestMigration.Yaml.Token
