import ManifestMigration.Proofs.Yaml.Within.Scalar
import ManifestMigration.Yaml.Token.Tag

/-! # Tags, anchors and directives in a text among others

None of these goes on behind the end of its line, so they are read in the same way wherever the text
of whole lines stands that holds them.
-/

namespace ManifestMigration.Yaml.Token

open Cursor

variable {c c' : Cursor} {s : Surroundings}

/-! ## Names -/

theorem readName_within (ends : EndsLine c.rest) :
    readName (c.within s) = ((readName c).1, (readName c).2.within s) ∧
      EndsLine (readName c).2.rest :=
  takeWhile_within ends (by decide)

theorem readAnchor_within (ends : EndsLine c.rest) {name : List Char}
    (done : readAnchor c = some (name, c')) :
    readAnchor (c.within s) = some (name, c'.within s) ∧ EndsLine c'.rest := by
  obtain ⟨same, ends₁⟩ := readName_within (s := s) ends
  simp only [readAnchor, same] at done ⊢
  generalize (readName c).2 = c₁ at done ends₁ ⊢
  obtain ⟨next, rest, rest_eq⟩ := List.exists_cons_of_ne_nil ends₁.ne_nil
  simp only [rest_within, rest_eq, List.cons_append] at done ⊢
  split at done
  · cases done
  · next named =>
      cases done
      rw [if_neg named]
      exact ⟨rfl, ends₁⟩

theorem readHandle_within (ends : EndsLine c.rest) {handle : List Char}
    (done : readHandle c = some (handle, c')) :
    readHandle (c.within s) = some (handle, c'.within s) ∧ EndsLine c'.rest := by
  simp only [readHandle, sees_within_of_endsLine ends] at done ⊢
  split at done
  · next mark =>
      obtain ⟨skipped, ends₁, -⟩ := skip_within_of_sees (s := s) (.inl ends) mark rfl
      obtain ⟨same, ends₂⟩ := readName_within (s := s) ends₁
      simp only [if_pos mark, skipped, same, sees_within_of_endsLine ends₂] at done ⊢
      split at done
      · next closed =>
          obtain ⟨skipped', ends₃, -⟩ := skip_within_of_sees (s := s) (.inl ends₂) closed rfl
          cases done
          rw [if_pos closed, skipped']
          exact ⟨rfl, ends₃⟩
      · next «open» =>
          cases done
          rw [if_neg «open»]
          exact ⟨rfl, ends₂⟩
  · cases done

/-! ## Escaped characters -/

theorem readEscapedByte_within (ends : EndsLine c.rest) {byte : Nat}
    (done : readEscapedByte c = some (byte, c')) :
    readEscapedByte (c.within s) = some (byte, c'.within s) ∧ EndsLine c'.rest ∧
      c'.rest.length < c.rest.length := by
  obtain ⟨rest, mark⟩ := c
  unfold readEscapedByte at done
  split at done
  · next high low rest same =>
      obtain rfl := same
      split at done
      · next h l readHigh readLow =>
          cases done
          have ends₁ : EndsLine (high :: low :: rest) := ends.of_cons_of_not_break rfl
          have ends₂ := ends₁.of_cons_of_not_break (not_isBreak_of_digit readHigh)
          have ends₃ : EndsLine rest := ends₂.of_cons_of_not_break (not_isBreak_of_digit readLow)
          rw [← skip_within (by simp)]
          refine ⟨?_, ends₃, by simp [skip]; omega⟩
          simp [readEscapedByte, readHigh, readLow]
      · cases done
  · cases done

theorem readContinuation_within {n bits code : Nat} (ends : EndsLine c.rest)
    (done : readContinuation n bits c = some (code, c')) :
    readContinuation n bits (c.within s) = some (code, c'.within s) ∧ EndsLine c'.rest ∧
      c'.rest.length ≤ c.rest.length := by
  induction n generalizing c bits with
  | zero =>
      cases done
      exact ⟨rfl, ends, Nat.le_refl _⟩
  | succ n ih =>
      rw [readContinuation] at done ⊢
      split at done
      · next byte c₁ read =>
          obtain ⟨same, ends₁, shorter⟩ := readEscapedByte_within (s := s) ends read
          simp only [same]
          split at done
          · next continues =>
              obtain ⟨more, ends₂, le⟩ := ih ends₁ done
              rw [if_pos continues]
              exact ⟨more, ends₂, Nat.le_trans le (Nat.le_of_lt shorter)⟩
          · cases done
      · cases done

/-- The character whose continuation bytes come next, behind its first bits. -/
def continued (n bits least : Nat) (c : Cursor) : Option (Char × Cursor) :=
  match readContinuation n bits c with
  | none => none
  | some (code, c) =>
    if least ≤ code ∧ code.isValidChar then some (Char.ofNat code, c) else some (replacementChar, c)

theorem continued_within {n bits least : Nat} (ends : EndsLine c.rest) {ch : Char}
    (done : continued n bits least c = some (ch, c')) :
    continued n bits least (c.within s) = some (ch, c'.within s) ∧ EndsLine c'.rest ∧
      c'.rest.length ≤ c.rest.length := by
  unfold continued at done ⊢
  split at done
  · cases done
  · next code c₁ read =>
      obtain ⟨same, ends₁, le⟩ := readContinuation_within (s := s) ends read
      simp only [same]
      split at done
      · next valid =>
          cases done
          rw [if_pos valid]
          exact ⟨rfl, ends₁, le⟩
      · next invalid =>
          cases done
          rw [if_neg invalid]
          exact ⟨rfl, ends₁, le⟩

theorem readEscapedChar_within (ends : EndsLine c.rest) {ch : Char}
    (done : readEscapedChar c = some (ch, c')) :
    readEscapedChar (c.within s) = some (ch, c'.within s) ∧ EndsLine c'.rest ∧
      c'.rest.length < c.rest.length := by
  unfold readEscapedChar at done ⊢
  split at done
  · cases done
  · next lead c₁ led =>
      obtain ⟨same, ends₁, shorter⟩ := readEscapedByte_within (s := s) ends led
      simp only [same]
      have goOn : ∀ n bits least, continued n bits least c₁ = some (ch, c') →
          continued n bits least (c₁.within s) = some (ch, c'.within s) ∧ EndsLine c'.rest ∧
            c'.rest.length < c.rest.length := by
        intro n bits least done
        obtain ⟨same', ends₂, le⟩ := continued_within (s := s) ends₁ done
        exact ⟨same', ends₂, Nat.lt_of_le_of_lt le shorter⟩
      split at done
      · cases done
      · next width announced =>
          split at done
          · exact goOn 0 lead 0 done
          · exact goOn 1 (lead - 0xC0) 0x80 done
          · exact goOn 2 (lead - 0xE0) 0x800 done
          · exact goOn (width - 1) (lead - 0xF0) 0x10000 done

/-! ## Tags -/

theorem readTagChars_within {verbatim : Bool} {fuel k : Nat} {chars : List Char}
    (ends : EndsLine c.rest) (enough : c.rest.length ≤ fuel) (enough' : c.rest.length ≤ k)
    (done : readTagChars verbatim fuel c = some (chars, c')) :
    readTagChars verbatim k (c.within s) = some (chars, c'.within s) ∧ EndsLine c'.rest := by
  have nonempty := List.length_pos_iff.mpr ends.ne_nil
  induction fuel generalizing c k chars with
  | zero => omega
  | succ fuel ih =>
      obtain ⟨k, rfl⟩ : ∃ n, k = n + 1 := ⟨k - 1, by omega⟩
      obtain ⟨rest, mark⟩ := c
      cases rest with
      | nil => cases ends
      | cons ch rest =>
          simp only [readTagChars, rest_within, List.cons_append] at done ⊢
          simp only [List.length_cons] at enough enough'
          by_cases percent : ch = '%'
          · rw [if_pos percent] at done ⊢
            split at done
            · next decoded c₁ read =>
                obtain ⟨same, ends₁, shorter⟩ := readEscapedChar_within (s := s) ends read
                obtain ⟨⟨more, c₂⟩, found, made⟩ := Option.map_eq_some_iff.mp done
                cases made
                simp only [List.length_cons] at shorter
                obtain ⟨same', ends₂⟩ := ih (k := k) ends₁ (by omega) (by omega) found
                  (List.length_pos_iff.mpr ends₁.ne_nil)
                simp only [same, same', Option.map_some]
                exact ⟨trivial, ends₂⟩
            · cases done
          · rw [if_neg percent] at done ⊢
            split at done
            · next allowed =>
                have stops : Stops (isTagChar verbatim) := by cases verbatim <;> decide
                have ends₁ : EndsLine (skip ⟨ch :: rest, mark⟩ 1).rest :=
                  ends.of_cons_of_not_break (stops.not_isBreak allowed)
                have skipped : (within ⟨ch :: rest, mark⟩ s).skip 1 =
                    (skip ⟨ch :: rest, mark⟩ 1).within s := skip_within (by simp)
                obtain ⟨⟨more, c₂⟩, found, made⟩ := Option.map_eq_some_iff.mp done
                cases made
                obtain ⟨same', ends₂⟩ := ih (k := k) ends₁
                  (Nat.le_of_succ_le_succ enough) (Nat.le_of_succ_le_succ enough') found
                  (List.length_pos_iff.mpr ends₁.ne_nil)
                rw [if_pos allowed, skipped, same']
                exact ⟨rfl, ends₂⟩
            · next other =>
                cases done
                rw [if_neg other]
                exact ⟨rfl, ends⟩

theorem readTagText_within {verbatim : Bool} {head text : List Char} (ends : EndsLine c.rest)
    (done : readTagText verbatim head c = some (text, c')) :
    readTagText verbatim head (c.within s) = some (text, c'.within s) ∧ EndsLine c'.rest := by
  unfold readTagText at done ⊢
  split at done
  · next chars c₁ read =>
      obtain ⟨same, ends₁⟩ := readTagChars_within (s := s)
        (k := (c.within s).rest.length) ends (Nat.le_refl _) (by simp) read
      simp only [same]
      split at done
      · cases done
      · next some =>
          cases done
          rw [if_neg some]
          exact ⟨rfl, ends₁⟩
  · cases done

def readVerbatim (c : Cursor) : Option (List Char × List Char × Cursor) :=
  (readTagText true [] (c.skip 2)).bind fun found =>
    if found.2.sees '>' then some ([], found.1, found.2.skip 1) else none

def readShorthand (c : Cursor) : Option (List Char × List Char × Cursor) :=
  (readHandle c).bind fun found =>
    if 1 < found.1.length ∧ found.1.getLast? = some '!' then
      (readTagText false [] found.2).map fun suffix => (found.1, suffix.1, suffix.2)
    else
      (readTagText false found.1 found.2).map fun suffix =>
        if suffix.1.isEmpty then ([], ['!'], suffix.2) else (['!'], suffix.1, suffix.2)

/-- The parts of a tag, by what is seen of it. -/
theorem readTagParts_eq (c : Cursor) :
    readTagParts c =
      if c.sees '!' && (c.skip 1).sees '<' then readVerbatim c else readShorthand c := by
  obtain ⟨rest, mark⟩ := c
  unfold readTagParts
  split
  · next more same =>
      obtain rfl := same
      rw [if_pos (by rfl), readVerbatim]
      cases readTagText true [] (skip ⟨'!' :: '<' :: more, mark⟩ 2) <;> rfl
  · next other =>
      have plain : ((⟨rest, mark⟩ : Cursor).sees '!' && (skip ⟨rest, mark⟩ 1).sees '<') = false := by
        cases rest with
        | nil => rfl
        | cons first rest =>
            cases rest with
            | nil => simp [sees, skip]
            | cons second rest =>
                by_contra both
                simp only [sees, skip, Bool.not_eq_false, Bool.and_eq_true, beq_iff_eq,
                  List.drop_succ_cons, List.drop_zero, List.head?_cons, Option.some.injEq] at both
                obtain ⟨rfl, rfl⟩ := both
                exact other rest rfl
      rw [if_neg (by simp [plain]), readShorthand]
      cases readHandle ⟨rest, mark⟩ <;> rfl

theorem readVerbatim_within (ends : EndsLine c.rest) {handle suffix : List Char}
    (verbatim : c.sees '!' = true ∧ (c.skip 1).sees '<' = true)
    (done : readVerbatim c = some (handle, suffix, c')) :
    readVerbatim (c.within s) = some (handle, suffix, c'.within s) ∧ EndsLine c'.rest := by
  obtain ⟨-, ends₁, shorter₁⟩ := skip_within_of_sees (s := s) (.inl ends) verbatim.1 rfl
  obtain ⟨-, ends₂, shorter₂⟩ := skip_within_of_sees (s := s) (.inl ends₁) verbatim.2 rfl
  have ends₂ : EndsLine (c.skip 2).rest := by simpa [skip, List.drop_drop] using ends₂
  obtain ⟨⟨text, c₃⟩, read, done⟩ := Option.bind_eq_some_iff.mp done
  obtain ⟨same, ends₃⟩ := readTagText_within (s := s) ends₂ read
  rw [readVerbatim, skip_within (by omega), same, Option.bind_some]
  simp only [sees_within_of_endsLine ends₃]
  split at done
  · next closed =>
      obtain ⟨skipped, ends₄, -⟩ := skip_within_of_sees (s := s) (.inl ends₃) closed rfl
      cases done
      rw [if_pos closed, skipped]
      exact ⟨rfl, ends₄⟩
  · cases done

theorem readShorthand_within (ends : EndsLine c.rest) {handle suffix : List Char}
    (done : readShorthand c = some (handle, suffix, c')) :
    readShorthand (c.within s) = some (handle, suffix, c'.within s) ∧ EndsLine c'.rest := by
  obtain ⟨⟨handle', c₁⟩, read, done⟩ := Option.bind_eq_some_iff.mp done
  obtain ⟨same, ends₁⟩ := readHandle_within (s := s) ends read
  rw [readShorthand, same, Option.bind_some]
  split at done
  · next named =>
      obtain ⟨⟨text, c₂⟩, found, made⟩ := Option.map_eq_some_iff.mp done
      cases made
      obtain ⟨same', ends₂⟩ := readTagText_within (s := s) ends₁ found
      rw [if_pos named, same']
      exact ⟨rfl, ends₂⟩
  · next single =>
      obtain ⟨⟨text, c₂⟩, found, made⟩ := Option.map_eq_some_iff.mp done
      obtain ⟨same', ends₂⟩ := readTagText_within (s := s) ends₁ found
      simp only [if_neg single, same', Option.map_some] at made ⊢
      split at made <;> cases made <;> simp_all

theorem readTagParts_within (ends : EndsLine c.rest) {handle suffix : List Char}
    (done : readTagParts c = some (handle, suffix, c')) :
    readTagParts (c.within s) = some (handle, suffix, c'.within s) ∧ EndsLine c'.rest := by
  have angles : ((c.within s).sees '!' && ((c.within s).skip 1).sees '<') =
      (c.sees '!' && (c.skip 1).sees '<') := by
    rw [sees_within_of_endsLine ends]
    cases mark : c.sees '!' with
    | false => rfl
    | true =>
        obtain ⟨skipped, ends₁, -⟩ := skip_within_of_sees (s := s) (.inl ends) mark rfl
        rw [skipped, sees_within_of_endsLine ends₁]
  rw [readTagParts_eq] at done ⊢
  rw [angles]
  split at done
  · next verbatim =>
      rw [if_pos verbatim]
      exact readVerbatim_within ends (Bool.and_eq_true_iff.mp verbatim) done
  · next plain =>
      rw [if_neg plain]
      exact readShorthand_within ends done

theorem readTag_within {inFlow : Bool} (ends : EndsLine c.rest) {kind : TokenKind}
    (done : readTag inFlow c = some (kind, c')) :
    readTag inFlow (c.within s) = some (kind, c'.within s) ∧ EndsLine c'.rest := by
  unfold readTag at done ⊢
  split at done
  · next handle suffix c₁ read =>
      obtain ⟨same, ends₁⟩ := readTagParts_within (s := s) ends read
      simp only [same, seesBlankOrEnd_within ends₁, sees_within_of_endsLine ends₁]
      split at done
      · next closed =>
          cases done
          rw [if_pos closed]
          exact ⟨rfl, ends₁⟩
      · cases done
  · cases done

/-! ## Directives -/

theorem readVersionNumber_within (ends : EndsLine c.rest) {n : Nat}
    (done : readVersionNumber c = some (n, c')) :
    readVersionNumber (c.within s) = some (n, c'.within s) ∧ EndsLine c'.rest := by
  obtain ⟨same, ends₁⟩ := takeWhile_within (s := s) ends (p := Char.isDigit) (by decide)
  simp only [readVersionNumber, same] at done ⊢
  split at done
  · cases done
  · next digits =>
      cases done
      rw [if_neg digits]
      exact ⟨rfl, ends₁⟩

theorem readVersion_within (ends : EndsLine c.rest) {kind : TokenKind}
    (done : readVersion c = some (kind, c')) :
    readVersion (c.within s) = some (kind, c'.within s) ∧ EndsLine c'.rest := by
  obtain ⟨blanks, ends₁⟩ := skipWhile_within (s := s) ends (p := isBlank) (by decide)
  unfold readVersion at done ⊢
  rw [blanks]
  split at done
  · cases done
  · next major c₂ read =>
      obtain ⟨same, ends₂⟩ := readVersionNumber_within (s := s) ends₁ read
      simp only [same, sees_within_of_endsLine ends₂]
      split at done
      · next dot =>
          obtain ⟨skipped, ends₃, -⟩ := skip_within_of_sees (s := s) (.inl ends₂) dot rfl
          obtain ⟨⟨minor, c₄⟩, found, made⟩ := Option.map_eq_some_iff.mp done
          cases made
          obtain ⟨same', ends₄⟩ := readVersionNumber_within (s := s) ends₃ found
          rw [if_pos dot, skipped, same']
          exact ⟨rfl, ends₄⟩
      · cases done

theorem readTagDirective_within (ends : EndsLine c.rest) {kind : TokenKind}
    (done : readTagDirective c = some (kind, c')) :
    readTagDirective (c.within s) = some (kind, c'.within s) ∧ EndsLine c'.rest := by
  obtain ⟨blanks, ends₁⟩ := skipWhile_within (s := s) ends (p := isBlank) (by decide)
  unfold readTagDirective at done ⊢
  rw [blanks]
  split at done
  · cases done
  · next handle c₂ read =>
      obtain ⟨same, ends₂⟩ := readHandle_within (s := s) ends₁ read
      obtain ⟨blanks', ends₃⟩ := skipWhile_within (s := s) ends₂ (p := isBlank) (by decide)
      simp only [same, seesBlank_within (.inl ends₂), blanks']
      split_ifs at done ⊢
      split at done
      · next stem c₄ text =>
          obtain ⟨same', ends₄⟩ := readTagText_within (s := s) ends₃ text
          simp only [same', seesBlankOrEnd_within ends₄]
          split at done
          · next closed =>
              cases done
              rw [if_pos closed]
              exact ⟨rfl, ends₄⟩
          · cases done
      · cases done

theorem readDirective_within (ends : EndsLine c.rest) {kind : TokenKind} {last : Mark}
    (done : readDirective c = some (kind, last, c')) :
    readDirective (c.within s) = some (kind, last.within s, c'.within s) ∧ c'.InLines := by
  obtain ⟨same, ends₁⟩ := readName_within (s := s) ends
  simp only [readDirective, same, seesBlankOrEnd_within ends₁] at done ⊢
  split at done
  · cases done
  · next named =>
      rw [if_neg named]
      split at done
      · cases done
      · next kind' c₂ content =>
          have content' : ((if (readName c).1 = "YAML".toList then
              readVersion ((readName c).2.within s)
            else if (readName c).1 = "TAG".toList then readTagDirective ((readName c).2.within s)
            else none) = some (kind', c₂.within s)) ∧ EndsLine c₂.rest := by
            split_ifs at content ⊢
            · exact readVersion_within ends₁ content
            · exact readTagDirective_within ends₁ content
          obtain ⟨same', ends₂⟩ := content'
          obtain ⟨blanks, ends₃⟩ := skipWhile_within (s := s) ends₂ (p := isBlank) (by decide)
          obtain ⟨sameComment, ends₄⟩ := comment_within (s := s) ends₃
          simp only [same', blanks, sameComment, seesLineEnd_within ends₄] at done ⊢
          generalize (if (c₂.skipWhile isBlank).sees '#' then (c₂.skipWhile isBlank).skipToLineEnd
            else c₂.skipWhile isBlank) = c₄ at done ends₄ ⊢
          split at done
          · next onLine =>
              obtain ⟨sameBreak, lines, -⟩ := skipBreak_within (s := s) (.inl ends₄)
              cases done
              rw [if_pos onLine, sameBreak]
              exact ⟨rfl, lines⟩
          · cases done

end ManifestMigration.Yaml.Token
