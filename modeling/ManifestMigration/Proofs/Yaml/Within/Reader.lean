import Mathlib.Data.List.InsertIdx
import ManifestMigration.Proofs.Yaml.Within.Tag
import ManifestMigration.Yaml.Tokens

/-! # Reading tokens of a text among others

One step of the reader, in a text of whole lines that stands in a larger one, is the step that it
takes in the text alone. What a step keeps is collected in `Steady`: it makes the reader of a text
that has been read to its end ready for the marker behind the text.
-/

namespace ManifestMigration.Yaml

/-! ## Readers in a larger text -/

def Token.within (t : Token) (s : Surroundings) : Token :=
  ⟨t.kind, t.first.within s, t.last.within s⟩

def PossibleKey.within (key : PossibleKey) (s : Surroundings) : PossibleKey :=
  ⟨key.number + s.older.length, key.mark.within s, key.required⟩

/-- The token opens a flow collection, closes one or ends the text. -/
def TokenKind.isBracket : TokenKind → Bool
  | .flowSequenceStart | .flowMappingStart | .flowSequenceEnd | .flowMappingEnd | .streamEnd => true
  | _ => false

/-- How many flow collections are open behind some tokens, newest first. -/
def flowDepth : List Token → Nat
  | [] => 0
  | t :: older =>
    match t.kind with
    | .flowSequenceStart | .flowMappingStart => flowDepth older + 1
    | .flowSequenceEnd | .flowMappingEnd => flowDepth older - 1
    | _ => flowDepth older

theorem flowDepth_cons {t : Token} (plain : t.kind.isBracket = false) (older : List Token) :
    flowDepth (t :: older) = flowDepth older := by
  obtain ⟨kind, first, last⟩ := t
  cases kind <;> first | rfl | cases plain

theorem insertIdx_append {α : Type} {xs ys : List α} {i : Nat} (le : i ≤ xs.length) (x : α) :
    (xs ++ ys).insertIdx i x = xs.insertIdx i x ++ ys := by
  induction xs generalizing i with
  | nil =>
      obtain rfl : i = 0 := Nat.le_zero.mp le
      rfl
  | cons first rest ih =>
      cases i with
      | zero => rfl
      | succ i =>
          rw [List.cons_append, List.insertIdx_succ_cons, ih (Nat.le_of_succ_le_succ le),
            List.insertIdx_succ_cons, List.cons_append]

theorem flowDepth_insertIdx {t : Token} (plain : t.kind.isBracket = false) (tokens : List Token)
    (i : Nat) : flowDepth (tokens.insertIdx i t) = flowDepth tokens := by
  induction tokens generalizing i with
  | nil =>
      cases i with
      | zero => exact flowDepth_cons plain []
      | succ i => rfl
  | cons first rest ih =>
      cases i with
      | zero => exact flowDepth_cons plain _
      | succ i =>
          rw [List.insertIdx_succ_cons, flowDepth, flowDepth, ih]

namespace Reader

def within (r : Reader) (s : Surroundings) : Reader where
  cursor := r.cursor.within s
  tokens := r.tokens.map (·.within s) ++ s.older
  count := r.count + s.older.length
  key := r.key.map (·.within s)
  outerKeys := r.outerKeys.map (Option.map (·.within s))
  indent := r.indent
  outerIndents := r.outerIndents
  keyAllowed := r.keyAllowed

/-- The columns of block collections inside of each other: none is to the left of the margin. -/
def Nested : Int → List Int → Prop
  | indent, [] => indent = -1
  | indent, outer :: rest => 0 ≤ indent ∧ Nested outer rest

/-- What holds of the reader of a text before it has read its end. -/
structure Steady (r : Reader) : Prop where
  counted : r.count = r.tokens.length
  running : ∀ t ∈ r.tokens, t.kind ≠ .streamEnd
  depth : r.outerKeys.length = flowDepth r.tokens
  nested : Nested r.indent r.outerIndents

variable {r r' : Reader} {s : Surroundings}

@[simp] theorem inFlow_within : (r.within s).inFlow = r.inFlow := by
  simp [inFlow, within]

/-! ## Tokens -/

theorem push_within (kind : TokenKind) (first last : Mark) :
    (r.within s).push kind (first.within s) (last.within s) = (r.push kind first last).within s := by
  simp only [push, within, Token.within, List.map_cons, List.cons_append]
  congr 1
  omega

theorem Steady.push (steady : r.Steady) {kind : TokenKind} (plain : kind.isBracket = false)
    (first last : Mark) : (r.push kind first last).Steady where
  counted := by simp [Reader.push, steady.counted]
  running := by
    refine List.forall_mem_cons.mpr ⟨?_, steady.running⟩
    rintro rfl
    cases plain
  depth := steady.depth.trans (flowDepth_cons (t := ⟨kind, first, last⟩) plain r.tokens).symm
  nested := steady.nested

theorem Steady.le (steady : r.Steady) (number : Nat) : r.count - number ≤ r.tokens.length := by
  rw [steady.counted]
  exact Nat.sub_le _ _

theorem insertAt_within (steady : r.Steady) (number : Nat) (kind : TokenKind) (mark : Mark) :
    (r.within s).insertAt (number + s.older.length) kind (mark.within s) =
      (r.insertAt number kind mark).within s := by
  have place : r.count + s.older.length - (number + s.older.length) = r.count - number := by omega
  have old : r.count - number ≤ (r.tokens.map (·.within s)).length := by
    rw [List.length_map]
    exact steady.le number
  simp only [insertAt, within, place, insertIdx_append old, List.map_insertIdx,
    Nat.add_right_comm _ 1]
  rfl

theorem Steady.insertAt (steady : r.Steady) (number : Nat) (kind : TokenKind)
    (plain : kind.isBracket = false) (mark : Mark) : (r.insertAt number kind mark).Steady where
  counted := by
    simp only [Reader.insertAt, List.length_insertIdx_of_le_length (steady.le number)]
    rw [steady.counted]
  running := by
    intro t member
    rcases List.eq_or_mem_of_mem_insertIdx member with rfl | old
    · rintro rfl
      cases plain
    · exact steady.running t old
  depth := steady.depth.trans (flowDepth_insertIdx (t := ⟨kind, mark, mark⟩) plain _ _).symm
  nested := steady.nested

theorem pushIndicator_within {width : Nat} (enough : width ≤ r.cursor.rest.length)
    (kind : TokenKind) :
    (r.within s).pushIndicator kind width = (r.pushIndicator kind width).within s := by
  have skipped : (r.within s).cursor.skip width = (r.cursor.skip width).within s :=
    Cursor.skip_within enough
  have pushed := push_within (r := r) (s := s) kind r.cursor.mark (r.cursor.skip width).mark
  simp only [pushIndicator, skipped, Cursor.mark_within]
  rw [show (r.within s).cursor.mark = r.cursor.mark.within s from rfl, pushed]
  rfl

theorem Steady.pushIndicator (steady : r.Steady) {kind : TokenKind}
    (plain : kind.isBracket = false) (width : Nat) : (r.pushIndicator kind width).Steady :=
  have pushed := steady.push plain r.cursor.mark (r.cursor.skip width).mark
  ⟨pushed.counted, pushed.running, pushed.depth, pushed.nested⟩

/-! ## Possible keys -/

theorem dropKey_within : (r.within s).dropKey = r.dropKey.map (·.within s) := by
  obtain ⟨cursor, tokens, count, key, outerKeys, indent, outerIndents, keyAllowed⟩ := r
  cases key with
  | none => rfl
  | some key =>
      obtain ⟨number, mark, required⟩ := key
      cases required <;> rfl

theorem of_dropKey (done : r.dropKey = some r') : r' = { r with key := none } := by
  unfold dropKey at done
  split at done
  · split at done
    · cases done
    · exact (Option.some.inj done).symm
  · next none =>
      cases done
      rw [← none]

theorem saveKey_within : (r.within s).saveKey = r.saveKey.map (·.within s) := by
  unfold saveKey
  rw [dropKey_within]
  by_cases allowed : r.keyAllowed = true
  · rw [if_pos allowed, if_pos (show (r.within s).keyAllowed = true from allowed)]
    cases dropped : r.dropKey with
    | none => rfl
    | some r' =>
        simp only [Option.map_some, inFlow_within]
        rfl
  · rw [if_neg allowed, if_neg (show ¬(r.within s).keyAllowed = true from allowed)]
    rfl

theorem of_saveKey (done : r.saveKey = some r') : ∃ key, r' = { r with key := key } := by
  unfold saveKey at done
  split at done
  · obtain ⟨dropped, found, rfl⟩ := Option.map_eq_some_iff.mp done
    obtain rfl := of_dropKey found
    exact ⟨_, rfl⟩
  · cases done
    exact ⟨_, rfl⟩

theorem refreshKey_within (here : Mark) (key : Option PossibleKey) :
    refreshKey (here.within s) (key.map (·.within s)) =
      (refreshKey here key).map (Option.map (·.within s)) := by
  cases key with
  | none => rfl
  | some key =>
      have stale : isStale (here.within s) (key.within s) = isStale here key := by
        simp only [isStale, Mark.within, PossibleKey.within, Nat.add_lt_add_iff_right,
          Nat.add_right_comm _ s.index 1024]
      simp only [refreshKey, Option.map_some, stale]
      split
      · rw [show (key.within s).required = key.required from rfl]
        split <;> rfl
      · rfl

theorem mapM_refreshKey_within (here : Mark) (keys : List (Option PossibleKey)) :
    (keys.map (Option.map (·.within s))).mapM (refreshKey (here.within s)) =
      (keys.mapM (refreshKey here)).map (List.map (Option.map (·.within s))) := by
  induction keys with
  | nil => rfl
  | cons key rest ih =>
      rw [List.map_cons, List.mapM_cons, List.mapM_cons, refreshKey_within, ih]
      cases refreshKey here key with
      | none => rfl
      | some key =>
          cases rest.mapM (refreshKey here) with
          | none => rfl
          | some rest => rfl

theorem length_of_mapM_refreshKey {here : Mark} {keys refreshed : List (Option PossibleKey)}
    (done : keys.mapM (refreshKey here) = some refreshed) : refreshed.length = keys.length := by
  induction keys generalizing refreshed with
  | nil =>
      cases done
      rfl
  | cons key rest ih =>
      rw [List.mapM_cons] at done
      obtain ⟨first, -, done⟩ := Option.bind_eq_some_iff.mp done
      obtain ⟨others, found, done⟩ := Option.bind_eq_some_iff.mp done
      cases done
      rw [List.length_cons, List.length_cons, ih found]

theorem refreshKeys_within : (r.within s).refreshKeys = r.refreshKeys.map (·.within s) := by
  simp only [refreshKeys]
  rw [show (r.within s).outerKeys = r.outerKeys.map (Option.map (·.within s)) from rfl,
    show (r.within s).cursor.mark = r.cursor.mark.within s from rfl,
    show (r.within s).key = r.key.map (·.within s) from rfl, mapM_refreshKey_within,
    refreshKey_within]
  cases r.outerKeys.mapM (refreshKey r.cursor.mark) with
  | none => rfl
  | some outerKeys =>
      cases refreshKey r.cursor.mark r.key with
      | none => rfl
      | some key => rfl

theorem of_refreshKeys (done : r.refreshKeys = some r') :
    ∃ key outerKeys, outerKeys.length = r.outerKeys.length ∧
      r' = { r with key := key, outerKeys := outerKeys } := by
  obtain ⟨outerKeys, found, done⟩ := Option.bind_eq_some_iff.mp done
  obtain ⟨key, -, done⟩ := Option.bind_eq_some_iff.mp done
  cases done
  exact ⟨key, outerKeys, length_of_mapM_refreshKey found, rfl⟩

/-! ## Indentation -/

theorem Steady.indented (steady : r.Steady) (column : Nat) :
    ({ r with indent := column, outerIndents := r.indent :: r.outerIndents } : Reader).Steady :=
  ⟨steady.counted, steady.running, steady.depth, Int.natCast_nonneg column, steady.nested⟩

theorem openBlock_within (steady : r.Steady) (column : Nat) (kind : TokenKind)
    (before : Option Nat) (mark : Mark) :
    (r.within s).openBlock column kind (before.map (· + s.older.length)) (mark.within s) =
      (r.openBlock column kind before mark).within s := by
  unfold openBlock
  rw [inFlow_within, show (r.within s).indent = r.indent from rfl]
  split
  · rfl
  · cases before with
    | none =>
        exact push_within
          (r := { r with indent := column, outerIndents := r.indent :: r.outerIndents }) kind mark mark
    | some number => exact insertAt_within (steady.indented column) number kind mark

theorem Steady.openBlock (steady : r.Steady) (column : Nat) (kind : TokenKind)
    (plain : kind.isBracket = false) (before : Option Nat) (mark : Mark) :
    (r.openBlock column kind before mark).Steady := by
  unfold Reader.openBlock
  split
  · exact steady
  · cases before with
    | none => exact (steady.indented column).push plain mark mark
    | some number => exact (steady.indented column).insertAt number kind plain mark

/-- A block collection that starts with the next token. -/
theorem openBlock_here_within (steady : r.Steady) (kind : TokenKind) :
    (r.within s).openBlock (r.within s).cursor.column kind none (r.within s).cursor.mark =
      (r.openBlock r.cursor.column kind none r.cursor.mark).within s :=
  openBlock_within steady r.cursor.column kind none r.cursor.mark

theorem cursor_openBlock (column : Nat) (kind : TokenKind) (before : Option Nat) (mark : Mark) :
    (r.openBlock column kind before mark).cursor = r.cursor := by
  unfold openBlock
  split
  · rfl
  · cases before <;> rfl

theorem closeBlocks_within (column : Int) (outer : List Int) :
    closeBlocks column outer (r.within s) = (closeBlocks column outer r).within s := by
  induction outer generalizing r with
  | nil => rfl
  | cons indent rest ih =>
      rw [closeBlocks, closeBlocks, show (r.within s).indent = r.indent from rfl]
      split
      · rw [← ih, show (r.within s).cursor.mark = r.cursor.mark.within s from rfl, push_within]
        rfl
      · rfl

theorem unindent_within (column : Int) :
    (r.within s).unindent column = (r.unindent column).within s := by
  unfold unindent
  rw [inFlow_within]
  split
  · rfl
  · exact closeBlocks_within column r.outerIndents

/-- What closing blocks changes. -/
theorem of_closeBlocks (column : Int) {outer : List Int} (steady : r.Steady)
    (same : r.outerIndents = outer) :
    (closeBlocks column outer r).Steady ∧
      (closeBlocks column outer r).cursor = r.cursor ∧
      (closeBlocks column outer r).outerKeys = r.outerKeys ∧
      (closeBlocks column outer r).keyAllowed = r.keyAllowed ∧
      (column = -1 → (closeBlocks column outer r).indent = -1 ∧
        (closeBlocks column outer r).outerIndents = []) := by
  induction outer generalizing r with
  | nil =>
      have nested := steady.nested
      rw [same] at nested
      exact ⟨steady, rfl, rfl, rfl, fun _ => ⟨nested, same⟩⟩
  | cons indent rest ih =>
      obtain ⟨inside, nested⟩ : 0 ≤ r.indent ∧ Nested indent rest := by
        have nested := steady.nested
        rwa [same] at nested
      rw [closeBlocks]
      split
      · have pushed := steady.push (show TokenKind.isBracket .blockEnd = false from rfl)
          r.cursor.mark r.cursor.mark
        exact ih (r := { r.push .blockEnd r.cursor.mark r.cursor.mark with
          indent := indent, outerIndents := rest })
          ⟨pushed.counted, pushed.running, pushed.depth, nested⟩ rfl
      · next right =>
          refine ⟨steady, rfl, rfl, rfl, ?_⟩
          rintro rfl
          omega

theorem of_unindent (column : Int) (steady : r.Steady) :
    (r.unindent column).Steady ∧ (r.unindent column).cursor = r.cursor ∧
      (r.unindent column).outerKeys = r.outerKeys ∧
      (r.unindent column).keyAllowed = r.keyAllowed ∧
      (column = -1 → r.outerKeys = [] → (r.unindent column).indent = -1 ∧
        (r.unindent column).outerIndents = []) := by
  unfold unindent
  split
  · next inFlow =>
      refine ⟨steady, rfl, rfl, rfl, fun _ none => ?_⟩
      simp [Reader.inFlow, none] at inFlow
  · obtain ⟨closed, cursor, outerKeys, keyAllowed, outside⟩ := of_closeBlocks column steady rfl
    exact ⟨closed, cursor, outerKeys, keyAllowed, fun margin _ => outside margin⟩

/-! ## Between tokens -/

/-- Blanks and a comment on the current line. -/
def skipInLine (tabs : Bool) (c : Cursor) : Cursor :=
  let c := if c.column = 0 && c.rest.head?.any isByteOrderMark then c.skip 1 else c
  let c := c.skipWhile fun ch => ch == ' ' || (tabs && ch == '\t')
  if c.sees '#' then c.skipToLineEnd else c

theorem skipToToken_succ (fuel : Nat) (r : Reader) :
    skipToToken (fuel + 1) r =
      match (skipInLine (r.inFlow || !r.keyAllowed) r.cursor).lineBreak? with
      | some (_, c) =>
        skipToToken fuel { r with cursor := c, keyAllowed := r.keyAllowed || !r.inFlow }
      | none => { r with cursor := skipInLine (r.inFlow || !r.keyAllowed) r.cursor } := rfl

/-- Nothing is gone over at the end and at a hyphen. -/
theorem skipInLine_of_still (tabs : Bool) {c : Cursor}
    (still : c.rest = [] ∨ ∃ rest, c.rest = '-' :: rest) : skipInLine tabs c = c := by
  obtain ⟨rest, mark⟩ := c
  have hyphen : isByteOrderMark '-' = false := by decide
  rcases still with rfl | ⟨rest, rfl⟩ <;>
    simp [skipInLine, Cursor.skipWhile, Cursor.takeWhile, Cursor.skip, Cursor.sees, hyphen]

theorem skipInLine_within (tabs : Bool) {c : Cursor} (lines : c.InLines) :
    skipInLine tabs (c.within s) = (skipInLine tabs c).within s ∧ (skipInLine tabs c).InLines ∧
      (skipInLine tabs c).rest.length ≤ c.rest.length := by
  rcases lines with ends | ⟨nothing, column⟩
  · have mark : (if (c.within s).column = 0 && (c.within s).rest.head?.any isByteOrderMark then
          (c.within s).skip 1 else c.within s) =
        (if c.column = 0 && c.rest.head?.any isByteOrderMark then c.skip 1 else c).within s ∧
        EndsLine (if c.column = 0 && c.rest.head?.any isByteOrderMark then c.skip 1 else c).rest ∧
        (if c.column = 0 && c.rest.head?.any isByteOrderMark then c.skip 1 else c).rest.length ≤
          c.rest.length := by
      rw [Cursor.rest_within, Cursor.head?_within ends, Cursor.column_within]
      split
      · next marked =>
          obtain ⟨ch, rest, next⟩ := List.exists_cons_of_ne_nil ends.ne_nil
          have isMark : isByteOrderMark ch = true := by
            rw [next] at marked
            exact (Bool.and_eq_true_iff.mp marked).2
          have stops : Stops isByteOrderMark := by decide
          have inside : c.seesBreak = false := by
            rw [Cursor.seesBreak, next]
            exact stops.not_isBreak isMark
          refine ⟨Cursor.skip_within (by simp [next]), Cursor.endsLine_skip_one ends inside, ?_⟩
          simp [Cursor.skip]
      · exact ⟨rfl, ends, Nat.le_refl _⟩
    have stops : Stops fun ch => ch == ' ' || (tabs && ch == '\t') := by cases tabs <;> decide
    unfold skipInLine
    obtain ⟨same, ends₁, le₁⟩ := mark
    generalize (if c.column = 0 && c.rest.head?.any isByteOrderMark then c.skip 1 else c) = c₁
      at same ends₁ le₁ ⊢
    obtain ⟨blanks, ends₂⟩ := Cursor.skipWhile_within (s := s) ends₁ stops
    obtain ⟨comment, ends₃⟩ := Cursor.comment_within (s := s) ends₂
    simp only [same, blanks, comment]
    refine ⟨trivial, .inl ends₃, Nat.le_trans ?_ le₁⟩
    split <;> simp [Cursor.skipToLineEnd, Cursor.skipWhile, Cursor.takeWhile, Cursor.skip]
  · have alone : skipInLine tabs c = c := skipInLine_of_still tabs (.inl nothing)
    have among : skipInLine tabs (c.within s) = c.within s := by
      refine skipInLine_of_still tabs ?_
      rw [Cursor.rest_within, nothing, List.nil_append]
      rcases s.parted with none | ⟨rest, marker⟩
      · exact .inl none
      · exact .inr ⟨_, marker⟩
    rw [alone, among]
    exact ⟨rfl, .inr ⟨nothing, column⟩, Nat.le_refl _⟩

theorem skipToToken_within {fuel k : Nat} (lines : r.cursor.InLines)
    (enough : r.cursor.rest.length < fuel) (enough' : r.cursor.rest.length < k) :
    skipToToken k (r.within s) = (skipToToken fuel r).within s ∧
      (skipToToken fuel r).cursor.InLines ∧ (skipToToken fuel r).cursor.seesBreak = false ∧
      ∃ keyAllowed, skipToToken fuel r =
        { r with cursor := (skipToToken fuel r).cursor, keyAllowed := keyAllowed } := by
  induction fuel generalizing r k with
  | zero => cases enough
  | succ fuel ih =>
      obtain ⟨k, rfl⟩ : ∃ n, k = n + 1 := ⟨k - 1, by omega⟩
      obtain ⟨same, lines₁, le⟩ :=
        skipInLine_within (s := s) (r.inFlow || !r.keyAllowed) lines
      rw [skipToToken_succ, skipToToken_succ, inFlow_within,
        show (r.within s).keyAllowed = r.keyAllowed from rfl,
        show (r.within s).cursor = r.cursor.within s from rfl, same, Cursor.lineBreak?_within lines₁]
      cases broken : (skipInLine (r.inFlow || !r.keyAllowed) r.cursor).lineBreak? with
      | none =>
          exact ⟨rfl, lines₁, Cursor.lineBreak?_eq_none_iff.mp broken, _, rfl⟩
      | some x =>
          obtain ⟨lines₂, shorter, -⟩ := Cursor.of_lineBreak? lines₁ broken
          obtain ⟨same', lines', stop, keyAllowed, shape⟩ := ih (k := k)
            (r := { r with cursor := x.2, keyAllowed := r.keyAllowed || !r.inFlow }) lines₂
            (by simp only; omega) (by simp only; omega)
          exact ⟨same', lines', stop, keyAllowed, shape⟩

/-! ## Tokens -/

/-- What the reader of a text makes alone is what it makes in a larger text, and it is steady. -/
structure Carried (among : Surroundings → Option Reader) (r' : Reader) : Prop where
  within : ∀ s, among s = some (r'.within s)
  steady : r'.Steady
  lines : r'.cursor.InLines

/-- A function of readers acts alone as in a larger text. -/
abbrev Carries (f : Reader → Option Reader) (r r' : Reader) : Prop :=
  Carried (fun s => f (r.within s)) r'

/-- What the reader of a text makes alone, if it makes something, is what it makes in a larger
    text. -/
def Follows (alone : Option Reader) (among : Surroundings → Option Reader) : Prop :=
  ∀ r', alone = some r' → Carried among r'

theorem Follows.ite {p : Prop} [Decidable p] {alone alone' : Option Reader}
    {among among' : Surroundings → Option Reader} (yes : p → Follows alone among)
    (no : ¬p → Follows alone' among') :
    Follows (if p then alone else alone') fun s => if p then among s else among' s := by
  intro r' done
  by_cases holds : p
  · simp only [if_pos holds] at done ⊢
    exact yes holds r' done
  · simp only [if_neg holds] at done ⊢
    exact no holds r' done

theorem isBracket_of_readTag {inFlow : Bool} {c c' : Cursor} {kind : TokenKind}
    (done : Token.readTag inFlow c = some (kind, c')) : kind.isBracket = false := by
  unfold Token.readTag at done
  split at done
  · split at done
    · cases done
      rfl
    · cases done
  · cases done

theorem isBracket_of_readDirective {c c' : Cursor} {kind : TokenKind} {last : Mark}
    (done : Token.readDirective c = some (kind, last, c')) : kind.isBracket = false := by
  unfold Token.readDirective at done
  split at done
  split at done
  · cases done
  · simp only at done
    split at done
    · cases done
    · next kind' c₂ content =>
        have plain : kind'.isBracket = false := by
          split_ifs at content
          · unfold Token.readVersion at content
            split at content
            · cases content
            · split at content
              · obtain ⟨x, -, made⟩ := Option.map_eq_some_iff.mp content
                cases made
                rfl
              · cases content
          · unfold Token.readTagDirective at content
            split at content
            · cases content
            · split_ifs at content
              split at content
              · split at content
                · cases content
                  rfl
                · cases content
              · cases content
        generalize (if (c₂.skipWhile isBlank).sees '#' then (c₂.skipWhile isBlank).skipToLineEnd
          else c₂.skipWhile isBlank) = c₄ at done
        split at done
        · cases done
          exact plain
        · cases done

/-- Behind a flow collection the possible key of the level around it is the current one. -/
def leaveFlow (r : Reader) : Reader :=
  { r with key := r.outerKeys.headD r.key, outerKeys := r.outerKeys.tail }

theorem closeFlow_eq (r : Reader) (kind : TokenKind) :
    r.closeFlow kind =
      r.dropKey.map fun r => { r.leaveFlow with keyAllowed := false }.pushIndicator kind 1 := by
  refine congrArg (r.dropKey.map ·) (funext fun r => ?_)
  obtain ⟨cursor, tokens, count, key, outerKeys, indent, outerIndents, keyAllowed⟩ := r
  cases outerKeys <;> rfl

theorem leaveFlow_within : (r.within s).leaveFlow = r.leaveFlow.within s := by
  obtain ⟨cursor, tokens, count, key, outerKeys, indent, outerIndents, keyAllowed⟩ := r
  cases outerKeys <;> rfl

section Content

variable (steady : r.Steady) (ends : EndsLine r.cursor.rest) {kind : TokenKind}

/-- Going over an indicator. -/
theorem carries_pushIndicator {f : Reader → Option Reader} (r₁ : Reader) (steady : r₁.Steady)
    (ends : EndsLine r₁.cursor.rest) (inside : r₁.cursor.seesBreak = false)
    (plain : kind.isBracket = false)
    (same : ∀ s, f (r.within s) = some ((r₁.within s).pushIndicator kind 1)) :
    Carries f r (r₁.pushIndicator kind 1) where
  within s := by
    rw [same, pushIndicator_within (List.length_pos_iff.mpr ends.ne_nil)]
  steady := steady.pushIndicator plain 1
  lines := .inl (Cursor.endsLine_skip_one ends inside)

/-- Adding a token that has been read. -/
theorem carries_push {f : Reader → Option Reader} (r₁ : Reader) {last : Mark} {allowed : Bool}
    {after : Cursor} (steady : r₁.Steady) (lines : after.InLines) (plain : kind.isBracket = false)
    (same : ∀ s, f (r.within s) =
      some { (r₁.within s).push kind (r₁.within s).cursor.mark (last.within s) with
        keyAllowed := allowed, cursor := after.within s }) :
    Carries f r
      { r₁.push kind r₁.cursor.mark last with keyAllowed := allowed, cursor := after } where
  within s := by
    have pushed := push_within (r := r₁) (s := s) kind r₁.cursor.mark last
    rw [same, show (r₁.within s).cursor.mark = r₁.cursor.mark.within s from rfl, pushed]
    rfl
  steady :=
    have pushed := steady.push plain r₁.cursor.mark last
    ⟨pushed.counted, pushed.running, pushed.depth, pushed.nested⟩
  lines := lines

include steady ends

theorem carries_openFlow (inside : r.cursor.seesBreak = false)
    (opens : kind = .flowSequenceStart ∨ kind = .flowMappingStart)
    (done : r.openFlow kind = some r') : Carries (·.openFlow kind) r r' := by
  obtain ⟨r₁, saved, rfl⟩ := Option.map_eq_some_iff.mp done
  obtain ⟨key, rfl⟩ := of_saveKey saved
  refine ⟨fun s => ?_, ?_, .inl (Cursor.endsLine_skip_one ends inside)⟩
  · have pushed := pushIndicator_within (s := s) (r := { r with
        key := none, outerKeys := key :: r.outerKeys, keyAllowed := true })
      (List.length_pos_iff.mpr ends.ne_nil) kind
    simp only [openFlow, saveKey_within, saved, Option.map_some]
    exact congrArg some pushed
  · refine ⟨congrArg (· + 1) steady.counted, ?_, ?_, steady.nested⟩
    · refine List.forall_mem_cons.mpr ⟨?_, steady.running⟩
      rcases opens with rfl | rfl <;> exact TokenKind.noConfusion
    · have deeper := congrArg (· + 1) steady.depth
      rcases opens with rfl | rfl <;> exact deeper

theorem carries_closeFlow (inside : r.cursor.seesBreak = false)
    (closes : kind = .flowSequenceEnd ∨ kind = .flowMappingEnd)
    (done : r.closeFlow kind = some r') : Carries (·.closeFlow kind) r r' := by
  rw [closeFlow_eq] at done
  obtain ⟨r₁, dropped, rfl⟩ := Option.map_eq_some_iff.mp done
  obtain rfl := of_dropKey dropped
  refine ⟨fun s => ?_, ⟨congrArg (· + 1) steady.counted, ?_, ?_, steady.nested⟩,
    .inl (Cursor.endsLine_skip_one ends inside)⟩
  · change (r.within s).closeFlow kind = _
    rw [closeFlow_eq, dropKey_within, dropped, Option.map_some, Option.map_some, leaveFlow_within]
    exact congrArg some (pushIndicator_within
      (r := { leaveFlow { r with key := none } with keyAllowed := false })
      (List.length_pos_iff.mpr ends.ne_nil) kind)
  · refine List.forall_mem_cons.mpr ⟨?_, steady.running⟩
    rcases closes with rfl | rfl <;> exact TokenKind.noConfusion
  · have shallower : r.outerKeys.tail.length = flowDepth r.tokens - 1 := by
      rw [List.length_tail, steady.depth]
    rcases closes with rfl | rfl <;> exact shallower

theorem carries_readFlowEntry (inside : r.cursor.seesBreak = false)
    (done : r.readFlowEntry = some r') : Carries readFlowEntry r r' := by
  obtain ⟨r₁, dropped, rfl⟩ := Option.map_eq_some_iff.mp done
  obtain rfl := of_dropKey dropped
  refine carries_pushIndicator { r with key := none, keyAllowed := true }
    ⟨steady.counted, steady.running, steady.depth, steady.nested⟩ ends inside rfl fun s => ?_
  rw [readFlowEntry, dropKey_within, dropped]
  rfl

theorem carries_readBlockEntry (inside : r.cursor.seesBreak = false)
    (done : r.readBlockEntry = some r') : Carries readBlockEntry r r' := by
  unfold readBlockEntry at done
  split at done
  · cases done
  · next allowed =>
      obtain ⟨r₁, dropped, rfl⟩ := Option.map_eq_some_iff.mp done
      have opened := steady.openBlock r.cursor.column .blockSequenceStart rfl none
        r.cursor.mark
      have cursor := cursor_openBlock (r := r) r.cursor.column .blockSequenceStart none r.cursor.mark
      have within := fun s => openBlock_here_within (s := s) steady .blockSequenceStart
      generalize r.openBlock r.cursor.column .blockSequenceStart none r.cursor.mark = r₀
        at dropped opened cursor within
      obtain rfl := of_dropKey dropped
      refine carries_pushIndicator { r₀ with key := none, keyAllowed := true }
        ⟨opened.counted, opened.running, opened.depth, opened.nested⟩ (cursor ▸ ends)
        (cursor ▸ inside) rfl fun s => ?_
      rw [readBlockEntry, inFlow_within, show (r.within s).keyAllowed = r.keyAllowed from rfl,
        if_neg allowed]
      simp only [within, dropKey_within, dropped, Option.map_some]
      rfl

theorem carries_readKey (inside : r.cursor.seesBreak = false)
    (done : r.readKey = some r') : Carries readKey r r' := by
  unfold readKey at done
  split at done
  · cases done
  · next allowed =>
      obtain ⟨r₁, dropped, rfl⟩ := Option.map_eq_some_iff.mp done
      have opened := steady.openBlock r.cursor.column .blockMappingStart rfl none
        r.cursor.mark
      have cursor := cursor_openBlock (r := r) r.cursor.column .blockMappingStart none r.cursor.mark
      have within := fun s => openBlock_here_within (s := s) steady .blockMappingStart
      generalize r.openBlock r.cursor.column .blockMappingStart none r.cursor.mark = r₀
        at dropped opened cursor within
      obtain rfl := of_dropKey dropped
      refine carries_pushIndicator { r₀ with key := none, keyAllowed := !r₀.inFlow }
        ⟨opened.counted, opened.running, opened.depth, opened.nested⟩ (cursor ▸ ends)
        (cursor ▸ inside) rfl fun s => ?_
      rw [readKey, inFlow_within, show (r.within s).keyAllowed = r.keyAllowed from rfl,
        if_neg allowed]
      simp only [within, dropKey_within, dropped, Option.map_some, inFlow_within]
      rfl

theorem carries_readValue (inside : r.cursor.seesBreak = false)
    (done : r.readValue = some r') : Carries readValue r r' := by
  unfold readValue at done
  split at done
  · next key found =>
      have keyed := steady.insertAt key.number .key rfl key.mark
      have opened := keyed.openBlock key.mark.column .blockMappingStart rfl
        (some key.number) key.mark
      have cursor := cursor_openBlock (r := r.insertAt key.number .key key.mark) key.mark.column
        .blockMappingStart (some key.number) key.mark
      have within := fun s => openBlock_within (s := s) keyed key.mark.column .blockMappingStart
        (some key.number) key.mark
      cases done
      generalize (r.insertAt key.number .key key.mark).openBlock key.mark.column
        .blockMappingStart (some key.number) key.mark = r₀ at opened cursor within
      refine carries_pushIndicator { r₀ with key := none, keyAllowed := false }
        ⟨opened.counted, opened.running, opened.depth, opened.nested⟩ (cursor ▸ ends)
        (cursor ▸ inside) rfl fun s => ?_
      have inserted := insertAt_within (s := s) steady key.number .key key.mark
      rw [readValue, show (r.within s).key = r.key.map (·.within s) from rfl, found]
      simp only [Option.map_some, PossibleKey.within, inserted]
      rw [show (key.mark.within s).column = key.mark.column from rfl,
        show some (key.number + s.older.length) = (some key.number).map (· + s.older.length) from rfl,
        within]
      rfl
  · next none =>
      split at done
      · cases done
      · next allowed =>
          have opened := steady.openBlock r.cursor.column .blockMappingStart rfl Option.none
            r.cursor.mark
          have cursor :=
            cursor_openBlock (r := r) r.cursor.column .blockMappingStart Option.none r.cursor.mark
          have within := fun s => openBlock_here_within (s := s) steady .blockMappingStart
          cases done
          generalize r.openBlock r.cursor.column .blockMappingStart Option.none r.cursor.mark = r₀
            at opened cursor within
          refine carries_pushIndicator { r₀ with keyAllowed := !r₀.inFlow }
            ⟨opened.counted, opened.running, opened.depth, opened.nested⟩ (cursor ▸ ends)
            (cursor ▸ inside) rfl fun s => ?_
          rw [readValue, show (r.within s).key = r.key.map (·.within s) from rfl, none]
          simp only [Option.map_none]
          rw [inFlow_within, show (r.within s).keyAllowed = r.keyAllowed from rfl, if_neg allowed]
          simp only [within, inFlow_within]
          rfl

theorem carries_readAnchor (inside : r.cursor.seesBreak = false) {kinds : List Char → TokenKind}
    (plain : ∀ name, (kinds name).isBracket = false) (done : r.readAnchor kinds = some r') :
    Carries (·.readAnchor kinds) r r' := by
  obtain ⟨r₁, saved, done⟩ := Option.bind_eq_some_iff.mp done
  obtain ⟨⟨name, after⟩, read, done⟩ := Option.bind_eq_some_iff.mp done
  cases done
  obtain ⟨key, rfl⟩ := of_saveKey saved
  have ends₁ := Cursor.endsLine_skip_one ends inside
  refine carries_push { r with key } ⟨steady.counted, steady.running, steady.depth,
    steady.nested⟩ (.inl (Token.readAnchor_within (s := .none) ends₁ read).2) (plain name)
    fun s => ?_
  obtain ⟨same, -⟩ := Token.readAnchor_within (s := s) ends₁ read
  have skipped : (r.cursor.within s).skip 1 = (r.cursor.skip 1).within s :=
    Cursor.skip_within (List.length_pos_iff.mpr ends.ne_nil)
  rw [readAnchor, saveKey_within, saved]
  change (Token.readAnchor ((r.cursor.within s).skip 1)).bind _ = _
  rw [skipped, same]
  rfl

theorem carries_readTag (done : r.readTag = some r') : Carries readTag r r' := by
  obtain ⟨r₁, saved, done⟩ := Option.bind_eq_some_iff.mp done
  obtain ⟨⟨kind, after⟩, read, done⟩ := Option.bind_eq_some_iff.mp done
  cases done
  obtain ⟨key, rfl⟩ := of_saveKey saved
  refine carries_push { r with key } ⟨steady.counted, steady.running, steady.depth,
    steady.nested⟩ (.inl (Token.readTag_within (s := .none) ends read).2)
    (isBracket_of_readTag read) fun s => ?_
  obtain ⟨same, -⟩ := Token.readTag_within (s := s) ends read
  rw [readTag, saveKey_within, saved]
  change (Token.readTag (Reader.inFlow (Reader.within { r with key } s))
    (r.cursor.within s)).bind _ = _
  rw [inFlow_within, same]
  rfl

theorem carries_readBlockScalar (inside : r.cursor.seesBreak = false) {style : ScalarStyle}
    (done : r.readBlockScalar style = some r') : Carries (·.readBlockScalar style) r r' := by
  obtain ⟨r₁, dropped, done⟩ := Option.bind_eq_some_iff.mp done
  obtain ⟨⟨text, last, after⟩, read, done⟩ := Option.bind_eq_some_iff.mp done
  cases done
  obtain rfl := of_dropKey dropped
  have ends₁ := Cursor.endsLine_skip_one ends inside
  refine carries_push { r with key := none } ⟨steady.counted, steady.running, steady.depth,
    steady.nested⟩ (Token.readBlock_within (s := .none) ends₁ read).2 rfl fun s => ?_
  obtain ⟨same, -⟩ := Token.readBlock_within (s := s) ends₁ read
  have skipped : (r.cursor.within s).skip 1 = (r.cursor.skip 1).within s :=
    Cursor.skip_within (List.length_pos_iff.mpr ends.ne_nil)
  rw [readBlockScalar, dropKey_within, dropped]
  change (Token.readBlock (style == .folded) r.indent ((r.cursor.within s).skip 1)).bind _ = _
  rw [skipped, same]
  rfl

theorem carries_readQuotedScalar (inside : r.cursor.seesBreak = false) {style : ScalarStyle}
    (done : r.readQuotedScalar style = some r') : Carries (·.readQuotedScalar style) r r' := by
  obtain ⟨r₁, saved, done⟩ := Option.bind_eq_some_iff.mp done
  obtain ⟨⟨text, after⟩, read, done⟩ := Option.bind_eq_some_iff.mp done
  cases done
  obtain ⟨key, rfl⟩ := of_saveKey saved
  have ends₁ := Cursor.endsLine_skip_one ends inside
  refine carries_push { r with key } ⟨steady.counted, steady.running, steady.depth,
    steady.nested⟩ (.inl (Token.readQuoted_within (s := .none) ends₁ read).2) rfl fun s => ?_
  obtain ⟨same, -⟩ := Token.readQuoted_within (s := s) ends₁ read
  have skipped : (r.cursor.within s).skip 1 = (r.cursor.skip 1).within s :=
    Cursor.skip_within (List.length_pos_iff.mpr ends.ne_nil)
  rw [readQuotedScalar, saveKey_within, saved]
  change (Token.readQuoted (style == .doubleQuoted) ((r.cursor.within s).skip 1)).bind _ = _
  rw [skipped, same]
  rfl

theorem carries_readPlainScalar (done : r.readPlainScalar = some r') :
    Carries readPlainScalar r r' := by
  obtain ⟨r₁, saved, done⟩ := Option.bind_eq_some_iff.mp done
  obtain ⟨p, read, done⟩ := Option.bind_eq_some_iff.mp done
  cases done
  obtain ⟨key, rfl⟩ := of_saveKey saved
  refine carries_push { r with key } ⟨steady.counted, steady.running, steady.depth,
    steady.nested⟩ (Token.readPlain_within (s := .none) ends read).2 rfl fun s => ?_
  obtain ⟨same, -⟩ := Token.readPlain_within (s := s) ends read
  rw [readPlainScalar, saveKey_within, saved]
  change (Token.readPlain (Reader.inFlow (Reader.within { r with key } s)) (r.indent + 1).toNat
    (r.cursor.within s)).bind _ = _
  rw [inFlow_within, same]
  rfl

theorem carries_readDirective (inside : r.cursor.seesBreak = false)
    (done : r.readDirective = some r') : Carries readDirective r r' := by
  obtain ⟨r₁, dropped, done⟩ := Option.bind_eq_some_iff.mp done
  obtain ⟨⟨kind, last, after⟩, read, done⟩ := Option.bind_eq_some_iff.mp done
  cases done
  obtain ⟨closed, cursor, -⟩ := of_unindent (-1) steady
  have within := fun s => unindent_within (r := r) (s := s) (-1)
  generalize r.unindent (-1) = r₀ at dropped closed cursor within
  obtain rfl := of_dropKey dropped
  rw [← cursor] at ends inside
  have ends₁ := Cursor.endsLine_skip_one ends inside
  refine carries_push { r₀ with key := none } ⟨closed.counted, closed.running, closed.depth,
    closed.nested⟩ (Token.readDirective_within (s := .none) ends₁ read).2
    (isBracket_of_readDirective read) fun s => ?_
  obtain ⟨same, -⟩ := Token.readDirective_within (s := s) ends₁ read
  have skipped : (r₀.cursor.within s).skip 1 = (r₀.cursor.skip 1).within s :=
    Cursor.skip_within (List.length_pos_iff.mpr ends.ne_nil)
  rw [readDirective, within, dropKey_within, dropped]
  change (Token.readDirective ((r₀.cursor.within s).skip 1)).bind _ = _
  rw [skipped, same]
  rfl

theorem carries_readDocumentMarker (marker : r.cursor.atDocumentMarker = true)
    (plain : kind.isBracket = false) (done : r.readDocumentMarker kind = some r') :
    Carries (·.readDocumentMarker kind) r r' := by
  obtain ⟨r₁, dropped, rfl⟩ := Option.map_eq_some_iff.mp done
  obtain ⟨closed, cursor, -⟩ := of_unindent (-1) steady
  have within := fun s => unindent_within (r := r) (s := s) (-1)
  generalize r.unindent (-1) = r₀ at dropped closed cursor within
  obtain rfl := of_dropKey dropped
  have long : 3 < r₀.cursor.rest.length := by
    rw [cursor]
    exact Cursor.length_of_atDocumentMarker ends marker
  refine ⟨fun s => ?_, ?_, .inl ?_⟩
  · have pushed := pushIndicator_within (s := s)
      (r := { r₀ with key := none, keyAllowed := false }) (Nat.le_of_lt long) kind
    simp only [readDocumentMarker, within, dropKey_within, dropped, Option.map_some]
    exact congrArg some pushed
  · exact Steady.pushIndicator (r := { r₀ with key := none, keyAllowed := false })
      ⟨closed.counted, closed.running, closed.depth, closed.nested⟩ plain 3
  · exact Cursor.endsLine_skip (cursor ▸ ends) long

/-- Every token that starts with a character of a line. -/
theorem follows_readContent {ch : Char} {rest : List Char} (next : r.cursor.rest = ch :: rest)
    (inside : r.cursor.seesBreak = false) :
    Follows (r.readContent ch rest) fun s => (r.within s).readContent ch (rest ++ s.after) := by
  have more : rest ≠ [] := by
    have ends₁ := Cursor.endsLine_skip_one ends inside
    simp only [Cursor.skip, next, List.drop_succ_cons, List.drop_zero] at ends₁
    exact ends₁.ne_nil
  simp only [readContent, Cursor.startsBlank_append more, inFlow_within]
  refine .ite (fun _ _ => carries_openFlow steady ends inside (.inl rfl)) fun _ => ?_
  refine .ite (fun _ _ => carries_openFlow steady ends inside (.inr rfl)) fun _ => ?_
  refine .ite (fun _ _ => carries_closeFlow steady ends inside (.inl rfl)) fun _ => ?_
  refine .ite (fun _ _ => carries_closeFlow steady ends inside (.inr rfl)) fun _ => ?_
  refine .ite (fun _ _ => carries_readFlowEntry steady ends inside) fun _ => ?_
  refine .ite (fun _ _ => carries_readBlockEntry steady ends inside) fun _ => ?_
  refine .ite (fun _ _ => carries_readKey steady ends inside) fun _ => ?_
  refine .ite (fun _ _ => carries_readValue steady ends inside) fun _ => ?_
  refine .ite (fun _ _ => carries_readAnchor steady ends inside fun _ => rfl) fun _ => ?_
  refine .ite (fun _ _ => carries_readAnchor steady ends inside fun _ => rfl) fun _ => ?_
  refine .ite (fun _ _ => carries_readTag steady ends) fun _ => ?_
  refine .ite (fun _ _ => carries_readBlockScalar steady ends inside) fun _ => ?_
  refine .ite (fun _ _ => carries_readBlockScalar steady ends inside) fun _ => ?_
  refine .ite (fun _ _ => carries_readQuotedScalar steady ends inside) fun _ => ?_
  refine .ite (fun _ _ => carries_readQuotedScalar steady ends inside) fun _ => ?_
  refine .ite (fun _ _ => carries_readPlainScalar steady ends) fun _ r' done => ?_
  cases done

end Content

/-! ## Steps -/

def atToken (r : Reader) : Option Reader :=
  (skipToToken (r.cursor.rest.length + 1) r).refreshKeys.map fun r => r.unindent r.cursor.column

/-- Read the token that comes next. -/
def readToken (r : Reader) : Option Reader :=
  match r.cursor.rest with
  | [] => r.readEnd
  | ch :: rest =>
    if r.cursor.column = 0 && ch = '%' then r.readDirective
    else if r.cursor.atDocumentMarker then
      r.readDocumentMarker (if ch = '-' then .documentStart else .documentEnd)
    else r.readContent ch rest

theorem step_eq (r : Reader) : r.step = r.atToken.bind readToken := by
  unfold step atToken
  cases (skipToToken (r.cursor.rest.length + 1) r).refreshKeys <;> rfl

theorem atToken_within (lines : r.cursor.InLines) :
    (r.within s).atToken = r.atToken.map (·.within s) := by
  obtain ⟨same, -⟩ := skipToToken_within (s := s) (k := (r.within s).cursor.rest.length + 1)
    lines (Nat.lt_succ_self _) (Cursor.length_lt_within r.cursor s)
  rw [atToken, atToken, same, refreshKeys_within, Option.map_map, Option.map_map]
  exact congrArg (Option.map · _) (funext fun r => unindent_within r.cursor.column)

theorem of_atToken (steady : r.Steady) (lines : r.cursor.InLines) (done : r.atToken = some r') :
    r'.Steady ∧ r'.cursor.InLines ∧ r'.cursor.seesBreak = false := by
  obtain ⟨r₁, refreshed, rfl⟩ := Option.map_eq_some_iff.mp done
  obtain ⟨-, lines₁, inside, keyAllowed, shape⟩ := skipToToken_within (s := .none) lines
    (Nat.lt_succ_self _) (Nat.lt_succ_self _)
  have skipped : (skipToToken (r.cursor.rest.length + 1) r).Steady := by
    rw [shape]
    exact ⟨steady.counted, steady.running, steady.depth, steady.nested⟩
  obtain ⟨key, outerKeys, length, rfl⟩ := of_refreshKeys refreshed
  obtain ⟨closed, cursor, -⟩ := of_unindent
    (r := { skipToToken (r.cursor.rest.length + 1) r with key, outerKeys })
    (skipToToken (r.cursor.rest.length + 1) r).cursor.column
    ⟨skipped.counted, skipped.running, length.trans skipped.depth, skipped.nested⟩
  rw [cursor]
  exact ⟨closed, lines₁, inside⟩

/-- A token of a text is read alone as in a larger text. -/
theorem follows_readToken (steady : r.Steady) (ends : EndsLine r.cursor.rest)
    (inside : r.cursor.seesBreak = false) :
    Follows r.readToken fun s => (r.within s).readToken := by
  obtain ⟨ch, rest, next⟩ := List.exists_cons_of_ne_nil ends.ne_nil
  have alone : r.readToken =
      if r.cursor.column = 0 && ch = '%' then r.readDirective
      else if r.cursor.atDocumentMarker then
        r.readDocumentMarker (if ch = '-' then .documentStart else .documentEnd)
      else r.readContent ch rest := by
    rw [readToken, next]
  have among : ∀ s, (r.within s).readToken =
      if r.cursor.column = 0 && ch = '%' then (r.within s).readDirective
      else if r.cursor.atDocumentMarker then
        (r.within s).readDocumentMarker (if ch = '-' then .documentStart else .documentEnd)
      else (r.within s).readContent ch (rest ++ s.after) := by
    intro s
    have cursor : (r.within s).cursor = r.cursor.within s := rfl
    have next' : (r.within s).cursor.rest = ch :: (rest ++ s.after) := by
      rw [cursor, Cursor.rest_within, next, List.cons_append]
    rw [readToken, next']
    simp only [cursor, Cursor.atDocumentMarker_within ends, Cursor.column_within]
  rw [alone]
  simp only [among]
  refine .ite (fun _ _ => carries_readDirective steady ends inside) fun _ => ?_
  refine .ite (fun marker _ => carries_readDocumentMarker steady ends marker ?_) fun _ => ?_
  · split <;> rfl
  · exact follows_readContent steady ends next inside

/-! ## The end of the text -/

/-- The reader of a text that has been read, before the end itself is told. -/
def ended (r : Reader) : Reader := { r.unindent (-1) with key := none, keyAllowed := false }

theorem ended_within : (r.within s).ended = r.ended.within s := by
  rw [ended, unindent_within]
  rfl

theorem Steady.ended (steady : r.Steady) :
    r.ended.Steady ∧ r.ended.cursor = r.cursor ∧ r.ended.outerKeys = r.outerKeys ∧
      (r.outerKeys = [] → r.ended.indent = -1 ∧ r.ended.outerIndents = []) := by
  obtain ⟨closed, cursor, outerKeys, -, outside⟩ := of_unindent (-1) steady
  exact ⟨⟨closed.counted, closed.running, closed.depth, closed.nested⟩, cursor, outerKeys,
    outside rfl⟩

/-- Where the end of a text can be read, the marker of a document can be read as well. -/
theorem of_readEnd (column : r.cursor.column = 0) (done : r.readEnd = some r') :
    r' = r.ended.push .streamEnd r.cursor.mark r.cursor.mark ∧
      ∀ kind, r.readDocumentMarker kind = some (r.ended.pushIndicator kind 3) := by
  have start : r.cursor.mark.column = 0 := column
  simp only [readEnd, start, if_true] at done
  obtain ⟨r₁, dropped, rfl⟩ := Option.map_eq_some_iff.mp done
  have dropped' : (r.unindent (-1)).dropKey = some r₁ := dropped
  obtain rfl := of_dropKey dropped'
  refine ⟨rfl, fun kind => ?_⟩
  rw [readDocumentMarker, dropped']
  rfl

theorem readEnd_within (column : r.cursor.column = 0) (done : r.readEnd = some r') :
    (r.within s).readEnd = some (r'.within s) := by
  have start : r.cursor.mark.column = 0 := column
  have start' : (r.within s).cursor.mark.column = 0 := column
  simp only [readEnd, start, start', if_true] at done ⊢
  obtain ⟨r₁, dropped, rfl⟩ := Option.map_eq_some_iff.mp done
  have dropped' : (r.unindent (-1)).dropKey = some r₁ := dropped
  change ((r.within s).unindent (-1)).dropKey.map _ = _
  rw [unindent_within, dropKey_within, dropped']
  exact congrArg some (push_within (r := { r₁ with keyAllowed := false }) .streamEnd r.cursor.mark
    r.cursor.mark)

/-- Behind a text that has been read, the end is read where nothing follows, and the marker of a
    document where one follows. -/
theorem readToken_within_of_nil (nothing : r.cursor.rest = []) (column : r.cursor.column = 0)
    (done : r.readToken = some r') :
    r' = r.ended.push .streamEnd r.cursor.mark r.cursor.mark ∧
      (s.after = [] → (r.within s).readToken = some (r'.within s)) ∧
      (s.after ≠ [] → (r.within s).readToken =
        some ((r.ended.within s).pushIndicator .documentStart 3)) := by
  have ending : r.readEnd = some r' := by rwa [readToken, nothing] at done
  have among := readEnd_within (s := s) column ending
  refine ⟨(of_readEnd column ending).1, fun none => ?_, fun more => ?_⟩
  · rw [readToken, show (r.within s).cursor.rest = [] by simp [within, nothing, none]]
    exact among
  · obtain ⟨rest, marker⟩ := s.parted.resolve_left more
    have next : (r.within s).cursor.rest = '-' :: '-' :: '-' :: '\n' :: rest := by
      simp [within, nothing, marker]
    have seen : (r.within s).cursor.atDocumentMarker = true := by
      rw [Cursor.atDocumentMarker, next, show (r.within s).cursor.column = 0 from column]
      rfl
    have hyphen : decide ('-' = '%') = false := rfl
    rw [readToken, next]
    simp only [seen, hyphen, Bool.and_false, Bool.false_eq_true, if_false, if_true]
    rw [← ended_within]
    exact (of_readEnd (r := r.within s) column among).2 .documentStart

end Reader

end ManifestMigration.Yaml
