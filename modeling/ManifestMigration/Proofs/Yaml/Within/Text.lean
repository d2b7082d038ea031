import ManifestMigration.Proofs.Yaml.Within.Reader

/-! # The tokens of texts behind each other

Texts of whole lines are put behind each other with the marker of a document between them. The
tokens that the reader finds are those of the texts, with the token of the marker between them.
-/

namespace ManifestMigration.Yaml

namespace Reader

variable {r : Reader} {s : Surroundings}

theorem mem_of_mem_settled {t : Token} (member : t ∈ r.settled) : t ∈ r.tokens :=
  List.mem_of_mem_drop (List.mem_reverse.mp member)

/-- One more token, or more of them that belong together. -/
def advance (r : Reader) : Option Reader := r.step.bind refreshKeys

theorem readAll_of_none {fuel : Nat} (stuck : r.advance = none) :
    readAll (fuel + 1) r = r.settled := by
  rw [readAll, show r.step.bind refreshKeys = none from stuck]

theorem readAll_of_running {r' : Reader} {fuel : Nat} (done : r.advance = some r')
    (running : ∀ t ∈ r'.tokens, t.kind ≠ .streamEnd) :
    readAll (fuel + 1) r = readAll fuel r' := by
  rw [readAll, show r.step.bind refreshKeys = some r' from done]
  simp only
  split
  · next first last older found =>
      exact absurd rfl (running ⟨.streamEnd, first, last⟩ (by simp [found]))
  · rfl

theorem readAll_of_ended {r' : Reader} {fuel : Nat} {first last : Mark} {older : List Token}
    (done : r.advance = some r') (found : r'.tokens = ⟨.streamEnd, first, last⟩ :: older) :
    readAll (fuel + 1) r = r'.tokens.reverse := by
  rw [readAll, show r.step.bind refreshKeys = some r' from done]
  simp only [found]

/-- What has been read of a text when its end is told, after so many steps. -/
structure Reads (r : Reader) (n : Nat) (e : Reader) : Prop where
  steady : e.Steady
  nothing : e.cursor.rest = []
  column : e.cursor.column = 0
  free : e.key = none
  closed : e.keyAllowed = false
  margin : e.outerKeys = [] → e.indent = -1 ∧ e.outerIndents = []
  /-- Where nothing follows, the end of the text is told. -/
  last : ∀ s fuel, s.after = [] →
    readAll (fuel + n) (r.within s) =
      (⟨.streamEnd, e.cursor.mark.within s, e.cursor.mark.within s⟩ :: (e.within s).tokens).reverse
  /-- Where a marker follows, it is read next. -/
  next : ∀ s fuel, s.after ≠ [] → e.outerKeys = [] →
    readAll (fuel + n) (r.within s) = readAll fuel ((e.within s).pushIndicator .documentStart 3)

theorem running_within (steady : r.Steady) : ∀ t ∈ (r.within s).tokens, t.kind ≠ .streamEnd := by
  intro t member
  rcases List.mem_append.mp member with own | old
  · obtain ⟨t', alone, rfl⟩ := List.mem_map.mp own
    exact steady.running t' alone
  · exact s.running t old

theorem Reads.step {r' e : Reader} {n : Nat} (reads : Reads r' n e) (steady : r'.Steady)
    (among : ∀ s, (r.within s).advance = some (r'.within s)) : Reads r (n + 1) e where
  steady := reads.steady
  nothing := reads.nothing
  column := reads.column
  free := reads.free
  closed := reads.closed
  margin := reads.margin
  last s fuel none := by
    rw [← Nat.add_assoc, readAll_of_running (among s) (running_within steady)]
    exact reads.last s fuel none
  next s fuel more flat := by
    rw [← Nat.add_assoc, readAll_of_running (among s) (running_within steady)]
    exact reads.next s fuel more flat

/-- Nothing is to be refreshed where no key is possible. -/
theorem refreshKeys_of_free (free : r.key = none) (flat : r.outerKeys = []) :
    r.refreshKeys = some r := by
  obtain ⟨cursor, tokens, count, key, outerKeys, indent, outerIndents, keyAllowed⟩ := r
  subst free flat
  rfl

/-- The last step of a text. -/
theorem reads_end {r₀ r' : Reader} (steady : r₀.Steady) (nothing : r₀.cursor.rest = [])
    (column : r₀.cursor.column = 0) (read : r₀.readToken.bind refreshKeys = some r')
    (among : ∀ s r₂, (r₀.within s).readToken = some r₂ → (r.within s).advance = r₂.refreshKeys) :
    Reads r 1 r₀.ended ∧ r'.tokens = ⟨.streamEnd, r₀.cursor.mark, r₀.cursor.mark⟩ ::
      r₀.ended.tokens := by
  obtain ⟨r₁, ending, refreshed⟩ := Option.bind_eq_some_iff.mp read
  obtain ⟨closed, cursor, outerKeys, margin⟩ := steady.ended
  obtain ⟨rfl, -, -⟩ := readToken_within_of_nil (s := .none) nothing column ending
  have tokens : r'.tokens = ⟨.streamEnd, r₀.cursor.mark, r₀.cursor.mark⟩ :: r₀.ended.tokens := by
    obtain ⟨key, outerKeys, -, rfl⟩ := of_refreshKeys refreshed
    rfl
  refine ⟨⟨closed, ?_, ?_, rfl, rfl, ?_, ?_, ?_⟩, tokens⟩
  · rw [cursor]
    exact nothing
  · rw [cursor]
    exact column
  · intro flat
    exact margin (outerKeys ▸ flat)
  · intro s fuel none
    obtain ⟨-, last, -⟩ := readToken_within_of_nil (s := s) nothing column ending
    have done : (r.within s).advance = some (r'.within s) := by
      rw [among s _ (last none), refreshKeys_within, refreshed]
      rfl
    have found : (r'.within s).tokens =
        ⟨.streamEnd, r₀.cursor.mark.within s, r₀.cursor.mark.within s⟩ ::
          (r₀.ended.within s).tokens := by
      simp only [within, tokens, List.map_cons, List.cons_append]
      rfl
    rw [readAll_of_ended done found, found, cursor]
  · intro s fuel more flat
    obtain ⟨-, -, next⟩ := readToken_within_of_nil (s := s) nothing column ending
    have done : (r.within s).advance =
        some ((r₀.ended.within s).pushIndicator .documentStart 3) := by
      rw [among s _ (next more)]
      refine refreshKeys_of_free rfl ?_
      simp only [pushIndicator, push, within, flat, List.map_nil]
    refine readAll_of_running done (List.forall_mem_cons.mpr ⟨TokenKind.noConfusion, ?_⟩)
    exact running_within closed

/-- A text is read to its end when the end is among its tokens. -/
theorem exists_reads {fuel : Nat} (steady : r.Steady) (lines : r.cursor.InLines)
    (ends : ∃ t ∈ readAll fuel r, t.kind = .streamEnd) :
    ∃ e n, n ≤ fuel ∧ Reads r n e ∧
      readAll fuel r = (⟨.streamEnd, e.cursor.mark, e.cursor.mark⟩ :: e.tokens).reverse := by
  induction fuel generalizing r with
  | zero =>
      obtain ⟨t, member, kind⟩ := ends
      exact absurd kind (steady.running t (mem_of_mem_settled member))
  | succ fuel ih =>
      cases advanced : r.advance with
      | none =>
          rw [readAll_of_none advanced] at ends
          obtain ⟨t, member, kind⟩ := ends
          exact absurd kind (steady.running t (mem_of_mem_settled member))
      | some r' =>
          obtain ⟨r₁, stepped, refreshed⟩ := Option.bind_eq_some_iff.mp advanced
          rw [step_eq] at stepped
          obtain ⟨r₀, here, read⟩ := Option.bind_eq_some_iff.mp stepped
          obtain ⟨steady₀, lines₀, inside⟩ := of_atToken steady lines here
          have among : ∀ s r₂, (r₀.within s).readToken = some r₂ →
              (r.within s).advance = r₂.refreshKeys := by
            intro s r₂ read
            rw [advance, step_eq, atToken_within lines, here, Option.map_some, Option.bind_some,
              read, Option.bind_some]
          -- In a line the next token is the same whatever stands behind the text. At the end of the
          -- text it is not, and the reading of the text is over.
          rcases lines₀ with ends₀ | ⟨nothing, column⟩
          · obtain ⟨within, steady₁, lines₁⟩ := follows_readToken steady₀ ends₀ inside r₁ read
            have among' : ∀ s, (r.within s).advance = some (r'.within s) := by
              intro s
              rw [among s _ (within s), refreshKeys_within, refreshed]
              rfl
            obtain ⟨key, outerKeys, length, rfl⟩ := of_refreshKeys refreshed
            have steady' : Steady { r₁ with key, outerKeys } :=
              ⟨steady₁.counted, steady₁.running, length.trans steady₁.depth, steady₁.nested⟩
            rw [readAll_of_running advanced steady'.running] at ends ⊢
            obtain ⟨e, n, le, reads, tokens⟩ := ih steady' lines₁ ends
            exact ⟨e, n + 1, Nat.succ_le_succ le, reads.step steady' among', tokens⟩
          · have ending : r₀.readToken.bind refreshKeys = some r' := by
              rw [read, Option.bind_some, refreshed]
            obtain ⟨reads, tokens⟩ := reads_end steady₀ nothing column ending among
            obtain ⟨-, cursor, -⟩ := steady₀.ended
            refine ⟨r₀.ended, 1, Nat.succ_le_succ (Nat.zero_le _), reads, ?_⟩
            rw [readAll_of_ended advanced tokens, tokens, cursor]

/-! ## The marker behind a text -/

/-- Readers that step alike and are certain of the same tokens read the same. -/
theorem readAll_congr (steps : r.step = r'.step) (certain : r.settled = r'.settled) (fuel : Nat) :
    readAll fuel r = readAll fuel r' := by
  cases fuel with
  | zero => exact certain
  | succ fuel => rw [readAll, readAll, steps, certain]

/-- Outside of flow collections a line break is only gone over. -/
theorem step_of_break {m : Mark} (rest : List Char) (here : r.cursor = ⟨'\n' :: rest, m⟩)
    (flat : r.outerKeys = []) :
    r.step = step { r with
      cursor := ⟨rest, ⟨m.index + 1, m.line + 1, 0⟩⟩, keyAllowed := true } := by
  obtain ⟨cursor, tokens, count, key, outerKeys, indent, outerIndents, keyAllowed⟩ := r
  subst here flat
  have still : ∀ tabs, skipInLine tabs ⟨'\n' :: rest, m⟩ = ⟨'\n' :: rest, m⟩ := by
    have mark : isByteOrderMark '\n' = false := by decide
    simp [skipInLine, Cursor.skipWhile, Cursor.takeWhile, Cursor.skip, Cursor.sees, mark]
  have skipped : skipToToken (rest.length + 1 + 1)
        ⟨⟨'\n' :: rest, m⟩, tokens, count, key, [], indent, outerIndents, keyAllowed⟩ =
      skipToToken (rest.length + 1)
        ⟨⟨rest, ⟨m.index + 1, m.line + 1, 0⟩⟩, tokens, count, key, [], indent, outerIndents, true⟩ := by
    rw [skipToToken_succ, still]
    simp [Cursor.lineBreak?, Cursor.newLine, isBreak, inFlow]
  rw [step_eq, step_eq, atToken, atToken]
  simp only [List.length_cons, skipped]

/-- Behind the marker the reader starts over, on the next line. -/
theorem exists_behind_marker {e : Reader} {n : Nat} {text after : List Char}
    (reads : Reads r n e) (flat : e.outerKeys = [])
    (next : s.after = '-' :: '-' :: '-' :: '\n' :: (text ++ after))
    (parted : after = [] ∨ ∃ rest, after = '-' :: '-' :: '-' :: '\n' :: rest) :
    ∃ s' : Surroundings, s'.after = after ∧
      s'.older = ((e.within s).pushIndicator .documentStart 3).tokens ∧
      ∀ fuel, readAll fuel ((e.within s).pushIndicator .documentStart 3) =
        readAll fuel ((ofText text).within s') := by
  obtain ⟨steady, nothing, column, free, closed, margin, -, -⟩ := reads
  obtain ⟨⟨rest, ⟨index, line, col⟩⟩, tokens, count, key, outerKeys, indent, outerIndents,
    keyAllowed⟩ := e
  obtain ⟨rfl, rfl⟩ := margin flat
  subst nothing column free closed flat
  have counted : count = tokens.length := steady.counted
  have running : ∀ t ∈ ((Reader.within _ s).pushIndicator .documentStart 3).tokens,
      t.kind ≠ .streamEnd :=
    List.forall_mem_cons.mpr ⟨TokenKind.noConfusion, running_within steady⟩
  refine ⟨⟨after, index + s.index + 4, line + s.line + 1, _, parted, running⟩, rfl, rfl,
    readAll_congr ?_ ?_⟩
  · -- The reader goes over the break of the marker's line and is where a text begins.
    refine (step_of_break (m := ⟨index + s.index + 3, line + s.line, 3⟩) (text ++ after)
      ?_ rfl).trans ?_
    · simp [pushIndicator, within, Cursor.within, next, Cursor.skip, Mark.within]
    · refine congrArg step ?_
      simp only [pushIndicator, push, within, ofText, Cursor.within, Cursor.ofText, Mark.within]
      simp [Mark.start, counted]
  · simp [settled, pushIndicator, push, within, ofText, counted]

end Reader

/-! ## Joined texts -/

/-- Texts, each behind the marker of its document. -/
def behind : List (List Char) → List Char
  | [] => []
  | text :: rest => '-' :: '-' :: '-' :: '\n' :: (text ++ behind rest)

theorem behind_parted (texts : List (List Char)) :
    behind texts = [] ∨ ∃ rest, behind texts = '-' :: '-' :: '-' :: '\n' :: rest := by
  cases texts with
  | nil => exact .inl rfl
  | cons text rest => exact .inr ⟨_, rfl⟩

/-- Tokens of a text at its place in a larger one, with more tokens where the text ends. -/
def place (s : Surroundings) (more : List Token) : List Token → List Token
  | [] => []
  | ⟨.streamEnd, _, _⟩ :: _ => more
  | t :: rest => t.within s :: place s more rest

theorem place_cons {s : Surroundings} {more rest : List Token} {t : Token}
    (running : t.kind ≠ .streamEnd) :
    place s more (t :: rest) = t.within s :: place s more rest := by
  obtain ⟨kind, first, last⟩ := t
  cases kind with
  | streamEnd => exact absurd rfl running
  | _ => rfl

theorem place_append {s : Surroundings} {more tokens rest : List Token} {first last : Mark}
    (running : ∀ t ∈ tokens, t.kind ≠ .streamEnd) :
    place s more (tokens ++ ⟨.streamEnd, first, last⟩ :: rest) =
      tokens.map (·.within s) ++ more := by
  induction tokens with
  | nil => rfl
  | cons t tokens ih =>
      obtain ⟨here, others⟩ := List.forall_mem_cons.mp running
      rw [List.cons_append, place_cons here, ih others, List.map_cons, List.cons_append]

/-- These tokens can stand where a text ends: the end or the marker of a document comes first, and
    stands there. -/
def Continues (s : Surroundings) (tokens : List Token) : List Token → Prop
  | [] => False
  | x :: _ => (x.kind = .streamEnd ∨ x.kind = .documentStart) ∧
    ∀ t ∈ tokens, t.kind = .streamEnd → x.first = t.first.within s

/-- The tokens of texts behind each other: those of every text at its place, and between texts the
    marker. -/
inductive Joined : List (List Token) → List Token → Prop
  | last {s : Surroundings} {tokens : List Token} {x : Token} :
      x.kind = .streamEnd → Continues s tokens [x] → Joined [tokens] (place s [x] tokens)
  | next {s : Surroundings} {tokens more : List Token} {parts : List (List Token)} {x : Token} :
      x.kind = .documentStart → Continues s tokens (x :: more) → Joined parts more →
        Joined (tokens :: parts) (place s (x :: more) tokens)

/-- A text of whole lines that is read to its end, where no flow collection is open. -/
structure Complete (text : List Char) : Prop where
  lines : (Cursor.ofText text).InLines
  flat : ∃ used t rest, tokens text = used ++ t :: rest ∧ t.kind = .streamEnd ∧
    flowDepth used.reverse = 0

theorem Complete.ended {text : List Char} (complete : Complete text) :
    ∃ t ∈ tokens text, t.kind = .streamEnd := by
  obtain ⟨used, t, rest, same, kind, -⟩ := complete.flat
  exact ⟨t, same ▸ List.mem_append_right used List.mem_cons_self, kind⟩

theorem Complete.allowed {text : List Char} (complete : Complete text) :
    text.all isAllowed = true := by
  obtain ⟨t, member, -⟩ := complete.ended
  rw [tokens] at member
  split at member
  · assumption
  · cases member

theorem Complete.exists_reads {text : List Char} (complete : Complete text) :
    ∃ e n, n ≤ text.length + 2 ∧ Reader.Reads (.ofText text) n e ∧ e.outerKeys = [] ∧
      tokens text = e.tokens.reverse ++ [⟨.streamEnd, e.cursor.mark, e.cursor.mark⟩] := by
  have read : tokens text = Reader.readAll (text.length + 2) (.ofText text) :=
    if_pos complete.allowed
  have steady : (Reader.ofText text).Steady := ⟨rfl, List.forall_mem_nil _, rfl, rfl⟩
  obtain ⟨e, n, le, reads, same⟩ := Reader.exists_reads steady complete.lines (read ▸ complete.ended)
  rw [← read] at same
  refine ⟨e, n, le, reads, ?_, by rw [same, List.reverse_cons]⟩
  -- The end that `flat` speaks of is the last token, because no other token is an end.
  obtain ⟨used, t, rest, parts, kind, flat⟩ := complete.flat
  have reversed := congrArg List.reverse (same.symm.trans parts)
  rw [List.reverse_reverse, List.reverse_append, List.reverse_cons, List.append_assoc,
    List.singleton_append] at reversed
  refine List.eq_nil_of_length_eq_zero (reads.steady.depth.trans ?_)
  cases newest : rest.reverse with
  | nil =>
      rw [newest] at reversed
      rw [(List.cons.inj reversed).2, flat]
  | cons x others =>
      rw [newest] at reversed
      exact absurd kind (reads.steady.running t ((List.cons.inj reversed).2 ▸ by simp))

/-- How many steps are enough for texts. -/
def steps : List (List Char) → Nat
  | [] => 0
  | text :: rest => text.length + 2 + steps rest

theorem steps_le (text : List Char) (rest : List (List Char)) :
    steps (text :: rest) ≤ (text ++ behind rest).length + 2 := by
  induction rest generalizing text with
  | nil => simp [steps, behind]
  | cons next rest ih =>
      have le := ih next
      rw [steps]
      simp only [behind, List.length_append, List.length_cons] at le ⊢
      omega

/-- What has been read of a text, at its place, and what stands where the text ends. -/
theorem place_tokens {r e : Reader} {n : Nat} (reads : Reader.Reads r n e) {s : Surroundings}
    {x : Token} (first : x.first = e.cursor.mark.within s)
    (ending : x.kind = .streamEnd ∨ x.kind = .documentStart) (more : List Token) :
    let tokens := e.tokens.reverse ++ [⟨.streamEnd, e.cursor.mark, e.cursor.mark⟩]
    (e.within s).tokens.reverse ++ x :: more = s.older.reverse ++ place s (x :: more) tokens ∧
      Continues s tokens (x :: more) := by
  have running : ∀ t ∈ e.tokens.reverse, t.kind ≠ .streamEnd := fun t member =>
    reads.steady.running t (List.mem_reverse.mp member)
  refine ⟨?_, ending, fun t member kind => ?_⟩
  · rw [place_append running]
    simp [Reader.within]
  · rcases List.mem_append.mp member with before | last
    · exact absurd kind (running t before)
    · rw [first, List.mem_singleton.mp last]

theorem readAll_joined {text : List Char} {rest : List (List Char)}
    (complete : ∀ t ∈ text :: rest, Complete t) {s : Surroundings} (after : s.after = behind rest)
    {fuel : Nat} (enough : steps (text :: rest) ≤ fuel) :
    ∃ ts, Reader.readAll fuel ((Reader.ofText text).within s) = s.older.reverse ++ ts ∧
      Joined ((text :: rest).map tokens) ts := by
  -- Each text has surroundings of its own: what has been read before it, and what is behind it.
  induction rest generalizing text s fuel with
  | nil =>
      obtain ⟨e, n, le, reads, -, same⟩ := (complete text List.mem_cons_self).exists_reads
      obtain ⟨fuel, rfl⟩ : ∃ f, fuel = f + n := ⟨fuel - n, by simp only [steps] at enough; omega⟩
      obtain ⟨placed, continues⟩ := place_tokens reads (s := s)
        (x := ⟨.streamEnd, e.cursor.mark.within s, e.cursor.mark.within s⟩) rfl (.inl rfl) []
      rw [← same] at placed continues
      exact ⟨_, (reads.last s fuel after).trans (List.reverse_cons.trans placed),
        .last rfl continues⟩
  | cons next rest ih =>
      obtain ⟨e, n, le, reads, flat, same⟩ := (complete text List.mem_cons_self).exists_reads
      obtain ⟨fuel, rfl, left⟩ : ∃ f, fuel = f + n ∧ steps (next :: rest) ≤ f :=
        ⟨fuel - n, by simp only [steps] at enough; omega, by simp only [steps] at enough ⊢; omega⟩
      obtain ⟨s', after', older, readOn⟩ :=
        Reader.exists_behind_marker reads flat after (behind_parted rest)
      obtain ⟨ts, read, joined⟩ := ih (fun t member => complete t (List.mem_cons_of_mem _ member))
        after' left
      obtain ⟨placed, continues⟩ := place_tokens reads (s := s)
        (x := ⟨.documentStart, e.cursor.mark.within s, ((e.within s).cursor.skip 3).mark⟩) rfl
        (.inr rfl) ts
      rw [← same] at placed continues
      refine ⟨_, ?_, .next rfl continues joined⟩
      rw [reads.next s fuel (by simp [after, behind]) flat, readOn, read, older, ← placed]
      simp only [Reader.pushIndicator, Reader.push, List.reverse_cons, List.append_assoc,
        List.singleton_append]
      rfl

theorem behind_allowed {rest : List (List Char)} (complete : ∀ t ∈ rest, Complete t) :
    (behind rest).all isAllowed = true := by
  induction rest with
  | nil => rfl
  | cons text rest ih =>
      have marker : isAllowed '-' = true ∧ isAllowed '\n' = true := by decide
      simp only [behind, List.all_cons, List.all_append, marker, Bool.true_and, Bool.and_eq_true]
      exact ⟨(complete text List.mem_cons_self).allowed,
        ih fun t member => complete t (List.mem_cons_of_mem _ member)⟩

/-- Texts that are complete are read one after the other. -/
theorem joined_tokens {text : List Char} {rest : List (List Char)}
    (complete : ∀ t ∈ text :: rest, Complete t) :
    Joined ((text :: rest).map tokens) (tokens (text ++ behind rest)) := by
  have allowed : (text ++ behind rest).all isAllowed = true := by
    rw [List.all_append, (complete text List.mem_cons_self).allowed, Bool.true_and]
    exact behind_allowed fun t member => complete t (List.mem_cons_of_mem _ member)
  obtain ⟨ts, read, joined⟩ := readAll_joined complete
    (s := ⟨behind rest, 0, 0, [], behind_parted rest, List.forall_mem_nil _⟩) rfl
    (steps_le text rest)
  rw [tokens, if_pos allowed]
  exact read.symm ▸ joined

end ManifestMigration.Yaml
