import ManifestMigration.Proofs.Yaml.Grammar.Steps
import ManifestMigration.Proofs.Yaml.Within.Text

/-! # Events of a text among others

Inside of a document the grammar tells the end of the text from the marker of another document only
by ending the document at both. So the events of a text are the same where the text stands among
others: what stands behind it is seen, but not used.
-/

namespace ManifestMigration.Yaml

def Event.within (e : Event) (s : Surroundings) : Event := ⟨e.kind, e.mark.within s⟩

variable {s : Surroundings} {more tokens : List Token}

theorem Continues.of_append (before : List Token)
    (continues : Continues s (before ++ tokens) more) : Continues s tokens more := by
  cases more with
  | nil => exact continues
  | cons x more =>
      exact ⟨continues.1, fun t member => continues.2 t (List.mem_append_right before member)⟩

theorem Continues.of_cons {t : Token} (continues : Continues s (t :: tokens) more) :
    Continues s tokens more :=
  of_append [t] continues

/-- Where a text ends, the end or a marker stands in its place. -/
theorem Continues.of_end {first last : Mark}
    (continues : Continues s (⟨.streamEnd, first, last⟩ :: tokens) more) :
    ∃ last' rest, more = ⟨.streamEnd, first.within s, last'⟩ :: rest ∨
      more = ⟨.documentStart, first.within s, last'⟩ :: rest := by
  cases more with
  | nil => cases continues
  | cons x rest =>
      obtain ⟨kind, first', last'⟩ := x
      obtain rfl : first' = first.within s := continues.2 _ List.mem_cons_self rfl
      exact ⟨last', rest, continues.1.imp (by rintro rfl; rfl) (by rintro rfl; rfl)⟩

namespace Grammar

/-- The grammar of a text, in the larger text. -/
def within (g : Grammar) (s : Surroundings) (more : List Token) : Grammar :=
  { g with tokens := place s more g.tokens }

/-- An event of a text and what is to be read after it, in the larger text. -/
def moved (s : Surroundings) (more : List Token) (done : Event × Grammar) : Event × Grammar :=
  (done.1.within s, done.2.within s more)

variable {g : Grammar} {next : List Expectation}

theorem properties_place (continues : Continues s tokens more) :
    properties (place s more tokens) =
      ((properties tokens).1, (properties tokens).2.1, place s more (properties tokens).2.2) := by
  cases tokens with
  | nil => rfl
  | cons t rest =>
      obtain ⟨kind, first, last⟩ := t
      cases kind with
      | streamEnd => obtain ⟨_, _, rfl | rfl⟩ := continues.of_end <;> rfl
      | anchor name =>
          cases rest with
          | nil => rfl
          | cons t rest =>
              obtain ⟨kind, first, last⟩ := t
              cases kind with
              | streamEnd => obtain ⟨_, _, rfl | rfl⟩ := continues.of_cons.of_end <;> rfl
              | _ => rfl
      | tag handle suffix =>
          cases rest with
          | nil => rfl
          | cons t rest =>
              obtain ⟨kind, first, last⟩ := t
              cases kind with
              | streamEnd => obtain ⟨_, _, rfl | rfl⟩ := continues.of_cons.of_end <;> rfl
              | _ => rfl
      | _ => rfl

theorem bareNode_within (block indentless : Bool) (p : Properties) (first : Mark)
    (continues : Continues s tokens more) :
    (g.within s more).bareNode block indentless p (first.within s) next (place s more tokens) =
      (g.bareNode block indentless p first next tokens).map (moved s more) := by
  have same : ∀ (c : Bool) (kind : EventKind) (tokens : List Token) (es : List Expectation)
      (step : Step), (if c then (g.within s more).emit kind (first.within s) (place s more tokens) es
        else step.map (moved s more)) =
      (if c then g.emit kind first tokens es else step).map (moved s more) := by
    intro c _ _ _ _
    cases c <;> rfl
  cases tokens with
  | nil => rfl
  | cons t rest =>
      obtain ⟨kind, mark, last⟩ := t
      have empty := same (p.anchor.isSome || p.tag.isSome) (.scalar p .plain [])
        (⟨kind, mark, last⟩ :: rest) next none
      cases kind with
      | streamEnd => obtain ⟨_, _, rfl | rfl⟩ := continues.of_end <;> exact empty
      | scalar | flowSequenceStart | flowMappingStart => rfl
      | blockEntry | blockSequenceStart | blockMappingStart =>
          cases block <;> cases indentless <;> first | rfl | exact empty
      | _ => exact empty

theorem node_within (g : Grammar) (next : List Expectation) (block indentless : Bool)
    (continues : Continues s tokens more) :
    (g.within s more).node block indentless (place s more tokens) next =
      (g.node block indentless tokens next).map (moved s more) := by
  cases tokens with
  | nil => rfl
  | cons t rest =>
      by_cases ends : t.kind = .streamEnd
      · obtain ⟨_, first, last⟩ := t
        subst ends
        obtain ⟨_, _, rfl | rfl⟩ := continues.of_end <;> rfl
      · have properties := properties_place continues
        rw [place_cons ends] at properties ⊢
        by_cases named : ∃ name, t.kind = .alias name
        · obtain ⟨_, first, last⟩ := t
          obtain ⟨name, rfl⟩ := named
          rfl
        · have unnamed : ∀ name, t.kind ≠ .alias name := fun name kind => named ⟨name, kind⟩
          obtain ⟨used, same, -⟩ := exists_properties (t :: rest)
          rw [same] at continues
          rw [node_cons block indentless unnamed,
            node_cons (t := t.within s) block indentless unnamed, properties]
          have resolved : (g.within s more).resolveTag = g.resolveTag := rfl
          rw [resolved]
          cases g.resolveTag (Grammar.properties (t :: rest)).2.1 with
          | none => rfl
          | some tag =>
              exact bareNode_within block indentless _ t.first (continues.of_append _)

theorem nodeUnless_within (g : Grammar) (next : List Expectation)
    {missing : TokenKind → Bool} (block indentless : Bool) (mark : Mark)
    (continues : Continues s tokens more)
    (here : missing .streamEnd = false ∧ missing .documentStart = false) :
    (g.within s more).nodeUnless missing block indentless (mark.within s) (place s more tokens)
        next =
      (g.nodeUnless missing block indentless mark tokens next).map (moved s more) := by
  have node := node_within g next block indentless continues
  cases tokens with
  | nil => rfl
  | cons t rest =>
      by_cases ends : t.kind = .streamEnd
      · obtain ⟨_, first, last⟩ := t
        subst ends
        rw [nodeUnless, if_neg (by simp [here.1]), ← node]
        obtain ⟨_, _, rfl | rfl⟩ := continues.of_end
        · exact if_neg (by simp [here.1])
        · exact if_neg (by simp [here.2])
      · have shape : place s more (t :: rest) = t.within s :: place s more rest := place_cons ends
        rw [shape] at node ⊢
        rw [nodeUnless, nodeUnless, node, show (t.within s).kind = t.kind from rfl]
        cases missing t.kind with
        | true => exact congrArg (fun tokens => some (_, Grammar.mk tokens _ _)) shape.symm
        | false => rfl

/-- A step that reads a first token of some kinds, and replies to one of any other kind where it
    stands. The end and the marker of a document are of the other kinds. -/
structure Replies (step : Grammar → Step) (reads : TokenKind → Bool)
    (reply : Option (EventKind × List Expectation)) : Prop where
  nothing (expected : List Expectation) (handles : List (List Char × List Char)) :
    step ⟨[], expected, handles⟩ = none
  unread (kind : TokenKind) (first last : Mark) (rest : List Token) (expected : List Expectation)
    (handles : List (List Char × List Char)) : reads kind = false →
      step ⟨⟨kind, first, last⟩ :: rest, expected, handles⟩ =
        reply.map fun (event, next) =>
          (⟨event, first⟩, ⟨⟨kind, first, last⟩ :: rest, next, handles⟩)
  ending : reads .streamEnd = false
  marker : reads .documentStart = false

/-- In the larger text such a step is to be followed only where it reads the first token. -/
theorem Replies.within {step : Grammar → Step} {reads : TokenKind → Bool}
    {reply : Option (EventKind × List Expectation)} (replies : Replies step reads reply)
    (continues : Continues s g.tokens more)
    (reading : ∀ kind first last rest, reads kind = true → Continues s rest more →
      step (within ⟨⟨kind, first, last⟩ :: rest, g.expected, g.handles⟩ s more) =
        (step ⟨⟨kind, first, last⟩ :: rest, g.expected, g.handles⟩).map (moved s more)) :
    step (g.within s more) = (step g).map (moved s more) := by
  obtain ⟨tokens, expected, handles⟩ := g
  cases tokens with
  | nil =>
      rw [replies.nothing expected handles]
      exact replies.nothing expected handles
  | cons t rest =>
      obtain ⟨kind, first, last⟩ := t
      cases read : reads kind with
      | true => exact reading kind first last rest read continues.of_cons
      | false =>
          rw [replies.unread kind first last rest expected handles read, Option.map_map]
          by_cases ends : kind = .streamEnd
          · subst ends
            obtain ⟨_, _, rfl | rfl⟩ := continues.of_end
            · exact replies.unread _ _ _ _ _ _ replies.ending
            · exact replies.unread _ _ _ _ _ _ replies.marker
          · have shape : place s more (⟨kind, first, last⟩ :: rest) =
                ⟨kind, first.within s, last.within s⟩ :: place s more rest := place_cons ends
            have there := replies.unread kind (first.within s) (last.within s)
              (place s more rest) expected handles read
            rw [← shape] at there
            exact there

theorem content_within (continues : Continues s g.tokens more) :
    (g.within s more).content next = (g.content next).map (moved s more) := by
  have node := node_within g next true false continues
  obtain ⟨tokens, expected, handles⟩ := g
  cases tokens with
  | nil => rfl
  | cons t rest =>
      obtain ⟨kind, first, last⟩ := t
      cases kind with
      | streamEnd => obtain ⟨_, _, rfl | rfl⟩ := continues.of_end <;> rfl
      | version | tagDirective | documentStart | documentEnd => rfl
      | _ => exact node

theorem blockEntry_within (continues : Continues s g.tokens more) :
    (g.within s more).blockEntry next = (g.blockEntry next).map (moved s more) := by
  have replies : Replies (·.blockEntry next)
      (fun kind => kind == .blockEntry || kind == .blockEnd) none :=
    ⟨fun _ _ => rfl, fun kind _ _ _ _ _ _ => by cases kind <;> trivial, rfl, rfl⟩
  refine replies.within continues fun kind first last rest read behind => ?_
  cases kind with
  | blockEntry => exact nodeUnless_within _ _ true false last behind ⟨rfl, rfl⟩
  | blockEnd => rfl
  | _ => cases read

theorem indentlessEntry_within (continues : Continues s g.tokens more) :
    (g.within s more).indentlessEntry next = (g.indentlessEntry next).map (moved s more) := by
  have replies : Replies (·.indentlessEntry next) (· == .blockEntry)
      (some (.sequenceEnd, next)) :=
    ⟨fun _ _ => rfl, fun kind _ _ _ _ _ _ => by cases kind <;> trivial, rfl, rfl⟩
  refine replies.within continues fun kind first last rest read behind => ?_
  cases kind with
  | blockEntry => exact nodeUnless_within _ _ true false last behind ⟨rfl, rfl⟩
  | _ => cases read

theorem blockKey_within (continues : Continues s g.tokens more) :
    (g.within s more).blockKey next = (g.blockKey next).map (moved s more) := by
  have replies : Replies (·.blockKey next) (fun kind => kind == .key || kind == .blockEnd) none :=
    ⟨fun _ _ => rfl, fun kind _ _ _ _ _ _ => by cases kind <;> trivial, rfl, rfl⟩
  refine replies.within continues fun kind first last rest read behind => ?_
  cases kind with
  | key => exact nodeUnless_within _ _ true true last behind ⟨rfl, rfl⟩
  | blockEnd => rfl
  | _ => cases read

theorem blockValue_within (continues : Continues s g.tokens more) :
    (g.within s more).blockValue next = (g.blockValue next).map (moved s more) := by
  have replies : Replies (·.blockValue next) (· == .value)
      (some (.scalar .none .plain [], .blockKey :: next)) :=
    ⟨fun _ _ => rfl, fun kind _ _ _ _ _ _ => by cases kind <;> trivial, rfl, rfl⟩
  refine replies.within continues fun kind first last rest read behind => ?_
  cases kind with
  | value => exact nodeUnless_within _ _ true true last behind ⟨rfl, rfl⟩
  | _ => cases read

theorem afterComma_place (first : Bool) (continues : Continues s tokens more) :
    afterComma first (place s more tokens) = (afterComma first tokens).map (place s more) := by
  cases first with
  | true => rfl
  | false =>
      cases tokens with
      | nil => rfl
      | cons t rest =>
          obtain ⟨kind, mark, last⟩ := t
          cases kind with
          | streamEnd => obtain ⟨_, _, rfl | rfl⟩ := continues.of_end <;> rfl
          | _ => rfl

theorem continues_of_afterComma {first : Bool} {rest : List Token}
    (continues : Continues s tokens more) (done : afterComma first tokens = some rest) :
    Continues s rest more := by
  obtain ⟨used, rfl, -⟩ := of_afterComma done
  exact continues.of_append _

/-- What comes behind the comma is read in the larger text as in the text alone. -/
theorem bind_afterComma_within (first : Bool) {f f' : List Token → Step}
    (continues : Continues s tokens more)
    (same : ∀ rest, Continues s rest more → f' (place s more rest) = (f rest).map (moved s more)) :
    (afterComma first (place s more tokens)).bind f' =
      ((afterComma first tokens).bind f).map (moved s more) := by
  rw [afterComma_place first continues]
  cases comma : afterComma first tokens with
  | none => rfl
  | some rest => exact same rest (continues_of_afterComma continues comma)

/-- An entry of a flow sequence behind its comma. -/
def flowEntryAt (g : Grammar) (next : List Expectation) (tokens : List Token) : Step :=
  match tokens with
  | ⟨.flowSequenceEnd, mark, _⟩ :: rest => g.emit .sequenceEnd mark rest next
  | ⟨.key, mark, _⟩ :: rest =>
    g.emit (.mappingStart .none) mark rest (.pairKey :: .flowEntry false :: next)
  | _ => g.node false false tokens (.flowEntry false :: next)

theorem flowEntryAt_within (g : Grammar) (next : List Expectation)
    (continues : Continues s tokens more) :
    (g.within s more).flowEntryAt next (place s more tokens) =
      (g.flowEntryAt next tokens).map (moved s more) := by
  have node := node_within g (.flowEntry false :: next) false false continues
  cases tokens with
  | nil => rfl
  | cons t rest =>
      obtain ⟨kind, first, last⟩ := t
      cases kind with
      | streamEnd => obtain ⟨_, _, rfl | rfl⟩ := continues.of_end <;> exact node
      | flowSequenceEnd | key => rfl
      | _ => exact node

theorem flowEntry_within (first : Bool) (continues : Continues s g.tokens more) :
    (g.within s more).flowEntry first next = (g.flowEntry first next).map (moved s more) := by
  have comma := bind_afterComma_within first continues fun _ behind =>
    flowEntryAt_within g next behind
  obtain ⟨tokens, expected, handles⟩ := g
  cases tokens with
  | nil => cases first <;> rfl
  | cons t rest =>
      obtain ⟨kind, mark, last⟩ := t
      cases kind with
      | streamEnd => obtain ⟨_, _, rfl | rfl⟩ := continues.of_end <;> cases first <;> exact comma
      | flowSequenceEnd => rfl
      | _ => cases first <;> exact comma

theorem pairKey_within (continues : Continues s g.tokens more) :
    (g.within s more).pairKey next = (g.pairKey next).map (moved s more) := by
  have node := node_within g (.pairValue :: next) false false continues
  obtain ⟨tokens, expected, handles⟩ := g
  cases tokens with
  | nil => rfl
  | cons t rest =>
      obtain ⟨kind, first, last⟩ := t
      cases kind with
      | streamEnd => obtain ⟨_, _, rfl | rfl⟩ := continues.of_end <;> exact node
      | value | flowEntry | flowSequenceEnd => rfl
      | _ => exact node

/-- A node in a flow collection that may be missing, and stands where the next token does. -/
def nodeHereUnless (g : Grammar) (missing : TokenKind → Bool) (next : List Expectation) :
    List Token → Step
  | [] => none
  | t :: rest => g.nodeUnless missing false false t.first (t :: rest) next

theorem nodeHereUnless_within (g : Grammar) (missing : TokenKind → Bool)
    (next : List Expectation) (continues : Continues s tokens more)
    (here : missing .streamEnd = false ∧ missing .documentStart = false) :
    (g.within s more).nodeHereUnless missing next (place s more tokens) =
      (g.nodeHereUnless missing next tokens).map (moved s more) := by
  cases tokens with
  | nil => rfl
  | cons t rest =>
      have node := nodeUnless_within g next false false t.first continues here
      by_cases ends : t.kind = .streamEnd
      · obtain ⟨_, first, last⟩ := t
        subst ends
        obtain ⟨_, _, rfl | rfl⟩ := continues.of_end <;> exact node
      · rw [place_cons ends] at node ⊢
        exact node

theorem pairValue_of_value (first last : Mark) (rest : List Token) (expected : List Expectation)
    (handles : List (List Char × List Char)) :
    pairValue ⟨⟨.value, first, last⟩ :: rest, expected, handles⟩ next =
      nodeHereUnless ⟨⟨.value, first, last⟩ :: rest, expected, handles⟩ endsPairValue
        (.pairEnd :: next) rest := by
  cases rest <;> rfl

theorem pairValue_within (continues : Continues s g.tokens more) :
    (g.within s more).pairValue next = (g.pairValue next).map (moved s more) := by
  have replies : Replies (·.pairValue next) (· == .value)
      (some (.scalar .none .plain [], .pairEnd :: next)) :=
    ⟨fun _ _ => rfl, fun kind _ _ _ _ _ _ => by cases kind <;> trivial, rfl, rfl⟩
  refine replies.within continues fun kind first last rest read behind => ?_
  cases kind with
  | value =>
      rw [pairValue_of_value]
      refine (pairValue_of_value _ _ _ _ _).trans ?_
      exact nodeHereUnless_within _ endsPairValue (.pairEnd :: next) behind ⟨rfl, rfl⟩
  | _ => cases read

theorem pairEnd_within (continues : Continues s g.tokens more) :
    (g.within s more).pairEnd next = (g.pairEnd next).map (moved s more) := by
  have replies : Replies (·.pairEnd next) (fun _ => false) (some (.mappingEnd, next)) :=
    ⟨fun _ _ => rfl, fun _ _ _ _ _ _ _ => rfl, rfl, rfl⟩
  exact replies.within continues nofun

/-- A key of a flow mapping behind its comma. -/
def flowKeyAt (g : Grammar) (next : List Expectation) (tokens : List Token) : Step :=
  match tokens with
  | ⟨.flowMappingEnd, mark, _⟩ :: rest => g.emit .mappingEnd mark rest next
  | ⟨.key, _, _⟩ :: rest => g.nodeHereUnless endsFlowKey (.flowValue :: next) rest
  | _ => g.node false false tokens (.flowNoValue :: next)

theorem flowKeyAt_within (continues : Continues s tokens more) :
    (g.within s more).flowKeyAt next (place s more tokens) =
      (g.flowKeyAt next tokens).map (moved s more) := by
  have node := node_within g (.flowNoValue :: next) false false continues
  cases tokens with
  | nil => rfl
  | cons t rest =>
      obtain ⟨kind, first, last⟩ := t
      cases kind with
      | streamEnd => obtain ⟨_, _, rfl | rfl⟩ := continues.of_end <;> exact node
      | flowMappingEnd => rfl
      | key => exact nodeHereUnless_within g _ _ continues.of_cons ⟨rfl, rfl⟩
      | _ => exact node

theorem flowKey_of_ne_end (first : Bool)
    (other : ∀ mark last rest, g.tokens ≠ ⟨.flowMappingEnd, mark, last⟩ :: rest) :
    g.flowKey first next = (afterComma first g.tokens).bind (g.flowKeyAt next) := by
  unfold flowKey
  split
  · next mark last rest same => exact absurd same (other mark last rest)
  · cases afterComma first g.tokens with
    | none => rfl
    | some tokens =>
        cases tokens with
        | nil => rfl
        | cons t rest =>
            obtain ⟨kind, mark, last⟩ := t
            cases kind with
            | key => cases rest <;> rfl
            | _ => rfl

theorem flowKey_within (first : Bool) (continues : Continues s g.tokens more) :
    (g.within s more).flowKey first next = (g.flowKey first next).map (moved s more) := by
  have other (alone : ∀ mark last rest, g.tokens ≠ ⟨.flowMappingEnd, mark, last⟩ :: rest)
      (among : ∀ mark last rest, place s more g.tokens ≠ ⟨.flowMappingEnd, mark, last⟩ :: rest) :
      (g.within s more).flowKey first next = (g.flowKey first next).map (moved s more) := by
    rw [flowKey_of_ne_end first alone, flowKey_of_ne_end first among]
    exact bind_afterComma_within first continues fun _ behind => flowKeyAt_within behind
  obtain ⟨tokens, expected, handles⟩ := g
  cases tokens with
  | nil => exact other nofun nofun
  | cons t rest =>
      obtain ⟨kind, mark, last⟩ := t
      cases kind with
      | streamEnd => obtain ⟨_, _, rfl | rfl⟩ := continues.of_end <;> exact other nofun nofun
      | flowMappingEnd => rfl
      | _ => exact other nofun nofun

theorem flowValue_of_value (first last : Mark) (rest : List Token) (expected : List Expectation)
    (handles : List (List Char × List Char)) :
    flowValue ⟨⟨.value, first, last⟩ :: rest, expected, handles⟩ next =
      nodeHereUnless ⟨⟨.value, first, last⟩ :: rest, expected, handles⟩ endsFlowValue
        (.flowKey false :: next) rest := by
  cases rest <;> rfl

theorem flowValue_within (continues : Continues s g.tokens more) :
    (g.within s more).flowValue next = (g.flowValue next).map (moved s more) := by
  have replies : Replies (·.flowValue next) (· == .value)
      (some (.scalar .none .plain [], .flowKey false :: next)) :=
    ⟨fun _ _ => rfl, fun kind _ _ _ _ _ _ => by cases kind <;> trivial, rfl, rfl⟩
  refine replies.within continues fun kind first last rest read behind => ?_
  cases kind with
  | value =>
      rw [flowValue_of_value]
      refine (flowValue_of_value _ _ _ _ _).trans ?_
      exact nodeHereUnless_within _ endsFlowValue (.flowKey false :: next) behind ⟨rfl, rfl⟩
  | _ => cases read

theorem flowNoValue_within (continues : Continues s g.tokens more) :
    (g.within s more).flowNoValue next = (g.flowNoValue next).map (moved s more) := by
  have replies : Replies (·.flowNoValue next) (fun _ => false)
      (some (.scalar .none .plain [], .flowKey false :: next)) :=
    ⟨fun _ _ => rfl, fun _ _ _ _ _ _ _ => rfl, rfl, rfl⟩
  exact replies.within continues nofun

theorem endDocument_within (continues : Continues s g.tokens more) :
    (g.within s more).endDocument = g.endDocument.map (moved s more) := by
  have replies : Replies endDocument (· == .documentEnd)
      (some (.documentEnd, [.documentStart false])) :=
    ⟨fun _ _ => rfl, fun kind _ _ _ _ _ _ => by cases kind <;> trivial, rfl, rfl⟩
  refine replies.within continues fun kind _ _ _ read _ => ?_
  cases kind with
  | documentEnd => rfl
  | _ => cases read

/-- Up to the end of a document, a step in the larger text is the step in the text alone. -/
theorem step_within {e : Expectation} (inside : ∀ implicit, e ≠ .documentStart implicit)
    {next : List Expectation} (found : g.expected = e :: next)
    (continues : Continues s g.tokens more) :
    (g.within s more).step = g.step.map (moved s more) := by
  unfold step
  rw [show (g.within s more).expected = g.expected from rfl, found]
  cases e with
  | documentStart implicit => exact absurd rfl (inside implicit)
  | documentContent => exact content_within continues
  | blockNode => exact node_within g next true false continues
  | documentEnd => exact endDocument_within continues
  | blockEntry => exact blockEntry_within continues
  | indentlessEntry => exact indentlessEntry_within continues
  | blockKey => exact blockKey_within continues
  | blockValue => exact blockValue_within continues
  | flowEntry first => exact flowEntry_within first continues
  | pairKey => exact pairKey_within continues
  | pairValue => exact pairValue_within continues
  | pairEnd => exact pairEnd_within continues
  | flowKey first => exact flowKey_within first continues
  | flowValue => exact flowValue_within continues
  | flowNoValue => exact flowNoValue_within continues

end Grammar

end ManifestMigration.Yaml
