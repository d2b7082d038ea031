import ManifestMigration.Proofs.Yaml.Grammar.Document
import ManifestMigration.Proofs.Yaml.Trees

/-! # Documents behind each other

The first document of a text may lack its marker, every other document starts with one. What the
tokens of a document make alone, they make behind a marker as well; a text without a token but its
end is a null document there.
-/

namespace ManifestMigration.Yaml

def TokenKind.startsContent : TokenKind → Bool
  | .version _ _ | .tagDirective _ _ | .documentStart | .documentEnd | .streamEnd => false
  | _ => true

theorem running_of_startsContent {t : Token} (starts : t.kind.startsContent = true) :
    t.kind ≠ .streamEnd := by
  intro ends
  rw [ends] at starts
  cases starts

/-- The first token of texts behind each other is that of the first text, if it has content. -/
theorem Joined.exists_first {t : Token} {rest tokens : List Token} {parts : List (List Token)}
    (joined : Joined ((t :: rest) :: parts) tokens) (starts : t.kind.startsContent = true) :
    ∃ t' rest', tokens = t' :: rest' ∧ t'.kind.startsContent = true := by
  have running := running_of_startsContent starts
  cases joined with
  | last => exact ⟨_, _, place_cons running, starts⟩
  | next => exact ⟨_, _, place_cons running, starts⟩

/-- No token is the marker of a document. -/
def Unmarked (tokens : List Token) : Prop :=
  ∀ t ∈ tokens, t.kind ≠ .documentStart ∧ t.kind ≠ .documentEnd

instance (tokens : List Token) : Decidable (Unmarked tokens) :=
  inferInstanceAs (Decidable (∀ t ∈ tokens, t.kind ≠ .documentStart ∧ t.kind ≠ .documentEnd))

namespace Grammar

variable {g g' : Grammar} {event : Event} {tokens : List Token} {mark : Mark}

/-! ## The start of a document -/

/-- Directives stand before the tokens that they leave. -/
theorem of_directives {versioned : Bool} {handles handles' : List (List Char × List Char)}
    {rest : List Token} (done : directives versioned handles tokens = some (handles', rest)) :
    ∃ used, tokens = used ++ rest := by
  induction tokens generalizing versioned handles with
  | nil =>
      cases done
      exact ⟨[], rfl⟩
  | cons t tokens ih =>
      obtain ⟨kind, first, last⟩ := t
      cases kind with
      | version major minor =>
          rw [directives] at done
          split at done
          · cases done
          · obtain ⟨used, same⟩ := ih done
            exact ⟨_ :: used, congrArg _ same⟩
      | tagDirective handle stem =>
          rw [directives] at done
          split at done
          · cases done
          · obtain ⟨used, same⟩ := ih done
            exact ⟨_ :: used, congrArg _ same⟩
      | _ =>
          cases done
          exact ⟨[], rfl⟩

theorem of_explicitDocument {next : List Expectation}
    (done : g.explicitDocument tokens next = some (event, g')) :
    event.kind = .documentStart ∧ ∃ t ∈ tokens, t.kind = .documentStart := by
  unfold explicitDocument at done
  split at done
  · next handles first last behind found =>
      obtain ⟨used, same⟩ := of_directives found
      cases done
      exact ⟨rfl, ⟨.documentStart, first, last⟩, same ▸ by simp, rfl⟩
  · cases done

/-- Without a marker a text starts with the content of its document. -/
theorem of_step_start (unmarked : Unmarked tokens) (done : (ofTokens tokens).step = some (event, g'))
    (running : event.kind ≠ .streamEnd) :
    event.kind = .documentStart ∧ g' = ⟨tokens, [.blockNode, .documentEnd], defaultHandles⟩ ∧
      ∃ t rest, tokens = t :: rest ∧ t.kind.startsContent = true := by
  cases tokens with
  | nil => cases done
  | cons t rest =>
      have here := unmarked t List.mem_cons_self
      obtain ⟨kind, first, last⟩ := t
      cases kind with
      | streamEnd =>
          cases done
          exact absurd rfl running
      | version | tagDirective =>
          obtain ⟨-, t, member, marker⟩ := of_explicitDocument done
          exact absurd marker (unmarked t member).1
      | documentStart => exact absurd rfl here.1
      | documentEnd => exact absurd rfl here.2
      | _ =>
          cases done
          exact ⟨rfl, rfl, _, _, rfl, rfl⟩

/-- Content starts a document where the text starts. -/
theorem step_start {t : Token} {rest : List Token} (starts : t.kind.startsContent = true) :
    (ofTokens (t :: rest)).step = some (⟨.documentStart, t.first⟩,
      ⟨t :: rest, [.blockNode, .documentEnd], defaultHandles⟩) := by
  obtain ⟨kind, first, last⟩ := t
  cases kind with
  | version | tagDirective | documentStart | documentEnd | streamEnd => cases starts
  | _ => rfl

/-- A marker starts a document. -/
theorem step_marker {x : Token} {implicit : Bool} {handles : List (List Char × List Char)}
    (marker : x.kind = .documentStart) (more : List Token) :
    step ⟨x :: more, [.documentStart implicit], handles⟩ =
      some (⟨.documentStart, .start⟩,
        ⟨more, [.documentContent, .documentEnd], defaultHandles⟩) := by
  obtain ⟨_, first, last⟩ := x
  subst marker
  cases implicit <;> rfl

/-- Content behind a marker is content without one. -/
theorem step_content {t : Token} {rest : List Token} {handles : List (List Char × List Char)}
    (starts : t.kind.startsContent = true) :
    step ⟨t :: rest, [.documentContent, .documentEnd], handles⟩ =
      step ⟨t :: rest, [.blockNode, .documentEnd], handles⟩ := by
  obtain ⟨kind, first, last⟩ := t
  cases kind with
  | version | tagDirective | documentStart | documentEnd | streamEnd => cases starts
  | _ => rfl

/-- Only the end of the text ends the events between documents. -/
theorem of_step_end {handles : List (List Char × List Char)} (unmarked : Unmarked tokens)
    (done : step ⟨tokens, [.documentStart false], handles⟩ = some (event, g'))
    (ends : event.kind = .streamEnd) :
    ∃ t rest, tokens = t :: rest ∧ t.kind = .streamEnd := by
  cases tokens with
  | nil => cases done
  | cons t rest =>
      have here := unmarked t List.mem_cons_self
      obtain ⟨kind, first, last⟩ := t
      cases kind with
      | streamEnd => exact ⟨_, _, rfl, rfl⟩
      | version | tagDirective => cases ends.symm.trans (of_explicitDocument done).1
      | documentStart => exact absurd rfl here.1
      | documentEnd => exact absurd rfl here.2
      | _ => cases done

/-! ## Documents -/

/-- Behind a marker some tokens make a document, whatever stands where their text ends. -/
def Makes (tokens : List Token) (document : Node) : Prop :=
  ∀ s more, Continues s tokens more → ∃ events,
    Runs ⟨place s more tokens, [.documentContent, .documentEnd], defaultHandles⟩ events
      ⟨more, [.documentStart false], defaultHandles⟩ ∧ Builds events document

theorem inside_content (tokens : List Token) (handles : List (List Char × List Char)) :
    Inside ⟨tokens, [.documentContent, .documentEnd], handles⟩ [.documentContent] :=
  ⟨rfl, by simp [Expectation.isInner]⟩

theorem inside_node (tokens : List Token) (handles : List (List Char × List Char)) :
    Inside ⟨tokens, [.blockNode, .documentEnd], handles⟩ [.blockNode] :=
  ⟨rfl, by simp [Expectation.isInner]⟩

theorem Runs.of_node {events : List Event} {handles : List (List Char × List Char)}
    (starts : ∃ t rest, tokens = t :: rest ∧ t.kind.startsContent = true)
    (runs : Runs ⟨tokens, [.blockNode, .documentEnd], handles⟩ events g') :
    Runs ⟨tokens, [.documentContent, .documentEnd], handles⟩ events g' := by
  obtain ⟨t, rest, rfl, content⟩ := starts
  cases runs with
  | ending found done => cases found
  | step inner found done runs => exact .step rfl rfl ((step_content content).trans done) runs

/-- What a run makes of some tokens alone it makes of them behind a marker. -/
theorem Makes.of_runs {body rest : List Event} {ending : Event} {t : Token} {behind : List Token}
    {document : Node} (starts : ∃ t rest, tokens = t :: rest ∧ t.kind.startsContent = true)
    (runs : Runs ⟨tokens, [.blockNode, .documentEnd], defaultHandles⟩ (body ++ [ending]) g')
    (last : g'.tokens = t :: behind) (ends : t.kind = .streamEnd)
    (inner : ∀ e ∈ body, e.kind.isInner = true) (done : ending.kind = .documentEnd)
    (built : (readDocument [] (body ++ ending :: rest)).1.build = .ok document) :
    Makes tokens document := by
  intro s more continues
  have inside := inside_node tokens defaultHandles
  obtain ⟨expected, handles, -⟩ := runs.accounted inside
  have among := runs.within inside continues
  have left : g'.within s more = ⟨more, [.documentStart false], defaultHandles⟩ := by
    obtain ⟨tokens', expected', handles'⟩ := g'
    obtain ⟨_, first, last'⟩ := t
    subst last ends expected handles
    rfl
  rw [left] at among
  refine ⟨_, among.of_node ?_, Builds.of_build inner done built s⟩
  obtain ⟨t, rest, rfl, content⟩ := starts
  exact ⟨t.within s, _, place_cons (running_of_startsContent content), content⟩

/-- Behind a marker nothing is a null document. -/
theorem makes_null {t : Token} (ends : t.kind = .streamEnd) : Makes [t] .null := by
  intro s more continues
  obtain ⟨_, first, last⟩ := t
  subst ends
  have empty : leaf none .plain "" = .ok .null := by decide
  refine ⟨[⟨.scalar .none .plain [], first.within s⟩, ⟨.documentEnd, first.within s⟩], ?_, ?_⟩
  · obtain ⟨last', rest, rfl | rfl⟩ := continues.of_end <;>
      exact .step rfl rfl rfl (.ending rfl rfl)
  · intro rest
    refine ⟨_, rfl, ?_⟩
    have allowance : 4 * (Document.depthLimit + 2) * (1 + 2) = 1559 + 1 := rfl
    simp only [Document.build, Document.cons, Document.bare, Properties.none,
      List.length_singleton]
    rw [allowance, Document.buildNode]
    simp [empty]

/-! ## All documents -/

/-- The events of a document, behind the event that starts it. -/
theorem buildAll_start {events rest : List Event} {document : Node} {documents : List Node}
    {fuel : Nat} (builds : Builds events document) (others : buildAll fuel rest = .ok documents) :
    buildAll (fuel + 1) (⟨.documentStart, mark⟩ :: (events ++ rest)) =
      .ok (document :: documents) := by
  obtain ⟨d, read, built⟩ := builds rest
  have start : readDocument [] (⟨.documentStart, mark⟩ :: (events ++ rest)) = (d, rest) := read
  rw [buildAll]
  · simp only [start, built, others]
  · intro _ _ same
    cases same

/-- The documents of texts behind each other, from the content of the first one on. -/
theorem exists_events {parts : List (List Token)} {documents : List Node}
    (joined : Joined parts tokens) (makes : List.Forall₂ Makes parts documents) :
    ∃ events, documents.length ≤ events.length ∧
      (∀ fuel, readAll (fuel + (4 * tokens.length + 3))
        ⟨tokens, [.documentContent, .documentEnd], defaultHandles⟩ = events) ∧
      ∀ fuel mark, buildAll (fuel + documents.length + 1) (⟨.documentStart, mark⟩ :: events) =
        .ok documents := by
  induction joined generalizing documents with
  | @last s tokens x ends continues =>
      cases makes with
      | @cons _ document _ _ first others =>
      cases others
      obtain ⟨run, runs, builds⟩ := first s [x] continues
      -- The run is so short that the allowance for all tokens leaves enough for what follows it.
      obtain ⟨-, -, few, -⟩ := runs.accounted (inside_content _ _)
      refine ⟨run ++ [⟨.streamEnd, x.first⟩], ?_, fun fuel => ?_, fun fuel mark => ?_⟩
      · simp
      · obtain ⟨k, enough⟩ : ∃ k, fuel + (4 * (place s [x] tokens).length + 3) = k + 1 + run.length :=
          ⟨fuel + (4 * (place s [x] tokens).length + 3) - 1 - run.length, by
            simp [Expectation.weight] at few
            omega⟩
        rw [enough, runs.readAll (inside_content _ _) (k + 1)]
        obtain ⟨_, first, last⟩ := x
        subst ends
        rfl
      · exact buildAll_start builds rfl
  | @next s tokens more parts x marker continues joined ih =>
      cases makes with
      | @cons _ document _ documents first others =>
      obtain ⟨run, runs, builds⟩ := first s (x :: more) continues
      obtain ⟨-, -, few, -⟩ := runs.accounted (inside_content _ _)
      obtain ⟨events, many, read, built⟩ := ih others
      refine ⟨run ++ ⟨.documentStart, .start⟩ :: events, ?_, fun fuel => ?_, fun fuel mark => ?_⟩
      · simp
        omega
      · obtain ⟨k, enough⟩ : ∃ k, fuel + (4 * (place s (x :: more) tokens).length + 3) =
            k + (4 * more.length + 3) + 1 + run.length :=
          ⟨fuel + (4 * (place s (x :: more) tokens).length + 3) - (4 * more.length + 3) - 1 -
            run.length, by
            simp [Expectation.weight] at few
            omega⟩
        rw [enough, runs.readAll (inside_content _ _),
          readAll_of_some (step_marker marker more) EventKind.noConfusion, read k]
      · exact buildAll_start builds (built fuel .start)

end Grammar

end ManifestMigration.Yaml
