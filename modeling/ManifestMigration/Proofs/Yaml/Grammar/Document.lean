import ManifestMigration.Proofs.Yaml.Grammar.Within

/-! # The events of a document

From the content of a document to its end the grammar takes steps that are accounted for one by one.
Together they use up the tokens of the document, leave no flow collection open, and are so few that
the allowance of the grammar is enough for them.
-/

namespace ManifestMigration.Yaml

namespace Grammar

variable {g g' : Grammar} {event : Event} {events : List Event}

/-! ## Allowance -/

theorem readAll_of_none {fuel : Nat} (stuck : g.step = none) : readAll (fuel + 1) g = [] := by
  rw [readAll, stuck]

theorem readAll_of_some {fuel : Nat} (done : g.step = some (event, g'))
    (running : event.kind ≠ .streamEnd) : readAll (fuel + 1) g = event :: readAll fuel g' := by
  rw [readAll, done]
  simp only

theorem readAll_of_end {fuel : Nat} (done : g.step = some (event, g'))
    (ends : event.kind = .streamEnd) : readAll (fuel + 1) g = [event] := by
  rw [readAll, done]
  obtain ⟨kind, mark⟩ := event
  subst ends
  rfl

/-- The first event is that of a step. -/
theorem exists_step_of_readAll {fuel : Nat} {rest : List Event}
    (read : readAll fuel g = event :: rest) : ∃ g', g.step = some (event, g') := by
  cases fuel with
  | zero => cases read
  | succ fuel =>
      cases done : g.step with
      | none => cases (readAll_of_none done).symm.trans read
      | some result =>
          obtain ⟨first, g'⟩ := result
          by_cases ends : first.kind = .streamEnd
          · cases (readAll_of_end done ends).symm.trans read
            exact ⟨g', rfl⟩
          · cases (readAll_of_some done ends).symm.trans read
            exact ⟨g', rfl⟩

theorem readAll_congr (same : g.step = g'.step) (fuel : Nat) : readAll fuel g = readAll fuel g' := by
  cases fuel with
  | zero => rfl
  | succ fuel => rw [readAll, readAll, same]

/-! ## Up to the end of a document -/

/-- The grammar goes from a place inside of a document to the end of the document, and gives some
    events on the way, the end among them. -/
inductive Runs : Grammar → List Event → Grammar → Prop
  | ending {g g' : Grammar} {event : Event} :
      g.expected = [.documentEnd] → g.step = some (event, g') → Runs g [event] g'
  | step {g g' g'' : Grammar} {event : Event} {events : List Event} {e : Expectation}
      {next : List Expectation} :
      e.isInner = true → g.expected = e :: next → g.step = some (event, g') →
        Runs g' events g'' → Runs g (event :: events) g''

/-- The grammar is inside of a document, and some expectations are left before its end. -/
def Inside (g : Grammar) (stack : List Expectation) : Prop :=
  g.expected = stack ++ [.documentEnd] ∧ ∀ e ∈ stack, e.isInner = true

/-- What the end of a document does. -/
theorem of_endDocument (found : g.expected = [.documentEnd]) (done : g.step = some (event, g')) :
    event.kind = .documentEnd ∧ g'.expected = [.documentStart false] ∧ g'.handles = g.handles ∧
      ∃ used, g.tokens = used ++ g'.tokens ∧ ∀ t ∈ used, t.kind.opensFlow = false := by
  rw [Grammar.step, found] at done
  simp only [endDocument] at done
  split at done
  · cases done
  · next same =>
      cases done
      exact ⟨rfl, rfl, rfl, [_], same, by simp [TokenKind.opensFlow]⟩
  · cases done
    exact ⟨rfl, rfl, rfl, [], rfl, List.forall_mem_nil _⟩

/-- What is met inside of a document is the first of what is left before its end. -/
theorem Inside.of_expected {e : Expectation} {next stack : List Expectation}
    (inside : g.Inside stack) (inner : e.isInner = true) (found : g.expected = e :: next) :
    ∃ rest, stack = e :: rest ∧ next = rest ++ [.documentEnd] := by
  cases stack with
  | nil =>
      cases inside.1.symm.trans found
      cases inner
  | cons e' rest =>
      cases inside.1.symm.trans found
      exact ⟨rest, rfl, rfl⟩

/-- One step inside of a document. -/
theorem Inside.step {e : Expectation} {stack : List Expectation} (inside : g.Inside (e :: stack))
    (done : g.step = some (event, g')) :
    ∃ used new, Takes g g.tokens e.flows e.weight (stack ++ [.documentEnd]) event g' used new ∧
      g'.Inside (new ++ stack) := by
  obtain ⟨found, inner⟩ := inside
  obtain ⟨here, others⟩ := List.forall_mem_cons.mp inner
  obtain ⟨used, new, takes⟩ := accounted_step here (stack ++ [.documentEnd]) found event g' done
  refine ⟨used, new, takes, ?_, List.forall_mem_append.mpr ⟨takes.inner, others⟩⟩
  rw [takes.expected, List.append_assoc]

theorem not_streamEnd_of_isInner (inner : event.kind.isInner = true) :
    event.kind ≠ .streamEnd := by
  intro ends
  rw [ends] at inner
  cases inner

/-- A run is given in full where the allowance is enough. -/
theorem Runs.readAll {stack : List Expectation} (runs : Runs g events g') (inside : g.Inside stack)
    (fuel : Nat) : Grammar.readAll (fuel + events.length) g = events ++ Grammar.readAll fuel g' := by
  induction runs generalizing stack with
  | ending found done =>
      exact readAll_of_some done (by simp [(of_endDocument found done).1])
  | @step g g' g'' event events e next inner found done runs ih =>
      obtain ⟨rest, rfl, rfl⟩ := inside.of_expected inner found
      obtain ⟨used, new, takes, inside'⟩ := inside.step done
      rw [List.length_cons, ← Nat.add_assoc,
        readAll_of_some done (not_streamEnd_of_isInner takes.event), ih inside', List.cons_append]

/-- A run that is given up to an event outside of documents is one to the end of the document. -/
theorem exists_runs {fuel : Nat} {stack : List Expectation} (inside : g.Inside stack)
    (reaches : ∃ event ∈ readAll fuel g, event.kind.isInner = false) :
    ∃ events g' n, Runs g events g' ∧ readAll fuel g = events ++ readAll n g' := by
  induction fuel generalizing g stack with
  | zero =>
      obtain ⟨_, member, -⟩ := reaches
      cases member
  | succ fuel ih =>
      cases done : g.step with
      | none =>
          rw [readAll_of_none done] at reaches
          obtain ⟨_, member, -⟩ := reaches
          cases member
      | some result =>
          obtain ⟨event, g'⟩ := result
          cases stack with
          | nil =>
              obtain ⟨kind, -⟩ := of_endDocument inside.1 done
              exact ⟨[event], g', fuel, .ending inside.1 done, readAll_of_some done (by simp [kind])⟩
          | cons e stack =>
              obtain ⟨used, new, takes, inside'⟩ := inside.step done
              have read : readAll (fuel + 1) g = event :: readAll fuel g' :=
                readAll_of_some done (not_streamEnd_of_isInner takes.event)
              obtain ⟨outer, member, outside⟩ := reaches
              rw [read] at member
              have behind : outer ∈ readAll fuel g' := by
                rcases List.mem_cons.mp member with rfl | behind
                · cases takes.event.symm.trans outside
                · exact behind
              obtain ⟨events, g'', n, runs, same⟩ := ih inside' ⟨outer, behind, outside⟩
              refine ⟨event :: events, g'', n,
                .step (inside.2 e List.mem_cons_self) inside.1 done runs, ?_⟩
              rw [read, same, List.cons_append]

/-- The events of a run are those inside of a document, and its end. -/
theorem Runs.events_eq {stack : List Expectation} (runs : Runs g events g')
    (inside : g.Inside stack) :
    ∃ body ending, events = body ++ [ending] ∧ (∀ e ∈ body, e.kind.isInner = true) ∧
      ending.kind = .documentEnd := by
  induction runs generalizing stack with
  | ending found done =>
      exact ⟨[], _, rfl, List.forall_mem_nil _, (of_endDocument found done).1⟩
  | step inner found done runs ih =>
      obtain ⟨rest, rfl, rfl⟩ := inside.of_expected inner found
      obtain ⟨used, new, takes, inside'⟩ := inside.step done
      obtain ⟨body, ending, rfl, innerBody, kind⟩ := ih inside'
      exact ⟨_ :: body, ending, rfl, List.forall_mem_cons.mpr ⟨takes.event, innerBody⟩, kind⟩

/-- A run uses up tokens in which no flow collection stays open. -/
theorem Runs.accounted {stack : List Expectation} (runs : Runs g events g')
    (inside : g.Inside stack) :
    g'.expected = [.documentStart false] ∧ g'.handles = g.handles ∧
      events.length + 4 * g'.tokens.length ≤ 4 * g.tokens.length + weight stack + 1 ∧
      ∃ used, g.tokens = used ++ g'.tokens ∧
        ∀ older, flowDepth older ≤ openFlows stack → flowDepth (used.reverse ++ older) = 0 := by
  induction runs generalizing stack with
  | ending found done =>
      obtain ⟨-, expected, handles, used, same, closed⟩ := of_endDocument found done
      obtain rfl : stack = [] := List.append_cancel_right (inside.1.symm.trans found)
      refine ⟨expected, handles, ?_, used, same, fun older flat => ?_⟩
      · rw [same, List.length_append, List.length_singleton]
        omega
      · exact Nat.le_zero.mp ((flowDepth_append_le closed older).trans flat)
  | step inner found done runs ih =>
      obtain ⟨rest, rfl, rfl⟩ := inside.of_expected inner found
      obtain ⟨used, new, takes, inside'⟩ := inside.step done
      obtain ⟨expected, handles, few, used', same, flat⟩ := ih inside'
      refine ⟨expected, handles.trans takes.handles, ?_, used ++ used', ?_, fun older le => ?_⟩
      · -- The tokens that a step uses up pay for its event and for all that it expects anew.
        have cost := takes.cost
        rw [takes.tokens, List.length_append, List.length_cons, weight_cons]
        rw [weight_append] at few
        omega
      · rw [takes.tokens, same, List.append_assoc]
      · rw [List.reverse_append, List.append_assoc]
        refine flat _ ?_
        rw [openFlows_append]
        exact takes.depth older _ le

/-- A run in the larger text is the run in the text alone. -/
theorem Runs.within {stack : List Expectation} {s : Surroundings} {more : List Token}
    (runs : Runs g events g') (inside : g.Inside stack) (continues : Continues s g.tokens more) :
    Runs (g.within s more) (events.map (·.within s)) (g'.within s more) := by
  -- The end of the text is seen by a step, but used by none: what is behind it never matters.
  induction runs generalizing stack with
  | ending found done =>
      refine .ending found ?_
      have inside : ∀ implicit, Expectation.documentEnd ≠ .documentStart implicit := nofun
      rw [step_within inside found continues, done]
      rfl
  | @step g g' g'' event events e next inner found done runs ih =>
      obtain ⟨rest, rfl, rfl⟩ := inside.of_expected inner found
      obtain ⟨used, new, takes, inside'⟩ := inside.step done
      have behind : Continues s g'.tokens more := by
        rw [takes.tokens] at continues
        exact continues.of_append _
      refine .step inner found ?_ (ih inside' behind)
      have started : ∀ implicit, e ≠ .documentStart implicit := by
        rintro implicit rfl
        cases inner
      rw [step_within started found continues, done]
      rfl

end Grammar

end ManifestMigration.Yaml
