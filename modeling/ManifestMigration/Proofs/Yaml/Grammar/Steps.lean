import ManifestMigration.Proofs.Yaml.Within.Reader
import ManifestMigration.Yaml.Event

/-! # What a step of the grammar uses up

A step inside of a document takes tokens from the front, replaces the expectation that it meets by
others, and leaves what was expected behind it. The tokens that it takes and the expectations that
it adds are accounted for in two ways: no more flow collections are open in the tokens than the
expectations still have to close, and four for every token and the weights of the expectations add
up to less than before.
-/

namespace ManifestMigration.Yaml

/-! ## Expectations -/

def Expectation.isInner : Expectation → Bool
  | .documentStart _ | .documentEnd => false
  | _ => true

def EventKind.isInner : EventKind → Bool
  | .streamEnd | .documentStart | .documentEnd => false
  | _ => true

/-- The flow collection that an expectation is to close. -/
def Expectation.flows : Expectation → Nat
  | .flowEntry _ | .flowKey _ | .flowValue | .flowNoValue => 1
  | _ => 0

/-- More than the steps that an expectation can take before it uses up a token. -/
def Expectation.weight : Expectation → Nat
  | .documentContent | .blockNode | .pairValue | .flowEntry true => 2
  | .indentlessEntry | .blockValue | .pairEnd | .flowValue | .flowNoValue => 1
  | .flowKey true => 3
  | .pairKey => 4
  | _ => 0

/-- How many flow collections some expectations are to close. -/
def openFlows : List Expectation → Nat
  | [] => 0
  | e :: rest => e.flows + openFlows rest

def weight : List Expectation → Nat
  | [] => 0
  | e :: rest => e.weight + weight rest

@[simp] theorem openFlows_nil : openFlows [] = 0 := rfl

@[simp] theorem openFlows_cons (e : Expectation) (rest : List Expectation) :
    openFlows (e :: rest) = e.flows + openFlows rest := rfl

@[simp] theorem openFlows_append (xs ys : List Expectation) :
    openFlows (xs ++ ys) = openFlows xs + openFlows ys := by
  induction xs with
  | nil => exact (Nat.zero_add _).symm
  | cons e rest ih => rw [List.cons_append, openFlows_cons, openFlows_cons, ih, Nat.add_assoc]

@[simp] theorem weight_nil : weight [] = 0 := rfl

@[simp] theorem weight_cons (e : Expectation) (rest : List Expectation) :
    weight (e :: rest) = e.weight + weight rest := rfl

@[simp] theorem weight_append (xs ys : List Expectation) :
    weight (xs ++ ys) = weight xs + weight ys := by
  induction xs with
  | nil => exact (Nat.zero_add _).symm
  | cons e rest ih => rw [List.cons_append, weight_cons, weight_cons, ih, Nat.add_assoc]

/-! ## Open flow collections -/

def TokenKind.opensFlow : TokenKind → Bool
  | .flowSequenceStart | .flowMappingStart => true
  | _ => false

theorem flowDepth_cons_le {t : Token} (closed : t.kind.opensFlow = false) (older : List Token) :
    flowDepth (t :: older) ≤ flowDepth older := by
  obtain ⟨kind, first, last⟩ := t
  cases kind with
  | flowSequenceStart => cases closed
  | flowMappingStart => cases closed
  | flowSequenceEnd => exact Nat.sub_le _ _
  | flowMappingEnd => exact Nat.sub_le _ _
  | _ => exact Nat.le_refl _

theorem flowDepth_append_le {tokens : List Token} (closed : ∀ t ∈ tokens, t.kind.opensFlow = false)
    (older : List Token) : flowDepth (tokens.reverse ++ older) ≤ flowDepth older := by
  induction tokens generalizing older with
  | nil => exact Nat.le_refl _
  | cons t rest ih =>
      obtain ⟨first, others⟩ := List.forall_mem_cons.mp closed
      rw [List.reverse_cons, List.append_assoc, List.singleton_append]
      exact (ih others (t :: older)).trans (flowDepth_cons_le first older)

namespace Grammar

/-! ## Accounts -/

/-- What a step takes from some tokens, and what it expects instead. The step may close so many
    flow collections and has so much credit. -/
structure Takes (g : Grammar) (tokens : List Token) (flows credit : Nat) (next : List Expectation)
    (event : Event) (g' : Grammar) (used : List Token) (new : List Expectation) : Prop where
  tokens : tokens = used ++ g'.tokens
  expected : g'.expected = new ++ next
  handles : g'.handles = g.handles
  inner : ∀ e ∈ new, e.isInner = true
  event : event.kind.isInner = true
  depth : ∀ older d, flowDepth older ≤ flows + d →
    flowDepth (used.reverse ++ older) ≤ openFlows new + d
  cost : weight new < 4 * used.length + credit

/-- Whatever the step gives is accounted for. -/
def Accounted (g : Grammar) (tokens : List Token) (flows credit : Nat) (next : List Expectation)
    (step : Step) : Prop :=
  ∀ event g', step = some (event, g') →
    ∃ used new, Takes g tokens flows credit next event g' used new

variable {g : Grammar} {tokens : List Token} {flows credit : Nat} {next : List Expectation}

theorem Accounted.none : Accounted g tokens flows credit next none := nofun

theorem Accounted.ite {p : Prop} [Decidable p] {step step' : Step}
    (yes : p → Accounted g tokens flows credit next step)
    (no : ¬p → Accounted g tokens flows credit next step') :
    Accounted g tokens flows credit next (if p then step else step') := by
  split
  · next holds => exact yes holds
  · next holds => exact no holds

/-- An event inside of a document, for tokens that open no flow collection. -/
theorem accounted_emit {kind : EventKind} {mark : Mark} {rest : List Token} (used : List Token)
    (new : List Expectation) (event : kind.isInner = true) (inner : ∀ e ∈ new, e.isInner = true)
    (closed : ∀ t ∈ used, t.kind.opensFlow = false) (depth : flows ≤ openFlows new)
    (cost : weight new < 4 * used.length + credit) :
    Accounted g (used ++ rest) flows credit next (g.emit kind mark rest (new ++ next)) := by
  rintro _ _ ⟨⟩
  refine ⟨used, new, rfl, rfl, rfl, inner, event, fun older d le => ?_, cost⟩
  have less := flowDepth_append_le closed older
  omega

/-- What comes behind tokens that open no flow collection. -/
theorem Accounted.after {rest : List Token} {step : Step} {left : Nat}
    (accounted : Accounted g rest flows left next step) (before : List Token)
    (closed : ∀ t ∈ before, t.kind.opensFlow = false)
    (cost : left ≤ 4 * before.length + credit) :
    Accounted g (before ++ rest) flows credit next step := by
  intro event g' done
  obtain ⟨used, new, takes⟩ := accounted event g' done
  refine ⟨before ++ used, new, ?_, takes.expected, takes.handles, takes.inner, takes.event, ?_, ?_⟩
  · rw [List.append_assoc, ← takes.tokens]
  · intro older d le
    have less := flowDepth_append_le closed older
    have kept := takes.depth (before.reverse ++ older) d (by omega)
    rwa [List.reverse_append, List.append_assoc]
  · have less := takes.cost
    rw [List.length_append]
    omega

/-- A step that finds further expectations added to those that it leaves alone. -/
theorem Accounted.adding {step : Step} {e : Expectation}
    (accounted : Accounted g tokens 0 credit (e :: next) step) (inner : e.isInner = true) :
    Accounted g tokens e.flows (e.weight + credit) next step := by
  intro event g' done
  obtain ⟨used, new, takes⟩ := accounted event g' done
  refine ⟨used, new ++ [e], takes.tokens, ?_, takes.handles, ?_, takes.event, ?_, ?_⟩
  · rw [List.append_assoc, List.singleton_append, ← takes.expected]
  · exact List.forall_mem_append.mpr ⟨takes.inner, by simpa using inner⟩
  · intro older d le
    have kept := takes.depth older (e.flows + d) (by omega)
    rw [openFlows_append, openFlows_cons, openFlows_nil]
    omega
  · have less := takes.cost
    rw [weight_append, weight_cons, weight_nil]
    omega

/-! ## Nodes -/

/-- The node behind its properties. -/
def bareNode (g : Grammar) (block indentless : Bool) (p : Properties) (first : Mark)
    (next : List Expectation) (tokens : List Token) : Step :=
  let empty := if p.anchor.isSome || p.tag.isSome then g.emit (.scalar p .plain []) first tokens next
    else none
  match tokens with
  | [] => none
  | ⟨kind, _, _⟩ :: rest =>
    match kind with
    | .blockEntry =>
      if indentless then g.emit (.sequenceStart p) first tokens (.indentlessEntry :: next) else empty
    | .scalar style text => g.emit (.scalar p style text) first rest next
    | .flowSequenceStart => g.emit (.sequenceStart p) first rest (.flowEntry true :: next)
    | .flowMappingStart => g.emit (.mappingStart p) first rest (.flowKey true :: next)
    | .blockSequenceStart =>
      if block then g.emit (.sequenceStart p) first rest (.blockEntry :: next) else empty
    | .blockMappingStart =>
      if block then g.emit (.mappingStart p) first rest (.blockKey :: next) else empty
    | _ => empty

/-- What is no alias stands behind its properties. -/
theorem node_cons {t : Token} {rest : List Token} (block indentless : Bool)
    (named : ∀ name, t.kind ≠ .alias name) :
    g.node block indentless (t :: rest) next =
      (g.resolveTag (properties (t :: rest)).2.1).bind fun tag =>
        g.bareNode block indentless ⟨(properties (t :: rest)).1, tag⟩ t.first next
          (properties (t :: rest)).2.2 := by
  unfold node
  split
  · next empty => cases empty
  · next name first last rest' same =>
      cases same
      exact absurd rfl (named name)
  · next kind first last rest' _ same =>
      cases same
      generalize properties (⟨kind, first, last⟩ :: rest) = found
      obtain ⟨anchor, tagParts, behind⟩ := found
      simp only
      cases g.resolveTag tagParts with
      | none => rfl
      | some tag =>
          cases behind with
          | nil => rfl
          | cons t' rest' =>
              obtain ⟨kind', first', last'⟩ := t'
              cases kind' <;> rfl

/-- Properties are no brackets. -/
theorem exists_properties (tokens : List Token) :
    ∃ used, tokens = used ++ (properties tokens).2.2 ∧
      ∀ t ∈ used, t.kind.opensFlow = false := by
  unfold properties
  split
  · exact ⟨[_, _], rfl, by simp [TokenKind.opensFlow]⟩
  · exact ⟨[_, _], rfl, by simp [TokenKind.opensFlow]⟩
  · exact ⟨[_], rfl, by simp [TokenKind.opensFlow]⟩
  · exact ⟨[_], rfl, by simp [TokenKind.opensFlow]⟩
  · exact ⟨[], rfl, List.forall_mem_nil _⟩

/-- The start of a flow collection. -/
theorem accounted_open {kind : EventKind} {mark : Mark} {rest : List Token} (t : Token)
    (e : Expectation) (event : kind.isInner = true)
    (opens : e.isInner = true ∧ e.flows = 1 ∧ e.weight ≤ 3) :
    Accounted g (t :: rest) 0 2 next (g.emit kind mark rest (e :: next)) := by
  obtain ⟨inner, one, light⟩ := opens
  rintro _ _ ⟨⟩
  refine ⟨[t], [e], rfl, rfl, rfl, by simpa using inner, event, fun older d le => ?_, ?_⟩
  · have step : flowDepth (t :: older) ≤ flowDepth older + 1 := by
      obtain ⟨kind, first, last⟩ := t
      cases kind with
      | flowSequenceStart => exact Nat.le_refl _
      | flowMappingStart => exact Nat.le_refl _
      | _ => exact (flowDepth_cons_le rfl older).trans (Nat.le_succ _)
    simp only [List.reverse_singleton, List.singleton_append, openFlows_cons, openFlows_nil]
    omega
  · simp only [weight_cons, weight_nil, List.length_singleton]
    omega

theorem accounted_bareNode (next : List Expectation) (block indentless : Bool) (p : Properties)
    (first : Mark) (tokens : List Token) :
    Accounted g tokens 0 2 next (g.bareNode block indentless p first next tokens) := by
  have empty : ∀ tokens, Accounted g tokens 0 2 next
      (if p.anchor.isSome || p.tag.isSome then g.emit (.scalar p .plain []) first tokens next
        else none) := fun tokens =>
    .ite (fun _ => accounted_emit [] [] rfl (by simp) (by simp) (by simp) (by simp))
      fun _ => .none
  have start : ∀ {kind : EventKind} (t : Token) (rest : List Token) (e : Expectation),
      kind.isInner = true → e.isInner = true → e.weight = 0 → t.kind.opensFlow = false →
      Accounted g (t :: rest) 0 2 next (g.emit kind first rest (e :: next)) :=
    fun t rest e event inner light closed =>
      accounted_emit [t] [e] event (by simpa using inner) (by simpa using closed) (by simp)
        (by simp [light])
  cases tokens with
  | nil => exact .none
  | cons t rest =>
      obtain ⟨kind, mark, last⟩ := t
      cases kind with
      | blockEntry =>
          refine .ite (fun _ => ?_) fun _ => empty _
          exact accounted_emit [] [.indentlessEntry] rfl (by simp [Expectation.isInner]) (by simp)
            (by simp) (by simp [Expectation.weight])
      | scalar style text =>
          exact accounted_emit [_] [] rfl (by simp) (by simp [TokenKind.opensFlow]) (by simp)
            (by simp)
      | flowSequenceStart => exact accounted_open _ _ rfl ⟨rfl, rfl, by decide⟩
      | flowMappingStart => exact accounted_open _ _ rfl ⟨rfl, rfl, by decide⟩
      | blockSequenceStart =>
          exact .ite (fun _ => start _ _ .blockEntry rfl rfl rfl rfl) fun _ => empty _
      | blockMappingStart =>
          exact .ite (fun _ => start _ _ .blockKey rfl rfl rfl rfl) fun _ => empty _
      | _ => exact empty _

theorem accounted_node (block indentless : Bool) (tokens : List Token) :
    Accounted g tokens 0 2 next (g.node block indentless tokens next) := by
  cases tokens with
  | nil => exact .none
  | cons t rest =>
      by_cases named : ∃ name, t.kind = .alias name
      · obtain ⟨name, kind⟩ := named
        obtain ⟨_, first, last⟩ := t
        subst kind
        exact accounted_emit [_] [] rfl (by simp) (by simp [TokenKind.opensFlow]) (by simp)
          (by simp)
      · rw [node_cons block indentless fun name kind => named ⟨name, kind⟩]
        cases g.resolveTag (properties (t :: rest)).2.1 with
        | none => exact .none
        | some tag =>
            obtain ⟨used, same, closed⟩ := exists_properties (t :: rest)
            have bare := accounted_bareNode (g := g) next block indentless
              ⟨(properties (t :: rest)).1, tag⟩ t.first (properties (t :: rest)).2.2
            have behind : Accounted g (used ++ (properties (t :: rest)).2.2) 0 2 next _ :=
              bare.after used closed (Nat.le_add_left _ _)
            rwa [← same] at behind

theorem accounted_nodeUnless (missing : TokenKind → Bool) (block indentless : Bool) (mark : Mark)
    (tokens : List Token) :
    Accounted g tokens 0 2 next (g.nodeUnless missing block indentless mark tokens next) := by
  cases tokens with
  | nil => exact .none
  | cons t rest =>
      exact .ite (fun _ => accounted_emit [] [] rfl (by simp) (by simp) (by simp) (by simp))
        fun _ => accounted_node block indentless (t :: rest)

/-! ## Steps -/

/-- A node that may be missing, behind a token. -/
theorem accounted_nodeUnless_behind {t : Token} {rest : List Token} {e : Expectation}
    (missing : TokenKind → Bool) (block indentless : Bool) (mark : Mark)
    (closed : t.kind.opensFlow = false) (inner : e.isInner = true)
    (cost : e.weight ≤ 2 + credit) :
    Accounted g (t :: rest) e.flows credit next
      (g.nodeUnless missing block indentless mark rest (e :: next)) :=
  have node := (accounted_nodeUnless missing block indentless mark rest).adding inner
  node.after [t] (by simpa using closed) (by rw [List.length_singleton]; omega)

/-- An event that uses up no token. -/
theorem accounted_none {kind : EventKind} {mark : Mark} (tokens : List Token)
    (new : List Expectation) (event : kind.isInner = true) (inner : ∀ e ∈ new, e.isInner = true)
    (depth : flows ≤ openFlows new) (cost : weight new < credit) :
    Accounted g tokens flows credit next (g.emit kind mark tokens (new ++ next)) :=
  accounted_emit [] new event inner (List.forall_mem_nil _) depth
    (cost.trans_le (Nat.le_add_left _ _))

/-- The event of one token that opens no flow collection. -/
theorem accounted_one {kind : EventKind} {mark : Mark} {t : Token} {rest : List Token}
    (new : List Expectation) (event : kind.isInner = true) (inner : ∀ e ∈ new, e.isInner = true)
    (closed : t.kind.opensFlow = false) (depth : flows ≤ openFlows new)
    (cost : weight new < 4 + credit) :
    Accounted g (t :: rest) flows credit next (g.emit kind mark rest (new ++ next)) :=
  accounted_emit [t] new event inner (by simpa using closed) depth cost

theorem accounted_content : Accounted g g.tokens 0 2 next (g.content next) := by
  unfold content
  split
  · exact .none
  · next kind first last rest same =>
      cases kind with
      | version | tagDirective | documentStart | documentEnd | streamEnd =>
          exact accounted_none g.tokens [] rfl (List.forall_mem_nil _) (by decide) (by decide)
      | _ => exact accounted_node true false g.tokens

theorem accounted_blockEntry :
    Accounted g g.tokens 0 0 next (g.blockEntry next) := by
  unfold blockEntry
  split
  · next first last rest same =>
      rw [same]
      exact accounted_nodeUnless_behind (e := .blockEntry) _ _ _ _ rfl rfl (by decide)
  · next mark last rest same =>
      rw [same]
      exact accounted_one [] rfl (List.forall_mem_nil _) rfl (by decide) (by decide)
  · exact .none

theorem accounted_indentlessEntry :
    Accounted g g.tokens 0 1 next (g.indentlessEntry next) := by
  unfold indentlessEntry
  split
  · exact .none
  · next first last rest same =>
      rw [same]
      exact accounted_nodeUnless_behind (e := .indentlessEntry) _ _ _ _ rfl rfl (by decide)
  · exact accounted_none g.tokens [] rfl (List.forall_mem_nil _) (by decide) (by decide)

theorem accounted_blockKey : Accounted g g.tokens 0 0 next (g.blockKey next) := by
  unfold blockKey
  split
  · next first last rest same =>
      rw [same]
      exact accounted_nodeUnless_behind (e := .blockValue) _ _ _ _ rfl rfl (by decide)
  · next mark last rest same =>
      rw [same]
      exact accounted_one [] rfl (List.forall_mem_nil _) rfl (by decide) (by decide)
  · exact .none

theorem accounted_blockValue : Accounted g g.tokens 0 1 next (g.blockValue next) := by
  unfold blockValue
  split
  · exact .none
  · next first last rest same =>
      rw [same]
      exact accounted_nodeUnless_behind (e := .blockKey) _ _ _ _ rfl rfl (by decide)
  · exact accounted_none g.tokens [.blockKey] rfl (by decide) (by decide) (by decide)

/-- The end of a flow collection. -/
theorem accounted_close {kind : EventKind} {mark : Mark} {t : Token} {rest : List Token}
    (event : kind.isInner = true) (closes : t.kind = .flowSequenceEnd ∨ t.kind = .flowMappingEnd) :
    Accounted g (t :: rest) 1 credit next (g.emit kind mark rest next) := by
  rintro _ _ ⟨⟩
  refine ⟨[t], [], rfl, rfl, rfl, List.forall_mem_nil _, event, fun older d le => ?_, ?_⟩
  · have step : flowDepth (t :: older) = flowDepth older - 1 := by
      obtain ⟨kind, first, last⟩ := t
      rcases closes with rfl | rfl <;> rfl
    simp only [List.reverse_singleton, List.singleton_append, openFlows_nil]
    omega
  · simp only [weight_nil, List.length_singleton]
    omega

/-- A comma opens no flow collection, and one is used up unless the entry is the first. -/
theorem of_afterComma {first : Bool} {tokens rest : List Token}
    (done : afterComma first tokens = some rest) :
    ∃ used, tokens = used ++ rest ∧ (∀ t ∈ used, t.kind.opensFlow = false) ∧
      (first = false → used.length = 1) := by
  unfold afterComma at done
  split at done
  · next isFirst =>
      cases done
      exact ⟨[], rfl, List.forall_mem_nil _, by simp [isFirst]⟩
  · split at done
    · cases done
      exact ⟨[_], rfl, by simp [TokenKind.opensFlow], fun _ => rfl⟩
    · cases done

theorem Accounted.afterComma {first : Bool} {rest : List Token} {step : Step} {left : Nat}
    (accounted : Accounted g rest flows left next step)
    (comma : Grammar.afterComma first tokens = some rest) (paid : left ≤ 4)
    (credited : first = true → left ≤ credit) : Accounted g tokens flows credit next step := by
  obtain ⟨used, rfl, closed, one⟩ := of_afterComma comma
  refine accounted.after used closed ?_
  cases first with
  | true => exact (credited rfl).trans (Nat.le_add_left _ _)
  | false =>
      rw [one rfl]
      omega

theorem accounted_flowEntry (first : Bool) :
    Accounted g g.tokens 1 (Expectation.flowEntry first).weight next (g.flowEntry first next) := by
  unfold flowEntry
  split
  · next mark last rest same =>
      rw [same]
      exact accounted_close rfl (.inl rfl)
  · split
    · exact .none
    · next tokens comma =>
        refine Accounted.afterComma ?_ comma (show 2 ≤ 4 by decide) ?_
        · split
          · exact accounted_close rfl (.inl rfl)
          · exact accounted_one [.pairKey, .flowEntry false] rfl (by decide) rfl (by decide)
              (by decide)
          · exact (accounted_node false false tokens).adding (e := .flowEntry false) rfl
        · rintro rfl
          exact Nat.le_refl _

theorem accounted_pairKey : Accounted g g.tokens 0 4 next (g.pairKey next) := by
  unfold pairKey
  split
  · exact .none
  · next kind first last rest same =>
      refine .ite (fun missing => ?_) fun _ => ?_
      · rw [same]
        refine accounted_one [.pairValue] rfl (by decide) ?_ (by decide) (by decide)
        cases kind with
        | flowSequenceStart => cases missing
        | flowMappingStart => cases missing
        | _ => rfl
      · exact (accounted_node false false g.tokens).adding (e := .pairValue) rfl

theorem accounted_pairValue : Accounted g g.tokens 0 2 next (g.pairValue next) := by
  unfold pairValue
  split
  · exact .none
  · next same =>
      rw [same]
      exact accounted_nodeUnless_behind (e := .pairEnd) _ _ _ _ rfl rfl (by decide)
  · exact .none
  · exact accounted_none g.tokens [.pairEnd] rfl (by decide) (by decide) (by decide)

theorem accounted_pairEnd : Accounted g g.tokens 0 1 next (g.pairEnd next) := by
  unfold pairEnd
  split
  · exact .none
  · exact accounted_none g.tokens [] rfl (List.forall_mem_nil _) (by decide) (by decide)

theorem accounted_flowKey (first : Bool) :
    Accounted g g.tokens 1 (Expectation.flowKey first).weight next (g.flowKey first next) := by
  unfold flowKey
  split
  · next mark last rest same =>
      rw [same]
      exact accounted_close rfl (.inr rfl)
  · split
    · exact .none
    · next tokens comma =>
        refine Accounted.afterComma ?_ comma (show 3 ≤ 4 by decide) ?_
        · split
          · exact accounted_close rfl (.inr rfl)
          · exact accounted_nodeUnless_behind (e := .flowValue) _ _ _ _ rfl rfl (by decide)
          · exact .none
          · exact (accounted_node false false tokens).adding (e := .flowNoValue) rfl
        · rintro rfl
          exact Nat.le_refl _

theorem accounted_flowValue : Accounted g g.tokens 1 1 next (g.flowValue next) := by
  unfold flowValue
  split
  · exact .none
  · next same =>
      rw [same]
      exact accounted_nodeUnless_behind (e := .flowKey false) _ _ _ _ rfl rfl (by decide)
  · exact .none
  · exact accounted_none g.tokens [.flowKey false] rfl (by decide) (by decide) (by decide)

theorem accounted_flowNoValue : Accounted g g.tokens 1 1 next (g.flowNoValue next) := by
  unfold flowNoValue
  split
  · exact .none
  · exact accounted_none g.tokens [.flowKey false] rfl (by decide) (by decide) (by decide)

/-- A step inside of a document is accounted for: what it takes from the tokens, and what it expects
    instead of the expectation that it meets. -/
theorem accounted_step {e : Expectation} (inner : e.isInner = true) (next : List Expectation)
    (found : g.expected = e :: next) : Accounted g g.tokens e.flows e.weight next g.step := by
  unfold step
  rw [found]
  cases e with
  | documentStart | documentEnd => cases inner
  | documentContent => exact accounted_content
  | blockNode => exact accounted_node true false g.tokens
  | blockEntry => exact accounted_blockEntry
  | indentlessEntry => exact accounted_indentlessEntry
  | blockKey => exact accounted_blockKey
  | blockValue => exact accounted_blockValue
  | flowEntry first => exact accounted_flowEntry first
  | pairKey => exact accounted_pairKey
  | pairValue => exact accounted_pairValue
  | pairEnd => exact accounted_pairEnd
  | flowKey first => exact accounted_flowKey first
  | flowValue => exact accounted_flowValue
  | flowNoValue => exact accounted_flowNoValue

end Grammar

end ManifestMigration.Yaml
