import ManifestMigration.Proofs.Yaml.Grammar.Within
import ManifestMigration.Yaml.Load

/-! # Trees of a text among others

A tree does not depend on where its document stands: places in the text are only told in errors.
-/

namespace ManifestMigration.Yaml

def moveItems (s : Surroundings) (items : List (Item × Mark)) : List (Item × Mark) :=
  items.map fun item => (item.1, item.2.within s)

def Ending.within (s : Surroundings) : Ending → Ending
  | .complete => .complete
  | .malformed => .malformed
  | .unknownAnchor mark => .unknownAnchor (mark.within s)

namespace Document

def within (d : Document) (s : Surroundings) : Document where
  items := moveItems s d.items
  anchors := d.anchors.map fun anchor => (anchor.1, moveItems s anchor.2)
  ending := d.ending.within s

variable {d : Document} {s : Surroundings}

theorem lookup_anchors_within (number : Nat) :
    (d.within s).anchors.lookup number = (d.anchors.lookup number).map (moveItems s) := by
  simp only [within]
  induction d.anchors with
  | nil => rfl
  | cons anchor rest ih =>
      rw [List.map_cons, List.lookup_cons, List.lookup_cons, ih]
      split <;> rfl

theorem cons_within (names : AnchorNames) (anchor : Option (List Char)) (item : Item)
    (mark : Mark) :
    (d.within s).cons names anchor item (mark.within s) =
      (d.cons names anchor item mark).within s := by
  simp only [cons, lookup_anchors_within, Option.isSome_map]
  split <;> rfl

end Document

/-! ## Documents -/

section Documents

variable {s : Surroundings} {names : AnchorNames} {body rest rest' : List Event} {ending : Event}

/-- A document reads the same where it stands among others. -/
theorem readDocument_within (inner : ∀ e ∈ body, e.kind.isInner = true)
    (ends : ending.kind = .documentEnd) :
    (readDocument names (body.map (·.within s) ++ ending.within s :: rest')).1 =
      (readDocument names (body ++ ending :: rest)).1.within s := by
  induction body generalizing names with
  | nil =>
      obtain ⟨_, mark⟩ := ending
      subst ends
      rfl
  | cons e body ih =>
      obtain ⟨first, others⟩ := List.forall_mem_cons.mp inner
      have more : ∀ names' anchor item, Document.cons names anchor item (e.mark.within s)
            (readDocument names' (body.map (·.within s) ++ ending.within s :: rest')).1 =
          (Document.cons names anchor item e.mark
            (readDocument names' (body ++ ending :: rest)).1).within s := by
        intro names' anchor item
        rw [ih others]
        exact Document.cons_within names anchor item e.mark
      obtain ⟨kind, mark⟩ := e
      cases kind with
      | streamEnd | documentStart | documentEnd => cases first
      | «alias» name =>
          simp only [List.map_cons, List.cons_append, Event.within, readDocument]
          cases names.lookup name with
          | none => rfl
          | some number => exact more _ none (.alias number)
      | scalar p style text => exact more _ p.anchor (.scalar p.tag style (String.ofList text))
      | sequenceStart p => exact more _ p.anchor (.sequenceStart p.tag)
      | sequenceEnd => exact more _ none .sequenceEnd
      | mappingStart p => exact more _ p.anchor (.mappingStart p.tag)
      | mappingEnd => exact more _ none .mappingEnd

/-- A document that is complete is read to its end. -/
theorem behind_of_complete (inner : ∀ e ∈ body, e.kind.isInner = true)
    (ends : ending.kind = .documentEnd)
    (complete : (readDocument names (body ++ ending :: rest)).1.ending = .complete) :
    (readDocument names (body ++ ending :: rest)).2 = rest := by
  induction body generalizing names with
  | nil =>
      obtain ⟨_, mark⟩ := ending
      subst ends
      rfl
  | cons e body ih =>
      obtain ⟨first, others⟩ := List.forall_mem_cons.mp inner
      obtain ⟨kind, mark⟩ := e
      cases kind with
      | streamEnd | documentStart | documentEnd => cases first
      | «alias» name =>
          simp only [List.cons_append, readDocument] at complete ⊢
          cases found : names.lookup name with
          | none =>
              rw [found] at complete
              cases complete
          | some number =>
              rw [found] at complete
              exact ih others complete
      | _ => exact ih others complete

/-- A document is complete only where an event ends it. -/
theorem exists_outer_of_complete {events : List Event}
    (complete : (readDocument names events).1.ending = .complete) :
    ∃ e ∈ events, e.kind.isInner = false := by
  induction events generalizing names with
  | nil => cases complete
  | cons e events ih =>
      obtain ⟨kind, mark⟩ := e
      have behind : ∀ {names'}, (readDocument names' events).1.ending = .complete →
          ∃ e ∈ ⟨kind, mark⟩ :: events, e.kind.isInner = false := fun complete =>
        (ih complete).imp fun e found => ⟨List.mem_cons_of_mem _ found.1, found.2⟩
      cases kind with
      | streamEnd | documentStart | documentEnd => exact ⟨_, List.mem_cons_self, rfl⟩
      | «alias» name =>
          simp only [readDocument] at complete
          cases found : names.lookup name with
          | none =>
              rw [found] at complete
              cases complete
          | some number =>
              rw [found] at complete
              exact behind complete
      | _ => exact behind complete

end Documents

/-! ## Trees -/

namespace Progress

def within (p : Progress) (s : Surroundings) : Progress := ⟨moveItems s p.items, p.expanded⟩

end Progress

namespace Document

variable {d : Document} {s : Surroundings} {p p' : Progress}

theorem expand_within (anchor : Nat) (done : d.expand anchor p = .ok p') :
    (d.within s).expand anchor (p.within s) = .ok (p'.within s) := by
  have limit : (d.within s).aliasLimit = d.aliasLimit := by
    simp [aliasLimit, within, moveItems]
  unfold expand at done ⊢
  rw [limit, show (p.within s).expanded = p.expanded from rfl]
  split at done
  · cases done
  · next allowed =>
      cases done
      rw [if_neg allowed, lookup_anchors_within]
      cases d.anchors.lookup anchor <;> rfl

theorem buildKey_within {depth : Nat} {path : List Segment} {fuel : Nat} {key : Segment × String}
    (done : d.buildKey depth path fuel p = .ok (key, p')) :
    (d.within s).buildKey depth path fuel (p.within s) = .ok (key, p'.within s) := by
  induction fuel generalizing p p' key with
  | zero => cases done
  | succ fuel ih =>
      obtain ⟨items, expanded⟩ := p
      rw [buildKey] at done ⊢
      cases items with
      | nil => cases done
      | cons first rest =>
          obtain ⟨item, mark⟩ := first
          cases item with
          | «alias» anchor =>
              simp only at done
              split at done
              · cases done
              · next p₁ expanding =>
                  split at done
                  · cases done
                  · next segment text p₂ inside =>
                      cases done
                      have again := expand_within (s := s) anchor expanding
                      have inside' := ih inside
                      simp only [Progress.within, moveItems, List.map_cons] at again inside' ⊢
                      simp only [again, inside']
          | scalar tag style text =>
              simp only at done
              split at done
              · next value read =>
                  cases done
                  simp only [Progress.within, moveItems, List.map_cons, read]
              · cases done
          | sequenceStart tag | mappingStart tag =>
              simp only at done
              split_ifs at done
          | sequenceEnd => cases done
          | mappingEnd => cases done

/-- What is built with so much fuel is built in the larger text as well. -/
structure BuildsWithin (d : Document) (s : Surroundings) (fuel : Nat) : Prop where
  node : ∀ {depth path p node p'}, buildNode d fuel depth path p = .ok (node, p') →
    buildNode (d.within s) fuel depth path (p.within s) = .ok (node, p'.within s)
  items : ∀ {depth path index p items p'}, buildItems d fuel depth path index p = .ok (items, p') →
    buildItems (d.within s) fuel depth path index (p.within s) = .ok (items, p'.within s)
  fields : ∀ {depth path before p fields p'},
    buildFields d fuel depth path before p = .ok (fields, p') →
    buildFields (d.within s) fuel depth path before (p.within s) = .ok (fields, p'.within s)

section Building

variable {fuel depth index : Nat} {path : List Segment} {before fields : Mapping} {node : Node}
  {nodes : List Node}

theorem BuildsWithin.node_succ (below : BuildsWithin d s fuel)
    (done : buildNode d (fuel + 1) depth path p = .ok (node, p')) :
    buildNode (d.within s) (fuel + 1) depth path (p.within s) = .ok (node, p'.within s) := by
  obtain ⟨items, expanded⟩ := p
  rw [buildNode] at done ⊢
  cases items with
  | nil => cases done
  | cons first rest =>
      obtain ⟨item, mark⟩ := first
      simp only [Progress.within, moveItems, List.map_cons]
      cases item with
      | «alias» anchor =>
          simp only at done ⊢
          split at done
          · cases done
          · next p₁ expanding =>
              split at done
              · cases done
              · next node p₂ inside =>
                  cases done
                  have again := expand_within (s := s) anchor expanding
                  have inside' := below.node inside
                  simp only [Progress.within, moveItems, List.map_cons] at again inside'
                  simp only [again, inside']
      | scalar tag style text =>
          simp only at done ⊢
          split at done
          · next value read =>
              cases done
              simp only
          · cases done
      | sequenceStart tag =>
          simp only at done ⊢
          split at done
          · cases done
          · next common =>
              rw [if_neg common]
              cases depth with
              | zero => cases done
              | succ depth =>
                  simp only at done ⊢
                  split at done
                  · cases done
                  · next nodes p₁ inside =>
                      cases done
                      have inside' := below.items inside
                      simp only [Progress.within, moveItems] at inside'
                      simp only [inside']
      | mappingStart tag =>
          simp only at done ⊢
          split at done
          · cases done
          · next common =>
              rw [if_neg common]
              cases depth with
              | zero => cases done
              | succ depth =>
                  simp only at done ⊢
                  split at done
                  · cases done
                  · next fields p₁ inside =>
                      cases done
                      have inside' := below.fields inside
                      simp only [Progress.within, moveItems] at inside'
                      simp only [inside']
      | sequenceEnd => cases done
      | mappingEnd => cases done

/-- The item that comes next is the same in the larger text. -/
theorem exists_of_items_within {item : Item} {mark : Mark} {rest : List (Item × Mark)}
    (same : (p.within s).items = (item, mark) :: rest) :
    ∃ mark' rest', p.items = (item, mark') :: rest' := by
  obtain ⟨items, expanded⟩ := p
  cases items with
  | nil => cases same
  | cons first others =>
      cases same
      exact ⟨_, _, rfl⟩

theorem BuildsWithin.items_succ (below : BuildsWithin d s fuel)
    (done : buildItems d (fuel + 1) depth path index p = .ok (nodes, p')) :
    buildItems (d.within s) (fuel + 1) depth path index (p.within s) =
      .ok (nodes, p'.within s) := by
  rw [buildItems] at done ⊢
  split at done
  · next same =>
      cases done
      simp only [Progress.within, same, moveItems, List.map_cons]
  · next other =>
      split at done
      · cases done
      · next node p₁ first =>
          split at done
          · cases done
          · next nodes p₂ behind =>
              cases done
              split
              · next same =>
                  obtain ⟨mark', rest', same'⟩ := exists_of_items_within same
                  exact absurd same' (other mark' rest')
              · simp only [below.node first, below.items behind]

theorem BuildsWithin.fields_succ (below : BuildsWithin d s fuel)
    (done : buildFields d (fuel + 1) depth path before p = .ok (fields, p')) :
    buildFields (d.within s) (fuel + 1) depth path before (p.within s) =
      .ok (fields, p'.within s) := by
  rw [buildFields] at done ⊢
  split at done
  · next same =>
      cases done
      simp only [Progress.within, same, moveItems, List.map_cons]
  · next other =>
      split at done
      · cases done
      · next segment key p₁ named =>
          split at done
          · cases done
          · next value p₂ inside =>
              split
              · next same =>
                  obtain ⟨mark', rest', same'⟩ := exists_of_items_within same
                  exact absurd same' (other mark' rest')
              · simp only [buildKey_within named, below.node inside]
                exact below.fields done

end Building

theorem buildsWithin (d : Document) (s : Surroundings) (fuel : Nat) : BuildsWithin d s fuel := by
  induction fuel with
  | zero =>
      constructor
      · intro depth path p node p' done
        rw [buildNode] at done
        cases done
      · intro depth path index p items p' done
        rw [buildItems] at done
        cases done
      · intro depth path before p fields p' done
        rw [buildFields] at done
        cases done
  | succ fuel below => exact ⟨below.node_succ, below.items_succ, below.fields_succ⟩

theorem build_within {node : Node} (done : d.build = .ok node) : (d.within s).build = .ok node := by
  have length : (d.within s).items.length = d.items.length := List.length_map _
  unfold build at done ⊢
  split at done
  · cases done
  · next built p' inside =>
      split at done
      · next complete =>
          cases done
          have again : buildNode (d.within s)
              (4 * (depthLimit + 2) * ((d.within s).items.length + 2)) depthLimit []
              ⟨(d.within s).items, 0⟩ = .ok (node, p'.within s) := by
            rw [length]
            exact (buildsWithin d s _).node inside
          have ended : (d.within s).ending = .complete := by
            rw [within, complete, Ending.within]
          simp only [again, ended, if_true]
      · cases done

/-- Only a document that is complete makes a tree. -/
theorem complete_of_build {node : Node} (done : d.build = .ok node) : d.ending = .complete := by
  unfold build at done
  split at done
  · cases done
  · split at done
    · next complete => exact complete
    · cases done

end Document

/-! ## Events that build a tree -/

/-- The events are those of one document, whose tree this is, whatever comes behind them. -/
def Builds (events : List Event) (node : Node) : Prop :=
  ∀ rest, ∃ d, readDocument [] (events ++ rest) = (d, rest) ∧ d.build = .ok node

theorem Builds.of_build {body : List Event} {ending : Event} {rest : List Event} {node : Node}
    (inner : ∀ e ∈ body, e.kind.isInner = true) (ends : ending.kind = .documentEnd)
    (done : (readDocument [] (body ++ ending :: rest)).1.build = .ok node) (s : Surroundings) :
    Builds ((body ++ [ending]).map (·.within s)) node := by
  intro rest'
  have built := Document.build_within (s := s) done
  have same : (readDocument [] (body.map (·.within s) ++ ending.within s :: rest')).1 =
      (readDocument [] (body ++ ending :: rest)).1.within s := readDocument_within inner ends
  rw [← same] at built
  have inner' : ∀ e ∈ body.map (·.within s), e.kind.isInner = true := by
    intro e member
    obtain ⟨e', old, rfl⟩ := List.mem_map.mp member
    exact inner e' old
  refine ⟨_, Prod.ext ?_ ?_, built⟩
  · rw [List.map_append, List.append_assoc]
    rfl
  · rw [List.map_append, List.append_assoc]
    exact behind_of_complete inner' ends (Document.complete_of_build built)

end ManifestMigration.Yaml
