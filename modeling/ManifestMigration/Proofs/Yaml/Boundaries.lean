import ManifestMigration.Proofs.Document.Equality
import ManifestMigration.Proofs.Yaml.Grammar.Stream
import ManifestMigration.Yaml.Dump

/-! # Written documents are read again

Documents are written one after the other, with a marker between them, and a null document is
nothing at all. Where each of the others reads back alone, they read back together, each where it
stood. Nulls among them are the places between two markers, or behind the last one. Only a null
document in the first place is lost when others follow, because nothing stands for it.
-/

namespace ManifestMigration.Yaml

/-- What the text of a document is to do: it reads back as this one document, and no marker of a
    document is in it. -/
structure ReadsBack (document : Node) : Prop where
  back : load (dump [document]) = .ok [document]
  unmarked : Unmarked (tokens (dump [document]).toList)

/-! ## One document -/

/-- The text of a document among others. -/
def partText (document : Node) : List Char :=
  if document.isNull then [] else writeDocument document

theorem partText_null : partText .null = [] := rfl

theorem partText_of_ne_null {document : Node} (some : document ≠ .null) :
    partText document = writeDocument document := by
  refine if_neg fun null => some ?_
  unfold Node.isNull at null
  split at null
  · rfl
  · cases null

theorem endsLine_endLine (text : List Char) : EndsLine (endLine text) := by
  unfold endLine EndsLine
  split
  · assumption
  · rw [List.getLast?_append]
    rfl

theorem endsLine_writeDocument (document : Node) : EndsLine (writeDocument document) := by
  cases document with
  | scalar value => exact endsLine_endLine _
  | sequence items => exact endsLine_endLine _
  | mapping fields => exact endsLine_endLine _

/-- Events that make one document are those of one document, and then the end. -/
theorem of_buildAll_start {fuel : Nat} {mark : Mark} {events : List Event} {documents : List Node}
    (done : buildAll (fuel + 1) (⟨.documentStart, mark⟩ :: events) = .ok documents) :
    ∃ document others, documents = document :: others ∧
      (readDocument [] events).1.build = .ok document ∧
      buildAll fuel (readDocument [] events).2 = .ok others := by
  rw [buildAll] at done
  · have start : readDocument [] (⟨.documentStart, mark⟩ :: events) = readDocument [] events := rfl
    rw [start] at done
    simp only at done
    split at done
    · cases done
    · next document built =>
        split at done
        · cases done
        · next others behind =>
            cases done
            exact ⟨document, others, rfl, built, behind⟩
  · intro _ _ same
    cases same

theorem of_buildAll_nil {fuel : Nat} {events : List Event} (done : buildAll fuel events = .ok []) :
    ∃ mark rest, events = ⟨.streamEnd, mark⟩ :: rest := by
  unfold buildAll at done
  split at done
  · cases done
  · split at done
    · exact ⟨_, _, rfl⟩
    · simp only at done
      split at done
      · cases done
      · split at done
        · cases done
        · cases done

/-- Without an event there is no document, and no end either. -/
theorem buildAll_nil_ne (fuel : Nat) (documents : List Node) : buildAll fuel [] ≠ .ok documents := by
  intro done
  unfold buildAll at done
  split at done
  · cases done
  · simp only at done
    split at done
    · cases done
    · next built => cases Document.complete_of_build built

/-- Where a text without markers makes a document, its events start with the content. -/
theorem events_of_load {text : List Char} {document : Node} (some : document ≠ .null)
    (loaded : load (String.ofList text) = .ok [document]) (unmarked : Unmarked (tokens text)) :
    (∃ t rest, tokens text = t :: rest ∧ t.kind.startsContent = true) ∧
      ∃ mark fuel allowance, buildAll (allowance + 1) (⟨.documentStart, mark⟩ ::
        Grammar.readAll fuel ⟨tokens text, [.blockNode, .documentEnd], Grammar.defaultHandles⟩) =
          .ok [document] := by
  have shape : events text = Grammar.readAll (4 * (tokens text).length + 3 + 1)
      (.ofTokens (tokens text)) := rfl
  unfold load at loaded
  rw [String.toList_ofList, shape] at loaded
  cases done : (Grammar.ofTokens (tokens text)).step with
  | none =>
      rw [Grammar.readAll_of_none done] at loaded
      exact absurd loaded (buildAll_nil_ne _ _)
  | some result =>
      obtain ⟨event, g'⟩ := result
      by_cases ends : event.kind = .streamEnd
      · rw [Grammar.readAll_of_end done ends] at loaded
        obtain ⟨_, mark⟩ := event
        subst ends
        cases loaded
        exact absurd rfl some
      · obtain ⟨kind, rfl, starts⟩ := Grammar.of_step_start unmarked done ends
        rw [Grammar.readAll_of_some done ends] at loaded
        obtain ⟨_, mark⟩ := event
        subst kind
        exact ⟨starts, mark, _, _, loaded⟩

/-- A text of whole lines in which no marker stands and that makes a document is read to its end,
    and makes the document among others. -/
theorem complete_of_load {text : List Char} {document : Node} (some : document ≠ .null)
    (loaded : load (String.ofList text) = .ok [document]) (unmarked : Unmarked (tokens text))
    (lines : EndsLine text) : Complete text ∧ Grammar.Makes (tokens text) document := by
  obtain ⟨starts, mark, fuel, allowance, loaded⟩ := events_of_load some loaded unmarked
  obtain ⟨_, _, same, built, ended⟩ := of_buildAll_start loaded
  cases same
  have inside := Grammar.inside_node (tokens text) Grammar.defaultHandles
  have complete := Document.complete_of_build built
  obtain ⟨run, g', n, runs, read⟩ :=
    Grammar.exists_runs inside (exists_outer_of_complete complete)
  obtain ⟨body, ending, rfl, inner, done⟩ := runs.events_eq inside
  rw [read, List.append_assoc, List.singleton_append] at built ended complete
  rw [behind_of_complete inner done complete] at ended
  obtain ⟨mark', rest, last⟩ := of_buildAll_nil ended
  obtain ⟨expected, handles, -, used, parts, flat⟩ := runs.accounted inside
  -- Only the end of the text can come behind the document.
  obtain ⟨g'', finish⟩ := Grammar.exists_step_of_readAll last
  have parts : tokens text = used ++ g'.tokens := parts
  have left : Unmarked g'.tokens := fun t member =>
    unmarked t (parts ▸ List.mem_append_right used member)
  have finish : Grammar.step ⟨g'.tokens, [.documentStart false], g'.handles⟩ =
      .some (⟨.streamEnd, mark'⟩, g'') := by
    rw [← expected]
    exact finish
  obtain ⟨t, behind, next, kind⟩ := Grammar.of_step_end left finish rfl
  refine ⟨⟨.inl lines, used, t, behind, next ▸ parts, kind, ?_⟩,
    Grammar.Makes.of_runs starts runs next kind inner done built⟩
  have closed := flat [] (Nat.zero_le _)
  rwa [List.append_nil] at closed

/-! ## Documents -/

/-- Documents are written one after the other, each behind a marker but the first. -/
theorem writeDocuments_cons (document : Node) (rest : List Node) :
    writeDocuments (document :: rest) = partText document ++ behind (rest.map partText) := by
  induction rest generalizing document with
  | nil => rfl
  | cons next rest ih =>
      rw [writeDocuments, ih next]
      rfl

/-- What a document that reads back says about its text. -/
theorem ReadsBack.partText {document : Node} (back : ReadsBack document) :
    load (String.ofList (partText document)) = .ok [document] ∧
      Unmarked (tokens (Yaml.partText document)) := by
  obtain ⟨loaded, unmarked⟩ := back
  have alone : dump [document] = String.ofList (Yaml.partText document) := by
    rw [dump, writeDocuments_cons]
    exact congrArg String.ofList (List.append_nil _)
  rw [alone] at loaded unmarked
  rw [String.toList_ofList] at unmarked
  exact ⟨loaded, unmarked⟩

theorem tokens_nil : tokens [] = [⟨.streamEnd, .start, .start⟩] := by decide

/-- The text of a document that reads back is complete, and so is that of a null document. -/
theorem complete_partText {document : Node} (back : document ≠ .null → ReadsBack document) :
    Complete (partText document) ∧ Grammar.Makes (tokens (partText document)) document := by
  by_cases null : document = .null
  · subst null
    rw [partText_null, tokens_nil]
    exact ⟨⟨.inr ⟨rfl, rfl⟩, [], _, [], tokens_nil, rfl, rfl⟩, Grammar.makes_null rfl⟩
  · obtain ⟨loaded, unmarked⟩ := (back null).partText
    refine complete_of_load null loaded unmarked ?_
    rw [partText_of_ne_null null]
    exact endsLine_writeDocument document

theorem joined_partText {document : Node} {rest : List Node}
    (back : ∀ d ∈ document :: rest, d ≠ .null → ReadsBack d) :
    Joined (((document :: rest).map partText).map tokens)
      (tokens (partText document ++ behind (rest.map partText))) := by
  refine joined_tokens fun text member => ?_
  obtain ⟨d, old, rfl⟩ := List.mem_map.mp (show text ∈ (document :: rest).map partText from member)
  exact (complete_partText (back d old)).1

theorem forall₂_makes {documents : List Node}
    (back : ∀ document ∈ documents, document ≠ .null → ReadsBack document) :
    List.Forall₂ Grammar.Makes ((documents.map partText).map tokens) documents := by
  induction documents with
  | nil => exact .nil
  | cons document rest ih =>
      obtain ⟨first, others⟩ := List.forall_mem_cons.mp back
      exact .cons (complete_partText first).2 (ih others)

/-- The documents of a text whose first event starts a document. -/
theorem load_of_step {text : List Char} (mark : Mark) {g : Grammar}
    {content : List Event} {documents : List Node}
    (first : (Grammar.ofTokens (tokens text)).step = some (⟨.documentStart, mark⟩, g))
    (read : Grammar.readAll (4 * (tokens text).length + 3) g = content)
    (many : documents.length ≤ content.length)
    (built : ∀ fuel mark, buildAll (fuel + documents.length + 1)
      (⟨.documentStart, mark⟩ :: content) = .ok documents) :
    load (String.ofList text) = .ok documents := by
  have whole : events text = ⟨.documentStart, mark⟩ :: content :=
    (Grammar.readAll_of_some first EventKind.noConfusion).trans (congrArg _ read)
  unfold load
  rw [String.toList_ofList, whole]
  have enough : content.length + 1 = (content.length + 1 - documents.length) + documents.length :=
    (Nat.sub_add_cancel (many.trans (Nat.le_succ _))).symm
  have done := built (content.length + 1 - documents.length) mark
  rw [← enough] at done
  exact done

/-- Documents that read back alone read back together, where the first one is not null. -/
theorem load_dump_of_ne_null {document : Node} {rest : List Node} (some : document ≠ .null)
    (back : ∀ d ∈ document :: rest, d ≠ .null → ReadsBack d) :
    load (dump (document :: rest)) = .ok (document :: rest) := by
  have joined := joined_partText back
  obtain ⟨content, many, read, built⟩ := Grammar.exists_events joined (forall₂_makes back)
  obtain ⟨loaded, unmarked⟩ := (back document List.mem_cons_self some).partText
  obtain ⟨⟨t, others, same, starts⟩, -⟩ := events_of_load some loaded unmarked
  rw [List.map_cons, List.map_cons, same] at joined
  obtain ⟨t', others', whole, starts'⟩ := joined.exists_first starts
  rw [dump, writeDocuments_cons]
  refine load_of_step t'.first ?_ ?_ many built
    (g := ⟨t' :: others', [.blockNode, .documentEnd], Grammar.defaultHandles⟩)
  · rw [whole]
    exact Grammar.step_start starts'
  · have start := read 0
    rw [whole, Nat.zero_add] at start
    rw [whole, ← start]
    exact Grammar.readAll_congr (Grammar.step_content starts').symm _

/-- A null document in front of others is lost. -/
theorem load_dump_null {document : Node} {rest : List Node}
    (back : ∀ d ∈ document :: rest, d ≠ .null → ReadsBack d) :
    load (dump (.null :: document :: rest)) = .ok (document :: rest) := by
  have nullFirst : ∀ d ∈ .null :: document :: rest, d ≠ .null → ReadsBack d :=
    List.forall_mem_cons.mpr ⟨fun some => absurd rfl some, back⟩
  have joined := joined_partText nullFirst
  rw [dump, writeDocuments_cons]
  generalize partText .null ++ behind ((document :: rest).map partText) = text at joined ⊢
  generalize whole : tokens text = all at joined
  rw [List.map_cons, List.map_cons, partText_null, tokens_nil] at joined
  cases joined with
  | @next s _ more _ x marker continues joined =>
      obtain ⟨content, many, read, built⟩ := Grammar.exists_events joined (forall₂_makes back)
      refine load_of_step .start ?_ ?_ many built
        (g := ⟨more, [.documentContent, .documentEnd], Grammar.defaultHandles⟩)
      · rw [whole]
        exact Grammar.step_marker marker more
      · have allowance : 4 * (more.length + 1) + 3 = 4 + (4 * more.length + 3) := by omega
        rw [whole]
        exact (congrArg (Grammar.readAll · _) allowance).trans (read 4)

theorem load_dump_single_null : load (dump [.null]) = .ok [.null] := by
  rfl

/-- There is a document in every text. -/
theorem ne_nil_of_load {text : String} {documents : List Node} (loaded : load text = .ok documents) :
    documents ≠ [] := by
  rintro rfl
  unfold load at loaded
  split at loaded
  · cases loaded
  · next other =>
      obtain ⟨mark, rest, same⟩ := of_buildAll_nil loaded
      exact other mark rest same

/-- Where the documents of a text read back one by one, they read back together, as many as they
    were, in their order, with the nulls among them, unless a null document comes first and others
    follow. Then the others read back, and the null document is lost. -/
theorem load_dump_documents {text : String} {documents : List Node}
    (loaded : load text = .ok documents)
    (back : ∀ document ∈ documents, document ≠ .null → ReadsBack document) :
    (load (dump documents) = .ok documents ↔
        ¬(documents.head? = some .null ∧ 1 < documents.length)) ∧
      (documents.head? = some .null ∧ 1 < documents.length →
        load (dump documents) = .ok documents.tail) := by
  cases documents with
  | nil => exact absurd rfl (ne_nil_of_load loaded)
  | cons document rest =>
      by_cases null : document = .null
      · subst null
        cases rest with
        | nil => exact ⟨iff_of_true load_dump_single_null (by simp), by simp⟩
        | cons next rest =>
            have lost := load_dump_null fun d member => back d (List.mem_cons_of_mem _ member)
            refine ⟨iff_of_false ?_ (by simp), fun _ => lost⟩
            rw [lost]
            intro same
            have lengths := congrArg List.length (Except.ok.inj same)
            simp at lengths
      · refine ⟨iff_of_true (load_dump_of_ne_null null back) ?_, ?_⟩
        · simp [null]
        · simp [null]

/-- A null document between two others is still there, and one before another is not. -/
theorem load_dump_documents_null :
    let document : Node := .mapping ⟨[("a", .integer 1)]⟩
    load (dump [document, .null, document]) = .ok [document, .null, document] ∧
      load "---\n---\na: 1\n" = .ok [.null, document] ∧
      load (dump [.null, document]) = .ok [document] := by
  intro document
  have back : ReadsBack document := ⟨by decide +kernel, by decide +kernel⟩
  have between : load "a: 1\n---\n---\na: 1\n" = .ok [document, .null, document] := by
    decide +kernel
  have before : load "---\n---\na: 1\n" = .ok [.null, document] := by decide +kernel
  refine ⟨(load_dump_documents between ?_).1.mpr (by decide), before,
    (load_dump_documents before ?_).2 ⟨rfl, by decide⟩⟩
  · simp [back]
  · simp [back]

end ManifestMigration.Yaml
