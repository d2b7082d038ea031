import ManifestMigration.Yaml.Tokens

/-! # YAML events

The grammar of YAML turns tokens into events: the starts and ends of documents and collections,
scalars, and aliases. A stack of expectations says what the grammar allows next. What is missing
between two tokens, such as the value of a key that stands alone, is an empty plain scalar.
-/

namespace ManifestMigration.Yaml

structure Properties where
  anchor : Option (List Char)
  tag : Option (List Char)
  deriving DecidableEq, Repr

def Properties.none : Properties := ⟨.none, .none⟩

inductive EventKind where
  | streamEnd
  | documentStart
  | documentEnd
  | alias (name : List Char)
  | scalar (properties : Properties) (style : ScalarStyle) (text : List Char)
  | sequenceStart (properties : Properties)
  | sequenceEnd
  | mappingStart (properties : Properties)
  | mappingEnd
  deriving DecidableEq, Repr

structure Event where
  kind : EventKind
  mark : Mark
  deriving DecidableEq, Repr

/-- What the grammar expects next. -/
inductive Expectation where
  /-- The start of a document; it may lack its marker. -/
  | documentStart (implicit : Bool)
  /-- The content of a document behind its marker. -/
  | documentContent
  /-- A node in block style. -/
  | blockNode
  | documentEnd
  | blockEntry
  /-- An entry of a block sequence that is not indented in its mapping. -/
  | indentlessEntry
  | blockKey
  | blockValue
  /-- An entry of a flow sequence, the first one or another. -/
  | flowEntry (first : Bool)
  /-- The key of a mapping of one pair in a flow sequence. -/
  | pairKey
  | pairValue
  | pairEnd
  | flowKey (first : Bool)
  /-- The value of a key in a flow mapping. -/
  | flowValue
  /-- The value that a key alone in a flow mapping lacks. -/
  | flowNoValue
  deriving DecidableEq, Repr

/-- The reading of tokens into events. -/
structure Grammar where
  tokens : List Token
  expected : List Expectation
  /-- Tag handles with what they stand for. -/
  handles : List (List Char × List Char)

namespace Grammar

/-- An event and what is to be read after it; nothing for an error. -/
abbrev Step := Option (Event × Grammar)

/-- Before the first event of some tokens. -/
def ofTokens (tokens : List Token) : Grammar := ⟨tokens, [.documentStart true], []⟩

/-- The handles that every document knows. -/
def defaultHandles : List (List Char × List Char) :=
  [(['!'], ['!']), (['!', '!'], "tag:yaml.org,2002:".toList)]

/-- Give an event and go on with some tokens and expectations. -/
def emit (g : Grammar) (kind : EventKind) (mark : Mark) (tokens : List Token)
    (expected : List Expectation) : Step :=
  some (⟨kind, mark⟩, { g with tokens, expected })

/-- Give the empty scalar that stands for something missing. -/
def emitEmpty (g : Grammar) (mark : Mark) (tokens : List Token) (expected : List Expectation) :
    Step :=
  g.emit (.scalar .none .plain []) mark tokens expected

/-! ## Nodes -/

/-- Anchor and tag tokens before a node, in either order. -/
def properties (tokens : List Token) :
    Option (List Char) × Option (List Char × List Char) × List Token :=
  match tokens with
  | ⟨.anchor a, _, _⟩ :: ⟨.tag h s, _, _⟩ :: rest => (some a, some (h, s), rest)
  | ⟨.tag h s, _, _⟩ :: ⟨.anchor a, _, _⟩ :: rest => (some a, some (h, s), rest)
  | ⟨.anchor a, _, _⟩ :: rest => (some a, none, rest)
  | ⟨.tag h s, _, _⟩ :: rest => (none, some (h, s), rest)
  | _ => (none, none, tokens)

/-- The tag that a handle and a suffix stand for. A handle that no directive knows is an error,
    which the outer level of the result tells. -/
def resolveTag (g : Grammar) : Option (List Char × List Char) → Option (Option (List Char))
  | none => some none
  | some ([], suffix) => some (some suffix)
  | some (handle, suffix) =>
    match g.handles.lookup handle with
    | some stem => some (some (stem ++ suffix))
    | none => none

/-- Read a node, and then go on with expectations. Block collections may be excluded, and a block
    sequence may be allowed without indentation. -/
def node (g : Grammar) (block indentless : Bool) (tokens : List Token)
    (next : List Expectation) : Step :=
  match tokens with
  | [] => none
  | ⟨.alias name, first, _⟩ :: rest => g.emit (.alias name) first rest next
  | ⟨_, first, _⟩ :: _ =>
    let (anchor, tagParts, rest) := properties tokens
    match g.resolveTag tagParts, rest with
    | none, _ => none
    | _, [] => none
    | some tag, ⟨kind, _, _⟩ :: rest' =>
      let p : Properties := ⟨anchor, tag⟩
      match kind with
      | .blockEntry =>
        if indentless then g.emit (.sequenceStart p) first rest (.indentlessEntry :: next)
        else if anchor.isSome || tag.isSome then g.emit (.scalar p .plain []) first rest next
        else none
      | .scalar style text => g.emit (.scalar p style text) first rest' next
      | .flowSequenceStart => g.emit (.sequenceStart p) first rest' (.flowEntry true :: next)
      | .flowMappingStart => g.emit (.mappingStart p) first rest' (.flowKey true :: next)
      | .blockSequenceStart =>
        if block then g.emit (.sequenceStart p) first rest' (.blockEntry :: next)
        else if anchor.isSome || tag.isSome then g.emit (.scalar p .plain []) first rest next
        else none
      | .blockMappingStart =>
        if block then g.emit (.mappingStart p) first rest' (.blockKey :: next)
        else if anchor.isSome || tag.isSome then g.emit (.scalar p .plain []) first rest next
        else none
      | _ =>
        if anchor.isSome || tag.isSome then g.emit (.scalar p .plain []) first rest next
        else none

/-! ## Documents -/

/-- The directives of a document, each at most once for a version or a handle. They leave the
    handles of the document and the tokens behind them. -/
def directives (versioned : Bool) (handles : List (List Char × List Char)) :
    List Token → Option (List (List Char × List Char) × List Token)
  | ⟨.version major minor, _, _⟩ :: rest =>
    if versioned || major ≠ 1 || (minor ≠ 1 && minor ≠ 2) then none
    else directives true handles rest
  | ⟨.tagDirective handle stem, _, _⟩ :: rest =>
    if (handles.lookup handle).isSome then none
    else directives versioned (handles ++ [(handle, stem)]) rest
  | tokens => some (handles ++ defaultHandles, tokens)

def skipDocumentEnds : List Token → List Token
  | ⟨.documentEnd, _, _⟩ :: rest => skipDocumentEnds rest
  | tokens => tokens

def explicitDocument (g : Grammar) (tokens : List Token) (next : List Expectation) : Step :=
  match directives false [] tokens with
  | some (handles, ⟨.documentStart, _, _⟩ :: rest) =>
    { g with handles := handles }.emit .documentStart .start rest
      (.documentContent :: .documentEnd :: next)
  | _ => none

/-- Expect the start of a document or the end of the text. -/
def document (g : Grammar) (implicit : Bool) (next : List Expectation) : Step :=
  let tokens := if implicit then g.tokens else skipDocumentEnds g.tokens
  match tokens with
  | [] => none
  | ⟨.streamEnd, first, _⟩ :: _ => g.emit .streamEnd first [] []
  | ⟨.version _ _, _, _⟩ :: _ | ⟨.tagDirective _ _, _, _⟩ :: _ | ⟨.documentStart, _, _⟩ :: _ =>
    g.explicitDocument tokens next
  | ⟨_, first, _⟩ :: _ =>
    if implicit then
      { g with handles := defaultHandles }.emit .documentStart first tokens
        (.blockNode :: .documentEnd :: next)
    else none

/-- Expect the content of a document, which may be missing. -/
def content (g : Grammar) (next : List Expectation) : Step :=
  match g.tokens with
  | [] => none
  | ⟨kind, first, _⟩ :: _ =>
    match kind with
    | .version _ _ | .tagDirective _ _ | .documentStart | .documentEnd | .streamEnd =>
      g.emitEmpty first g.tokens next
    | _ => g.node true false g.tokens next

/-- Expect the end of a document, whose marker may be missing. -/
def endDocument (g : Grammar) : Step :=
  match g.tokens with
  | [] => none
  | ⟨.documentEnd, first, _⟩ :: rest => g.emit .documentEnd first rest [.documentStart false]
  | ⟨_, first, _⟩ :: _ => g.emit .documentEnd first g.tokens [.documentStart false]

/-! ## Block collections -/

/-- Read a node unless a token comes next that shows that it is missing. -/
def nodeUnless (g : Grammar) (missing : TokenKind → Bool) (block indentless : Bool)
    (mark : Mark) (tokens : List Token) (next : List Expectation) : Step :=
  match tokens with
  | [] => none
  | ⟨kind, _, _⟩ :: _ =>
    if missing kind then g.emitEmpty mark tokens next else g.node block indentless tokens next

/-- Tokens at which an entry of a block sequence is missing. -/
def endsBlockEntry : TokenKind → Bool
  | .blockEntry | .blockEnd => true
  | _ => false

/-- Tokens at which an entry of a sequence without indentation is missing. -/
def endsIndentlessEntry : TokenKind → Bool
  | .blockEntry | .key | .value | .blockEnd => true
  | _ => false

/-- Tokens at which a key or a value of a block mapping is missing. -/
def endsBlockPair : TokenKind → Bool
  | .key | .value | .blockEnd => true
  | _ => false

def blockEntry (g : Grammar) (next : List Expectation) : Step :=
  match g.tokens with
  | ⟨.blockEntry, _, last⟩ :: rest =>
    g.nodeUnless endsBlockEntry true false last rest (.blockEntry :: next)
  | ⟨.blockEnd, mark, _⟩ :: rest => g.emit .sequenceEnd mark rest next
  | _ => none

/-- Expect an entry of a block sequence without indentation; any other token ends it. -/
def indentlessEntry (g : Grammar) (next : List Expectation) : Step :=
  match g.tokens with
  | [] => none
  | ⟨.blockEntry, _, last⟩ :: rest =>
    g.nodeUnless endsIndentlessEntry true false last rest (.indentlessEntry :: next)
  | ⟨_, mark, _⟩ :: _ => g.emit .sequenceEnd mark g.tokens next

def blockKey (g : Grammar) (next : List Expectation) : Step :=
  match g.tokens with
  | ⟨.key, _, last⟩ :: rest =>
    g.nodeUnless endsBlockPair true true last rest (.blockValue :: next)
  | ⟨.blockEnd, mark, _⟩ :: rest => g.emit .mappingEnd mark rest next
  | _ => none

def blockValue (g : Grammar) (next : List Expectation) : Step :=
  match g.tokens with
  | [] => none
  | ⟨.value, _, last⟩ :: rest =>
    g.nodeUnless endsBlockPair true true last rest (.blockKey :: next)
  | ⟨_, mark, _⟩ :: _ => g.emitEmpty mark g.tokens (.blockKey :: next)

/-! ## Flow collections -/

/-- Tokens at which the key of a pair in a flow sequence is missing. -/
def endsPairKey : TokenKind → Bool
  | .value | .flowEntry | .flowSequenceEnd => true
  | _ => false

/-- Tokens at which the value of a pair in a flow sequence is missing. -/
def endsPairValue : TokenKind → Bool
  | .flowEntry | .flowSequenceEnd => true
  | _ => false

def endsFlowKey : TokenKind → Bool
  | .value | .flowEntry | .flowMappingEnd => true
  | _ => false

def endsFlowValue : TokenKind → Bool
  | .flowEntry | .flowMappingEnd => true
  | _ => false

/-- The tokens behind the comma that every entry but the first needs; nothing when it lacks. -/
def afterComma (first : Bool) (tokens : List Token) : Option (List Token) :=
  if first then some tokens
  else
    match tokens with
    | ⟨.flowEntry, _, _⟩ :: rest => some rest
    | _ => none

def flowEntry (g : Grammar) (first : Bool) (next : List Expectation) : Step :=
  match g.tokens with
  | ⟨.flowSequenceEnd, mark, _⟩ :: rest => g.emit .sequenceEnd mark rest next
  | tokens =>
    match afterComma first tokens with
    | none => none
    | some tokens =>
      match tokens with
      | ⟨.flowSequenceEnd, mark, _⟩ :: rest => g.emit .sequenceEnd mark rest next
      | ⟨.key, mark, _⟩ :: rest =>
        g.emit (.mappingStart .none) mark rest (.pairKey :: .flowEntry false :: next)
      | _ => g.node false false tokens (.flowEntry false :: next)

/-- Expect the key of a pair in a flow sequence. A token that shows that it is missing is used
    up. -/
def pairKey (g : Grammar) (next : List Expectation) : Step :=
  match g.tokens with
  | [] => none
  | ⟨kind, _, last⟩ :: rest =>
    if endsPairKey kind then g.emitEmpty last rest (.pairValue :: next)
    else g.node false false g.tokens (.pairValue :: next)

/-- Expect the value of a pair in a flow sequence. -/
def pairValue (g : Grammar) (next : List Expectation) : Step :=
  match g.tokens with
  | [] => none
  | ⟨.value, _, _⟩ :: ⟨kind, mark, last⟩ :: rest =>
    g.nodeUnless endsPairValue false false mark (⟨kind, mark, last⟩ :: rest) (.pairEnd :: next)
  | [⟨.value, _, _⟩] => none
  | ⟨_, mark, _⟩ :: _ => g.emitEmpty mark g.tokens (.pairEnd :: next)

def pairEnd (g : Grammar) (next : List Expectation) : Step :=
  match g.tokens with
  | [] => none
  | ⟨_, mark, _⟩ :: _ => g.emit .mappingEnd mark g.tokens next

def flowKey (g : Grammar) (first : Bool) (next : List Expectation) : Step :=
  match g.tokens with
  | ⟨.flowMappingEnd, mark, _⟩ :: rest => g.emit .mappingEnd mark rest next
  | tokens =>
    match afterComma first tokens with
    | none => none
    | some tokens =>
      match tokens with
      | ⟨.flowMappingEnd, mark, _⟩ :: rest => g.emit .mappingEnd mark rest next
      | ⟨.key, _, _⟩ :: ⟨kind, mark, last⟩ :: rest =>
        g.nodeUnless endsFlowKey false false mark (⟨kind, mark, last⟩ :: rest) (.flowValue :: next)
      | [⟨.key, _, _⟩] => none
      | _ => g.node false false tokens (.flowNoValue :: next)

def flowValue (g : Grammar) (next : List Expectation) : Step :=
  match g.tokens with
  | [] => none
  | ⟨.value, _, _⟩ :: ⟨kind, mark, last⟩ :: rest =>
    g.nodeUnless endsFlowValue false false mark (⟨kind, mark, last⟩ :: rest)
      (.flowKey false :: next)
  | [⟨.value, _, _⟩] => none
  | ⟨_, mark, _⟩ :: _ => g.emitEmpty mark g.tokens (.flowKey false :: next)

/-- Give the value that a key alone in a flow mapping lacks. -/
def flowNoValue (g : Grammar) (next : List Expectation) : Step :=
  match g.tokens with
  | [] => none
  | ⟨_, mark, _⟩ :: _ => g.emitEmpty mark g.tokens (.flowKey false :: next)

/-! ## All events -/

def step (g : Grammar) : Step :=
  match g.expected with
  | [] => none
  | .documentStart implicit :: next => g.document implicit next
  | .documentContent :: next => g.content next
  | .blockNode :: next => g.node true false g.tokens next
  | .documentEnd :: _ => g.endDocument
  | .blockEntry :: next => g.blockEntry next
  | .indentlessEntry :: next => g.indentlessEntry next
  | .blockKey :: next => g.blockKey next
  | .blockValue :: next => g.blockValue next
  | .flowEntry first :: next => g.flowEntry first next
  | .pairKey :: next => g.pairKey next
  | .pairValue :: next => g.pairValue next
  | .pairEnd :: next => g.pairEnd next
  | .flowKey first :: next => g.flowKey first next
  | .flowValue :: next => g.flowValue next
  | .flowNoValue :: next => g.flowNoValue next

/-- The events up to the end of the text or to an error, at most so many. -/
def readAll : Nat → Grammar → List Event
  | 0, _ => []
  | fuel + 1, g =>
    match g.step with
    | none => []
    | some (event, g') =>
      match event.kind with
      | .streamEnd => [event]
      | _ => event :: readAll fuel g'

end Grammar

/-- The events of a text. They end with the end of the text; after an error they just stop. -/
def events (text : List Char) : List Event :=
  let tokens := tokens text
  Grammar.readAll (4 * tokens.length + 4) (.ofTokens tokens)

end ManifestMigration.Yaml
