import ManifestMigration.Yaml.Error
import ManifestMigration.Yaml.Event
import ManifestMigration.Yaml.Scalar

/-! # Loading YAML documents

Events make up document trees. Aliases are expanded, keys become strings, and tags are obeyed or
refused. Two limits keep expansion finite: collections nest at most 128 deep, and aliases are
expanded at most a hundred times for every event of their document. What is wrong with the content
of a document is found before what is wrong with the syntax behind it.
-/

namespace ManifestMigration.Yaml

inductive Item where
  | alias (anchor : Nat)
  | scalar (tag : Option (List Char)) (style : ScalarStyle) (text : String)
  | sequenceStart (tag : Option (List Char))
  | sequenceEnd
  | mappingStart (tag : Option (List Char))
  | mappingEnd
  deriving DecidableEq, Repr

inductive Ending where
  | complete
  | malformed
  | unknownAnchor (mark : Mark)
  deriving DecidableEq, Repr

/-- The items of a document, with the items from an anchored node on under the number of its
    anchor. -/
structure Document where
  items : List (Item × Mark)
  anchors : List (Nat × List (Item × Mark))
  ending : Ending

/-! ## Anchors -/

/-- The names of the anchors so far, each with its number. -/
abbrev AnchorNames := List (List Char × Nat)

/-- Give a name the number of names before it; a name that comes again gets a new number. -/
def nameAnchor (names : AnchorNames) : Option (List Char) → AnchorNames
  | none => names
  | some name => (name, names.length) :: names.filter (·.1 != name)

/-- Put an item before a document, with its anchor. What an anchor number means already stays, so
    that the last node with a number counts. -/
def Document.cons (names : AnchorNames) (anchor : Option (List Char)) (item : Item) (mark : Mark)
    (d : Document) : Document :=
  let items := (item, mark) :: d.items
  let anchors :=
    if anchor.isNone || (d.anchors.lookup names.length).isSome then d.anchors
    else (names.length, items) :: d.anchors
  { d with items, anchors }

def Document.bare (ending : Ending) : Document := ⟨[], [], ending⟩

/-- The items of a document up to its end, and the events behind it. -/
def readDocument (names : AnchorNames) : List Event → Document × List Event
  | [] => (.bare .malformed, [])
  | ⟨kind, mark⟩ :: rest =>
    let more (anchor : Option (List Char)) (item : Item) : Document × List Event :=
      let (d, after) := readDocument (nameAnchor names anchor) rest
      (d.cons names anchor item mark, after)
    match kind with
    | .alias name =>
      match names.lookup name with
      | some number => more none (.alias number)
      | none => (.bare (.unknownAnchor mark), [])
    | .scalar p style text => more p.anchor (.scalar p.tag style (String.ofList text))
    | .sequenceStart p => more p.anchor (.sequenceStart p.tag)
    | .sequenceEnd => more none .sequenceEnd
    | .mappingStart p => more p.anchor (.mappingStart p.tag)
    | .mappingEnd => more none .mappingEnd
    | .documentStart => readDocument names rest
    | .documentEnd => (.bare .complete, rest)
    | .streamEnd => (.bare .complete, [])

/-! ## Leaves -/

/-- The tag is one of its own, not one of the common types. -/
def isOwnTag (tag : Option (List Char)) : Bool :=
  match tag with
  | some ('!' :: _) => true
  | _ => false

def leafOfWhole : WholeNumber → Except Mismatch Scalar
  | .integer value => .ok (.integer value)
  | .unsigned value => .ok (.unsigned value)
  | .wide value => .error (.wideInteger value)

def leafOfPlain (text : String) : Except Mismatch Scalar :=
  match plainValue text with
  | .null => .ok .null
  | .bool b => .ok (.bool b)
  | .whole n => leafOfWhole n
  | .float x => .ok (.float x)
  | .string => .ok (.string text)

/-- The leaf that a scalar makes. The common types are read whatever the style; with any other tag
    the text is a string. -/
def leaf (tag : Option (List Char)) (style : ScalarStyle) (text : String) :
    Except Mismatch Scalar :=
  match tag.map String.ofList with
  | some "tag:yaml.org,2002:bool" =>
    match boolOfText? text with
    | some b => .ok (.bool b)
    | none => .error (.unreadable text .boolean)
  | some "tag:yaml.org,2002:int" =>
    match wholeNumber? text.toList with
    | some n => leafOfWhole n
    | none => .error (.unreadable text .integer)
  | some "tag:yaml.org,2002:float" =>
    match float? text with
    | some x => .ok (.float x)
    | none => .error (.unreadable text .float)
  | some "tag:yaml.org,2002:null" =>
    if isNullText text then .ok .null else .error (.unreadable text .null)
  | some _ => if isOwnTag tag then .error .tagged else .ok (.string text)
  | none => if style = .plain then leafOfPlain text else .ok (.string text)

def keyText : Scalar → String
  | .string text => text
  | .integer value => toString value.toInt
  | .unsigned value => toString value.toNat
  | .float value => value.plainText
  | .bool value => if value then "true" else "false"
  | .null => "null"

/-! ## Trees -/

/-- Where the building of a tree is: the items to come, and the aliases expanded so far. -/
structure Progress where
  items : List (Item × Mark)
  expanded : Nat

/-- A part of a tree and what comes after it. -/
abbrev Built (α : Type) := Except LoadError (α × Progress)

namespace Document

/-- The error of a document whose items have come to an end too early. -/
def cutShort (d : Document) : LoadError :=
  match d.ending with
  | .unknownAnchor mark => .unknownAnchor mark
  | _ => .malformed

def aliasLimit (d : Document) : Nat := 100 * d.items.length

/-- Expand an alias: the items to be read in its place. -/
def expand (d : Document) (anchor : Nat) (p : Progress) : Except LoadError Progress :=
  if d.aliasLimit < p.expanded + 1 then .error .tooManyAliases
  else .ok ⟨(d.anchors.lookup anchor).getD [], p.expanded + 1⟩

def buildKey (d : Document) (depth : Nat) (path : List Segment) :
    Nat → Progress → Built (Segment × String)
  | 0, _ => .error .tooManyAliases
  | fuel + 1, p =>
    match p.items with
    | [] => .error d.cutShort
    | (item, mark) :: rest =>
      let refuse (cause : Mismatch) : Built (Segment × String) :=
        .error (.mismatch cause .key path mark)
      let collection (tag : Option (List Char)) (cause : Mismatch) : Built (Segment × String) :=
        if isOwnTag tag then refuse .tagged
        else if depth = 0 then .error (.tooDeep mark)
        else refuse cause
      match item with
      | .alias anchor =>
        match d.expand anchor p with
        | .error e => .error e
        | .ok p' =>
          match buildKey d depth path fuel p' with
          | .error e => .error e
          | .ok ((_, key), p'') => .ok ((.unknownKey, key), ⟨rest, p''.expanded⟩)
      | .scalar tag style text =>
        match leaf tag style text with
        | .ok value => .ok ((.key text, keyText value), ⟨rest, p.expanded⟩)
        | .error cause => refuse cause
      | .sequenceStart tag => collection tag .sequence
      | .mappingStart tag => collection tag .mapping
      | .sequenceEnd | .mappingEnd => .error d.cutShort

mutual

/-- Build the node that comes next, at most so many steps deep. -/
def buildNode (d : Document) : Nat → Nat → List Segment → Progress → Built Node
  | 0, _, _, _ => .error .tooManyAliases
  | fuel + 1, depth, path, p =>
    match p.items with
    | [] => .error d.cutShort
    | (item, mark) :: rest =>
      let after : Progress := ⟨rest, p.expanded⟩
      match item with
      | .alias anchor =>
        match d.expand anchor p with
        | .error e => .error e
        | .ok p' =>
          match buildNode d fuel depth path p' with
          | .error e => .error e
          | .ok (node, p'') => .ok (node, ⟨rest, p''.expanded⟩)
      | .scalar tag style text =>
        match leaf tag style text with
        | .ok value => .ok (.scalar value, after)
        | .error cause => .error (.mismatch cause .node path mark)
      | .sequenceStart tag =>
        if isOwnTag tag then .error (.mismatch .tagged .node path mark)
        else
          match depth with
          | 0 => .error (.tooDeep mark)
          | depth + 1 =>
            match buildItems d fuel depth path 0 after with
            | .error e => .error e
            | .ok (items, p') => .ok (.sequence items, p')
      | .mappingStart tag =>
        if isOwnTag tag then .error (.mismatch .tagged .node path mark)
        else
          match depth with
          | 0 => .error (.tooDeep mark)
          | depth + 1 =>
            match buildFields d fuel depth path .empty after with
            | .error e => .error e
            | .ok (fields, p') => .ok (.mapping fields, p')
      | .sequenceEnd | .mappingEnd => .error d.cutShort

/-- Build the items of a sequence from the one with an index on. -/
def buildItems (d : Document) : Nat → Nat → List Segment → Nat → Progress → Built (List Node)
  | 0, _, _, _, _ => .error .tooManyAliases
  | fuel + 1, depth, path, index, p =>
    match p.items with
    | (.sequenceEnd, _) :: rest => .ok ([], ⟨rest, p.expanded⟩)
    | _ =>
      match buildNode d fuel depth (path ++ [.index index]) p with
      | .error e => .error e
      | .ok (item, p') =>
        match buildItems d fuel depth path (index + 1) p' with
        | .error e => .error e
        | .ok (items, p'') => .ok (item :: items, p'')

/-- Build the fields of a mapping and add them to those before. A key that comes again replaces
    the value and keeps its place. -/
def buildFields (d : Document) : Nat → Nat → List Segment → Mapping → Progress → Built Mapping
  | 0, _, _, _, _ => .error .tooManyAliases
  | fuel + 1, depth, path, fields, p =>
    match p.items with
    | (.mappingEnd, _) :: rest => .ok (fields, ⟨rest, p.expanded⟩)
    | _ =>
      match buildKey d depth path fuel p with
      | .error e => .error e
      | .ok ((segment, key), p') =>
        match buildNode d fuel depth (path ++ [segment]) p' with
        | .error e => .error e
        | .ok (value, p'') => buildFields d fuel depth path (fields.insert key value) p''

end

/-- How deep collections may nest. -/
def depthLimit : Nat := 128

/-- The tree of a document. Every step down uses up part of the allowance, which is enough for the
    deepest nesting and the longest collections. -/
def build (d : Document) : Except LoadError Node :=
  match buildNode d (4 * (depthLimit + 2) * (d.items.length + 2)) depthLimit []
      ⟨d.items, 0⟩ with
  | .error e => .error e
  | .ok (node, _) => if d.ending = .complete then .ok node else .error d.cutShort

end Document

/-- The trees of the documents that some events make up, at most so many. -/
def buildAll : Nat → List Event → Except LoadError (List Node)
  | 0, _ => .error .malformed
  | fuel + 1, events =>
    match events with
    | ⟨.streamEnd, _⟩ :: _ => .ok []
    | _ =>
      let (d, rest) := readDocument [] events
      match d.build with
      | .error e => .error e
      | .ok node =>
        match buildAll fuel rest with
        | .error e => .error e
        | .ok nodes => .ok (node :: nodes)

/-- The documents of a text. A text without documents is one null document. -/
def load (text : String) : Except LoadError (List Node) :=
  match events text.toList with
  | ⟨.streamEnd, _⟩ :: _ => .ok [.null]
  | events => buildAll (events.length + 1) events

end ManifestMigration.Yaml
