import ManifestMigration.Text.Occurrence

/-! # Log filters

A log line has a level and a target, the part of the program that it comes from. A filter lets
lines through by directives: a level for everything, or a level for the targets that start with a
name. Of the directives that fit a target, the one with the longest name decides.
-/

namespace ManifestMigration.Log

inductive Level where
  | error
  | warn
  | info
  | debug
  | trace
  deriving DecidableEq, Repr

namespace Level

def name : Level → String
  | error => "ERROR"
  | warn => "WARN"
  | info => "INFO"
  | debug => "DEBUG"
  | trace => "TRACE"

/-- How many levels come before this one and with it. -/
def rank : Level → Nat
  | error => 1
  | warn => 2
  | info => 3
  | debug => 4
  | trace => 5

end Level

/-- Lets lines through for the targets that start with a name, up to a rank of levels. -/
structure Directive where
  target : List Char
  /-- The highest rank that is let through; zero lets nothing through. -/
  rank : Nat
  deriving DecidableEq, Repr

/-- Directives, the later ones first. -/
abbrev Filter := List Directive

/-- The rank that a name of a level or a digit stands for. Case does not matter. -/
def rankOfText? (text : List Char) : Option Nat :=
  match String.ofList (text.map Char.toLower) with
  | "off" | "0" => some 0
  | "error" | "1" => some 1
  | "warn" | "2" => some 2
  | "info" | "3" => some 3
  | "debug" | "4" => some 4
  | "trace" | "5" => some 5
  | _ => none

def isTargetChar (c : Char) : Bool := c.isAlphanum || c == '_' || c == ':' || c == '-'

/-- Read a directive: a level, a target, or both. A target alone lets all its lines through. -/
def Directive.ofText? (text : List Char) : Option Directive :=
  match rankOfText? text with
  | some rank => some ⟨[], rank⟩
  | none =>
    let (target, level) := match Text.splitOnce '=' text with
      | some (target, level) => (target, level)
      | none => (text, [])
    if target.isEmpty || !target.all isTargetChar then none
    else if level.isEmpty then some ⟨target, Level.trace.rank⟩
    else (rankOfText? level).map fun rank => ⟨target, rank⟩

namespace Filter

/-- Only lines of these levels and more important ones, whatever their target. -/
def upTo (level : Level) : Filter := [⟨[], level.rank⟩]

/-- Read directives between commas. Without any, errors are let through. -/
def ofText? (text : String) : Option Filter := do
  let pieces := (Text.splitAll ',' text.toList).filter (!·.isEmpty)
  let directives ← pieces.mapM Directive.ofText?
  return if directives.isEmpty then upTo .error else directives.reverse

/-- The directive with the longest name that fits a target. -/
def directiveFor? (filter : Filter) (target : String) : Option Directive :=
  filter.foldl (fun best d =>
    if d.target.isPrefixOf target.toList &&
        best.all fun (b : Directive) => b.target.length < d.target.length
    then some d else best) none

def allows (filter : Filter) (level : Level) (target : String) : Bool :=
  (filter.directiveFor? target).any (level.rank ≤ ·.rank)

end Filter

end ManifestMigration.Log
