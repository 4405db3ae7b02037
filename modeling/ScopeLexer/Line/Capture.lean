import ScopeLexer.Line.Finder
import ScopeLexer.Line.Piece

/-!
The pieces of a match whose groups have rules of their own. A group inside another adds its scopes to
those of the other; a group whose rule has patterns is scanned with them instead.
-/
namespace ScopeLexer.Line

open Grammar Regex

/-- What a scan changes: the state of the finder, the pieces, and the count of the lines given a
number. -/
structure Work (σ : Type) where
  finder : σ
  pieces : Pieces := {}
  lineCount : Nat := 1
  /-- A bound was met: on the steps of a scan, of which there are always enough, or on the depth of groups
  scanned again inside one another. -/
  outOfSteps : Bool := false

namespace Work

variable {σ : Type}

/-- Adds a piece that ends at a byte. -/
def produce (work : Work σ) (scopes : ScopePath) (stop : Nat) : Work σ :=
  { work with pieces := work.pieces.produce scopes stop }

/-- Adds a piece with the scopes reached. -/
def produceTop (work : Work σ) (stack : Stack) (stop : Nat) : Work σ :=
  work.produce stack.contentScopes stop

end Work

/-- What the scan of a line needs to know. -/
structure Scanner (σ : Type) where
  grammar : CompiledGrammar
  styling : Styling
  finder : Finder σ

/-- Scans a line once more: the line, whether `\A` can hold, the byte to start at, and the state. -/
abbrev Rescan (σ : Type) := SourceLine → Bool → Nat → Stack → Work σ → Work σ

def resolvedName (name : Option String) (line : SourceLine) (spans : Spans) : Option String :=
  name.map fun name => Pattern.resolveName name line spans

/-- A group that has begun and not ended. -/
structure OpenGroup where
  scopes : ScopePath
  stop : Nat
  deriving Repr, DecidableEq, Inhabited

/-- Ends the groups that end at or before a byte, the innermost first. -/
def closeGroups (start : Nat) : List OpenGroup → Pieces → List OpenGroup × Pieces
  | [], pieces => ([], pieces)
  | group :: outer, pieces =>
    if group.stop ≤ start then closeGroups start outer (pieces.produce group.scopes group.stop)
    else (group :: outer, pieces)

def closeAllGroups (groups : List OpenGroup) (pieces : Pieces) : Pieces :=
  groups.foldl (fun pieces group => pieces.produce group.scopes group.stop) pieces

/-- The scopes inside the innermost open group. -/
def innermostScopes (stack : Stack) : List OpenGroup → ScopePath
  | [] => stack.contentScopes
  | group :: _ => group.scopes

section

variable {σ : Type} (scanner : Scanner σ)

/-- The rule and the span of a group, if it has a rule and took some text. -/
def captureAt? (captures : CaptureTable) (spans : Spans) (group : Nat) :
    Option (CaptureRule × Span) := do
  let id ← captures.get? group
  match scanner.grammar.rule id with
  | .capture rule =>
    let span ← spans.group group
    if span.start = span.stop then none else some (rule, span)
  | _ => none

/-- The state in which the text of a group is scanned again. -/
def rescanStack (stack : Stack) (rule : CaptureRule) (retokenize : RuleId) (line : SourceLine)
    (spans : Spans) (start : Nat) : Stack :=
  let nameScopes :=
    stack.contentScopes.push scanner.styling (resolvedName rule.name line spans)
  let contentScopes :=
    nameScopes.push scanner.styling (resolvedName rule.contentName line spans)
  (stack.push retokenize (some start) none false nameScopes).withContentScopes contentScopes

/-- Begins a group: the text before it gets the scopes around it. -/
def beginGroup (rescan : Rescan σ) (line : SourceLine) (isFirst : Bool) (stack : Stack)
    (spans : Spans) (rule : CaptureRule) (span : Span) (groups : List OpenGroup) (work : Work σ) :
    List OpenGroup × Work σ :=
  let (groups, pieces) := closeGroups span.start groups work.pieces
  let scopes := innermostScopes stack groups
  let work := { work with pieces := pieces.produce scopes span.start }
  match rule.retokenize with
  | some retokenize =>
    let inner := line.upTo span.stop work.lineCount
    let work := { work with lineCount := work.lineCount + 1 }
    (groups, rescan inner (isFirst && span.start == 0) span.start
      (rescanStack scanner stack rule retokenize line spans span.start) work)
  | none =>
    match resolvedName rule.name line spans with
    | none => (groups, work)
    | some name => (⟨scopes.push scanner.styling (some name), span.stop⟩ :: groups, work)

/-- Goes through groups in order. A group that begins after the end of the match lies in a look-ahead,
and ends the walk. -/
def walkGroups (rescan : Rescan σ) (line : SourceLine) (isFirst : Bool) (stack : Stack)
    (captures : CaptureTable) (spans : Spans) (last : Nat) :
    List Nat → List OpenGroup → Work σ → List OpenGroup × Work σ
  | [], groups, work => (groups, work)
  | group :: rest, groups, work =>
    match captureAt? scanner captures spans group with
    | none => walkGroups rescan line isFirst stack captures spans last rest groups work
    | some (rule, span) =>
      if last < span.start then (groups, work)
      else
        let (groups, work) :=
          beginGroup scanner rescan line isFirst stack spans rule span groups work
        walkGroups rescan line isFirst stack captures spans last rest groups work

/-- Adds the pieces of the groups of a match. -/
def produceCaptures (rescan : Rescan σ) (line : SourceLine) (isFirst : Bool) (stack : Stack)
    (captures : CaptureTable) (spans : Spans) (work : Work σ) : Work σ :=
  match spans.whole with
  | none => work
  | some whole =>
    let (groups, work) := walkGroups scanner rescan line isFirst stack captures spans whole.stop
      (List.range (min captures.size spans.size)) [] work
    { work with pieces := closeAllGroups groups work.pieces }

end

end ScopeLexer.Line
