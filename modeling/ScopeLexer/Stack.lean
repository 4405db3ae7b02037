import ScopeLexer.Grammar.Rule
import ScopeLexer.ScopePath

/-!
The state that is carried from one line to the next: the rules that have been entered and not left. A
frame keeps its depth and a hash of the rules and ends from the bottom up to it, so that two states can
be told apart fast.
-/
namespace ScopeLexer

open Grammar

structure Frame where
  /-- The number of frames up to this one. -/
  depth : Nat
  rule : RuleId
  /-- The byte at which the rule was entered, on the line being scanned. -/
  enteredAt : Option Nat := none
  /-- The byte at which `\G` held when the rule was entered, on the line being scanned. -/
  anchor : Option Nat := none
  /-- The start took the end of its line as well. -/
  tookLineEnd : Bool := false
  /-- The end, or the condition, with its back-references resolved. -/
  ending : Option String := none
  /-- The scopes of the start and of the end. -/
  nameScopes : ScopePath
  /-- The scopes of what lies between. -/
  contentScopes : ScopePath
  /-- The hash of the depths, rules and ends of all frames up to this one. -/
  digest : UInt64
  deriving Repr, DecidableEq, Inhabited

def mixDigest (digest : UInt64) (part : Nat) : UInt64 :=
  (digest ^^^ UInt64.ofNat part) * 0x100000001b3

/-- Mixes an end, or that there is none, into a hash. -/
def mixEnding (digest : UInt64) : Option String → UInt64
  | none => mixDigest digest 0
  | some text => text.toList.foldl (fun digest c => mixDigest digest c.toNat) (mixDigest digest 1)

/-- A way to hash a frame on top of others: of their hash, if there are any, and of the depth, the rule
and the end of the frame. -/
abbrev FrameHash := Option UInt64 → Nat → RuleId → Option String → UInt64

/-- The hash of a frame on top of others. -/
def frameDigest : FrameHash := fun below depth rule ending =>
  mixEnding (mixDigest (mixDigest (below.getD 0xcbf29ce484222325) depth) rule) ending

/-- The frames of a state, the top one apart, the others from the top down. -/
structure Stack where
  top : Frame
  rest : List Frame := []
  deriving Repr, DecidableEq, Inhabited

namespace Stack

/-- All frames, from the top down. -/
def frames (stack : Stack) : List Frame := stack.top :: stack.rest

/-- The number of frames, as the top one has it. -/
def depth (stack : Stack) : Nat := stack.top.depth

/-- The scopes at the place reached. -/
def contentScopes (stack : Stack) : ScopePath := stack.top.contentScopes

/-- The state before the first line, under a way to hash frames. -/
def rootWith (hash : FrameHash) (rule : RuleId) (scopes : ScopePath) : Stack where
  top := {
    depth := 1
    rule := rule
    nameScopes := scopes
    contentScopes := scopes
    digest := hash none 1 rule none }

/-- The state before the first line. -/
def root (rule : RuleId) (scopes : ScopePath) : Stack := rootWith frameDigest rule scopes

/-- Enters a rule, under a way to hash frames. -/
def pushWith (hash : FrameHash) (stack : Stack) (rule : RuleId) (enteredAt anchor : Option Nat)
    (tookLineEnd : Bool) (scopes : ScopePath) : Stack where
  top := {
    depth := stack.top.depth + 1
    rule := rule
    enteredAt := enteredAt
    anchor := anchor
    tookLineEnd := tookLineEnd
    nameScopes := scopes
    contentScopes := scopes
    digest := hash (some stack.top.digest) (stack.top.depth + 1) rule none }
  rest := stack.frames

/-- Enters a rule. -/
def push (stack : Stack) (rule : RuleId) (enteredAt anchor : Option Nat) (tookLineEnd : Bool)
    (scopes : ScopePath) : Stack :=
  stack.pushWith frameDigest rule enteredAt anchor tookLineEnd scopes

/-- Leaves the top rule, unless it is the last. -/
def pop? (stack : Stack) : Option Stack :=
  match stack.rest with
  | [] => none
  | frame :: rest => some ⟨frame, rest⟩

/-- Leaves the top rule; the last one stays. -/
def pop (stack : Stack) : Stack := stack.pop?.getD stack

/-- Changes the scopes of what lies between start and end. -/
def withContentScopes (stack : Stack) (scopes : ScopePath) : Stack :=
  { stack with top := { stack.top with contentScopes := scopes } }

/-- Gives the top frame its end, under a way to hash frames. -/
def withEndingWith (hash : FrameHash) (stack : Stack) (ending : String) : Stack :=
  { stack with
    top := { stack.top with
      ending := some ending
      digest :=
        hash (stack.rest.head?.map Frame.digest) stack.top.depth stack.top.rule (some ending) } }

def withEnding (stack : Stack) (ending : String) : Stack := stack.withEndingWith frameDigest ending

/-- Whether the rule of a frame is on the stack already, in an unbroken run of frames from the top that
were entered at the same byte. -/
def hasEntered (stack : Stack) (frame : Frame) : Bool :=
  (stack.frames.takeWhile (·.enteredAt = frame.enteredAt)).any (·.rule = frame.rule)

/-- The frame without what belongs to one line only. -/
def forgetFrame (frame : Frame) : Frame := { frame with enteredAt := none, anchor := none }

/-- The state without what belongs to one line only. -/
def forgetLine (stack : Stack) : Stack := ⟨forgetFrame stack.top, stack.rest.map forgetFrame⟩

theorem forgetLine_forgetLine (stack : Stack) : stack.forgetLine.forgetLine = stack.forgetLine := by
  simp only [forgetLine, List.map_map]
  rfl

/-- Whether two frames have the same hash, depth, rule and end. -/
def sameShape (left right : Frame) : Bool :=
  left.digest == right.digest && left.depth == right.depth && left.rule == right.rule &&
    left.ending == right.ending

theorem sameShape_iff {left right : Frame} :
    sameShape left right = true ↔ left.digest = right.digest ∧ left.depth = right.depth ∧
      left.rule = right.rule ∧ left.ending = right.ending := by
  simp only [sameShape, Bool.and_eq_true, beq_iff_eq, and_assoc]

/-- Whether frames have the same shape, one by one. -/
def sameShapes : List Frame → List Frame → Bool
  | [], [] => true
  | left :: lefts, right :: rights => sameShape left right && sameShapes lefts rights
  | _, _ => false

/-- Whether two states have the same rules and ends. Scopes are not compared. -/
def structurallyEqual (left right : Stack) : Bool := sameShapes left.frames right.frames

/-- Whether two states compare equal: they have the same rules and ends, and the same scopes at the top. -/
def equivalent (left right : Stack) : Bool :=
  left.structurallyEqual right && left.contentScopes == right.contentScopes

/-- The state in the form that debug output has. -/
def describe (stack : Stack) : String :=
  let ending := match stack.top.ending with
    | some ending => "Some(" ++ Text.quote ending ++ ")"
    | none => "None"
  "StackElement \x7b depth: " ++ toString stack.depth ++ ", rules: [" ++
    ", ".intercalate (stack.frames.map fun frame => toString frame.rule) ++ "], end_rule: " ++
    ending ++ ", content_scopes: " ++ stack.contentScopes.describe ++ " \x7d"

end Stack
end ScopeLexer
