import ScopeLexer.Regex.Preparation
import ScopeLexer.Regex.Matcher

/-!
Searching a line with a pattern. A search sees the whole line, so that conditions on what stands
before its start can be checked, and gives spans in bytes.
-/
namespace ScopeLexer.Regex

def deepestCall : Nat := 20

/-- Runs a group that is called, calls being nested as deeply as the number says. -/
def callStep (callees : List (Nat × GroupTraits × Expr)) : Nat → Nat → Step
  | 0, _, _, cursor, _ => cursor.fail
  | depth + 1, index, subject, cursor, rest =>
    match callees.lookup index with
    | some (traits, body) =>
      let step := body.run (callStep callees depth)
      let step := if index = 0 then step else groupStep step index traits
      step subject (cursor.note subject .called) fun next => rest (next.note subject .returned)
    | none => cursor.fail

namespace Program

/-- Tries to match a program at the cursor. -/
def step (program : Program) : Step :=
  let call := callStep program.callees deepestCall
  if (program.callees.lookup 0).isSome then call 0 else program.expr.run call

/-- The first match that starts at `start` or at most `more` characters after it. -/
def findFrom (program : Program) (subject : Subject) : Nat → Nat → Option Spans
  | start, more =>
    let slots : Slots := Array.replicate (program.groups + 1) {}
    match program.step subject { pos := start, held := slots, loose := slots } .found, more with
    | .found cursor, _ => some (cursor.spans start)
    | _, 0 => none
    | _, more + 1 => findFrom program subject (start + 1) more
termination_by _ more => more

end Program

/-- The span in bytes of a span in characters. -/
def Span.inBytes (line : SourceLine) (span : Span) : Span :=
  ⟨line.charToByte span.start, line.charToByte span.stop⟩

/-- The first match that starts at byte `start` or after it. Nothing is found past the end, nor where a
character is missing that every match takes. -/
def Program.search (program : Program) (line : SourceLine) (start : Nat) : Option Spans :=
  let first := line.charFrom start
  if line.byteSize < start then none
  else if !program.needed.all fun c => line.chars.any (· = c) first line.charCount then none
  else
    let subject : Subject := ⟨line, first, line.charCount, program.asksLevels⟩
    (program.findFrom subject first (line.charCount - first)).map fun spans =>
      spans.map (·.map (·.inBytes line))

end ScopeLexer.Regex
