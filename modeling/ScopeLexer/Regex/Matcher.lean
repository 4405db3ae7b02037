import ScopeLexer.Regex.Subject
import ScopeLexer.Regex.Spans

/-!
Matching by backtracking. `Expr.run` takes what is to happen after the expression as a continuation;
when the continuation fails, the expression tries its next way to match. The first way found wins, so
alternatives are preferred in the order written and repetitions as their greed says.

A group either gets back its earlier span when the match goes back, or what was written last stays: a
cursor holds the two kinds apart, and a failure hands over what stays.

The recursion is on the expression. A repetition of unlimited length runs at most once more than there
are characters left, since a round that takes nothing ends it; a round that takes nothing and changes a
watched group can happen once for each such group before a character is taken. Calls are nested up to a
fixed depth.
-/
namespace ScopeLexer.Regex

/-- Where a group was entered and left last. -/
structure Slot where
  start : Option Nat := none
  stop : Option Nat := none
  deriving Repr, DecidableEq, Inhabited

/-- The slots of the groups, by number. -/
abbrev Slots := Array Slot

/-- What a match passes. -/
inductive Event where
  | entered (index pos : Nat)
  | left (index pos : Nat)
  | called
  | returned
  deriving Repr, DecidableEq, Inhabited

/-- How far a match has come. -/
structure Cursor where
  pos : Nat
  /-- Where the match is said to start, if that was moved. -/
  kept : Option Nat := none
  /-- The groups that get back their earlier spans. -/
  held : Slots
  /-- The groups that keep what was written last. -/
  loose : Slots
  /-- What the match has passed, the last first. -/
  trail : List Event := []

/-- What comes of trying to match. -/
inductive Outcome where
  /-- The whole match ends at the cursor. -/
  | found (cursor : Cursor)
  /-- There is no match this way. -/
  | failed (loose : Slots)
  /-- There is no match from the present start. -/
  | abandoned

/-- What follows an expression. -/
abbrev Rest := Cursor → Outcome

/-- A step of a match: tries its ways in order until what follows succeeds. -/
abbrev Step := Subject → Cursor → Rest → Outcome

namespace Cursor

def fail (cursor : Cursor) : Outcome := .failed cursor.loose

def moveTo (cursor : Cursor) (pos : Nat) : Cursor := { cursor with pos }

/-- The cursor after a failure, which hands over the groups that keep what was written last. -/
def resume (cursor : Cursor) (loose : Slots) : Cursor := { cursor with loose }

/-- The slot of a group that gets back its earlier spans. -/
def slot (cursor : Cursor) (index : Nat) : Slot := cursor.held[index]?.getD {}

/-- The cursor with an event on its trail. -/
def note (subject : Subject) (cursor : Cursor) (event : Event) : Cursor :=
  if subject.keepsTrail then { cursor with trail := event :: cursor.trail } else cursor

def enter (cursor : Cursor) (subject : Subject) (index : Nat) (traits : GroupTraits) : Cursor :=
  let start := some cursor.pos
  let cursor :=
    if traits.restored then
      { cursor with held := cursor.held.setIfInBounds index { start } }
    else { cursor with loose := cursor.loose.modify index ({ · with start }) }
  note subject cursor (.entered index cursor.pos)

/-- The cursor behind a group that was entered at `start`. -/
def leave (cursor : Cursor) (subject : Subject) (index : Nat) (traits : GroupTraits) (start : Nat) :
    Cursor :=
  let stop := some cursor.pos
  let cursor :=
    if traits.recursive then
      { cursor with held := cursor.held.setIfInBounds index { start := some start, stop } }
    else if traits.restored then
      { cursor with held := cursor.held.modify index ({ · with stop }) }
    else { cursor with loose := cursor.loose.modify index ({ · with stop }) }
  note subject cursor (.left index cursor.pos)

/-- The spans of a match that ends at the cursor and was tried from `start` on. -/
def spans (cursor : Cursor) (start : Nat) : Spans :=
  let whole : Span := ⟨min (cursor.kept.getD start) cursor.pos, cursor.pos⟩
  let span (held loose : Slot) : Option Span :=
    let slot := if held.stop.isSome then held else loose
    match slot.start, slot.stop with
    | some start, some stop => some ⟨start, stop⟩
    | _, _ => none
  (Array.zipWith span cursor.held cursor.loose).setIfInBounds 0 (some whole)

end Cursor

/-- What a round of a repetition has come to. -/
inductive Headway where
  /-- It has taken something or changed a watched group. -/
  | made
  /-- It has taken nothing. -/
  | none
  /-- It has taken nothing and moved a watched group that is empty. -/
  | lost
  deriving Repr, DecidableEq, Inhabited

/-- What a round of a repetition has come to, given the cursor before and after it. -/
def Rounds.headway (rounds : Rounds) (before after : Cursor) : Headway :=
  if !rounds.mayStall || after.pos ≠ before.pos then .made
  else
    let changed := rounds.watched.filter fun index => after.slot index ≠ before.slot index
    let wasEmpty (index : Nat) : Bool :=
      let slot := before.slot index
      slot.stop.isSome && slot.start = slot.stop
    if changed.all wasEmpty then (if changed.isEmpty then .none else .lost) else .made

def exactly (step : Step) : Nat → Step
  | 0, _, cursor, rest => rest cursor
  | count + 1, subject, cursor, rest =>
    step subject cursor fun next => exactly step count subject next rest

/-- Up to so many rounds of a step. -/
def upTo (step : Step) (reluctant : Bool) : Nat → Step
  | 0, _, cursor, rest => rest cursor
  | count + 1, subject, cursor, rest =>
    if reluctant then
      match rest cursor with
      | .failed loose =>
        step subject (cursor.resume loose) fun next =>
          upTo step reluctant count subject next rest
      | done => done
    else
      match step subject cursor fun next => upTo step reluctant count subject next rest with
      | .failed loose => rest (cursor.resume loose)
      | done => done

/-- So many rounds of a step as the bounds allow, `done` of which have been run. A round without headway
is the last, also before the least number is reached. The last number bounds the rounds that make
some. -/
def counted (step : Step) (rounds : Rounds) : Nat → Nat → Step
  | _, 0, _, cursor, rest => rest cursor
  | done, count + 1, subject, cursor, rest =>
    let again (cursor : Cursor) : Outcome :=
      step subject cursor fun next =>
        match rounds.headway cursor next with
        | .made => counted step rounds (done + 1) count subject next rest
        | .none => rest next
        | .lost => next.fail
    if rounds.most.any (· ≤ done) then rest cursor
    else if done < rounds.least then again cursor
    else if rounds.reluctant then
      match rest cursor with
      | .failed loose => again (cursor.resume loose)
      | found => found
    else
      match again cursor with
      | .failed loose => rest (cursor.resume loose)
      | found => found

/-- What follows, tried with `least + extra` characters taken, then one fewer, down to `least`. -/
def fewer (cursor : Cursor) (rest : Rest) (least : Nat) : Nat → Outcome
  | 0 => rest (cursor.moveTo (cursor.pos + least))
  | extra + 1 =>
    match rest (cursor.moveTo (cursor.pos + (least + (extra + 1)))) with
    | .failed loose => fewer (cursor.resume loose) rest least extra
    | done => done

/-- What follows, tried with `count` characters taken, then one more, `extra` times. -/
def further (cursor : Cursor) (rest : Rest) (count : Nat) : Nat → Outcome
  | 0 => rest (cursor.moveTo (cursor.pos + count))
  | extra + 1 =>
    match rest (cursor.moveTo (cursor.pos + count)) with
    | .failed loose => further (cursor.resume loose) rest (count + 1) extra
    | done => done

/-- The rounds of a repetition of a step. -/
def repeatStep (step : Step) (rounds : Rounds) : Step := fun subject cursor rest =>
  let bound (pos : Nat) := (subject.size - pos + 1) * (rounds.watched.length + 1) + 1
  if rounds.unrolled || !rounds.mayStall then
    exactly step rounds.least subject cursor fun next =>
      match rounds.most with
      | some most => upTo step rounds.reluctant (most - rounds.least) subject next rest
      | none => counted step { rounds with least := 0 } 0 (bound next.pos) subject next rest
  else counted step rounds 0 (bound cursor.pos) subject cursor rest

/-- The rounds of a repetition of a single character: how many there are is known at once. -/
def repeatChar (takes : Char → Bool) (rounds : Rounds) : Step := fun subject cursor rest =>
  let limit := rounds.most.getD (subject.size - cursor.pos)
  let length := subject.runLength takes cursor.pos limit
  if length < rounds.least then cursor.fail
  else if rounds.reluctant then further cursor rest rounds.least (length - rounds.least)
  else fewer cursor rest rounds.least (length - rounds.least)

/-- Takes one character that satisfies `takes`. -/
def takeChar (takes : Char → Bool) : Step := fun subject cursor rest =>
  match subject.charAt? cursor.pos with
  | some c => if takes c then rest (cursor.moveTo (cursor.pos + 1)) else cursor.fail
  | none => cursor.fail

/-- Tries a step from the position `start`, then from one before it, `more` times, until it succeeds up
to the cursor. -/
def lookBack (step : Step) (subject : Subject) : Nat → Nat → Cursor → Outcome
  | start, more, cursor =>
    let found := step { subject with limit := cursor.pos } (cursor.moveTo start) fun next =>
      if next.pos = cursor.pos then .found next else next.fail
    match found, more with
    | .failed loose, more + 1 =>
      if start = 0 then .failed loose
      else lookBack step subject (start - 1) more (cursor.resume loose)
    | outcome, _ => outcome
termination_by _ more => more

/-- What a look-behind comes to. One of fixed width starts where it has to and may end anywhere. -/
def lookBehind (step : Step) (reach : Reach) (subject : Subject) (cursor : Cursor) : Outcome :=
  if cursor.pos < reach.least then cursor.fail
  else
    let start := cursor.pos - reach.least
    if reach.most = some reach.least then step subject (cursor.moveTo start) .found
    else lookBack step subject start ((reach.most.map (· - reach.least)).getD cursor.pos) cursor

/-- Goes on after what a negated look-around has come to. -/
def unlessFound (outcome : Outcome) (cursor : Cursor) (rest : Rest) : Outcome :=
  match outcome with
  | .found next => next.fail
  | .failed loose => rest (cursor.resume loose)
  | .abandoned => .abandoned

/-- Goes on behind the first of the groups whose text stands at the cursor. -/
def takeSame (ignoreCase : Bool) (subject : Subject) (cursor : Cursor) (rest : Rest) :
    List Nat → Outcome
  | [] => cursor.fail
  | index :: others =>
    match cursor.slot index with
    | ⟨some start, some stop⟩ =>
      match subject.compare ignoreCase start stop cursor.pos with
      | .same next => rest (cursor.moveTo next)
      | .differs => takeSame ignoreCase subject cursor rest others
      | .tooLong => cursor.fail
    | _ => takeSame ignoreCase subject cursor rest others

/-- The span of the last of some groups that was filled so many calls further out, given the trail, the
number of calls that the trail has led out so far, and where such a group was left. -/
def filledAt (groups : List Nat) (level : Int) : Int → Option Nat → List Event → Option Span
  | _, _, [] => none
  | out, stop, .called :: trail => filledAt groups level (out - 1) stop trail
  | out, stop, .returned :: trail => filledAt groups level (out + 1) stop trail
  | out, stop, .entered index pos :: trail =>
    match stop with
    | some last =>
      if out = level && groups.contains index then some ⟨pos, last⟩
      else filledAt groups level out stop trail
    | none => filledAt groups level out stop trail
  | out, stop, .left index pos :: trail =>
    filledAt groups level out (if out = level && groups.contains index then some pos else stop) trail

/-- Whether one of some groups was left so many calls further out. -/
def leftAt (groups : List Nat) (level : Int) : Int → List Event → Bool
  | _, [] => false
  | out, .called :: trail => leftAt groups level (out - 1) trail
  | out, .returned :: trail => leftAt groups level (out + 1) trail
  | out, .entered _ _ :: trail => leftAt groups level out trail
  | out, .left index _ :: trail =>
    (out = level && groups.contains index) || leftAt groups level out trail

/-- Takes the text that a back-reference names. -/
def takeReference (reference : Reference) (ignoreCase : Bool) : Step := fun subject cursor rest =>
  match reference.level with
  | none => takeSame ignoreCase subject cursor rest reference.groups
  | some level =>
    match filledAt reference.groups level 0 none cursor.trail with
    | some span =>
      match subject.compare ignoreCase span.start span.stop cursor.pos with
      | .same next => rest (cursor.moveTo next)
      | _ => cursor.fail
    | none => cursor.fail

/-- Whether one of the groups of a reference is filled. -/
def Reference.isFilled (reference : Reference) (cursor : Cursor) : Bool :=
  match reference.level with
  | none => reference.groups.any fun index => (cursor.slot index).stop.isSome
  | some level => leftAt reference.groups level 0 cursor.trail

/-- Runs a step as the body of a group. -/
def groupStep (step : Step) (index : Nat) (traits : GroupTraits) : Step :=
  fun subject cursor rest =>
    step subject (cursor.enter subject index traits) fun next =>
      rest (next.leave subject index traits cursor.pos)

namespace Expr

mutual

/-- Tries the ways in which an expression matches at the cursor. `call` runs a group that is called; a
group that can be called is also run that way where it stands. -/
def run (call : Nat → Step) : Expr → Subject → Cursor → Rest → Outcome
  | .text chars _, subject, cursor, rest =>
    match subject.after? cursor.pos chars with
    | some pos => rest (cursor.moveTo pos)
    | none => cursor.fail
  | .any lineEnds, subject, cursor, rest =>
    takeChar (fun d => lineEnds || d ≠ '\n') subject cursor rest
  | .word negated asciiOnly, subject, cursor, rest =>
    takeChar (fun d => isWordChar asciiOnly d != negated) subject cursor rest
  | .oneOf set negated, subject, cursor, rest =>
    takeChar (fun d => set.contains d != negated) subject cursor rest
  | .list items, subject, cursor, rest => runAll call items subject cursor rest
  | .choice branches, subject, cursor, rest => runAny call branches subject cursor rest
  | .many body rounds, subject, cursor, rest =>
    match body.taken? with
    | some takes => repeatChar takes rounds subject cursor rest
    | none => repeatStep (body.run call) rounds subject cursor rest
  | .group index traits body, subject, cursor, rest =>
    if traits.called then call index subject cursor rest
    else groupStep (body.run call) index traits subject cursor rest
  | .scoped body, subject, cursor, rest => body.run call subject cursor rest
  | .atomic body, subject, cursor, rest =>
    match body.run call subject cursor .found with
    | .found next => rest next
    | outcome => outcome
  | .conditional test yes no, subject, cursor, rest =>
    match test.run call subject cursor .found with
    | .found next => yes.run call subject next rest
    | .failed loose => no.run call subject (cursor.resume loose) rest
    | .abandoned => .abandoned
  | .lookAhead negated body, subject, cursor, rest =>
    let outcome := body.run call subject cursor .found
    if negated then unlessFound outcome cursor rest
    else
      match outcome with
      | .found next => rest (next.moveTo cursor.pos)
      | outcome => outcome
  | .lookBehind negated reach body, subject, cursor, rest =>
    let outcome := Regex.lookBehind (body.run call) reach subject cursor
    if negated then unlessFound outcome cursor rest
    else
      match outcome with
      | .found next => rest next
      | outcome => outcome
  | .backref reference ignoreCase, subject, cursor, rest =>
    takeReference reference ignoreCase subject cursor rest
  | .filled reference, _, cursor, rest =>
    if reference.isFilled cursor then rest cursor else cursor.fail
  | .call callee, subject, cursor, rest => call callee.index subject cursor rest
  | .anchor condition, subject, cursor, rest =>
    if subject.satisfies cursor.pos condition then rest cursor else cursor.fail
  | .verb .keep, _, cursor, rest => rest { cursor with kept := some cursor.pos }
  | .verb .pass, _, cursor, rest => rest cursor
  | .verb .fail, _, cursor, _ => cursor.fail
  | .verb .impossible, _, cursor, _ => cursor.fail
  | .verb .abandon, _, _, _ => .abandoned

/-- Tries the ways in which expressions match one after the other. -/
def runAll (call : Nat → Step) : List Expr → Subject → Cursor → Rest → Outcome
  | [], _, cursor, rest => rest cursor
  | [expr], subject, cursor, rest => expr.run call subject cursor rest
  | expr :: others, subject, cursor, rest =>
    expr.run call subject cursor fun next => runAll call others subject next rest

/-- Tries the ways in which one of some expressions matches, those of the first one first. -/
def runAny (call : Nat → Step) : List Expr → Subject → Cursor → Rest → Outcome
  | [], _, cursor, _ => cursor.fail
  | [expr], subject, cursor, rest => expr.run call subject cursor rest
  | expr :: others, subject, cursor, rest =>
    match expr.run call subject cursor rest with
    | .failed loose => runAny call others subject (cursor.resume loose) rest
    | outcome => outcome

end

end Expr
end ScopeLexer.Regex
