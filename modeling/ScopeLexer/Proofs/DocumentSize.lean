import ScopeLexer.Proofs.SourceOrder

/-! A grammar has no more rules than the text that it is read from has characters. Every
array and every object takes a character to open it, and every rule is read from an array
or an object of its own. -/
namespace ScopeLexer

namespace Json

mutual

/-- How many arrays and objects there are in a value, itself included. -/
def opened : Json → Nat
  | .array items _ => openedItems items + 1
  | .object members _ => openedMembers members + 1
  | _ => 0

/-- How many there are in some items. -/
def openedItems : List Json → Nat
  | [] => 0
  | item :: items => item.opened + openedItems items

/-- How many there are in some members. -/
def openedMembers : List (Name × Json) → Nat
  | [] => 0
  | (_, value) :: members => value.opened + openedMembers members

end

/-- How many characters are left to read. -/
def charsLeft (rest : Option (List Char)) : Nat := (rest.map List.length).getD 0

@[simp]
theorem charsLeft_none : charsLeft none = 0 := rfl

@[simp]
theorem charsLeft_some (rest : List Char) : charsLeft (some rest) = rest.length := rfl

/-- What has been read takes a character for each array and object, besides those left. -/
def Paid (chars : List Char) (result : Json × Option (List Char)) : Prop :=
  result.1.opened + charsLeft result.2 ≤ chars.length

theorem length_skipSpaces (chars : List Char) : (skipSpaces chars).length ≤ chars.length :=
  (List.dropWhile_sublist _).length_le

theorem length_lt_of_skipSpaces {chars : List Char} (start : skipSpaces chars = c :: rest) :
    rest.length < chars.length := by
  have fewer := length_skipSpaces chars
  rw [start] at fewer
  exact fewer

theorem paid_readWord {value : Json} (plain : value.opened = 0) (word chars : List Char) :
    Paid chars (readWord value word chars) := by
  fun_induction readWord value word chars with
  | case1 chars => simp [Paid, plain, charsLeft]
  | case2 => simp [Paid, stopped, opened, charsLeft]
  | case3 word d rest ih =>
    unfold Paid at ih ⊢
    rw [List.length_cons]
    omega
  | case4 => simp [Paid, stopped, opened, charsLeft]

/-- What a string leaves is shorter than what it was read from. -/
def Shorter (chars : List Char) : StringResult → Prop
  | .text _ rest => rest.length ≤ chars.length
  | .lone _ rest => rest.length ≤ chars.length
  | .fault _ => True

/-- Reading the inside of a string leaves fewer characters than it began with. -/
theorem shorter_readStringFrom (read : List Char) (isLone : Bool) (chars : List Char) :
    Shorter chars (readStringFrom read isLone chars) := by
  have faulty (chars : List Char) (isLone : Bool) (fault : Fault) :
      Shorter chars (.ofFault isLone fault) := by
    cases isLone <;> simp [StringResult.ofFault, Shorter]
  have longer {chars more : List Char} {result : StringResult} (shorter : Shorter chars result)
      (le : chars.length ≤ more.length) : Shorter more result := by
    cases result with
    | text value rest => exact Nat.le_trans shorter le
    | lone later rest => exact Nat.le_trans shorter le
    | fault fault => trivial
  fun_induction readStringFrom read isLone chars with
  | case1 => exact faulty _ _ _
  | case2 => exact Nat.le_succ _
  | case3 => exact Nat.le_succ _
  | case4 => exact faulty _ _ _
  | case5 _ _ rest c width _ ih => exact longer ih (by simp; omega)
  | case6 _ _ rest width _ ih => exact longer ih (by simp; omega)
  | case7 => exact faulty _ _ _
  | case8 _ _ c rest _ _ _ ih => exact longer ih (by simp)

/-- A string opens nothing, and leaves fewer characters. -/
theorem paid_readString (chars : List Char) : Paid chars (readString chars) := by
  have shorter := shorter_readStringFrom [] false chars
  unfold readString
  cases result : readStringFrom [] false chars with
  | text value rest =>
    rw [result] at shorter
    simpa [Paid, opened, charsLeft, Shorter] using shorter
  | lone later rest =>
    rw [result] at shorter
    cases later with
    | none => simpa [Paid, opened, charsLeft, Shorter] using shorter
    | some fault => simp [Paid, stopped, opened, charsLeft]
  | fault fault => simp [Paid, stopped, opened, charsLeft]

theorem length_readDigits (chars : List Char) : (readDigits chars).2.length ≤ chars.length := by
  simp [readDigits]

/-- A part of a number leaves no more than it was read from, or it is a plain value that
stands for the fault. -/
def PartRead (chars : List Char) : Except Json (α × List Char) → Prop
  | .ok (_, rest) => rest.length ≤ chars.length
  | .error value => value.opened = 0

theorem opened_withoutDigit (rest : List Char) : (withoutDigit rest).opened = 0 := by
  unfold withoutDigit
  split <;> rfl

/-- An exponent takes no more than what is there. -/
theorem partRead_readExponent (chars : List Char) : PartRead chars (readExponent chars) := by
  have digits {chars : List Char} (negative : Bool) (body : List Char)
      (fewer : body.length ≤ chars.length) : PartRead chars (
        if (readDigits body).1.isEmpty then .error (withoutDigit (readDigits body).2)
        else .ok (if negative then -(digitsValue (readDigits body).1 : Int)
          else digitsValue (readDigits body).1, (readDigits body).2)) := by
    split
    · exact opened_withoutDigit _
    · exact Nat.le_trans (length_readDigits body) fewer
  unfold readExponent
  simp only
  split
  next body => exact digits true body (Nat.le_succ _)
  next body => exact digits false body (Nat.le_succ _)
  next => exact digits false chars (Nat.le_refl _)

theorem PartRead.bind {first : Except Json (α × List Char)}
    {next : α × List Char → Except Json (β × List Char)} (head : PartRead chars first)
    (tail : ∀ value rest, rest.length ≤ chars.length → PartRead chars (next (value, rest))) :
    PartRead chars (first >>= next) := by
  cases first with
  | error value => exact head
  | ok read => exact tail read.1 read.2 head

theorem PartRead.longer {part : Except Json (α × List Char)} (read : PartRead chars part)
    (le : chars.length ≤ more.length) : PartRead more part := by
  cases part with
  | error value => exact read
  | ok result => exact Nat.le_trans read le

/-- A number takes no more than what is there. -/
theorem partRead_readNumber (negative : Bool) (chars : List Char) :
    PartRead chars (readNumber negative chars) := by
  have written (body : List Char) (shorter : body.length < chars.length) :
      PartRead chars (readExponent body) :=
    (partRead_readExponent body).longer (Nat.le_of_lt shorter)
  have whole := length_readDigits chars
  unfold readNumber
  simp only
  split
  · exact opened_withoutDigit _
  · split
    · exact rfl
    · split
      case' h_1 body point =>
        rw [point, List.length_cons] at whole
        have fraction := length_readDigits body
        split
        · exact opened_withoutDigit _
        refine PartRead.bind (Nat.le_trans fraction (by omega)) fun fraction rest fewer => ?_
      case' h_2 => refine PartRead.bind whole fun fraction rest fewer => ?_
      all_goals
        dsimp only
        split
        · exact (written _ fewer).bind fun _ _ fewer => fewer
        · exact (written _ fewer).bind fun _ _ fewer => fewer
        · exact fewer

/-- A number opens nothing, and leaves no more characters. -/
theorem paid_readNumberValue (negative : Bool) (chars : List Char) :
    Paid chars (readNumberValue negative chars) := by
  have part := partRead_readNumber negative chars
  unfold readNumberValue
  cases result : readNumber negative chars with
  | ok read =>
    rw [result] at part
    simpa [Paid, opened, charsLeft, PartRead] using part
  | error value =>
    rw [result] at part
    have plain : value.opened = 0 := part
    simp [Paid, stopped, plain, charsLeft]

theorem Paid.longer {result : Json × Option (List Char)} (paid : Paid chars result)
    (le : chars.length ≤ more.length) : Paid more result := Nat.le_trans paid le

theorem paid_stopped {value : Json} (plain : value.opened = 0) (chars : List Char) :
    Paid chars (stopped value) := by
  simp [Paid, stopped, plain, charsLeft]

/-- The items of an array take a character for each array and object in them. -/
def ItemsPaid (chars : List Char) (result : List Json × Option Fault × Option (List Char)) : Prop :=
  openedItems result.1 + charsLeft result.2.2 ≤ chars.length

/-- The members of an object take a character for each array and object in them. -/
def MembersPaid (chars : List Char)
    (result : List (Name × Json) × Option Fault × Option (List Char)) : Prop :=
  openedMembers result.1 + charsLeft result.2.2 ≤ chars.length

def itemsFrom (steps : Nat) (chars : List Char) : List Json × Option Fault × Option (List Char) :=
  match readValue steps chars with
  | (value, none) => ([value], none, none)
  | (value, some rest) =>
    let (items, fault, after) := readItems steps false rest
    (value :: items, fault, after)

/-- The value of a member and the members after it. -/
def membersAfter (steps : Nat) (name : Name) (rest : List Char) :
    List (Name × Json) × Option Fault × Option (List Char) :=
  match skipSpaces rest with
  | [] => ([(name, .broken .ended)], none, none)
  | ':' :: rest =>
    match readValue steps rest with
    | (value, none) => ([(name, value)], none, none)
    | (value, some rest) =>
      let (members, fault, after) := readMembers steps false rest
      ((name, value) :: members, fault, after)
  | _ => ([(name, .broken .malformed)], none, none)

def membersFrom (steps : Nat) (chars : List Char) :
    List (Name × Json) × Option Fault × Option (List Char) :=
  match skipSpaces chars with
  | '"' :: rest =>
    match readStringFrom [] false rest with
    | .fault fault => ([], some fault, none)
    | .lone none rest => membersAfter steps .loneSurrogate rest
    | .lone (some fault) _ => ([(.loneSurrogate, .broken fault)], none, none)
    | .text name rest => membersAfter steps (.text name) rest
  | rest => ([(.missing, (readValue steps rest).1)], none, none)

theorem readItems_succ (steps : Nat) (isFirst : Bool) (chars : List Char) :
    readItems (steps + 1) isFirst chars =
      match skipSpaces chars with
      | [] => ([], some .ended, none)
      | ']' :: rest => ([], none, some rest)
      | c :: rest =>
        if isFirst then itemsFrom steps (c :: rest)
        else if c = ',' then itemsFrom steps rest
        else ([], some .malformed, none) := by
  rw [readItems]
  rfl

theorem readMembers_succ (steps : Nat) (isFirst : Bool) (chars : List Char) :
    readMembers (steps + 1) isFirst chars =
      match skipSpaces chars with
      | [] => ([], some .ended, none)
      | '\x7d' :: rest => ([], none, some rest)
      | c :: rest =>
        if isFirst then membersFrom steps (c :: rest)
        else if c = ',' then membersFrom steps rest
        else ([], some .malformed, none) := by
  rw [readMembers]
  rfl

section Steps

variable {steps : Nat} (values : ∀ chars, Paid chars (readValue steps chars))
  (items : ∀ isFirst chars, ItemsPaid chars (readItems steps isFirst chars))
  (members : ∀ isFirst chars, MembersPaid chars (readMembers steps isFirst chars))

include items members in
/-- A value is paid for with one step more, if what stands inside is. -/
theorem paid_readValue_succ (chars : List Char) : Paid chars (readValue (steps + 1) chars) := by
  have shorter {c : Char} {rest : List Char} (start : skipSpaces chars = c :: rest) :
      rest.length ≤ chars.length := Nat.le_of_lt (length_lt_of_skipSpaces start)
  rw [readValue]
  split
  next => exact paid_stopped rfl _
  next start => exact (paid_readWord rfl _ _).longer (shorter start)
  next start => exact (paid_readWord rfl _ _).longer (shorter start)
  next start => exact (paid_readWord rfl _ _).longer (shorter start)
  next start => exact (paid_readString _).longer (shorter start)
  next rest start =>
    have fewer := length_lt_of_skipSpaces start
    have paid := items true rest
    rcases run : readItems steps true rest with ⟨read, fault, left⟩
    simp only [run, ItemsPaid, Paid, opened] at paid ⊢
    omega
  next rest start =>
    have fewer := length_lt_of_skipSpaces start
    have paid := members true rest
    rcases run : readMembers steps true rest with ⟨read, fault, left⟩
    simp only [run, MembersPaid, Paid, opened] at paid ⊢
    omega
  next start => exact (paid_readNumberValue true _).longer (shorter start)
  next start =>
    split
    · exact (paid_readNumberValue false _).longer (length_lt_of_skipSpaces start)
    · exact paid_stopped rfl _

include values items in
theorem paid_itemsFrom (chars : List Char) : ItemsPaid chars (itemsFrom steps chars) := by
  have first := values chars
  unfold itemsFrom
  rcases read : readValue steps chars with ⟨value, _ | after⟩
  · simp only [read, Paid, ItemsPaid, openedItems, charsLeft_none] at first ⊢
    omega
  · have others := items false after
    rcases run : readItems steps false after with ⟨values, fault, left⟩
    simp only [read, run, Paid, ItemsPaid, openedItems, charsLeft_some] at first others ⊢
    omega

include values items in
/-- Items are paid for with one step more, if each value and the items after it are. -/
theorem paid_readItems_succ (isFirst : Bool) (chars : List Char) :
    ItemsPaid chars (readItems (steps + 1) isFirst chars) := by
  have paid := paid_itemsFrom values items
  rw [readItems_succ]
  split
  next => exact Nat.zero_le _
  next rest start =>
    have fewer := length_lt_of_skipSpaces start
    simp only [ItemsPaid, openedItems, charsLeft_some]
    omega
  next c rest _ start =>
    have fewer := length_lt_of_skipSpaces start
    split
    · exact Nat.le_trans (paid (c :: rest)) fewer
    · split
      · exact Nat.le_trans (paid rest) (Nat.le_of_lt fewer)
      · exact Nat.zero_le _

include values members in
/-- A member and those after it are paid for once its name is read. -/
theorem paid_membersAfter (name : Name) (chars : List Char) :
    MembersPaid chars (membersAfter steps name chars) := by
  unfold membersAfter
  split
  next => exact Nat.zero_le _
  next rest start =>
    have fewer := length_lt_of_skipSpaces start
    have first := values rest
    rcases read : readValue steps rest with ⟨value, _ | after⟩
    · simp only [read, Paid, MembersPaid, openedMembers, charsLeft_none] at first ⊢
      omega
    · have others := members false after
      rcases run : readMembers steps false after with ⟨values, fault, left⟩
      simp only [read, run, Paid, MembersPaid, openedMembers, charsLeft_some] at first others ⊢
      omega
  next => exact Nat.zero_le _

include values members in
/-- Members are paid for from the first quote on. -/
theorem paid_membersFrom (chars : List Char) : MembersPaid chars (membersFrom steps chars) := by
  have paid := paid_membersAfter values members
  unfold membersFrom
  split
  next rest start =>
    have fewer := length_lt_of_skipSpaces start
    have shorter := shorter_readStringFrom [] false rest
    split
    next => exact Nat.zero_le _
    next named =>
      rw [named] at shorter
      exact Nat.le_trans (paid _ _) (Nat.le_trans shorter (Nat.le_of_lt fewer))
    next => exact Nat.zero_le _
    next named =>
      rw [named] at shorter
      exact Nat.le_trans (paid _ _) (Nat.le_trans shorter (Nat.le_of_lt fewer))
  next =>
    have first := values (skipSpaces chars)
    have fewer := length_skipSpaces chars
    simp only [Paid, MembersPaid, openedMembers, charsLeft_none] at first ⊢
    omega

include values members in
/-- Members are paid for with one step more, if those after the first are. -/
theorem paid_readMembers_succ (isFirst : Bool) (chars : List Char) :
    MembersPaid chars (readMembers (steps + 1) isFirst chars) := by
  have paid := paid_membersFrom values members
  rw [readMembers_succ]
  split
  next => exact Nat.zero_le _
  next rest start =>
    have fewer := length_lt_of_skipSpaces start
    simp only [MembersPaid, openedMembers, charsLeft_some]
    omega
  next c rest _ start =>
    have fewer := length_lt_of_skipSpaces start
    split
    · exact Nat.le_trans (paid (c :: rest)) fewer
    · split
      · exact Nat.le_trans (paid rest) (Nat.le_of_lt fewer)
      · exact Nat.zero_le _

end Steps

/-- Every array and every object that is read takes a character to open it. -/
theorem paid_read (steps : Nat) :
    (∀ chars, Paid chars (readValue steps chars)) ∧
    (∀ isFirst chars, ItemsPaid chars (readItems steps isFirst chars)) ∧
    ∀ isFirst chars, MembersPaid chars (readMembers steps isFirst chars) := by
  induction steps with
  | zero =>
    refine ⟨fun chars => paid_stopped rfl chars, fun _ chars => ?_, fun _ chars => ?_⟩
    · exact Nat.zero_le chars.length
    · exact Nat.zero_le chars.length
  | succ steps ih =>
    obtain ⟨values, items, members⟩ := ih
    exact ⟨paid_readValue_succ items members, paid_readItems_succ values items,
      paid_readMembers_succ values members⟩

theorem opened_readDocument (text : String) : (readDocument text).value.opened ≤ text.length := by
  have paid := (paid_read (2 * text.toList.length + 2)).1 text.toList
  have same : (readDocument text).value =
      (readValue (2 * text.toList.length + 2) text.toList).1 := by
    unfold readDocument
    simp only
    split <;> simp [*]
  rw [same, ← String.length_toList]
  exact Nat.le_of_add_right_le paid

end Json

namespace Grammar

open Json

/-- A reader that adds a number of rules at most. -/
def Adds (read : ReadRules α) (count : Nat) : Prop :=
  ∀ rules value after, read.run rules = .ok (value, after) → after.size ≤ rules.size + count

/-- A reader that adds fewer rules than a number. -/
def AddsFewer (read : ReadRules α) (count : Nat) : Prop :=
  ∀ rules value after, read.run rules = .ok (value, after) → after.size < rules.size + count

section Reading

variable {count more : Nat}

theorem adds_pure (value : α) : Adds (pure value) count := by
  rintro rules _ _ ⟨⟩
  exact Nat.le_add_right _ _

theorem adds_throw (error : DecodeError) : Adds (throw error : ReadRules α) count := by
  rintro rules value after ⟨⟩

theorem Adds.bind {first : ReadRules β} {next : β → ReadRules α} (head : Adds first count)
    (tail : ∀ value, Adds (next value) more) : Adds (first >>= next) (count + more) := by
  intro rules result after done
  rw [StateT.run_bind] at done
  obtain ⟨⟨value, read⟩, run, rest⟩ := ok_of_bind done
  have here := head rules value read run
  have there := tail value read result after rest
  omega

theorem Adds.mono {read : ReadRules α} (adds : Adds read count) (le : count ≤ more) :
    Adds read more :=
  fun rules value after done => Nat.le_trans (adds rules value after done) (by omega)

/-- Something that adds nothing goes before. -/
theorem Adds.after {first : ReadRules β} {next : β → ReadRules α} (head : Adds first 0)
    (tail : ∀ value, Adds (next value) count) : Adds (first >>= next) count :=
  (head.bind tail).mono (by omega)

/-- Something that adds nothing goes after. -/
theorem Adds.before {first : ReadRules β} {next : β → ReadRules α} (head : Adds first count)
    (tail : ∀ value, Adds (next value) 0) : Adds (first >>= next) count :=
  head.bind tail

theorem Adds.tryCatch {first : ReadRules α} {other : DecodeError → ReadRules α}
    (head : Adds first count) (tail : ∀ error, Adds (other error) count) :
    Adds (tryCatch first other) count := by
  intro rules value after done
  rcases ok_of_tryCatch done with run | ⟨error, run⟩
  · exact head rules value after run
  · exact tail error rules value after run

theorem adds_orFault (fault : Option Fault) : Adds (orFault fault) 0 := by
  cases fault with
  | none => exact adds_pure ()
  | some fault => exact adds_throw _

theorem adds_readName (json : Json) (name : Json.Name) : Adds (readName json name) 0 := by
  cases name with
  | text name => exact adds_pure name
  | loneSurrogate | missing => exact adds_throw _

theorem adds_readText (wanted : String) (allowed : Nat) (json : Json) :
    Adds (readText wanted allowed json) count := by
  unfold readText
  split
  · exact adds_pure _
  · exact adds_throw _

theorem fewer_throw (error : DecodeError) : AddsFewer (throw error : ReadRules α) count := by
  rintro rules value after ⟨⟩

theorem Adds.fewer {read : ReadRules α} (adds : Adds read count) : AddsFewer read (count + 1) :=
  fun rules value after done => Nat.lt_succ_of_le (adds rules value after done)

theorem AddsFewer.adds {read : ReadRules α} (fewer : AddsFewer read count) : Adds read count :=
  fun rules value after done => Nat.le_of_lt (fewer rules value after done)

/-- There is room for a rule after what adds fewer. -/
theorem AddsFewer.addRule {read : ReadRules α} (fewer : AddsFewer read count) (put : α → RuleSource) :
    Adds (do addRule (put (← read))) count := by
  intro rules place after done
  rw [StateT.run_bind] at done
  obtain ⟨⟨value, read⟩, run, rest⟩ := ok_of_bind done
  have here := fewer rules value read run
  cases rest
  simp only [Array.size_push]
  omega

/-- A reader that adds a rule at most for each array and object. -/
def AddsOpened (read : Nat → Json → ReadRules α) : Prop :=
  ∀ allowed json, Adds (read allowed json) json.opened

theorem adds_optional {read : Nat → Json → ReadRules α} (adds : AddsOpened read) :
    AddsOpened (Json.optional read) := by
  intro allowed json
  unfold Json.optional
  split
  · exact adds_pure none
  · rw [map_eq_pure_bind]
    exact (adds allowed json).before fun value => adds_pure _

/-- Reading a list adds fewer rules than the list opens. -/
theorem fewer_readList {read : Nat → Json → ReadRules α} (adds : AddsOpened read) (allowed : Nat)
    (json : Json) : AddsFewer (readList read allowed json) json.opened := by
  have each (allowed : Nat) (items : List Json) :
      Adds (items.mapM (read allowed)) (openedItems items) := by
    induction items with
    | nil => exact adds_pure []
    | cons item items ih =>
      rw [List.mapM_cons]
      exact (adds allowed item).bind fun value => ih.before fun values => adds_pure _
  unfold readList
  split
  · split
    · exact fewer_throw _
    · apply Adds.fewer
      exact (each _ _).before fun values => (adds_orFault _).before fun _ => adds_pure _
  · exact fewer_throw _

/-- Reading a table adds no more rules than the table opens. -/
theorem adds_readTable {read : Nat → Json → ReadRules α} (adds : AddsOpened read) :
    AddsOpened (readTable read) := by
  have each {step : Json.Name × Json → ReadRules (String × α)}
      (first : ∀ member, Adds (step member) member.2.opened) (members : List (Json.Name × Json)) :
      Adds (members.mapM step) (openedMembers members) := by
    induction members with
    | nil => exact adds_pure []
    | cons member members ih =>
      rw [List.mapM_cons]
      exact (first member).bind fun value => ih.before fun values => adds_pure _
  intro allowed json
  unfold readTable
  split
  · split
    · exact adds_throw _
    · refine Adds.mono ?_ (Nat.le_succ _)
      refine (each (fun member => ?_) _).before fun _ => (adds_orFault _).before fun _ => adds_pure _
      exact (adds_readName _ _).after fun name => (adds _ _).before fun value => adds_pure _
  · exact adds_throw _

section Records

variable {shape : RecordShape} {set : String → Json → σ → ReadRules σ}
  (adds : ∀ field json record, Adds (set field json record) json.opened)
include adds

/-- Reading members into a record adds no more rules than the members open. -/
theorem adds_readMembersInto (seen : List String) (members : List (Json.Name × Json)) (record : σ) :
    Adds (readMembersInto shape set seen members record) (openedMembers members) := by
  induction members generalizing seen record with
  | nil => exact adds_pure _
  | cons member members ih =>
    obtain ⟨name, json⟩ := member
    rw [readMembersInto]
    refine (adds_readName json name).after fun name => ?_
    split
    · split
      · exact adds_throw _
      · exact (adds name json record).bind (ih _)
    · exact ((adds_orFault _).after fun _ => ih seen record).mono (Nat.le_add_left _ _)

/-- Reading the fields of a record from a list adds no more rules than the items open. -/
theorem adds_readItemsInto (fault : Option Fault) (position : Nat) (fields : List String)
    (items : List Json) (record : σ) :
    Adds (readItemsInto shape set fault position fields items record) (openedItems items) := by
  induction items generalizing position fields record with
  | nil =>
    cases fields with
    | nil => exact (adds_orFault fault).after fun _ => adds_pure _
    | cons field fields =>
      refine (adds_orFault fault).after fun _ => ?_
      split
      · exact (adds_throw _).before fun _ => adds_pure _
      · exact adds_pure _
  | cons item items ih =>
    cases fields with
    | nil => exact adds_throw _
    | cons field fields => exact (adds field item record).bind fun record => ih _ _ record

end Records

/-- What is read into a record is inside an array or an object of its own. -/
theorem fewer_readRecord {shape : RecordShape} {set : Nat → String → Json → σ → ReadRules σ}
    (adds : ∀ allowed field json record, Adds (set allowed field json record) json.opened)
    (start : σ) (allowed : Nat) (json : Json) :
    AddsFewer (readRecord shape set start allowed json) json.opened := by
  unfold readRecord
  split
  · exact fewer_throw _
  · exact fewer_throw _
  · apply Adds.fewer
    refine (adds_readMembersInto (adds _) _ _ _).before fun result =>
      (adds_orFault _).after fun _ => ?_
    split
    · exact adds_throw _
    · exact adds_pure _
  · exact (adds_readItemsInto (adds _) _ _ _ _ _).fewer
  · exact fewer_throw _

/-- A switch adds no rule, however it is written. -/
theorem adds_readSwitch (allowed : Nat) (json : Json) : Adds (readSwitch allowed json) count := by
  unfold readSwitch
  split
  · exact adds_pure _
  · exact adds_pure _
  · refine (adds_orFault _).after fun _ => ?_
    split
    · split
      · split
        · exact adds_pure _
        · exact adds_throw _
      · exact adds_throw _
    · exact adds_throw _

section Rules

variable {read : Nat → Json → ReadRules Place} (adds : AddsOpened read)
include adds

theorem adds_readRepositoryEntry : AddsOpened (readRepositoryEntry read) := by
  intro allowed json
  refine (adds_orFault _).after fun _ => Adds.tryCatch ?_ fun _ => ?_
  · exact (fewer_readList adds allowed json).addRule fun places => { patterns := some places }
  · exact Adds.tryCatch (adds allowed json) fun _ => adds_throw _

theorem adds_readRepository : AddsOpened (readRepository read) :=
  adds_optional (adds_readTable (adds_readRepositoryEntry adds))

/-- Any field of a rule adds no more rules than its value opens. -/
theorem adds_readRuleField (allowed : Nat) (field : String) (json : Json) (rule : RuleSource) :
    Adds (readRuleField read allowed field json rule) json.opened := by
  have text : Adds (Json.optional (readText "a string") allowed json : ReadRules _) json.opened :=
    adds_optional (fun _ _ => adds_readText _ _ _) allowed json
  have table := adds_optional (adds_readTable adds) allowed json
  have places := adds_optional (fun allowed json => (fewer_readList adds allowed json).adds) allowed json
  unfold readRuleField
  simp only
  split
  case h_1 | h_2 | h_3 | h_4 | h_6 | h_8 | h_10 => exact text.before fun _ => adds_pure _
  case h_5 | h_7 | h_9 | h_11 => exact table.before fun _ => adds_pure _
  case h_12 => exact places.before fun _ => adds_pure _
  case h_13 => exact (adds_readRepository adds allowed json).before fun _ => adds_pure _
  case h_14 => exact (adds_readSwitch allowed json).before fun _ => adds_pure _

end Rules

theorem adds_readRule (depth : Nat) : AddsOpened (readRule depth) := by
  induction depth with
  | zero => exact fun _ _ => adds_throw _
  | succ depth ih =>
    intro allowed json
    exact (fewer_readRecord (adds_readRuleField ih) {} allowed json).addRule id

/-- Any field of a grammar adds no more rules than its value opens. -/
theorem adds_readGrammarField (allowed : Nat) (field : String) (json : Json)
    (grammar : GrammarSource) : Adds (readGrammarField allowed field json grammar) json.opened := by
  have rules := adds_readRule (maxNesting + 1)
  have text : Adds (Json.optional (readText "a string") allowed json : ReadRules _) json.opened :=
    adds_optional (fun _ _ => adds_readText _ _ _) allowed json
  have texts : Adds (readList (readText "a string") allowed json : ReadRules _) json.opened :=
    (fewer_readList (fun _ _ => adds_readText _ _ _) allowed json).adds
  unfold readGrammarField
  simp only
  split
  case h_1 => exact (adds_readText _ _ _).before fun _ => adds_pure _
  case h_2 | h_3 | h_5 | h_9 => exact text.before fun _ => adds_pure _
  case h_4 | h_10 => exact texts.before fun _ => adds_pure _
  case h_6 => exact (fewer_readList rules allowed json).adds.before fun _ => adds_pure _
  case h_7 => exact (adds_readRepository rules allowed json).before fun _ => adds_pure _
  case h_8 => exact (adds_optional (adds_readTable rules) allowed json).before fun _ => adds_pure _

end Reading

end Grammar

/-- A grammar has no more rules than its text has characters. -/
theorem GrammarSource.size_ofText {text : String} {grammar : GrammarSource}
    (read : ofText text = .ok grammar) : grammar.rules.size ≤ text.length := by
  obtain ⟨value, done, rest⟩ := ok_of_bind read
  obtain ⟨⟨top, rules⟩, run, made⟩ := ok_of_bind done
  have fewer := Grammar.fewer_readRecord Grammar.adds_readGrammarField {} _ _ _ _ _ run
  have bound := Json.opened_readDocument text
  cases made
  split at rest
  · cases rest
  · cases rest
    simp only [Array.size_empty, Nat.zero_add] at fewer
    exact Nat.le_trans (Nat.le_of_lt fewer) bound

end ScopeLexer
