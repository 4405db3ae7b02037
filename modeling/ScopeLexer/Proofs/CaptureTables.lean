import Mathlib.Order.Bounds.Basic
import ScopeLexer.Proofs.EmbeddedLanguages
import ScopeLexer.Proofs.RuleLedger

/-! Tables of the rules for the groups of a match. A key denotes a group if it is the number of
the group in decimal digits, perhaps after a plus sign and between blanks. The table has room up to
the largest group that a key denotes, and a group has the rule of the last key that denotes it: rules
are put in one after the other, and what is compiled in between leaves those before it alone. The room
is one more than a number of 64 bits, so it fits 64 bits unless a key denotes the largest of these. -/
namespace ScopeLexer

open Pattern Regex

namespace Text

section Blanks

variable {before chars after : List Char}

theorem dropWhile_blanks (blank : ∀ c ∈ before, isBlank c = true)
    (starts : ∀ c ∈ chars.head?, isBlank c = false) :
    (before ++ chars).dropWhile isBlank = chars := by
  rw [List.dropWhile_append_of_pos blank]
  cases chars with
  | nil => rfl
  | cons c chars => exact List.dropWhile_cons_of_neg (by simp [starts c rfl])

/-- Blanks around a text that has none at its ends are what is trimmed off. -/
theorem trimChars_around (blankBefore : ∀ c ∈ before, isBlank c = true)
    (blankAfter : ∀ c ∈ after, isBlank c = true) (starts : ∀ c ∈ chars.head?, isBlank c = false)
    (ends : ∀ c ∈ chars.getLast?, isBlank c = false) (nonempty : chars ≠ []) :
    trimChars (before ++ chars ++ after) = chars := by
  have front : (before ++ (chars ++ after)).dropWhile isBlank = chars ++ after := by
    apply dropWhile_blanks blankBefore
    rwa [List.head?_append_of_ne_nil _ nonempty]
  have back : (after.reverse ++ chars.reverse).dropWhile isBlank = chars.reverse := by
    apply dropWhile_blanks (by simpa using blankAfter)
    rwa [List.head?_reverse]
  rw [trimChars, List.append_assoc, front, dropEndWhile, List.reverse_append, back,
    List.reverse_reverse]

/-- Only blanks are trimmed off. -/
theorem exists_blanks (chars : List Char) : ∃ before after,
    chars = before ++ trimChars chars ++ after ∧ (∀ c ∈ before, isBlank c = true) ∧
      ∀ c ∈ after, isBlank c = true := by
  refine ⟨chars.takeWhile isBlank, ((chars.dropWhile isBlank).reverse.takeWhile isBlank).reverse,
    ?_, fun c member => List.mem_takeWhile_imp member,
    fun c member => List.mem_takeWhile_imp (List.mem_reverse.mp member)⟩
  rw [List.append_assoc, trimChars, dropEndWhile, ← List.reverse_append,
    List.takeWhile_append_dropWhile, List.reverse_reverse, List.takeWhile_append_dropWhile]

end Blanks
end Text

namespace Grammar

section Keys

/-- A key denotes a group: it is the number of the group in decimal digits, perhaps after a plus
sign and between blanks, and 64 bits hold the number. -/
def Denotes (key : String) (group : Nat) : Prop :=
  group < 2 ^ 64 ∧ ∃ before sign digits after, key.toList = before ++ (sign ++ digits) ++ after ∧
    (∀ c ∈ before, Text.isBlank c = true) ∧ (∀ c ∈ after, Text.isBlank c = true) ∧
    (sign = [] ∨ sign = ['+']) ∧ digits ≠ [] ∧ (∀ c ∈ digits, c.isDigit = true) ∧
    Nat.ofDigitChars 10 digits 0 = group

theorem groupNumber?_eq_some (digits : List Char) (group : Nat) :
    groupNumber? digits = some group ↔ group < 2 ^ 64 ∧ (∀ c ∈ digits, c.isDigit = true) ∧
      Nat.ofDigitChars 10 digits 0 = group := by
  have read : digits.foldl (fun value c => value * 10 + (c.toNat - '0'.toNat)) 0 =
      Nat.ofDigitChars 10 digits 0 := by
    simp only [Nat.ofDigitChars, Nat.mul_comm]
  simp only [groupNumber?, read]
  grind

theorem not_blank_of_digit {c : Char} (digit : c.isDigit = true) : Text.isBlank c = false := by
  simp only [Char.isDigit, Bool.and_eq_true, decide_eq_true_eq, UInt32.le_iff_toNat_le] at digit
  have low : 48 ≤ c.toNat := digit.1
  have high : c.toNat ≤ 57 := digit.2
  simp [Text.isBlank, UInt32.le_iff_toNat_le, ← UInt32.toNat_inj]
  omega

/-- The keys that are taken are those that denote a group, and they are taken as that group. -/
theorem groupOfKey?_eq_some (key : String) (group : Nat) :
    groupOfKey? key = some group ↔ Denotes key group := by
  constructor
  · intro read
    obtain ⟨before, after, whole, blankBefore, blankAfter⟩ := Text.exists_blanks key.toList
    have denotes {sign digits : List Char} (signed : sign = [] ∨ sign = ['+'])
        (trimmed : Text.trimChars key.toList = sign ++ digits)
        (read : (if digits.isEmpty then none else groupNumber? digits) = some group) :
        Denotes key group := by
      split at read
      · cases read
      · next nonempty =>
        rw [trimmed] at whole
        obtain ⟨bound, decimal⟩ := (groupNumber?_eq_some digits group).mp read
        exact ⟨bound, before, sign, digits, after, whole, blankBefore, blankAfter, signed,
          by simpa using nonempty, decimal⟩
    simp only [groupOfKey?] at read
    split at read
    · next digits signed => exact denotes (.inr rfl) signed read
    · exact denotes (.inl rfl) rfl read
  · rintro ⟨bound, before, sign, digits, after, whole, blankBefore, blankAfter, signed, nonempty, decimal,
      value⟩
    have plain (c) (member : c ∈ sign ++ digits) : Text.isBlank c = false := by
      rcases List.mem_append.mp member with member | member
      · rcases signed with rfl | rfl
        · cases member
        · rw [List.mem_singleton.mp member]
          decide
      · exact not_blank_of_digit (decimal c member)
    have trimmed : Text.trimChars key.toList = sign ++ digits := by
      rw [whole]
      exact Text.trimChars_around blankBefore blankAfter
        (fun c first => plain c (List.mem_of_mem_head? first))
        (fun c last => plain c (List.mem_of_getLast? last))
        (List.append_ne_nil_of_right_ne_nil sign nonempty)
    have number := (groupNumber?_eq_some digits group).mpr ⟨bound, decimal, value⟩
    rw [groupOfKey?, trimmed]
    rcases signed with rfl | rfl
    · cases digits with
      | nil => exact absurd rfl nonempty
      | cons c digits =>
        have unsigned : c ≠ '+' := by
          rintro rfl
          exact absurd (decimal '+' List.mem_cons_self) (by decide)
        simp [unsigned, number]
    · simp [nonempty, number]

example : groupOfKey? " +02 " = some 2 ∧ groupOfKey? "2x" = none ∧ groupOfKey? "+" = none := by
  decide

end Keys

section Tables

namespace CaptureTable

variable {table : CaptureTable} {slots : List (Nat × RuleId)}

theorem get?_put {slot : Nat × RuleId} (within : slot.1 < table.size) (group : Nat) :
    (table.put slot).get? group = if slot.1 = group then some slot.2 else table.get? group := by
  rw [size] at within
  rw [get?, get?, put, Array.getElem?_setIfInBounds, if_pos within]
  split <;> rfl

@[simp]
theorem size_put (table : CaptureTable) (slot : Nat × RuleId) :
    (table.put slot).size = table.size := by
  simp [put, size]

@[simp]
theorem size_fill (table : CaptureTable) (slots : List (Nat × RuleId)) :
    (table.fill slots).size = table.size := by
  induction slots generalizing table with
  | nil => rfl
  | cons slot slots ih => exact (ih (table.put slot)).trans (size_put table slot)

/-- A group has the last rule that it is given, else the one that it had. -/
theorem get?_fill (within : ∀ slot ∈ slots, slot.1 < table.size) (group : Nat) :
    (table.fill slots).get? group =
      ((slots.reverse.find? (·.1 = group)).map Prod.snd).or (table.get? group) := by
  induction slots generalizing table with
  | nil => rfl
  | cons slot slots ih =>
    obtain ⟨first, rest⟩ := List.forall_mem_cons.mp within
    have filled : ((table.put slot).fill slots).get? group = _ := ih (by simpa using rest)
    rw [get?_put first] at filled
    rw [List.reverse_cons, List.find?_append]
    refine filled.trans ?_
    cases slots.reverse.find? (·.1 = group) with
    | some later => rfl
    | none => by_cases own : slot.1 = group <;> simp [own]

theorem get?_withRoom (groups : List Nat) (group : Nat) : (withRoom groups).get? group = none := by
  rw [get?, withRoom, Array.getElem?_replicate]
  split <;> rfl

/-- There is room up to the largest group, and no further. -/
theorem size_withRoom_le_iff (groups : List Nat) (bound : Nat) :
    (withRoom groups).size ≤ bound ↔ ∀ group ∈ groups, group < bound := by
  have largest : (0 :: groups.map (· + 1)).max? = some ((groups.map (· + 1)).foldl max 0) :=
    List.max?_cons'
  rw [withRoom, size, Array.size_replicate, List.max?_le_iff largest, List.forall_mem_cons,
    List.forall_mem_map]
  exact and_iff_right (Nat.zero_le bound)

end CaptureTable

variable {captures : Table Place}

/-- The groups that the keys of a table denote. -/
def denoted (captures : Table Place) : Set Nat := {group | ∃ key ∈ captures.keys, Denotes key group}

/-- The size of the table that is made for the rules of another. -/
def room (captures : Table Place) : Nat :=
  (CaptureTable.withRoom ((RuleSource.groups (some captures)).map Prod.fst)).size

theorem mem_groups_iff {entry : Nat × Place} : entry ∈ RuleSource.groups (some captures) ↔
    ∃ key, (key, entry.2) ∈ captures.entries ∧ Denotes key entry.1 := by
  obtain ⟨group, place⟩ := entry
  simp only [RuleSource.groups, ← groupOfKey?_eq_some]
  simp

theorem mem_denoted_iff {group : Nat} :
    group ∈ denoted captures ↔ group ∈ (RuleSource.groups (some captures)).map Prod.fst := by
  simp only [denoted, Table.keys, List.mem_map, mem_groups_iff, Set.mem_ofPred_eq]
  constructor
  · rintro ⟨_, ⟨⟨key, place⟩, member, rfl⟩, denotes⟩
    exact ⟨(group, place), ⟨key, member, denotes⟩, rfl⟩
  · rintro ⟨⟨_, place⟩, ⟨key, member, denotes⟩, rfl⟩
    exact ⟨key, ⟨(key, place), member, rfl⟩, denotes⟩

theorem lt_of_mem_denoted {group : Nat} (member : group ∈ denoted captures) : group < 2 ^ 64 := by
  obtain ⟨_, _, denotes⟩ := member
  exact denotes.1

theorem room_le_iff {bound : Nat} :
    room captures ≤ bound ↔ ∀ group ∈ denoted captures, group < bound := by
  simp only [room, CaptureTable.size_withRoom_le_iff, mem_denoted_iff]

theorem lt_room {group : Nat} (member : group ∈ denoted captures) : group < room captures :=
  room_le_iff.mp (Nat.le_refl _) group member

theorem room_eq {largest : Nat} (greatest : IsGreatest (denoted captures) largest) :
    room captures = largest + 1 :=
  Nat.le_antisymm (room_le_iff.mpr fun _ member => Nat.lt_succ_of_le (greatest.2 member))
    (lt_room greatest.1)

/-- The room is one more than the largest group, if there is any. -/
theorem room_cases (captures : Table Place) : denoted captures = ∅ ∧ room captures = 0 ∨
    ∃ largest, IsGreatest (denoted captures) largest ∧ room captures = largest + 1 := by
  cases size : room captures with
  | zero =>
    have free (group) : group ∉ denoted captures :=
      fun member => absurd (lt_room member) (by simp [size])
    exact .inl ⟨Set.eq_empty_of_forall_notMem free, rfl⟩
  | succ largest =>
    have most (group) (member : group ∈ denoted captures) : group ≤ largest :=
      Nat.le_of_lt_succ (Nat.lt_of_lt_of_eq (lt_room member) size)
    refine .inr ⟨largest, ⟨?_, most⟩, rfl⟩
    by_contra free
    have less : room captures ≤ largest := room_le_iff.mpr fun group member =>
      Nat.lt_of_le_of_ne (most group member) fun same => free (same ▸ member)
    omega

/-- The room fits 64 bits unless the largest number that they hold is denoted. -/
theorem room_fits_iff : room captures < 2 ^ 64 ↔ 2 ^ 64 - 1 ∉ denoted captures := by
  rw [Nat.lt_iff_le_pred (by decide), room_le_iff]
  constructor
  · intro below member
    exact Nat.lt_irrefl _ (below _ member)
  · intro free group member
    have bound := lt_of_mem_denoted member
    have apart : group ≠ 2 ^ 64 - 1 := fun same => free (same ▸ member)
    omega

/-- So the groups are below the room, computed in 64 bits, under the same condition. -/
theorem room_covers_iff : (∀ group ∈ denoted captures, group < room captures % 2 ^ 64) ↔
    2 ^ 64 - 1 ∉ denoted captures := by
  constructor
  · intro covers member
    have greatest : IsGreatest (denoted captures) (2 ^ 64 - 1) :=
      ⟨member, fun group other => Nat.le_pred_of_lt (lt_of_mem_denoted other)⟩
    have wrapped := covers _ member
    rw [room_eq greatest] at wrapped
    exact absurd wrapped (by decide)
  · intro free group member
    rw [Nat.mod_eq_of_lt (room_fits_iff.mpr free)]
    exact lt_room member

end Tables

section Slots

variable {grammars : Loaded} {engine : Engine} {recurse : Recurse} {context : Context}
  {before after : CompilerState}

theorem Grown.carries (grown : Grown engine before.rules.size before after) :
    Carries before after where
  numbers := grown.numbers
  patterns := grown.kept
  rules id rule held _ := by
    rw [grown.rules id (Array.getElem?_eq_some_iff.mp held).1, held]

/-- What is compiled has its number afterwards. -/
theorem numberOf_compileAt {depth : Nat} {place : Option Place} {id : RuleId}
    (done : (compileAt grammars engine depth context place).run.run before = (.ok id, after)) :
    after.numberOf (context, place) = some id := by
  cases depth with
  | zero => cases done
  | succ depth =>
    cases fresh : before.numberOf (context, place) with
    | some held =>
      rw [Lockstep.run_compileAt] at done
      have fresh : before.numbers.get? ⟨place, context.grammar.scopeName⟩ = some held := fresh
      rw [fresh] at done
      cases done
      exact fresh
    | none =>
      rw [Course.run_compileAt_fresh _ _ _ fresh] at done
      have recursive (context : Context) (place : Option Place) :
          Keeps engine 0 (compileAt grammars engine depth context place) :=
        keeps_compileAt grammars depth context place
      have keeps : Keeps engine 0 (Lockstep.compileFresh grammars engine
          (compileAt grammars engine depth) context place) := by
        cases place with
        | some place => exact keeps_compileRule recursive grammars context _
        | none => exact keeps_compileTop recursive grammars context
      have grown := keeps (Lockstep.CompilerState.entered before ⟨place, context.grammar.scopeName⟩)
        (Nat.zero_le _)
      split at done
      · next made =>
        rw [made] at grown
        cases done
        exact grown.numbers _ _ (by simp [Lockstep.CompilerState.entered])
      · cases done

/-- Recursive calls give the number of what they are asked for. -/
def Numbers (recurse : Recurse) : Prop :=
  ∀ context place before after id, (recurse context place).run.run before = (.ok id, after) →
    after.numberOf (context, place) = some id

/-- A table is filled with the rules for the groups, once these are compiled. -/
theorem compileCaptures_eq (recurse : Recurse) (context : Context)
    (captures : Option (Table Place)) : compileCaptures recurse context captures = do
      let room ← makeRoom ((RuleSource.groups captures).map Prod.fst)
      let slots ← (RuleSource.groups captures).mapM (compileSlot recurse context)
      return room.fill slots :=
  rfl

/-- The rule for a group is put under the next number, after the rules that the text of the group is
tokenized again with, if there are any. -/
theorem run_compileSlot (recurse : Recurse) (context : Context) (entry : Nat × Place)
    (state : CompilerState) :
    (compileSlot recurse context entry).run.run state =
      let rule := context.grammar.rule entry.2
      let put (after : CompilerState) (retokenize : Option RuleId) :=
        (.ok (entry.1, after.rules.size), { after with
          rules := after.rules.push (.capture ⟨rule.name, rule.contentName, retokenize⟩) })
      if rule.patterns.isSome then
        match (recurse context (some entry.2)).run.run state with
        | (.ok id, after) => put after (some id)
        | (.error error, after) => (.error error, after)
      else put state none := by
  unfold compileSlot
  dsimp only
  split
  · rw [run_bind, ← bind_pure_comp, run_bind]
    rcases (recurse context (some entry.2)).run.run state with ⟨error | id, after⟩
    · rfl
    · exact run_define_next entry.1 _ after
  · rw [run_bind]
    exact run_define_next entry.1 _ state

theorem slotted_put {state : CompilerState} {place : Place} {rule : CaptureRule} (group : Nat)
    (captures : Captures state context place rule) :
    Slotted { state with rules := state.rules.push (.capture rule) } context (group, place)
      (group, state.rules.size) :=
  ⟨rfl, rule, Array.getElem?_push_size, captures.carry (.push state (.capture rule))⟩

/-- The rule for a group is under its number, unless what its text is tokenized again with does not
compile. -/
theorem compileSlot_cases (context : Context) (numbers : Numbers recurse) (entry : Nat × Place)
    (before : CompilerState) :
    match (compileSlot recurse context entry).run.run before with
    | (.ok slot, after) => Slotted after context entry slot
    | (.error error, after) => (context.grammar.rule entry.2).patterns.isSome ∧
        (recurse context (some entry.2)).run.run before = (.error error, after) := by
  rw [run_compileSlot]
  dsimp only
  by_cases within : (context.grammar.rule entry.2).patterns.isSome
  · rw [if_pos within]
    rcases result : (recurse context (some entry.2)).run.run before with ⟨error | id, after⟩
    · exact ⟨within, rfl⟩
    · exact slotted_put entry.1 (.again within (numbers _ _ _ _ _ result))
  · rw [if_neg within]
    exact slotted_put entry.1 (.plain (by simpa using within))

/-- So are the rules for some groups: compiling more leaves a rule under its number. -/
theorem mapM_compileSlot_cases (context : Context) (numbers : Numbers recurse)
    (keeps : ∀ floor context place, Keeps engine floor (recurse context place))
    (entries : List (Nat × Place)) (before : CompilerState) :
    match (entries.mapM (compileSlot recurse context)).run.run before with
    | (.ok slots, after) => List.Forall₂ (Slotted after context) entries slots
    | (.error error, after) => ∃ entry ∈ entries, (context.grammar.rule entry.2).patterns.isSome ∧
        ∃ middle, (recurse context (some entry.2)).run.run middle = (.error error, after) := by
  induction entries generalizing before with
  | nil => exact .nil
  | cons entry entries ih =>
    rw [List.mapM_cons, run_bind]
    have first := compileSlot_cases context numbers entry before
    rcases slotted : (compileSlot recurse context entry).run.run before with ⟨error | slot, middle⟩
    · rw [slotted] at first
      exact ⟨entry, List.mem_cons_self, first.1, before, first.2⟩
    · rw [slotted] at first
      dsimp only
      have rest := ih middle
      have grows : Keeps engine middle.rules.size (entries.mapM (compileSlot recurse context)) :=
        keeps_mapM (keeps_compileSlot (keeps middle.rules.size) context)
      have kept := grows middle (Nat.le_refl _)
      rw [run_bind]
      rcases result : (entries.mapM (compileSlot recurse context)).run.run middle with
        ⟨error | slots, after⟩
      · rw [result] at rest
        obtain ⟨other, among, fails⟩ := rest
        exact ⟨other, List.mem_cons_of_mem _ among, fails⟩
      · rw [result] at rest kept
        exact .cons (first.carry kept.carries) rest

end Slots

section Lookup

variable {captures : Table Place} {context : Context} {state : CompilerState}

/-- A table of rules for groups tells what keys say: a group has a rule exactly if a key denotes it, and
the rule is that of the last such key. -/
structure Tells (captures : Table Place) (context : Context) (state : CompilerState)
    (table : CaptureTable) : Prop where
  size : table.size = room captures
  none : ∀ group, table.get? group = none ↔ group ∉ denoted captures
  last : ∀ group id, table.get? group = some id → ∃ key place rule,
    (key, place) ∈ captures.entries ∧ Denotes key group ∧
    (∀ other ∈ captures.keys, Denotes other group → other ≤ key) ∧
    state.rules[id]? = some (.capture rule) ∧ Captures state context place rule

theorem find?_forall₂ {R : α → β → Prop} {p : α → Bool} {q : β → Bool}
    (alike : List.Forall₂ R items others) (same : ∀ item other, R item other → p item = q other) :
    Option.Rel R (items.find? p) (others.find? q) := by
  induction alike with
  | nil => exact .none
  | cons first _ ih =>
    rw [List.find?_cons, List.find?_cons, same _ _ first]
    split
    · exact .some first
    · exact ih

/-- The last entry for a group is the entry of the last key that denotes it. -/
theorem find?_groups (captures : Table Place) (group : Nat) :
    (RuleSource.groups (some captures)).reverse.find? (·.1 = group) =
      (captures.entries.reverse.find? fun entry => groupOfKey? entry.1 = some group).map
        fun entry => (group, entry.2) := by
  rw [RuleSource.groups, ← List.filterMap_reverse, List.find?_filterMap]
  have alike (entry : String × Place) :
      ((groupOfKey? entry.1).map fun group => (group, entry.2)).any (·.1 = group) =
        decide (groupOfKey? entry.1 = some group) := by
    cases groupOfKey? entry.1 <;> simp
  simp only [alike]
  cases found : captures.entries.reverse.find? fun entry => groupOfKey? entry.1 = some group with
  | none => simp [found]
  | some entry =>
    have denotes : groupOfKey? entry.1 = some group := by simpa using List.find?_some found
    simp [found, denotes]

variable {slots : List (Nat × RuleId)}

theorem map_fst_slotted {entries : List (Nat × Place)}
    (slotted : List.Forall₂ (Slotted state context) entries slots) :
    slots.map Prod.fst = entries.map Prod.fst := by
  induction slotted with
  | nil => rfl
  | cons first _ ih => rw [List.map_cons, List.map_cons, first.1, ih]

/-- The rule that a group has in a table filled with rules that are under their numbers. -/
theorem get?_slotted
    (slotted : List.Forall₂ (Slotted state context) (RuleSource.groups (some captures)) slots)
    (group : Nat) : Option.Rel (fun entry id => ∃ rule, state.rules[id]? = some (.capture rule) ∧
        Captures state context entry.2 rule)
      (captures.entries.reverse.find? fun entry => groupOfKey? entry.1 = some group)
      (((CaptureTable.withRoom ((RuleSource.groups (some captures)).map Prod.fst)).fill slots).get?
        group) := by
  have within : ∀ slot ∈ slots, slot.1 <
      (CaptureTable.withRoom ((RuleSource.groups (some captures)).map Prod.fst)).size := by
    intro slot member
    apply lt_room
    rw [mem_denoted_iff, ← map_fst_slotted slotted]
    exact List.mem_map_of_mem member
  have found := find?_forall₂ (p := (·.1 = group)) (q := (·.1 = group)) (List.rel_reverse slotted)
    fun entry slot slotted => by rw [slotted.1]
  rw [find?_groups] at found
  rw [CaptureTable.get?_fill within, CaptureTable.get?_withRoom, Option.or_none]
  generalize captures.entries.reverse.find? _ = sought at found ⊢
  generalize slots.reverse.find? _ = given at found ⊢
  cases sought with
  | none =>
    cases given with
    | none => exact .none
    | some slot => cases found
  | some entry =>
    cases given with
    | none => cases found
    | some slot =>
      cases found with
      | some slotted => exact .some slotted.2

/-- Of the entries for a group the last one has the greatest key. There is none if no key denotes the
group. -/
theorem find?_denoted (ordered : Table.Ordered captures.entries) (group : Nat) :
    match captures.entries.reverse.find? fun entry => groupOfKey? entry.1 = some group with
    | none => group ∉ denoted captures
    | some entry => entry ∈ captures.entries ∧ Denotes entry.1 group ∧
        ∀ other ∈ captures.keys, Denotes other group → other ≤ entry.1 := by
  have does {entry : String × Place} : Denotes entry.1 group →
      decide (groupOfKey? entry.1 = some group) = true :=
    fun denotes => decide_eq_true ((groupOfKey?_eq_some ..).mpr denotes)
  split
  · next none =>
    rintro ⟨key, among, denotes⟩
    obtain ⟨entry, held, rfl⟩ := List.mem_map.mp among
    exact List.find?_eq_none.mp none entry (List.mem_reverse.mpr held) (does denotes)
  · next entry found =>
    refine ⟨List.mem_reverse.mp (List.mem_of_find?_eq_some found), ?_, ?_⟩
    · exact (groupOfKey?_eq_some ..).mp (by simpa using List.find?_some found)
    · intro other among denotes
      obtain ⟨other, held, rfl⟩ := List.mem_map.mp among
      rcases Table.find?_reverse ordered found held (does denotes) with same | less
      · exact le_of_eq (congrArg Prod.fst same)
      · exact le_of_lt less

/-- A table filled with rules that are under their numbers tells what the keys say. -/
theorem tells_of_slotted (ordered : Table.Ordered captures.entries)
    (slotted : List.Forall₂ (Slotted state context) (RuleSource.groups (some captures)) slots) :
    Tells captures context state
      ((CaptureTable.withRoom ((RuleSource.groups (some captures)).map Prod.fst)).fill slots) := by
  have each (group : Nat) := get?_slotted slotted group
  generalize filled : CaptureTable.fill _ slots = table at each
  have told (group : Nat) : (table.get? group = none ∧ group ∉ denoted captures) ∨
      ∃ id key place rule, table.get? group = some id ∧ (key, place) ∈ captures.entries ∧
        Denotes key group ∧ (∀ other ∈ captures.keys, Denotes other group → other ≤ key) ∧
        state.rules[id]? = some (.capture rule) ∧ Captures state context place rule := by
    have given := each group
    have entry := find?_denoted ordered group
    generalize captures.entries.reverse.find? _ = sought at given entry
    generalize table.get? group = id at given ⊢
    cases given with
    | none => exact .inl ⟨rfl, entry⟩
    | some made =>
      obtain ⟨rule, held, made⟩ := made
      obtain ⟨member, denotes, last⟩ := entry
      exact .inr ⟨_, _, _, rule, rfl, member, denotes, last, held, made⟩
  refine ⟨by rw [← filled, CaptureTable.size_fill, room], fun group => ?_, fun group id given => ?_⟩
  · rcases told group with ⟨none, free⟩ | ⟨id, key, place, rule, given, member, denotes, -⟩
    · exact iff_of_true none free
    · refine iff_of_false (by simp [given]) fun free => free ⟨key, ?_, denotes⟩
      exact List.mem_map_of_mem member
  · rcases told group with ⟨none, -⟩ | ⟨other, key, place, rule, own, told⟩
    · cases none.symm.trans given
    · cases own.symm.trans given
      exact ⟨key, place, rule, told⟩

end Lookup

section Whole

/-- The state in which the rules for the groups are compiled, once there is room for them. -/
def roomy (captures : Table Place) (state : CompilerState) : CompilerState :=
  if room captures < 0x10000000000000000 then state else { state with journal := state.journal.overflowed }

/-- Room is made first, and then the rules for the groups are compiled. -/
theorem run_compileCaptures (recurse : Recurse) (context : Context) (captures : Table Place)
    (state : CompilerState) :
    (compileCaptures recurse context (some captures)).run.run state =
      match ((RuleSource.groups (some captures)).mapM (compileSlot recurse context)).run.run
          (roomy captures state) with
      | (.ok slots, after) =>
        (.ok ((CaptureTable.withRoom ((RuleSource.groups (some captures)).map Prod.fst)).fill slots), after)
      | (.error error, after) => (.error error, after) := by
  have made : (makeRoom ((RuleSource.groups (some captures)).map Prod.fst)).run.run state =
      (.ok (CaptureTable.withRoom ((RuleSource.groups (some captures)).map Prod.fst)),
        roomy captures state) := run_makeRoom _ state
  rw [compileCaptures_eq, run_bind, made]
  dsimp only
  rw [run_bind]
  rcases ((RuleSource.groups (some captures)).mapM (compileSlot recurse context)).run.run
    (roomy captures state) with ⟨error | slots, after⟩ <;> rfl

/-- The room overflows exactly if a key denotes the largest number of 64 bits. -/
theorem overflows_roomy_iff (captures : Table Place) (state : CompilerState) :
    (roomy captures state).journal.overflows = state.journal.overflows ↔
      2 ^ 64 - 1 ∉ denoted captures := by
  rw [← room_fits_iff, roomy]
  split
  next fits => exact iff_of_true rfl fits
  next wide => exact iff_of_false (Nat.succ_ne_self _) wide

theorem overflows_roomy {captures : Table Place} (largest : 2 ^ 64 - 1 ∈ denoted captures)
    (state : CompilerState) :
    (roomy captures state).journal.overflows = state.journal.overflows + 1 := by
  have wide : ¬ room captures < 0x10000000000000000 := fun fits => room_fits_iff.mp fits largest
  rw [roomy, if_neg wide]
  rfl

/-- An overflow of the room stays noted while the rules for the groups are compiled. -/
theorem overflows_compileCaptures (grammars : Loaded) (engine : Engine) (depth : Nat) (context : Context)
    (state : CompilerState) (captures : Table Place) :
    (roomy captures state).journal.overflows ≤
      ((compileCaptures (compileAt grammars engine depth) context (some captures)).run.run
        state).2.journal.overflows := by
  have keeps : Keeps engine 0 ((RuleSource.groups (some captures)).mapM
      (compileSlot (compileAt grammars engine depth) context)) :=
    keeps_mapM (keeps_compileSlot (keeps_compileAt grammars depth) context)
  have grown := keeps (roomy captures state) (Nat.zero_le _)
  rw [run_compileCaptures]
  rcases result : ((RuleSource.groups (some captures)).mapM
    (compileSlot (compileAt grammars engine depth) context)).run.run (roomy captures state) with
    ⟨error | slots, after⟩
  all_goals
    rw [result] at grown
    exact grown.overflows

/-- Whatever the keys are, the room is one more than the largest group that a key denotes, or nothing if
there is no such key. Exactly if no key denotes the largest number of 64 bits the room fits 64 bits, and
then also covers all groups where it is computed in them. If a key denotes that number, making the room
overflows, and so does the compilation. A compilation that succeeds gives a table that tells what the keys
say, and one that fails does so over the rules that a text is tokenized again with. -/
theorem capture_tables_exact (grammars : Loaded) (engine : Engine) (depth : Nat) (context : Context)
    (state : CompilerState) (writes : List (String × Place)) :
    let captures := Table.ofList writes
    (denoted captures = ∅ ∧ room captures = 0 ∨
        ∃ largest, IsGreatest (denoted captures) largest ∧ room captures = largest + 1) ∧
      (room captures < 2 ^ 64 ↔ 2 ^ 64 - 1 ∉ denoted captures) ∧
      ((∀ group ∈ denoted captures, group < room captures % 2 ^ 64) ↔
        2 ^ 64 - 1 ∉ denoted captures) ∧
      (((makeRoom ((RuleSource.groups (some captures)).map Prod.fst)).run.run
          state).2.journal.overflows = state.journal.overflows ↔ 2 ^ 64 - 1 ∉ denoted captures) ∧
      (2 ^ 64 - 1 ∈ denoted captures → state.journal.overflows <
        ((compileCaptures (compileAt grammars engine depth) context (some captures)).run.run
          state).2.journal.overflows) ∧
      match (compileCaptures (compileAt grammars engine depth) context
          (some captures)).run.run state with
      | (.ok table, after) => Tells captures context after table
      | (.error error, after) => ∃ place ∈ captures.values,
          (context.grammar.rule place).patterns.isSome ∧ ∃ middle,
            (compileAt grammars engine depth context (some place)).run.run middle =
              (.error error, after) := by
  intro captures
  refine ⟨room_cases captures, room_fits_iff, room_covers_iff, ?_, fun largest => ?_, ?_⟩
  · rw [run_makeRoom]
    exact overflows_roomy_iff captures state
  · have noted := overflows_roomy largest state
    have stays := overflows_compileCaptures grammars engine depth context state captures
    omega
  have ordered : Table.Ordered captures.entries := Table.ordered_ofList writes
  have numbers : Numbers (compileAt grammars engine depth) :=
    fun _ _ _ _ _ done => numberOf_compileAt done
  have keeps (floor : Nat) (context : Context) (place : Option Place) :
      Keeps engine floor (compileAt grammars engine depth context place) :=
    keeps_compileAt grammars depth context place
  have each :=
    mapM_compileSlot_cases context numbers keeps (RuleSource.groups (some captures))
      (roomy captures state)
  rw [run_compileCaptures]
  rcases result : ((RuleSource.groups (some captures)).mapM
    (compileSlot (compileAt grammars engine depth) context)).run.run (roomy captures state) with
    ⟨error | slots, after⟩
  · rw [result] at each
    obtain ⟨entry, among, within, fails⟩ := each
    exact ⟨entry.2, RuleSource.place_of_mem_groups among, within, fails⟩
  · rw [result] at each
    exact tells_of_slotted ordered each

/-- One key is enough for the room not to fit 64 bits: computed there it is nothing, and compiling the rules
for the groups overflows. -/
theorem largest_key_leaves_no_room :
    let captures := Table.ofList [("18446744073709551615", 0)]
    let source : GrammarSource := { scopeName := "source.x", rules := #[{ name := some "x" }] }
    2 ^ 64 - 1 ∈ denoted captures ∧ room captures = 2 ^ 64 ∧ room captures % 2 ^ 64 = 0 ∧
      0 < ((compileCaptures (compileAt ⟨[("source.x", source)]⟩ backtracking 1)
        (Context.top source source) (some captures)).run.run { journal := {} }).2.journal.overflows := by
  intro captures source
  have member : 2 ^ 64 - 1 ∈ denoted captures :=
    ⟨"18446744073709551615", List.mem_singleton.mpr rfl, (groupOfKey?_eq_some ..).mp (by decide)⟩
  have size : room captures = 2 ^ 64 :=
    room_eq ⟨member, fun group other => Nat.le_pred_of_lt (lt_of_mem_denoted other)⟩
  have noted : (roomy captures { journal := {} }).journal.overflows = 1 := overflows_roomy member _
  have stays := overflows_compileCaptures ⟨[("source.x", source)]⟩ backtracking 1
    (Context.top source source) { journal := {} } captures
  rw [noted] at stays
  exact ⟨member, size, by rw [size, Nat.mod_self], stays⟩

end Whole

end Grammar
end ScopeLexer
