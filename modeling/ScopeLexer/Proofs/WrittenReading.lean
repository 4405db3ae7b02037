import ScopeLexer.Proofs.PatternPreparation
import ScopeLexer.Proofs.WrittenPatterns

/-!
The engine that backtracks takes the patterns that are written as documented. Its reader goes over a part of
a pattern and puts what it has read on top of what it had before, whatever follows, as long as that does not
start with the mark of a repetition. The depth of what is open is at most the number of characters, so that
a pattern that is short enough is never too deep. Nothing that is read is refused when it is prepared.
-/
namespace ScopeLexer.Regex

open Pattern

section Classes

variable {cls : OpenClass} {options : Options} {text rest : List Char} {c last : Char}

theorem toNat_le (c : Char) : c.toNat ≤ 0x10ffff := by
  have valid : c.toNat < 0xd800 ∨ 0xdfff < c.toNat ∧ c.toNat < 0x110000 := c.valid
  omega

/-- No range is waiting for its end. -/
def OpenClass.Settled (cls : OpenClass) : Prop := ∀ first narrow, cls.last ≠ .range first narrow

theorem OpenClass.Settled.pushChar (settled : cls.Settled) (c : Char) :
    cls.pushChar c = .ok { cls.flush with last := .value c.toNat (c.val < 0x80) } := by
  have small : ¬ 0x10ffff < c.toNat := Nat.not_lt.mpr (toNat_le c)
  unfold OpenClass.pushChar OpenClass.pushCode
  split
  next first narrow held => exact absurd held (settled first narrow)
  next => rw [if_neg small]

theorem OpenClass.Settled.pushNamed (settled : cls.Settled) (set : CharSet) :
    cls.pushNamed set = .ok { cls.flush.add set with last := .named } := by
  unfold OpenClass.pushNamed
  split
  next first narrow held => exact absurd held (settled first narrow)
  next => rfl

/-- A code point that an escape stands for is a member as the character is. -/
theorem OpenClass.Settled.pushAllEscaped (settled : cls.Settled) (c : Char) :
    cls.pushAllEscaped [.point c.toNat] = .ok { cls.flush with last := .value c.toNat (c.toNat < 0x80) } := by
  have small : ¬ 0x10ffff < c.toNat := Nat.not_lt.mpr (toNat_le c)
  show (cls.pushCode c.toNat (c.toNat < 0x80)).bind .ok = _
  unfold OpenClass.pushCode
  split
  next first narrow held => exact absurd held (settled first narrow)
  next =>
    rw [if_neg small]
    rfl

/-- A hyphen behind a character and before another one waits for the end of a range. -/
theorem pushHyphen_range {code : Nat} {narrow : Bool} (value : cls.last = .value code narrow)
    (stands : hasClassMeaning last = false) (rest : List Char) :
    cls.pushHyphen (last :: rest) = .ok { cls with last := .range code narrow } := by
  have bracket : last ≠ ']' := by rintro rfl; exact absurd stands (by decide)
  have ampersand : '&' ≠ last := by rintro rfl; exact absurd stands (by decide)
  simp [OpenClass.pushHyphen, value, bracket, ampersand]

/-- A range ends at a character that is not before its first. -/
theorem pushChar_range {first : Nat} {narrow : Bool} (waits : cls.last = .range first narrow)
    (le : first ≤ last.toNat) : cls.pushChar last =
      .ok { cls.add (OpenClass.span first last.toNat (narrow && (last.val < 0x80))) with last := .complete } := by
  simp only [OpenClass.pushChar, OpenClass.pushCode, waits, if_neg (Nat.not_lt.mpr le)]

theorem readClassFrom_plain (stands : hasClassMeaning c = false) (room width : Nat) :
    readClassFrom options cls [] room width (c :: rest) =
      (cls.pushChar c).bind fun next => readClassFrom options next [] room (width + 1) rest := by
  have other (mark : Char) (meaning : hasClassMeaning mark = true) : c ≠ mark := by
    rintro rfl
    rw [meaning] at stands
    cases stands
  exact readClassFrom.eq_9 options cls [] room width c rest (other ']' rfl) (other '-' rfl)
    (fun _ same _ => other '&' rfl same) (fun same _ => other '\\' rfl same)
    (fun _ _ same _ => other '\\' rfl same) (other '[' rfl)

/-- The members of a class are read up to its end. -/
theorem Members.read (members : Members text) (options : Options) (rest : List Char)
    (settled : cls.Settled) (room width : Nat) :
    ∃ next, readClassFrom options cls [] room width (text ++ ']' :: rest) =
      .ok (next, width + text.length + 1) := by
  induction members generalizing cls width with
  | nothing => exact ⟨cls, readClassFrom.eq_2 options cls room width rest⟩
  | @plain c text stands members ih =>
    have value : OpenClass.Settled { cls.flush with last := .value c.toNat (c.val < 0x80) } := by
      simp [OpenClass.Settled]
    obtain ⟨next, read⟩ := ih value (width + 1)
    refine ⟨next, ?_⟩
    rw [List.cons_append, readClassFrom_plain stands, settled.pushChar, List.length_cons,
      Nat.add_comm text.length, ← Nat.add_assoc]
    exact read
  | @escaped c text loses members ih =>
    have other := isAlphanum_of_losesMeaning loses
    have value : OpenClass.Settled { cls.flush with last := .value c.toNat (c.toNat < 0x80) } := by
      simp [OpenClass.Settled]
    obtain ⟨next, read⟩ := ih value (width + 2)
    refine ⟨next, ?_⟩
    rw [List.cons_append, List.cons_append, readClassFrom.eq_7]
    simp only [escapedClass?_of_isAlphanum other,
      readProperty_of_ne (ne_of_isAlphanum other 'p' rfl) (ne_of_isAlphanum other 'P' rfl),
      readEscapedCodes_of_isAlphanum other, settled.pushAllEscaped, bind, Except.bind,
      List.length_cons, Nat.sub_self, List.drop_zero]
    rw [read]
    congr 2
    omega
  | @named c text known members ih =>
    obtain ⟨set, named⟩ : ∃ set, escapedClass? c = some set := by
      have all : namedSets.all (fun c => (escapedClass? c).isSome) = true := by decide
      exact Option.isSome_iff_exists.mp (List.all_eq_true.mp all c known)
    have value : OpenClass.Settled
        { cls.flush.add (options.signedSet set.1 set.2) with last := .named } := by simp [OpenClass.Settled]
    obtain ⟨next, read⟩ := ih value (width + 2)
    refine ⟨next, ?_⟩
    rw [List.cons_append, List.cons_append, readClassFrom.eq_7]
    simp only [named, settled.pushNamed, bind, Except.bind, List.length_cons]
    rw [read]
    congr 2
    omega
  | @range first last text stands standsLast le members ih =>
    let value : OpenClass := { cls.flush with last := .value first.toNat (first.val < 0x80) }
    let waits : OpenClass := { value with last := .range first.toNat (first.val < 0x80) }
    have complete : OpenClass.Settled
        { waits.add (OpenClass.span first.toNat last.toNat ((first.val < 0x80) && (last.val < 0x80))) with
          last := .complete } := by simp [OpenClass.Settled]
    obtain ⟨next, read⟩ := ih complete (width + 3)
    refine ⟨next, ?_⟩
    rw [List.cons_append, List.cons_append, List.cons_append, readClassFrom_plain stands,
      settled.pushChar]
    show readClassFrom options value [] room (width + 1) _ = _
    rw [readClassFrom.eq_4, pushHyphen_range rfl standsLast]
    show readClassFrom options waits [] room (width + 1 + 1) _ = _
    rw [readClassFrom_plain standsLast, pushChar_range rfl le]
    refine read.trans ?_
    congr 2
    simp only [List.length_cons]
    omega

end Classes

section Items

variable {item : Item} {items : List Item} {rounds : Rounds}

/-- Nothing in an item is refused, and characters that others may be added to have not been repeated. -/
structure Item.Tame (item : Item) : Prop where
  expr : item.expr.Tame
  lead : ∀ lead ∈ item.lead, lead.Tame
  unrepeated : item.kind = .chars → item.repetitions = 0

theorem Expr.tame_of_parts {expr : Expr} (none : expr.parts = []) : expr.Tame := by
  intro part member
  rw [none] at member
  cases member

/-- A tame item comes to a tame expression. -/
theorem Item.Tame.whole (tame : item.Tame) : item.whole.Tame := by
  have inner : (if item.kind = .firstGrouped then Expr.list [item.expr] else item.expr).parts =
      item.expr.parts := by
    split <;> simp
  unfold Item.whole
  dsimp only
  split
  next lead held =>
    intro part member
    rw [Expr.parts_list, List.flatMap_cons, List.flatMap_cons, List.flatMap_nil, List.append_nil,
      inner, List.mem_append] at member
    exact member.elim (tame.lead lead held part) (tame.expr part)
  next =>
    intro part member
    rw [inner] at member
    exact tame.expr part member

/-- What can be repeated can be repeated with the text before it, too. -/
theorem Item.repeatable_whole (repeatable : item.expr.repeatable = true) :
    item.whole.repeatable = true := by
  unfold Item.whole
  dsimp only
  split
  · rfl
  · split
    · rfl
    · exact repeatable

theorem Item.flatMap_parts (item : Item) : item.parts.flatMap Expr.parts = item.whole.parts := by
  unfold Item.parts
  split
  next items whole => rw [whole, Expr.parts_list]
  next => simp

/-- A branch of items of which nothing is refused. -/
theorem tame_branch (tame : ∀ item ∈ items, item.Tame) : (Reader.branch items).Tame := by
  have all : ∀ item ∈ items.reverse, item.Tame := fun item member =>
    tame item (List.mem_reverse.mp member)
  unfold Reader.branch
  split
  next => exact Expr.tame_of_parts rfl
  next one only => exact (all one (by rw [only]; exact List.mem_cons_self)).whole
  next first rest _ parts =>
    rw [parts] at all
    obtain ⟨ofFirst, ofRest⟩ := List.forall_mem_cons.mp all
    intro part member
    rw [Expr.parts_list, List.flatMap_cons, List.mem_append, List.flatMap_assoc, List.mem_flatMap]
      at member
    rcases member with here | ⟨item, among, later⟩
    · exact ofFirst.whole part here
    · rw [item.flatMap_parts] at later
      exact (ofRest item among).whole part later

/-- One of some items can be repeated. -/
def Firm (items : List Item) : Prop := ∃ item ∈ items, item.whole.repeatable = true

/-- A branch can be repeated if one of its items can, or if it has none. -/
theorem repeatable_branch (firm : items = [] ∨ Firm items) :
    (Reader.branch items).repeatable = true := by
  rcases firm with rfl | ⟨item, member, repeatable⟩
  · rfl
  · unfold Reader.branch
    split
    next => rfl
    next one only =>
      rw [← List.mem_reverse, only, List.mem_singleton] at member
      exact member ▸ repeatable
    next => rfl

theorem allRepeatable_eq (exprs : List Expr) : Expr.allRepeatable exprs = exprs.all Expr.repeatable := by
  induction exprs with
  | nil => rfl
  | cons expr exprs ih => rw [Expr.allRepeatable, List.all_cons, ih]

/-- What stands between bars makes an expression of which nothing is refused. It can be repeated if each
branch can. -/
theorem alternatives_cases (branches : List Expr) (some : branches ≠ []) :
    ((∀ branch ∈ branches, branch.Tame) → (Expr.alternatives branches).Tame) ∧
      ((∀ branch ∈ branches, branch.repeatable = true) →
        (Expr.alternatives branches).repeatable = true) := by
  unfold Expr.alternatives
  split
  next => exact absurd rfl some
  next one => exact ⟨fun tame => tame one List.mem_cons_self, fun all => all one List.mem_cons_self⟩
  next =>
    constructor
    · intro tame part member
      rw [Expr.parts_choice, List.mem_flatMap] at member
      obtain ⟨branch, among, inside⟩ := member
      exact tame branch among part inside
    · intro all
      rw [Expr.repeatable, allRepeatable_eq, List.all_eq_true]
      exact all

theorem repeatedAgain_cases (body : Expr) (inner outer : Rounds) :
    (Expr.repeatedAgain body inner outer).parts = body.parts ∧
      (Expr.repeatedAgain body inner outer).repeatable = true := by
  unfold Expr.repeatedAgain
  split
  · unfold Expr.foldKinds
    split <;> exact ⟨rfl, rfl⟩
  · exact ⟨rfl, rfl⟩
  · split <;> exact ⟨rfl, rfl⟩

/-- Of what is not repeated exactly once there is more than one round. -/
theorem several_of_inexact (inexact : rounds.most ≠ some rounds.least) :
    ¬ (rounds.least = 1 && rounds.most = some 1) = true := by
  simp only [Bool.and_eq_true, decide_eq_true_eq, not_and]
  intro one same
  exact inexact (by rw [same, one])

/-- A repetition of no exact number of rounds is never refused. -/
theorem repeated_inexact (expr : Expr) (inexact : rounds.most ≠ some rounds.least) :
    ∃ made, expr.repeated rounds = .ok made ∧ made.parts = expr.parts ∧ made.repeatable = true := by
  have ranges : rounds.isExact = false := by simpa [Rounds.isExact] using inexact
  unfold Expr.repeated
  rw [if_neg (several_of_inexact inexact)]
  split
  next body inner =>
    simp only [ranges, Bool.and_false, Bool.false_and, Bool.false_eq_true, if_false]
    exact ⟨_, rfl, repeatedAgain_cases body inner rounds⟩
  next => exact ⟨_, rfl, rfl, rfl⟩

/-- What can be repeated is an item that is an expression of its own, or the first group of another
one. -/
structure Item.Repeatable (item : Item) : Prop where
  once : item.kind = .firstGrouped ∨ item.expr.repeatable = true
  fresh : item.repetitions = 0

theorem Item.Tame.split (tame : item.Tame) : item.split.expr.Tame ∧ ∀ lead ∈ item.split.lead, lead.Tame := by
  unfold Item.split
  split
  · exact ⟨tame.expr, tame.lead⟩
  · split
    · refine ⟨Expr.tame_of_parts rfl, fun lead member => ?_⟩
      cases member
      exact Expr.tame_of_parts rfl
    · exact ⟨tame.expr, tame.lead⟩

/-- An item that is repeated. -/
theorem Item.Repeatable.repeated (repeatable : item.Repeatable) (tame : item.Tame)
    (inexact : rounds.most ≠ some rounds.least) {depth : Nat} (shallow : depth < deepest)
    (possessive : Bool) :
    ∃ made, item.repeated depth rounds possessive = .ok made ∧ made.Tame ∧
      made.whole.repeatable = true := by
  obtain ⟨expr, again, same, solid⟩ := repeated_inexact item.split.expr inexact
  have may : ¬ (item.kind ≠ .firstGrouped && !item.expr.repeatable) = true := by
    rcases repeatable.once with first | solid
    · simp [first]
    · simp [solid]
  have near : ¬ deepest < depth + (item.repetitions + 1) := by
    rw [repeatable.fresh]
    omega
  have tameExpr : expr.Tame := by
    intro part member
    rw [same] at member
    exact tame.split.1 part member
  refine ⟨⟨if possessive then .atomic expr else expr, .single, item.split.lead, item.repetitions + 1⟩,
    ?_, ⟨?_, tame.split.2, nofun⟩, Item.repeatable_whole ?_⟩
  · unfold Item.repeated
    dsimp only
    rw [if_neg may, if_neg near, if_neg (several_of_inexact inexact), again]
    rfl
  · cases possessive <;> exact tameExpr
  · cases possessive
    · exact solid
    · rfl

/-- A character is put on top of some items. -/
theorem itemsWithChar_cases (tame : ∀ item ∈ items, item.Tame) (c : Char) :
    ∃ top others, Reader.itemsWithChar false c items = top :: others ∧ top.Repeatable ∧
      top.expr.repeatable = true ∧ ∀ item ∈ top :: others, item.Tame := by
  unfold Reader.itemsWithChar
  split
  next chars own lead repetitions others =>
    obtain ⟨first, rest⟩ := List.forall_mem_cons.mp tame
    have fresh : repetitions = 0 := first.unrepeated rfl
    exact ⟨⟨.text (chars ++ [c]) own, .chars, lead, repetitions⟩, others, rfl, ⟨.inr rfl, fresh⟩, rfl,
      List.forall_mem_cons.mpr ⟨⟨Expr.tame_of_parts rfl, first.lead, fun _ => fresh⟩, rest⟩⟩
  next =>
    exact ⟨⟨.text [c] false, .chars, none, 0⟩, items, rfl, ⟨.inr rfl, rfl⟩, rfl,
      List.forall_mem_cons.mpr ⟨⟨Expr.tame_of_parts rfl, fun _ held => (by cases held), fun _ => rfl⟩, tame⟩⟩

end Items

section Readers

variable {reader next : Reader} {text rest mark : List Char} {c : Char} {expr : Expr}

/-- No mark of a repetition comes first. -/
def Follows (rest : List Char) : Prop := ∀ c ∈ rest.head?, c ∉ ['?', '*', '+']

/-- A reader that may go on over so many characters. No option is set, and there is room for the groups that
may open. -/
structure Reader.Ready (reader : Reader) (length : Nat) : Prop where
  options : reader.options = {}
  room : reader.depth + length ≤ deepest
  items : ∀ item ∈ reader.items, item.Tame

/-- A reader is in the same group as another one was. -/
structure Reader.Beside (reader next : Reader) : Prop where
  options : next.options = reader.options
  depth : next.depth = reader.depth
  enclosing : next.enclosing = reader.enclosing

/-- A reader has gone on in a branch. -/
structure Reader.Goes (reader next : Reader) : Prop extends reader.Beside next where
  branches : next.branches = reader.branches
  tame : ∀ item ∈ next.items, item.Tame
  firm : Firm reader.items → Firm next.items

theorem Reader.Beside.trans {last : Reader} (first : reader.Beside next) (second : next.Beside last) :
    reader.Beside last :=
  ⟨second.options.trans first.options, second.depth.trans first.depth,
    second.enclosing.trans first.enclosing⟩

theorem Reader.Goes.trans {last : Reader} (first : reader.Goes next) (second : next.Goes last) :
    reader.Goes last :=
  ⟨first.toBeside.trans second.toBeside, second.branches.trans first.branches, second.tame,
    second.firm ∘ first.firm⟩

theorem step_items (shallow : reader.depth ≤ deepest) (expr : Expr) (rest : List Char) :
    reader.step (.items [expr]) rest = .ok (reader.push ⟨expr, .single, none, 0⟩, 0) := by
  simp only [Reader.step, if_neg (Nat.not_lt.mpr shallow)]
  rfl

theorem parts_of_standsBehind (stands : expr.standsBehind = true) : expr.parts = [] := by
  cases expr <;> first | rfl | cases stands

theorem repeatable_of_isPlain (plain : expr.isPlain = true) : expr.repeatable = true := by
  cases expr <;> first | rfl | cases plain

section Singles

/-- Where no comments are allowed, only the marks have a meaning. -/
theorem readToken_unmarked (stands : isMark c = false) (surroundings : Surroundings)
    (plain : surroundings.options = {}) (rest : List Char) :
    readToken surroundings c rest = .ok (.char c, 0) := by
  have other (mark : Char) (meaning : isMark mark = true) : c ≠ mark := by
    rintro rfl
    rw [meaning] at stands
    cases stands
  unfold readToken
  obtain ⟨greed, width⟩ := readGreed true rest
  dsimp only
  split
  all_goals first
    | exact absurd rfl (other _ (by decide))
    | simp only [plain, Bool.false_and, Bool.false_eq_true, if_false]

theorem readToken_control (surroundings : Surroundings) (plain : surroundings.options = {})
    (known : c ∈ controls) (rest : List Char) :
    ∃ expr : Expr, expr.isPlain = true ∧ expr.standsBehind = true ∧
      readToken surroundings '\\' (c :: rest) = .ok (.items [expr], 1) := by
  have property : readProperty c rest = .ok none := by
    refine readProperty_of_ne ?_ ?_ rest <;> (rintro rfl; exact absurd known (by decide))
  obtain ⟨options, groups, room⟩ := surroundings
  cases plain
  show ∃ expr : Expr, _ ∧ _ ∧ readEscape _ (c :: rest) = _
  simp only [readEscape, property]
  simp only [controls, List.mem_cons, List.not_mem_nil, or_false] at known
  rcases known with rfl | rfl | rfl | rfl | rfl | rfl | rfl <;> (refine ⟨_, ?_, ?_, rfl⟩ <;> rfl)

theorem readToken_named (surroundings : Surroundings) (plain : surroundings.options = {})
    (known : c ∈ namedSets) (rest : List Char) :
    ∃ expr : Expr, expr.isPlain = true ∧ expr.standsBehind = true ∧
      readToken surroundings '\\' (c :: rest) = .ok (.items [expr], 1) := by
  obtain ⟨options, groups, room⟩ := surroundings
  cases plain
  simp only [namedSets, List.mem_cons, List.not_mem_nil, or_false] at known
  rcases known with rfl | rfl | rfl | rfl | rfl | rfl | rfl | rfl <;> (refine ⟨_, ?_, ?_, rfl⟩ <;> rfl)

/-- The first member of a class is neither a negation nor an end. -/
theorem Members.head (members : Members text) (some : text ≠ []) :
    ∃ first others, text = first :: others ∧ first ≠ '^' ∧ first ≠ ']' := by
  have other {c : Char} (stands : hasClassMeaning c = false) : c ≠ '^' ∧ c ≠ ']' := by
    constructor <;> (rintro rfl; exact absurd stands (by decide))
  cases members with
  | nothing => exact absurd rfl some
  | plain stands rest => exact ⟨_, _, rfl, other stands⟩
  | escaped | named => exact ⟨_, _, rfl, by decide, by decide⟩
  | range stands standsLast le rest => exact ⟨_, _, rfl, other stands⟩

/-- A class of written members is one token, which stands behind. -/
theorem readToken_class (surroundings : Surroundings) (plain : surroundings.options = {})
    (room : surroundings.room ≠ 0) (members : Members text) (some : text ≠ []) (negated : Bool)
    (rest : List Char) :
    ∃ expr : Expr, expr.isPlain = true ∧ expr.standsBehind = true ∧
      readToken surroundings '[' ((if negated then ['^'] else []) ++ (text ++ ']' :: rest)) =
        .ok (.items [expr], (if negated then 1 else 0) + text.length + 1) := by
  obtain ⟨first, others, rfl, negation, closing⟩ := members.head some
  have opened : openClass ((if negated then ['^'] else []) ++ (first :: others ++ ']' :: rest)) =
      .ok ({ negated }, if negated then 1 else 0) := by
    cases negated <;> simp [openClass, negation, closing]
  have settled : OpenClass.Settled { negated } := by simp [OpenClass.Settled]
  obtain ⟨cls, read⟩ := members.read {} rest settled (surroundings.room - 1) (if negated then 1 else 0)
  have whole : readClass {} surroundings.room
      ((if negated then ['^'] else []) ++ (first :: others ++ ']' :: rest)) =
        .ok (cls.base, cls.negated, (if negated then 1 else 0) + (first :: others).length + 1) := by
    simp only [readClass, openNested, if_neg room, opened, bind, Except.bind]
    have behind : ((if negated then ['^'] else []) ++ (first :: others ++ ']' :: rest)).drop
        (if negated then 1 else 0) = first :: others ++ ']' :: rest := by
      cases negated <;> rfl
    rw [behind, read]
    rfl
  refine ⟨.oneOf cls.base cls.negated, rfl, rfl, ?_⟩
  simp only [readToken, plain, whole, bind, Except.bind]
  rfl

/-- What takes one character is read as one, which is added to those before it, or as an item. -/
theorem Single.read (single : Single text) (plain : reader.options = {}) (shallow : reader.depth < deepest)
    (rest : List Char) :
    (∃ c, reader.readAll (text ++ rest) = (reader.pushChar c).readAll rest) ∨
      ∃ expr : Expr, expr.isPlain = true ∧ expr.standsBehind = true ∧
        reader.readAll (text ++ rest) = (reader.push ⟨expr, .single, none, 0⟩).readAll rest := by
  have near := Nat.le_of_lt shallow
  have room : reader.surroundings.room ≠ 0 := Nat.sub_ne_zero_of_lt shallow
  cases single with
  | @plain c stands =>
    exact .inl ⟨c, readAll_char (readToken_unmarked stands _ plain rest) (step_char near c rest)⟩
  | @escaped c loses =>
    exact .inl ⟨c, readAll_cons (readToken_escaped (isAlphanum_of_losesMeaning loses) _ rest)
      (step_char near c _)⟩
  | control known =>
    obtain ⟨expr, solid, stands, token⟩ := readToken_control reader.surroundings plain known rest
    exact .inr ⟨expr, solid, stands, readAll_cons token (step_items near expr _)⟩
  | any =>
    have token : readToken reader.surroundings '.' rest = .ok (.items [.any reader.options.dotAll], 0) := rfl
    exact .inr ⟨_, rfl, rfl, readAll_char token (step_items near _ _)⟩
  | named known =>
    obtain ⟨expr, solid, stands, token⟩ := readToken_named reader.surroundings plain known rest
    exact .inr ⟨expr, solid, stands, readAll_cons token (step_items near expr _)⟩
  | @oneOf text members some =>
    obtain ⟨expr, solid, stands, token⟩ := readToken_class reader.surroundings plain room members some false rest
    refine .inr ⟨expr, solid, stands, ?_⟩
    have read := readAll_cons token (step_items near expr _)
    simpa using read
  | @noneOf text members some =>
    obtain ⟨expr, solid, stands, token⟩ := readToken_class reader.surroundings plain room members some true rest
    refine .inr ⟨expr, solid, stands, ?_⟩
    have read := readAll_cons token (step_items near expr _)
    simpa [Nat.add_comm 1] using read

end Singles

section Marks

theorem readGreed_of_follows (follows : Follows rest) : readGreed true rest = (.greedy, 0) := by
  unfold readGreed
  split
  next => exact absurd (follows '?' rfl) (by decide)
  next => exact absurd (follows '+' rfl) (by decide)
  next => rfl

/-- A mark asks for a repetition that may have more rounds than one number. -/
theorem readToken_mark (known : mark ∈ marks) (surroundings : Surroundings) (follows : Follows rest) :
    ∃ first others least most greed, mark = first :: others ∧ most ≠ some least ∧
      readToken surroundings first (others ++ rest) = .ok (.repetition least most greed, others.length) := by
  have greedy := readGreed_of_follows follows
  have all : mark = ['*'] ∨ mark = ['+'] ∨ mark = ['?'] ∨ mark = ['*', '?'] ∨ mark = ['+', '?'] ∨
      mark = ['?', '?'] ∨ mark = ['*', '+'] ∨ mark = ['+', '+'] ∨ mark = ['?', '+'] := by
    simpa [marks] using known
  rcases all with rfl | rfl | rfl | rfl | rfl | rfl | rfl | rfl | rfl
  · exact ⟨_, _, 0, none, .greedy, rfl, by decide, by simp [readToken, greedy]⟩
  · exact ⟨_, _, 1, none, .greedy, rfl, by decide, by simp [readToken, greedy]⟩
  · exact ⟨_, _, 0, some 1, .greedy, rfl, by decide, by simp [readToken, greedy]⟩
  · exact ⟨_, _, 0, none, .reluctant, rfl, by decide, rfl⟩
  · exact ⟨_, _, 1, none, .reluctant, rfl, by decide, rfl⟩
  · exact ⟨_, _, 0, some 1, .reluctant, rfl, by decide, rfl⟩
  · exact ⟨_, _, 0, none, .possessive, rfl, by decide, rfl⟩
  · exact ⟨_, _, 1, none, .possessive, rfl, by decide, rfl⟩
  · exact ⟨_, _, 0, some 1, .possessive, rfl, by decide, rfl⟩

/-- A mark repeats the item on top. -/
theorem readAll_mark {item : Item} {others : List Item} (known : mark ∈ marks) (follows : Follows rest)
    (top : reader.items = item :: others) (repeatable : item.Repeatable) (tame : item.Tame)
    (shallow : reader.depth < deepest) :
    ∃ made : Item, made.Tame ∧ made.whole.repeatable = true ∧
      reader.readAll (mark ++ rest) = { reader with items := made :: others }.readAll rest := by
  obtain ⟨first, more, least, most, greed, rfl, inexact, token⟩ :=
    readToken_mark known reader.surroundings follows
  have ranges : ({ least, most, reluctant := greed = .reluctant } : Rounds).most ≠ some least := inexact
  obtain ⟨made, again, ofMade, solid⟩ := repeatable.repeated tame ranges shallow (greed = .possessive)
  refine ⟨made, ofMade, solid, ?_⟩
  have step : reader.step (.repetition least most greed) ((more ++ rest).drop more.length) =
      .ok ({ reader with items := made :: others }, 0) := by
    simp only [Reader.step, if_neg (Nat.not_lt.mpr (Nat.le_of_lt shallow)), top, again, bind, Except.bind]
    rfl
  have read := readAll_cons token step
  simpa using read

end Marks

section Items

variable {firm : Bool}

theorem Firm.cons {items : List Item} (firm : Firm items) (item : Item) : Firm (item :: items) := by
  obtain ⟨one, member, repeatable⟩ := firm
  exact ⟨one, List.mem_cons_of_mem _ member, repeatable⟩

theorem Firm.of_head {item : Item} (repeatable : item.whole.repeatable = true) (others : List Item) :
    Firm (item :: others) :=
  ⟨item, List.mem_cons_self, repeatable⟩

/-- Nothing in an expression is refused, and it can be repeated if that is asked for. -/
def Expr.Sound (firm : Bool) (expr : Expr) : Prop :=
  expr.Tame ∧ (firm = true → expr.repeatable = true)

/-- An item is an expression on its own. -/
structure Item.Alone (item : Item) (expr : Expr) : Prop where
  expr : item.expr = expr
  kind : item.kind ≠ .chars
  lead : item.lead = none
  repetitions : item.repetitions = 0

/-- Some text puts an item on top of those of a reader, whatever follows. -/
def PutsItem (firm : Bool) (text : List Char) : Prop :=
  ∀ (reader : Reader) (rest : List Char), reader.Ready text.length →
    ∃ (next : Reader) (item : Item) (others : List Item),
      reader.readAll (text ++ rest) = next.readAll rest ∧ reader.Goes next ∧
        next.items = item :: others ∧
        (firm = true → item.Repeatable ∧ item.whole.repeatable = true)

/-- An item on its own is put on top of the items before it. -/
theorem Item.Alone.goes {item : Item} (alone : item.Alone expr) (sound : expr.Sound firm)
    (beside : reader.Beside next) (branches : next.branches = reader.branches)
    (top : next.items = item :: reader.items) (tame : ∀ item ∈ reader.items, item.Tame) :
    reader.Goes next ∧ (firm = true → item.Repeatable ∧ item.whole.repeatable = true) := by
  obtain ⟨rfl, kind, lead, repetitions⟩ := alone
  have one : item.Tame := ⟨sound.1, fun own held => by simp [lead] at held, fun chars => absurd chars kind⟩
  refine ⟨⟨beside, branches, ?_, fun firm => ?_⟩, fun asked => ?_⟩
  · rw [top]
    exact List.forall_mem_cons.mpr ⟨one, tame⟩
  · rw [top]
    exact firm.cons item
  · exact ⟨⟨.inr (sound.2 asked), repetitions⟩, Item.repeatable_whole (sound.2 asked)⟩

/-- An expression of its own is put on top of some items. -/
theorem goes_push (sound : expr.Sound firm) (tame : ∀ item ∈ reader.items, item.Tame) :
    let item : Item := ⟨expr, .single, none, 0⟩
    reader.Goes (reader.push item) ∧ (firm = true → item.Repeatable ∧ item.whole.repeatable = true) := by
  have alone : Item.Alone ⟨expr, .single, none, 0⟩ expr := ⟨rfl, nofun, rfl, rfl⟩
  have beside : reader.Beside (reader.push ⟨expr, .single, none, 0⟩) := ⟨rfl, rfl, rfl⟩
  exact alone.goes sound beside rfl rfl tame

/-- What takes one character puts an item that can be repeated. -/
theorem Single.putsItem (single : Single text) : PutsItem true text := by
  intro reader rest ready
  have some : 0 < text.length := by cases single <;> simp
  have shallow : reader.depth < deepest := by have := ready.room; omega
  rcases single.read ready.options shallow rest with ⟨c, read⟩ | ⟨expr, plain, stands, read⟩
  · obtain ⟨top, others, same, repeatable, solid, tame⟩ := itemsWithChar_cases ready.items c
    have items : (reader.pushChar c).items = top :: others := by
      rw [← same, Reader.pushChar, ready.options]
    have whole := Item.repeatable_whole solid
    refine ⟨reader.pushChar c, top, others, read, ⟨⟨rfl, rfl, rfl⟩, rfl, ?_, fun _ => ?_⟩, items,
      fun _ => ⟨repeatable, whole⟩⟩
    · rw [items]
      exact tame
    · rw [items]
      exact .of_head whole others
  · have sound : expr.Sound true :=
      ⟨Expr.tame_of_parts (parts_of_standsBehind stands), fun _ => repeatable_of_isPlain plain⟩
    obtain ⟨goes, again⟩ := goes_push sound ready.items
    exact ⟨_, _, reader.items, read, goes, rfl, again⟩

end Items

section Groups

variable {inner : Reader} {enclosure : Enclosure} {kind : GroupKind} {opening : List Char} {firm : Bool}

def Enclosure.expr? (body : Expr) : Enclosure → Option Expr
  | .plain => some body
  | .wrapped wrap => some (wrap body)
  | .capture index => some (.group index {} body)
  | _ => none

/-- A reader is in a group that another one has opened. -/
structure Reader.Inside (reader : Reader) (enclosure : Enclosure) (inner : Reader) : Prop where
  depth : inner.depth = reader.depth + 2
  enclosing : inner.enclosing =
    ⟨enclosure, reader.options, reader.branches, reader.items⟩ :: reader.enclosing

theorem Reader.Inside.beside (inside : reader.Inside enclosure inner) (beside : inner.Beside next) :
    reader.Inside enclosure next :=
  ⟨beside.depth.trans inside.depth, beside.enclosing.trans inside.enclosing⟩

/-- Where a group is closed, what it makes of its body is an item of its own. -/
theorem readAll_close (inside : reader.Inside enclosure inner)
    (made : enclosure.expr? inner.body = some expr) (near : inner.depth ≤ deepest) (rest : List Char) :
    ∃ next item, inner.readAll (')' :: rest) = next.readAll rest ∧ reader.Beside next ∧
      next.branches = reader.branches ∧ next.items = item :: reader.items ∧ item.Alone expr := by
  have shallow : inner.depth - 2 = reader.depth := by rw [inside.depth]; rfl
  have closes {next : Reader} (closed : inner.closeThrough rest inner.enclosing = .ok (next, 0)) :
      inner.readAll (')' :: rest) = next.readAll rest := by
    have token : readToken inner.surroundings ')' rest = .ok (.closeGroup, 0) := rfl
    refine readAll_char token ?_
    simp only [Reader.step, if_neg (Nat.not_lt.mpr near), closed]
  rw [inside.enclosing] at closes
  unfold Reader.closeThrough at closes
  cases enclosure with
  | plain =>
    cases made
    refine ⟨_, _, closes rfl, ⟨rfl, shallow, rfl⟩, rfl, rfl, rfl, ?_, rfl, rfl⟩
    dsimp only
    split <;> simp
  | wrapped wrap =>
    cases made
    exact ⟨_, _, closes rfl, ⟨rfl, shallow, rfl⟩, rfl, rfl, rfl, by simp, rfl, rfl⟩
  | capture index =>
    cases made
    exact ⟨_, _, closes rfl, ⟨rfl, shallow, rfl⟩, rfl, rfl, rfl, by simp, rfl, rfl⟩
  | option | test | branches => cases made

/-- Some text is read as the body of a group, which has a property. -/
def ReadsBody (holds : Expr → Prop) (text : List Char) : Prop :=
  ∀ (reader : Reader) (rest : List Char), reader.Ready text.length → reader.items = [] →
    reader.branches = [] → ∃ next, reader.readAll (text ++ ')' :: rest) = next.readAll (')' :: rest) ∧
      reader.Beside next ∧ holds next.body

/-- Some text after a parenthesis opens a group of a kind, unless the mark of a repetition follows. -/
def Opens (opening : List Char) (kind : GroupKind) : Prop :=
  ∀ (surroundings : Surroundings) (rest : List Char), surroundings.options = {} → rest ≠ [] → Follows rest →
    readToken surroundings '(' (opening ++ rest) = .ok (.openGroup kind {}, opening.length)

/-- A group puts what it makes of its body on top of the items before it. -/
theorem putsItem_group {holds : Expr → Prop} (opens : Opens opening kind)
    (starts : ∀ rest, Follows (text ++ ')' :: rest)) (reads : ReadsBody holds text)
    (encloses : ∀ reader : Reader, ∃ enclosure, reader.Inside enclosure (reader.openGroup kind {}) ∧
      ∀ body, holds body → ∃ expr : Expr, enclosure.expr? body = some expr ∧ expr.Sound firm) :
    PutsItem firm ('(' :: opening ++ (text ++ [')'])) := by
  intro reader rest ready
  have room := ready.room
  simp only [List.length_append, List.length_cons, List.length_nil] at room
  obtain ⟨enclosure, inside, makes⟩ := encloses reader
  obtain ⟨options, empty, none⟩ : (reader.openGroup kind {}).options = {} ∧
      (reader.openGroup kind {}).items = [] ∧ (reader.openGroup kind {}).branches = [] := by
    cases kind <;> exact ⟨rfl, rfl, rfl⟩
  have inner : (reader.openGroup kind {}).Ready text.length := by
    refine ⟨options, ?_, ?_⟩
    · rw [inside.depth]
      omega
    · rw [empty]
      exact fun _ member => absurd member List.not_mem_nil
  have opened : reader.readAll ('(' :: opening ++ (text ++ ')' :: rest)) =
      (reader.openGroup kind {}).readAll (text ++ ')' :: rest) := by
    have token := opens reader.surroundings _ ready.options (by simp) (starts rest)
    have step : reader.step (.openGroup kind {}) ((opening ++ (text ++ ')' :: rest)).drop opening.length) =
        .ok (reader.openGroup kind {}, 0) := by
      simp only [Reader.step, if_neg (Nat.not_lt.mpr (show reader.depth ≤ deepest by omega))]
    have read := readAll_cons token step
    simpa using read
  obtain ⟨last, readBody, beside, body⟩ := reads _ rest inner empty none
  obtain ⟨expr, made, sound⟩ := makes last.body body
  have near : last.depth ≤ deepest := by
    rw [beside.depth, inside.depth]
    omega
  obtain ⟨next, item, closed, same, branches, top, alone⟩ :=
    readAll_close (inside.beside beside) made near rest
  obtain ⟨goes, again⟩ := alone.goes sound same branches top ready.items
  refine ⟨next, item, reader.items, ?_, goes, top, again⟩
  rw [List.append_assoc, List.append_assoc, List.singleton_append]
  exact opened.trans (readBody.trans closed)

end Groups

section Parts

variable {firm other : Bool} {more chars : List Char}

theorem follows_cons {c : Char} (known : c ∉ ['?', '*', '+']) (rest : List Char) : Follows (c :: rest) := by
  intro first head
  cases head
  exact known

theorem follows_of_isMark {c : Char} (stands : isMark c = false) (rest : List Char) :
    Follows (c :: rest) := by
  refine follows_cons (fun mark => ?_) rest
  have all : ['?', '*', '+'].all isMark = true := by decide
  rw [List.all_eq_true.mp all c mark] at stands
  cases stands

theorem isMark_of_hasMeaning {c : Char} (stands : hasMeaning c = false) : isMark c = false := by
  refine Bool.eq_false_iff.mpr fun mark => ?_
  have all : ['\\', '|', '(', ')', '[', '\x7b', '.', '*', '+', '?', '^', '$'].all hasMeaning = true := by
    decide
  rw [List.all_eq_true.mp all c (List.contains_iff_mem.mp mark)] at stands
  cases stands

theorem follows_of_spelled (spelled : spelled? text = some chars) (rest : List Char) :
    Follows (text ++ ')' :: rest) := by
  fun_cases spelled? text with
  | case1 => exact follows_cons (by decide) _
  | case2 | case3 => exact follows_cons (by decide) _
  | case4 c text other meaning =>
    rw [spelled?.eq_3 c text other, if_pos meaning] at spelled
    cases spelled
  | case5 c text _ plain => exact follows_of_isMark (isMark_of_hasMeaning (Bool.eq_false_iff.mpr plain)) _

theorem Single.follows (single : Single text) (rest : List Char) : Follows (text ++ rest) := by
  cases single with
  | plain stands => exact follows_of_isMark stands rest
  | escaped | control | any | named | oneOf | noneOf => exact follows_cons (by decide) _

theorem follows_of_mem {texts : List (List Char)}
    (all : texts.all (·.head?.any fun c => !(['?', '*', '+'].contains c)) = true) (known : text ∈ texts)
    (rest : List Char) : Follows (text ++ rest) := by
  have starts := List.all_eq_true.mp all text known
  cases text with
  | nil => cases starts
  | cons c text => exact follows_cons (by simpa using starts) _

/-- No part of a pattern starts with the mark of a repetition. -/
theorem Written.follows {shape : Shape} (written : Written shape text) (follows : Follows rest) :
    Follows (text ++ rest) := by
  induction written generalizing rest with
  | nothing | none => exact follows
  | one single => exact single.follows rest
  | repeated single known =>
    rw [List.append_assoc]
    exact single.follows _
  | condition known => exact follows_of_mem (by decide) known rest
  | behind known | behindOne known | behindCondition known | ahead known | group known | repeatedGroup known =>
    rw [List.append_assoc]
    exact follows_of_mem (by decide) known _
  | plain | repeatedPlain => exact follows_cons (by decide) _
  | next first second ihFirst ihSecond =>
    rw [List.append_assoc]
    exact ihFirst (ihSecond follows)
  | whole only ih => exact ih follows
  | choice first others ihFirst ihOthers =>
    rw [List.append_assoc]
    exact ihFirst (follows_cons (by decide) _)

/-- Some text is read as items that follow those of a reader. -/
def ReadsItems (firm : Bool) (text : List Char) : Prop :=
  ∀ (reader : Reader) (rest : List Char), reader.Ready text.length → Follows rest →
    ∃ next, reader.readAll (text ++ rest) = next.readAll rest ∧ reader.Goes next ∧
      (firm = true → Firm next.items)

/-- Some text is read as the last branches of a group. -/
def ReadsBranches (firm : Bool) (text : List Char) : Prop :=
  ∀ (reader : Reader) (rest : List Char), reader.Ready text.length → Follows rest → reader.items = [] →
    (∀ branch ∈ reader.branches, branch.Sound firm) →
    ∃ next, reader.readAll (text ++ rest) = next.readAll rest ∧ reader.Beside next ∧
      ∀ branch ∈ Reader.branch next.items :: next.branches, branch.Sound firm

/-- What a part of a pattern is read as. -/
def Shape.Reads : Shape → List Char → Prop
  | .branch firm => ReadsItems firm
  | .branches firm => ReadsBranches firm

theorem Reader.Ready.after {length : Nat} (ready : reader.Ready length) (goes : reader.Goes next)
    {left : Nat} (less : left ≤ length) : next.Ready left := by
  refine ⟨goes.options.trans ready.options, ?_, goes.tame⟩
  have := ready.room
  rw [goes.depth]
  omega

theorem PutsItem.readsItems (puts : PutsItem other text) (firms : firm = true → other = true) :
    ReadsItems firm text := by
  intro reader rest ready _
  obtain ⟨next, item, others, read, goes, top, again⟩ := puts reader rest ready
  refine ⟨next, read, goes, fun asked => ?_⟩
  rw [top]
  exact .of_head (again (firms asked)).2 others

/-- An item and the mark of a repetition behind it. -/
theorem PutsItem.readsItems_mark (puts : PutsItem true text) (known : mark ∈ marks) :
    ReadsItems firm (text ++ mark) := by
  intro reader rest ready follows
  have some : 0 < mark.length := by
    have all : marks.all (fun mark => decide (0 < mark.length)) = true := by decide
    exact of_decide_eq_true (List.all_eq_true.mp all mark known)
  have room := ready.room
  rw [List.length_append] at room
  obtain ⟨next, item, others, read, goes, top, again⟩ :=
    puts reader (mark ++ rest) ⟨ready.options, by omega, ready.items⟩
  obtain ⟨one, tame⟩ := List.forall_mem_cons.mp (top ▸ goes.tame)
  have shallow : next.depth < deepest := by
    rw [goes.depth]
    omega
  obtain ⟨made, ofMade, solid, repeated⟩ := readAll_mark known follows top (again rfl).1 one shallow
  refine ⟨{ next with items := made :: others }, ?_,
    ⟨⟨goes.options, goes.depth, goes.enclosing⟩, goes.branches, List.forall_mem_cons.mpr ⟨ofMade, tame⟩,
      fun _ => .of_head solid others⟩, fun _ => .of_head solid others⟩
  rw [List.append_assoc, read, repeated]

/-- Parts after one another are read as their items after one another. -/
theorem ReadsItems.append (first : ReadsItems firm text) (second : ReadsItems other more)
    (starts : ∀ rest, Follows rest → Follows (more ++ rest)) :
    ReadsItems (firm || other) (text ++ more) := by
  intro reader rest ready follows
  have room := ready.room
  rw [List.length_append] at room
  obtain ⟨middle, read, goes, solid⟩ :=
    first reader (more ++ rest) ⟨ready.options, by omega, ready.items⟩ (starts rest follows)
  obtain ⟨next, readMore, goesOn, solidMore⟩ :=
    second middle rest (ready.after goes (by rw [List.length_append]; omega)) follows
  refine ⟨next, ?_, goes.trans goesOn, fun asked => ?_⟩
  · rw [List.append_assoc, read, readMore]
  · rcases Bool.or_eq_true_iff.mp asked with one | two
    · exact goesOn.firm (solid one)
    · exact solidMore two

/-- A branch of items that have been read. -/
theorem sound_branch (goes : reader.Goes next)
    (solid : firm = true → Firm next.items) : (Reader.branch next.items).Sound firm :=
  ⟨tame_branch goes.tame, fun asked => repeatable_branch (.inr (solid asked))⟩

theorem ReadsItems.readsBranches (only : ReadsItems firm text) : ReadsBranches firm text := by
  intro reader rest ready follows empty sound
  obtain ⟨next, read, goes, solid⟩ := only reader rest ready follows
  refine ⟨next, read, goes.toBeside, List.forall_mem_cons.mpr ⟨sound_branch goes solid, ?_⟩⟩
  rwa [goes.branches]

theorem readsBranches_nil : ReadsBranches firm [] := by
  intro reader rest _ _ empty sound
  refine ⟨reader, rfl, ⟨rfl, rfl, rfl⟩, List.forall_mem_cons.mpr ⟨?_, sound⟩⟩
  rw [empty]
  exact ⟨Expr.tame_of_parts rfl, fun _ => rfl⟩

/-- A bar ends a branch and begins the next. -/
theorem ReadsItems.bar (first : ReadsItems firm text) (others : ReadsBranches firm more) :
    ReadsBranches firm (text ++ '|' :: more) := by
  intro reader rest ready follows empty sound
  have room := ready.room
  rw [List.length_append, List.length_cons] at room
  obtain ⟨middle, read, goes, solid⟩ := first reader ('|' :: (more ++ rest))
    ⟨ready.options, by omega, ready.items⟩ (follows_cons (by decide) _)
  let behind : Reader := { middle with branches := Reader.branch middle.items :: middle.branches, items := [] }
  have near : middle.depth ≤ deepest := by
    rw [goes.depth]
    omega
  have bar : middle.readAll ('|' :: (more ++ rest)) = behind.readAll (more ++ rest) := by
    have token : readToken middle.surroundings '|' (more ++ rest) = .ok (.bar, 0) := rfl
    refine readAll_char token ?_
    simp only [Reader.step, if_neg (Nat.not_lt.mpr near)]
    rfl
  have passed : reader.Beside behind := ⟨goes.options, goes.depth, goes.enclosing⟩
  have readyBehind : behind.Ready more.length := by
    refine ⟨passed.options.trans ready.options, ?_, fun _ member => absurd member List.not_mem_nil⟩
    rw [passed.depth]
    omega
  obtain ⟨next, readMore, beside, all⟩ := others behind rest readyBehind follows rfl
    (List.forall_mem_cons.mpr ⟨sound_branch goes solid, by rwa [goes.branches]⟩)
  refine ⟨next, ?_, passed.trans beside, all⟩
  rw [List.append_assoc, List.cons_append, read, bar, readMore]

/-- Branches that nothing is refused in are a body that nothing is refused in. -/
theorem sound_body (sound : ∀ branch ∈ Reader.branch reader.items :: reader.branches, branch.Sound firm) :
    reader.body.Sound firm := by
  have all : ∀ branch ∈ (Reader.branch reader.items :: reader.branches).reverse, branch.Sound firm :=
    fun branch member => sound branch (List.mem_reverse.mp member)
  have made := alternatives_cases (Reader.branch reader.items :: reader.branches).reverse (by simp)
  exact ⟨made.1 fun branch member => (all branch member).1,
    fun asked => made.2 fun branch member => (all branch member).2 asked⟩

theorem ReadsBranches.readsBody (branches : ReadsBranches firm text) :
    ReadsBody (Expr.Sound firm) text := by
  intro reader rest ready empty none
  obtain ⟨next, read, beside, sound⟩ := branches reader (')' :: rest) ready
    (follows_cons (by decide) _) empty (by rw [none]; exact fun _ member => absurd member List.not_mem_nil)
  exact ⟨next, read, beside, sound_body sound⟩

end Parts

section Openings

variable {firm : Bool} {opening chars : List Char}

/-- What a condition is read as. -/
theorem readAll_condition (known : text ∈ conditions) (shallow : reader.depth ≤ deepest) (rest : List Char) :
    ∃ expr : Expr, expr.parts = [] ∧ (text ∈ behindConditions → expr.standsBehind = true) ∧
      reader.readAll (text ++ rest) = (reader.push ⟨expr, .single, none, 0⟩).readAll rest := by
  obtain ⟨first, others, expr, rfl, none, stands, token⟩ : ∃ first others, ∃ expr : Expr,
      text = first :: others ∧ expr.parts = [] ∧ (text ∈ behindConditions → expr.standsBehind = true) ∧
      readToken reader.surroundings first (others ++ rest) = .ok (.items [expr], others.length) := by
    simp only [conditions, behindConditions, List.mem_cons, List.not_mem_nil, or_false] at known
    rcases known with rfl | rfl | rfl | rfl | rfl | rfl | rfl <;>
      first
        | exact ⟨_, _, _, rfl, rfl, fun _ => rfl, rfl⟩
        | exact ⟨_, _, _, rfl, rfl, by decide, rfl⟩
  have read := readAll_cons token (step_items shallow expr _)
  exact ⟨expr, none, stands, by simpa using read⟩

/-- A condition is an item on its own. -/
theorem readsItems_condition (known : text ∈ conditions) : ReadsItems false text := by
  intro reader rest ready _
  have near : reader.depth ≤ deepest := Nat.le_of_add_right_le ready.room
  obtain ⟨expr, none, -, read⟩ := readAll_condition known near rest
  have sound : expr.Sound false := ⟨Expr.tame_of_parts none, nofun⟩
  obtain ⟨goes, -⟩ := goes_push sound ready.items
  exact ⟨_, read, goes, nofun⟩

/-- A parenthesis without a mark opens a group that is captured. -/
theorem opens_capture : Opens [] (.capture none) := by
  intro surroundings rest plain some follows
  show readGroup surroundings rest = _
  cases rest with
  | nil => exact absurd rfl some
  | cons c rest =>
    have known := follows c rfl
    unfold readGroup
    split
    next same =>
      cases same
      exact absurd known (by decide)
    next same =>
      cases same
      exact absurd known (by decide)
    next same => cases same
    next =>
      rw [plain]
      rfl

/-- What stands behind a question mark says what a group is, whatever follows. -/
theorem opens_of_eq {kind : GroupKind}
    (same : ∀ groups room rest, readToken ⟨{}, groups, room⟩ '(' (opening ++ rest) =
      .ok (.openGroup kind {}, opening.length)) : Opens opening kind := by
  rintro ⟨options, groups, room⟩ rest plain - -
  cases plain
  exact same groups room rest

/-- A group takes what is in it. -/
theorem putsItem_enclosed (known : opening ∈ groupOpenings) (starts : ∀ rest, Follows (text ++ ')' :: rest))
    (reads : ReadsBody (Expr.Sound false) text) : PutsItem true (opening ++ (text ++ [')'])) := by
  have either : opening = ['('] ∨ opening = ['(', '?', '>'] := by simpa [groupOpenings] using known
  rcases either with rfl | rfl
  · refine putsItem_group opens_capture starts reads fun reader =>
      ⟨.capture (reader.groups.count + 1), ⟨rfl, rfl⟩, fun body sound => ⟨_, rfl, ?_, fun _ => rfl⟩⟩
    exact List.forall_mem_cons.mpr ⟨rfl, sound.1⟩
  · exact putsItem_group (opens_of_eq fun _ _ _ => rfl) starts reads fun reader =>
      ⟨.wrapped .atomic, ⟨rfl, rfl⟩, fun body sound => ⟨_, rfl, sound.1, fun _ => rfl⟩⟩

theorem putsItem_plain {firm : Bool} (starts : ∀ rest, Follows (text ++ ')' :: rest))
    (reads : ReadsBody (Expr.Sound firm) text) : PutsItem firm ("(?:".toList ++ (text ++ [')'])) :=
  putsItem_group (opens_of_eq fun _ _ _ => rfl) starts reads fun _ =>
    ⟨.plain, ⟨rfl, rfl⟩, fun body sound => ⟨body, rfl, sound⟩⟩

theorem putsItem_ahead (known : opening ∈ aheadOpenings) (starts : ∀ rest, Follows (text ++ ')' :: rest))
    (reads : ReadsBody (Expr.Sound false) text) : PutsItem false (opening ++ (text ++ [')'])) := by
  have either : opening = ['(', '?', '='] ∨ opening = ['(', '?', '!'] := by
    simpa [aheadOpenings] using known
  rcases either with rfl | rfl
  · exact putsItem_group (opens_of_eq fun _ _ _ => rfl) starts reads fun _ =>
      ⟨.wrapped (.lookAhead false), ⟨rfl, rfl⟩, fun body sound => ⟨_, rfl, sound.1, nofun⟩⟩
  · exact putsItem_group (opens_of_eq fun _ _ _ => rfl) starts reads fun _ =>
      ⟨.wrapped (.lookAhead true), ⟨rfl, rfl⟩, fun body sound => ⟨_, rfl, sound.1, nofun⟩⟩

/-- A look-behind whose body stands behind puts an item that cannot be repeated. -/
theorem putsItem_behind (known : opening ∈ behindOpenings) (starts : ∀ rest, Follows (text ++ ')' :: rest))
    (reads : ReadsBody (·.standsBehind = true) text) : PutsItem false (opening ++ (text ++ [')'])) := by
  have tame (negated : Bool) {body : Expr} (stands : body.standsBehind = true) :
      (Expr.lookBehind negated ⟨0, some 0⟩ body).Tame :=
    List.forall_mem_cons.mpr ⟨stands, Expr.tame_of_parts (parts_of_standsBehind stands)⟩
  have either : opening = ['(', '?', '<', '='] ∨ opening = ['(', '?', '<', '!'] := by
    simpa [behindOpenings] using known
  rcases either with rfl | rfl
  · exact putsItem_group (opens_of_eq fun _ _ _ => rfl) starts reads fun _ =>
      ⟨.wrapped (.lookBehind false ⟨0, some 0⟩), ⟨rfl, rfl⟩, fun body stands =>
        ⟨_, rfl, tame false stands, nofun⟩⟩
  · exact putsItem_group (opens_of_eq fun _ _ _ => rfl) starts reads fun _ =>
      ⟨.wrapped (.lookBehind true ⟨0, some 0⟩), ⟨rfl, rfl⟩, fun body stands =>
        ⟨_, rfl, tame true stands, nofun⟩⟩

/-- A text that is spelled is not longer than the pattern. -/
theorem length_le_of_spelled (spelled : spelled? text = some chars) : chars.length ≤ text.length := by
  fun_induction spelled? text generalizing chars with
  | case1 =>
    cases spelled
    exact Nat.le_refl _
  | case2 c rest loses ih =>
    obtain ⟨others, same, rfl⟩ := Option.map_eq_some_iff.mp spelled
    have := ih same
    simp only [List.length_cons]
    omega
  | case3 | case4 => cases spelled
  | case5 c rest _ plain ih =>
    obtain ⟨others, same, rfl⟩ := Option.map_eq_some_iff.mp spelled
    exact Nat.succ_le_succ (ih same)

/-- A text is the body of a group, which a look-behind can have. -/
theorem readsBody_of_spelled (spelled : spelled? text = some chars) :
    ReadsBody (·.standsBehind = true) text := by
  intro reader rest ready empty none
  have room := ready.room
  have near : chars.length ≤ farthestBehind := by
    have := length_le_of_spelled spelled
    have : deepest ≤ farthestBehind := by decide
    omega
  have read := readsAs_of_spelled spelled reader (')' :: rest) (by omega)
  cases chars with
  | nil =>
    refine ⟨reader, read, ⟨rfl, rfl, rfl⟩, ?_⟩
    rw [Reader.body, empty, none]
    rfl
  | cons c chars =>
    have first : reader.pushChar c = { reader with items := ⟨.text [c] false, .chars, .none, 0⟩ :: [] } := by
      rw [Reader.pushChar, empty, ready.options]
      rfl
    rw [List.foldl_cons, first, foldl_pushChar, List.singleton_append] at read
    refine ⟨_, read, ⟨rfl, rfl, rfl⟩, ?_⟩
    rw [Reader.body]
    dsimp only
    rw [none]
    exact decide_eq_true near

/-- The body of a group with one item is the expression of the item. -/
theorem body_push (empty : reader.items = []) (alone : reader.branches = []) (expr : Expr) :
    (reader.push ⟨expr, .single, none, 0⟩).body = expr := by
  rw [Reader.body, Reader.push]
  dsimp only
  rw [empty, alone]
  rfl

/-- What takes one character is the body of a group, which a look-behind can have. -/
theorem Single.readsBody (single : Single text) : ReadsBody (·.standsBehind = true) text := by
  intro reader rest ready empty none
  have some : 0 < text.length := by cases single <;> simp
  have shallow : reader.depth < deepest := by have := ready.room; omega
  rcases single.read ready.options shallow (')' :: rest) with ⟨c, read⟩ | ⟨expr, -, stands, read⟩
  · refine ⟨_, read, ⟨rfl, rfl, rfl⟩, ?_⟩
    rw [Reader.body, Reader.pushChar]
    dsimp only
    rw [empty, none, ready.options]
    rfl
  · exact ⟨_, read, ⟨rfl, rfl, rfl⟩, (body_push empty none expr).symm ▸ stands⟩

/-- A condition is the body of a group, which a look-behind can have. -/
theorem readsBody_condition (known : text ∈ behindConditions) : ReadsBody (·.standsBehind = true) text := by
  intro reader rest ready empty none
  have near : reader.depth ≤ deepest := Nat.le_of_add_right_le ready.room
  obtain ⟨expr, -, stands, read⟩ :=
    readAll_condition (List.mem_cons_of_mem _ known) near (')' :: rest)
  exact ⟨_, read, ⟨rfl, rfl, rfl⟩, (body_push empty none expr).symm ▸ stands known⟩

end Openings

theorem append_close (opening text mark : List Char) :
    opening ++ (text ++ ')' :: mark) = opening ++ (text ++ [')']) ++ mark := by
  simp

/-- A part of a pattern is read as what it is written for. The induction is on how it is written. Each part is
read whatever is around it. -/
theorem Written.reads {shape : Shape} (written : Written shape text) : shape.Reads text := by
  induction written with
  | nothing => exact fun reader rest ready _ => ⟨reader, rfl, ⟨⟨rfl, rfl, rfl⟩, rfl, ready.items, id⟩, nofun⟩
  | one single => exact single.putsItem.readsItems fun _ => rfl
  | repeated single known => exact single.putsItem.readsItems_mark known
  | condition known => exact readsItems_condition known
  | behind known spelled =>
    exact (putsItem_behind known (follows_of_spelled spelled) (readsBody_of_spelled spelled)).readsItems id
  | behindOne known single =>
    exact (putsItem_behind known (fun _ => single.follows _) single.readsBody).readsItems id
  | behindCondition known stands =>
    exact (putsItem_behind known (follows_of_mem (by decide) stands <| ')' :: ·)
      (readsBody_condition stands)).readsItems id
  | ahead known body ih =>
    exact (putsItem_ahead known (fun _ => body.follows (follows_cons (by decide) _))
      (ReadsBranches.readsBody ih)).readsItems id
  | group known body ih =>
    exact (putsItem_enclosed known (fun _ => body.follows (follows_cons (by decide) _))
      (ReadsBranches.readsBody ih)).readsItems fun _ => rfl
  | repeatedGroup known body knownMark ih =>
    have puts := putsItem_enclosed known (fun _ => body.follows (follows_cons (by decide) _))
      (ReadsBranches.readsBody ih)
    rw [append_close]
    exact puts.readsItems_mark knownMark
  | plain body ih =>
    exact (putsItem_plain (fun _ => body.follows (follows_cons (by decide) _))
      (ReadsBranches.readsBody ih)).readsItems id
  | repeatedPlain body known ih =>
    have puts := putsItem_plain (fun _ => body.follows (follows_cons (by decide) _))
      (ReadsBranches.readsBody ih)
    rw [append_close]
    exact puts.readsItems_mark known
  | next first second ihFirst ihSecond =>
    exact ReadsItems.append ihFirst ihSecond fun _ follows => second.follows follows
  | none => exact readsBranches_nil
  | whole only ih => exact ReadsItems.readsBranches ih
  | choice first others ihFirst ihOthers => exact ReadsItems.bar ihFirst ihOthers

theorem Written.readsBranches {shape : Shape} (written : Written shape text) :
    ∃ firm, ReadsBranches firm text := by
  have reads := written.reads
  cases shape with
  | branch firm => exact ⟨firm, ReadsItems.readsBranches reads⟩
  | branches firm => exact ⟨firm, reads⟩

/-- A whole pattern that is written as documented is read, and nothing in it is refused. -/
theorem Written.readPattern {shape : Shape} {pattern : String} (written : Written shape pattern.toList)
    (room : pattern.toList.length ≤ deepest - 2) :
    ∃ reading, Regex.readPattern pattern = .ok reading ∧ reading.expr.Tame := by
  obtain ⟨firm, reads⟩ := written.readsBranches
  have start : Reader.Ready {} pattern.toList.length := by
    refine ⟨rfl, ?_, fun _ member => absurd member List.not_mem_nil⟩
    have : 2 ≤ deepest := by decide
    show 2 + _ ≤ _
    omega
  obtain ⟨next, read, beside, sound⟩ := reads {} [] start (fun _ head => by cases head) rfl
    fun _ member => absurd member List.not_mem_nil
  have near : ¬ deepest < next.depth := by
    rw [beside.depth]
    decide
  rw [List.append_nil, Reader.readAll.eq_1, if_neg near] at read
  refine ⟨⟨next.body, next.groups.count, next.groups.names⟩, ?_, (sound_body sound).1⟩
  have closed : next.finishThrough next.enclosing = .ok next := by
    rw [beside.enclosing]
    rfl
  rw [Regex.readPattern, read]
  simp only [bind, Except.bind, closed]
  rfl

end Readers

/-- The engine that backtracks takes the patterns that are written as documented, unless they are so long that
they could nest too deeply. -/
theorem takesWritten_backtracking : backtracking.TakesWritten (deepest - 2) := by
  intro pattern shape written room
  obtain ⟨reading, read, tame⟩ := written.readPattern room
  obtain ⟨program, prepared⟩ := Reading.program_of_tame tame
  have parsed : parse pattern = .ok program := by
    rw [parse, read]
    exact prepared
  exact ⟨_, compile_of_parse parsed⟩

end ScopeLexer.Regex
