import ScopeLexer.Proofs.ExpressionParts
import ScopeLexer.Regex.Preparation

/-!
What preparing a pattern can refuse. Only back-references, calls and look-behinds are ever refused. So a
pattern is prepared that has neither references nor calls, and in each of whose look-behinds there is a text,
what takes one character, or a condition.
-/
namespace ScopeLexer.Regex

namespace Expr

variable {expr : Expr}

/-- Whether an expression can always be looked for behind a place: a text that is not too long, one
character, or a condition. -/
def standsBehind : Expr → Bool
  | .text chars ignoreCase => !ignoreCase && decide (chars.length ≤ farthestBehind)
  | .any _ | .word _ _ | .oneOf _ _ => true
  | .anchor condition => condition.allowedBehind
  | _ => false

/-- Whether a part of a pattern is never refused. -/
def isSettled : Expr → Bool
  | .group _ _ _ => true
  | .lookBehind _ _ body => body.standsBehind
  | _ => false

/-- Nothing in an expression can be refused. -/
def Tame (expr : Expr) : Prop := ∀ part ∈ expr.parts, part.isSettled = true

section Texts

/-- Merging neighbouring texts keeps the parts of the expressions. -/
theorem parts_mergeTexts (exprs : List Expr) : (mergeTexts exprs).flatMap parts = exprs.flatMap parts := by
  induction exprs with
  | nil => rfl
  | cons expr exprs ih =>
    rw [mergeTexts.eq_def]
    dsimp only
    split
    next own rest chars ignoreCase more moreIgnoreCase others merged =>
      rw [merged] at ih
      split <;> exact ih
    next => rw [List.flatMap_cons, List.flatMap_cons, ih]

/-- The parts of an expression in which texts are put together. -/
theorem parts_joinTexts (expr : Expr) : expr.joinTexts.parts = expr.parts.map joinTexts := by
  induction expr using Expr.induction with
  | text | any | word | oneOf | anchor | verb | backref | filled | call => rfl
  | list items ih =>
    have whole : (Expr.list items).joinTexts = .list (mergeTexts (items.map joinTexts)) := by
      rw [joinTexts, everywhere, allEverywhere_eq]
      rfl
    rw [whole, parts_list, parts_mergeTexts, parts_list, List.flatMap_map, List.map_flatMap]
    exact List.flatMap_congr ih
  | choice branches ih =>
    have whole : (Expr.choice branches).joinTexts = .choice (branches.map joinTexts) := by
      rw [joinTexts, everywhere, allEverywhere_eq]
      rfl
    rw [whole, parts_choice, parts_choice, List.flatMap_map, List.map_flatMap]
    exact List.flatMap_congr ih
  | many body rounds ih | lookAhead negated body ih => exact ih
  | part body ih | atomic body ih => exact ih
  | group index traits body ih => exact congrArg (Expr.group index traits body.joinTexts :: ·) ih
  | lookBehind negated reach body ih =>
    exact congrArg (Expr.lookBehind negated reach body.joinTexts :: ·) ih
  | conditional test yes no ihTest ihYes ihNo =>
    have whole : (Expr.conditional test yes no).joinTexts.parts =
        test.joinTexts.parts ++ yes.joinTexts.parts ++ no.joinTexts.parts := rfl
    rw [whole, ihTest, ihYes, ihNo, parts_conditional, List.map_append, List.map_append]

theorem isSettled_joinTexts (settled : expr.isSettled = true) : expr.joinTexts.isSettled = true := by
  cases expr with
  | group => rfl
  | lookBehind negated reach body => cases body <;> exact settled
  | _ => cases settled

theorem Tame.joinTexts (tame : expr.Tame) : expr.joinTexts.Tame := by
  intro part member
  rw [parts_joinTexts] at member
  obtain ⟨own, written, rfl⟩ := List.mem_map.mp member
  exact isSettled_joinTexts (tame own written)

end Texts

/-- There are no references where all parts are settled. -/
theorem Tame.references (tame : expr.Tame) : expr.references = [] := by
  rw [references_eq_parts, List.flatMap_eq_nil_iff]
  intro part member
  have settled := tame part member
  cases part <;> first | rfl | cases settled

theorem Tame.calls (tame : expr.Tame) : expr.calls = [] := by
  rw [calls_eq_parts, List.flatMap_eq_nil_iff]
  intro part member
  have settled := tame part member
  cases part <;> first | rfl | cases settled

end Expr

section Refusals

variable {α β : Type}

/-- A preparation succeeds, whatever the bodies of the groups. -/
def Succeeds (prepares : Preparing α) : Prop := ∀ bodies, ∃ made, prepares.run bodies = .ok made

namespace Succeeds

variable {prepares : Preparing α} {next : α → Preparing β}

theorem pure (made : α) : Succeeds (Pure.pure made) := fun bodies => ⟨(made, bodies), rfl⟩

theorem bind (first : Succeeds prepares) (later : ∀ made, Succeeds (next made)) :
    Succeeds (prepares >>= next) := by
  intro bodies
  obtain ⟨⟨middle, between⟩, made⟩ := first bodies
  obtain ⟨last, ended⟩ := later middle between
  refine ⟨last, ?_⟩
  rw [StateT.run_bind, made]
  exact ended

theorem get : Succeeds (MonadState.get : Preparing Bodies) := fun bodies => ⟨(bodies, bodies), rfl⟩

theorem modify (change : Bodies → Bodies) : Succeeds (modify change) :=
  fun bodies => ⟨((), change bodies), rfl⟩

theorem lift {result : Except Error α} (taken : ∃ made, result = .ok made) :
    Succeeds (liftM result : Preparing α) := by
  obtain ⟨made, rfl⟩ := taken
  exact .pure made

end Succeeds

namespace Expr

variable {expr body : Expr}

/-- A text, a character or a condition is settled as a look-behind that reaches back over it. -/
theorem settleBehind_standsBehind (stands : body.standsBehind = true) (bodies : Bodies)
    (isUsed : Expr → Bool) (negated : Bool) (divisions : Nat) :
    ∃ made, bodies.settleBehind isUsed negated divisions body = .ok made := by
  have settled (width : Width) (trims : body.trimStart = .ok body) (takes : bodies.width body = .ok width)
      (near : width.least ≤ farthestBehind) (fixed : width.most = some width.least) :
      ∃ made, bodies.settleBehind isUsed negated divisions body = .ok made := by
    rw [Bodies.settleBehind.eq_def]
    simp only [trims, takes, bind, Except.bind, pure, Except.pure, fixed, Option.any_some,
      Nat.not_lt.mpr near, decide_false, Bool.or_self, Bool.false_eq_true, if_false, Width.isFixed,
      decide_true, if_true]
    split <;> exact ⟨_, rfl⟩
  cases body with
  | text chars ignoreCase =>
    simp only [standsBehind, Bool.and_eq_true, Bool.not_eq_true', decide_eq_true_eq] at stands
    obtain ⟨rfl, near⟩ := stands
    exact settled (.exactly chars.length) rfl rfl near rfl
  | any | word | oneOf => exact settled (.exactly 1) rfl rfl (by decide) rfl
  | anchor => exact settled .nothing rfl rfl (by decide) rfl
  | _ => cases stands

/-- A look-behind whose body may stand there is prepared without a complaint. -/
theorem succeeds_lookBehind (stands : body.standsBehind = true) (used : List Nat) (negated : Bool)
    (reach : Reach) (inLookBehind : Bool) :
    Succeeds ((Expr.lookBehind negated reach body).prepare used inLookBehind) := by
  have allowed (bodies : Bodies) : bodies.allowsBehind negated body = true := by
    cases body <;> first | rfl | exact stands | cases stands
  have prepared : body.prepare used true = pure body := by
    cases body with
    | text chars ignoreCase =>
      simp only [standsBehind, Bool.and_eq_true, Bool.not_eq_true'] at stands
      obtain ⟨rfl, -⟩ := stands
      rfl
    | any | word | oneOf | anchor => rfl
    | _ => cases stands
  rw [prepare]
  refine Succeeds.get.bind fun bodies => ?_
  simp only [allowed, Bool.not_true, Bool.false_eq_true, if_false]
  rw [prepared, pure_bind]
  exact Succeeds.get.bind fun last => .lift (settleBehind_standsBehind stands last _ negated _)

/-- An expression of which no part is refused is prepared. -/
theorem Tame.succeeds (tame : expr.Tame) (used : List Nat) (inLookBehind : Bool) :
    Succeeds (expr.prepare used inLookBehind) := by
  have all {exprs : List Expr} (ih : ∀ expr ∈ exprs, expr.Tame →
        ∀ inLookBehind, Succeeds (expr.prepare used inLookBehind))
      (tame : ∀ part ∈ exprs.flatMap parts, part.isSettled = true) (inLookBehind : Bool) :
      Succeeds (prepareAll used inLookBehind exprs) := by
    induction exprs with
    | nil => exact .pure _
    | cons expr exprs ihExprs =>
      obtain ⟨first, others⟩ := List.forall_mem_cons.mp ih
      rw [List.flatMap_cons] at tame
      obtain ⟨ofFirst, ofOthers⟩ := List.forall_mem_append.mp tame
      exact (first ofFirst inLookBehind).bind fun _ =>
        (ihExprs others ofOthers).bind fun _ => .pure _
  induction expr using Expr.induction generalizing inLookBehind with
  | text | any | word | oneOf | anchor | verb | backref | filled | call => exact .pure _
  | list items ih =>
    rw [Tame, parts_list] at tame
    rw [prepare]
    exact (all ih tame inLookBehind).bind fun _ => .pure _
  | choice branches ih =>
    rw [Tame, parts_choice] at tame
    rw [prepare]
    exact (all ih tame inLookBehind).bind fun _ => .pure _
  | many body rounds ih =>
    exact Succeeds.get.bind fun _ => (ih tame inLookBehind).bind fun _ => .pure _
  | part body ih | atomic body ih => exact (ih tame inLookBehind).bind fun _ => .pure _
  | group index traits body ih =>
    exact (ih (List.forall_mem_cons.mp tame).2 inLookBehind).bind fun _ =>
      (Succeeds.modify _).bind fun _ => .pure _
  | lookAhead negated body ih => exact (ih tame inLookBehind).bind fun _ => .pure _
  | lookBehind negated reach body ih =>
    exact succeeds_lookBehind (List.forall_mem_cons.mp tame).1 used negated reach inLookBehind
  | conditional test yes no ihTest ihYes ihNo =>
    obtain ⟨both, ofNo⟩ := List.forall_mem_append.mp tame
    obtain ⟨ofTest, ofYes⟩ := List.forall_mem_append.mp both
    exact (ihTest ofTest inLookBehind).bind fun _ => (ihYes ofYes inLookBehind).bind fun _ =>
      (ihNo ofNo inLookBehind).bind fun _ => .pure _

end Expr

/-- A pattern is prepared if nothing in it can be refused. -/
theorem Reading.program_of_tame {reading : Reading} (tame : reading.expr.Tame) :
    ∃ program, reading.program = .ok program := by
  have joined := tame.joinTexts
  obtain ⟨made, prepared⟩ := joined.succeeds [] false ((0, reading.expr.joinTexts) :: reading.expr.joinTexts.groupBodies)
  simp only [program, joined.references, List.any_nil, Bool.false_eq_true, if_false, resolveCalls,
    joined.calls, List.isEmpty_nil, if_true, List.map_nil, List.append_nil, bind, Except.bind, pure,
    Except.pure, prepared]
  exact ⟨_, rfl⟩

end Refusals
end ScopeLexer.Regex
