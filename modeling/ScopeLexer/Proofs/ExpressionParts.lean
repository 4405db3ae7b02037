import Mathlib.Data.List.Basic
import ScopeLexer.Regex.Expr

/-!
Expressions and their parts. What is true of an expression if it is of what stands in it is true of all, and
what is collected from groups, look-behinds, references and calls only does not depend on how they are put
together.
-/
namespace ScopeLexer.Regex

namespace Expr

/-- What holds of an expression whenever it holds of its parts holds of all. -/
@[elab_as_elim]
theorem induction {motive : Expr → Prop}
    (text : ∀ chars ignoreCase, motive (.text chars ignoreCase))
    (any : ∀ lineEnds, motive (.any lineEnds))
    (word : ∀ negated asciiOnly, motive (.word negated asciiOnly))
    (oneOf : ∀ set negated, motive (.oneOf set negated))
    (list : ∀ items, (∀ item ∈ items, motive item) → motive (.list items))
    (choice : ∀ branches, (∀ branch ∈ branches, motive branch) → motive (.choice branches))
    (many : ∀ body rounds, motive body → motive (.many body rounds))
    (group : ∀ index traits body, motive body → motive (.group index traits body))
    (part : ∀ body, motive body → motive (.scoped body))
    (atomic : ∀ body, motive body → motive (.atomic body))
    (conditional : ∀ test yes no, motive test → motive yes → motive no →
      motive (.conditional test yes no))
    (lookAhead : ∀ negated body, motive body → motive (.lookAhead negated body))
    (lookBehind : ∀ negated reach body, motive body → motive (.lookBehind negated reach body))
    (backref : ∀ reference ignoreCase, motive (.backref reference ignoreCase))
    (filled : ∀ reference, motive (.filled reference))
    (call : ∀ callee, motive (.call callee))
    (anchor : ∀ condition, motive (.anchor condition))
    (verb : ∀ kind, motive (.verb kind)) (expr : Expr) : motive expr :=
  @Expr.rec motive (fun exprs => ∀ expr ∈ exprs, motive expr) text any word oneOf list choice many
    group part atomic conditional lookAhead lookBehind backref filled call anchor verb
    (fun _ member => absurd member List.not_mem_nil)
    (fun _ _ first others => List.forall_mem_cons.mpr ⟨first, others⟩) expr

theorem collectAll_eq {α : Type} (own : Expr → List α) (exprs : List Expr) :
    collectAll own exprs = exprs.flatMap (collect own) := by
  induction exprs with
  | nil => rfl
  | cons expr exprs ih => rw [collectAll, List.flatMap_cons, ih]

/-- The expression itself if it is a group, a look-behind, a reference or a call. -/
def ownPart : Expr → List Expr
  | .group index traits body => [.group index traits body]
  | .lookBehind negated reach body => [.lookBehind negated reach body]
  | .backref reference ignoreCase => [.backref reference ignoreCase]
  | .filled reference => [.filled reference]
  | .call callee => [.call callee]
  | _ => []

/-- The groups, look-behinds, references and calls of an expression. -/
def parts (expr : Expr) : List Expr := expr.collect ownPart

section Parts

variable (items : List Expr) (body test yes no : Expr)

@[simp]
theorem parts_list : (Expr.list items).parts = items.flatMap parts := by
  rw [parts, collect, collectAll_eq]
  rfl

@[simp]
theorem parts_choice : (Expr.choice items).parts = items.flatMap parts := by
  rw [parts, collect, collectAll_eq]
  rfl

@[simp]
theorem parts_conditional :
    (Expr.conditional test yes no).parts = test.parts ++ yes.parts ++ no.parts := rfl

end Parts

/-- What is collected from parts only is collected from the parts. -/
theorem collect_eq_parts {α : Type} {own : Expr → List α}
    (only : ∀ expr, own expr = expr.ownPart.flatMap own) (expr : Expr) :
    expr.collect own = expr.parts.flatMap own := by
  induction expr using Expr.induction with
  | text | any | word | oneOf | anchor | verb => exact only _
  | backref | filled | call => exact (only _).trans rfl
  | list items ih =>
    rw [collect, collectAll_eq, only, parts_list, List.flatMap_assoc, List.flatMap_congr ih]
    rfl
  | choice branches ih =>
    rw [collect, collectAll_eq, only, parts_choice, List.flatMap_assoc, List.flatMap_congr ih]
    rfl
  | many body rounds ih | lookAhead negated body ih =>
    rw [collect, only, ih]
    rfl
  | part body ih | atomic body ih =>
    rw [collect, only, ih]
    rfl
  | group index traits body ih | lookBehind negated reach body ih =>
    rw [collect, ih]
    rfl
  | conditional test yes no ihTest ihYes ihNo =>
    rw [collect, only, ihTest, ihYes, ihNo, parts_conditional, List.flatMap_append, List.flatMap_append]
    rfl

def ownReferences : Expr → List Nat
  | .backref reference _ => reference.groups
  | .filled reference => reference.groups
  | _ => []

def ownCalls : Expr → List Callee
  | .call callee => [callee]
  | _ => []

theorem references_eq_parts (expr : Expr) : expr.references = expr.parts.flatMap ownReferences := by
  have only (expr : Expr) : expr.ownReferences = expr.ownPart.flatMap ownReferences := by
    cases expr <;> simp [ownPart, ownReferences]
  rw [← collect_eq_parts only]
  rfl

theorem calls_eq_parts (expr : Expr) : expr.calls = expr.parts.flatMap ownCalls := by
  have only (expr : Expr) : expr.ownCalls = expr.ownPart.flatMap ownCalls := by
    cases expr <;> simp [ownPart, ownCalls]
  rw [← collect_eq_parts only]
  rfl

theorem allEverywhere_eq (change : Expr → Expr) (exprs : List Expr) :
    allEverywhere change exprs = exprs.map (everywhere change) := by
  induction exprs with
  | nil => rfl
  | cons expr exprs ih => rw [allEverywhere, List.map_cons, ih]

end Expr
end ScopeLexer.Regex
