import ScopeLexer.Text.Pieces

/-!
What a rule can stand for: the grammar it is in, the grammar that the document is read with, a rule of
a repository around it, another grammar, or a rule in the repository of another grammar.
-/
namespace ScopeLexer.Grammar

/-- A reference from one rule to others. -/
inductive Reference where
  /-- The top level of the grammar that the rule is in. -/
  | self
  /-- The top level of the grammar that the document is read with. -/
  | base
  /-- A rule in a repository around the rule. -/
  | inRepository (name : String)
  /-- The top level of a grammar. -/
  | grammar (scopeName : String)
  /-- A rule in the repository of a grammar. -/
  | inGrammar (scopeName name : String)
  deriving Repr, DecidableEq, Inhabited

/-- Reads a reference: what stands before the first `#` names a grammar, what stands after it a
rule. -/
def Reference.ofText (text : String) : Reference :=
  if text = "$self" then .self
  else if text = "$base" then .base
  else
    match Text.cut '#' text with
    | none => .grammar text
    | some (scopeName, name) => if scopeName = "" then .inRepository name else .inGrammar scopeName name

end ScopeLexer.Grammar
