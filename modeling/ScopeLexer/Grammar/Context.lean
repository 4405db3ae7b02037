import ScopeLexer.Grammar.Source

/-!
Where a rule is looked at: the grammar it is in, the grammar that the document is read with, and the
repositories around it.
-/
namespace ScopeLexer.Grammar

/-- The surroundings of a rule. -/
structure Context where
  /-- The grammar that the document is read with. -/
  base : GrammarSource
  /-- The grammar that the rule is in. -/
  grammar : GrammarSource
  /-- The repositories around the rule, the innermost first. -/
  repositories : List (Table Place)

namespace Context

/-- The top level of a grammar. -/
def top (grammar base : GrammarSource) : Context :=
  ⟨base, grammar, grammar.repository.toList⟩

/-- Inside a rule with a repository of its own, if it has one. -/
def inside (context : Context) (repository : Option (Table Place)) : Context :=
  { context with repositories := repository.toList ++ context.repositories }

/-- The rule that a name stands for: that of the innermost repository that has the name. -/
def lookup (context : Context) (name : String) : Option Place :=
  context.repositories.findSome? (·.get? name)

end Context
end ScopeLexer.Grammar
