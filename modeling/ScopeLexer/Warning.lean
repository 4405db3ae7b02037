import ScopeLexer.Text.Quoted

/-!
What goes wrong without stopping anything. Each warning is a cause; its wording is in one place.
-/
namespace ScopeLexer

/-- Something that was passed over. -/
inductive Warning where
  /-- A theme gives a foreground that is no colour. -/
  | invalidForeground (color : String)
  /-- A theme gives a background that is no colour. -/
  | invalidBackground (color : String)
  /-- A theme has more colours than a token can refer to. -/
  | manyColors (count largestForeground largestBackground : Nat)
  /-- A rule refers to something that is not there. -/
  | unresolvedReference (reference scopeName : String)
  /-- A grammar that should be injected is not there. -/
  | injectorMissing (scopeName : String)
  /-- A pattern does not compile where it is needed. -/
  | patternRejected (source reason : String)
  /-- A pattern refers to a group that the match before it does not have. -/
  | referenceOutOfRange (template : String)
  /-- A rule was left where it was entered. -/
  | leftWithoutAdvancing
  /-- A rule with an end was entered again where it was entered. -/
  | enteredEndAgain
  /-- A rule with a condition was entered again where it was entered. -/
  | enteredWhileAgain
  /-- A match took nothing. -/
  | matchedNothing
  deriving Repr, DecidableEq, Inhabited

def Warning.message : Warning → String
  | .invalidForeground color =>
    "Ignoring invalid foreground colour " ++ Text.quote color ++ " in theme"
  | .invalidBackground color =>
    "Ignoring invalid background colour " ++ Text.quote color ++ " in theme"
  | .manyColors count largestForeground largestBackground =>
    "Theme uses " ++ toString count ++ " colours: only the first " ++ toString largestForeground ++
      " can be foregrounds and the first " ++ toString largestBackground ++
      " backgrounds, the others are ignored"
  | .unresolvedReference reference scopeName =>
    "Could not resolve include " ++ Text.quote reference ++ " in " ++ scopeName ++ ", skipping it"
  | .injectorMissing scopeName => "Injection grammar " ++ scopeName ++ " is not loaded"
  | .patternRejected source reason =>
    "Failed to compile regex " ++ Text.quote source ++ ": " ++ reason
  | .referenceOutOfRange template =>
    "Backreference out of range in " ++ Text.quote template ++ ", keeping it as is"
  | .leftWithoutAdvancing =>
    "Grammar is in an endless loop: pushed and popped a rule without advancing"
  | .enteredEndAgain =>
    "Grammar is in an endless loop: pushed the same begin/end rule without advancing"
  | .enteredWhileAgain =>
    "Grammar is in an endless loop: pushed the same begin/while rule without advancing"
  | .matchedNothing => "Match rule didn't advance, safe_pop and stop"

end ScopeLexer
