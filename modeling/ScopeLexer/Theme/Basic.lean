import ScopeLexer.Theme.Trie
import ScopeLexer.Style.ColorMap
import ScopeLexer.Style.Metadata

/-!
Themes ready for use: the colours they use by number, the style that everything starts with, and the
style of each scope inside the scopes that enclose it.
-/
namespace ScopeLexer

namespace Theme

open Style

/-- The style of a scope. Colours are numbers in the theme's colour map, 0 if not set. -/
structure StyleAttributes where
  fontStyle : Option FontStyle
  foreground : Nat
  background : Nat
  deriving Repr, DecidableEq, Inhabited

end Theme

open Style Theme

structure Theme where
  name : Option String
  colorMap : ColorMap
  defaults : StyleAttributes
  trie : Trie
  deriving Inhabited

namespace Theme

/-- The defaults of a theme, colours as written. -/
structure Defaults where
  fontStyle : FontStyle := .plain
  foreground : String := "#000000"
  background : String := "#FFFFFF"
  deriving Repr, DecidableEq, Inhabited

/-- The defaults with what a rule sets. -/
def Defaults.apply (defaults : Defaults) (rule : Rule) : Defaults where
  fontStyle := rule.fontStyle.getD defaults.fontStyle
  foreground := rule.foreground.getD defaults.foreground
  background := rule.background.getD defaults.background

/-- Puts a rule into a tree. Its colours are given numbers, the foreground first. -/
def insertRule (state : ColorMap × Trie) (rule : Rule) : ColorMap × Trie :=
  let (foreground, colorMap) := state.1.number rule.foreground
  let (background, colorMap) := colorMap.number rule.background
  let style : StyleRule := {
    depth := (atomsOf rule.scope).length
    parents := rule.parents
    fontStyle := rule.fontStyle
    foreground := foreground
    background := background }
  (colorMap, state.2.insert style (atomsOf rule.scope))

/-- The theme of some rules. Those for no scope set the defaults. -/
def ofRules (name : Option String) (rules : List Rule) : Theme :=
  let sorted := sortRules rules
  let defaults := (sorted.takeWhile (·.scope = "")).foldl Defaults.apply {}
  let (foreground, colorMap) := ({} : ColorMap).number (some defaults.foreground)
  let (background, colorMap) := colorMap.number (some defaults.background)
  let (colorMap, trie) := (sorted.dropWhile (·.scope = "")).foldl insertRule (colorMap, .empty)
  { name := name
    colorMap := colorMap
    defaults := ⟨some defaults.fontStyle, foreground, background⟩
    trie := trie }

/-- The warning that a theme has too many colours, if it does. -/
def colorWarnings (theme : Theme) : List Warning :=
  let count := theme.colorMap.colors.size - 1
  if largestBackground < count then [.manyColors count largestForeground largestBackground] else []

/-- The theme that a document describes, and what was passed over in it. -/
def ofDocument (document : Document) : Theme × List Warning :=
  let (rules, warnings) := rulesOf document.entries
  let theme := ofRules document.name rules
  (theme, warnings ++ theme.colorWarnings)

def plain : Theme := ofRules none []

/-- The style of a scope inside others, the innermost first: that of the first rule, the most specific
first, whose parents are there. -/
def matchScope (theme : Theme) (scope : String) (ancestors : List String) :
    Option StyleAttributes :=
  let applies (rule : StyleRule) : Bool :=
    match rule.parents with
    | none => true
    | some parents => matchesParents parents ancestors
  ((theme.trie.find (atomsOf scope)).find? applies).map fun rule =>
    ⟨rule.fontStyle, rule.foreground, rule.background⟩

/-- A style in the form that debug output has. -/
def StyleAttributes.describe (style : StyleAttributes) : String :=
  let fontStyle := match style.fontStyle with
    | some fontStyle => "Some(" ++ fontStyle.describe ++ ")"
    | none => "None"
  "StyleAttributes \x7b font_style: " ++ fontStyle ++ ", foreground_id: " ++
    toString style.foreground ++ ", background_id: " ++ toString style.background ++ " \x7d"

/-- The theme in the form that debug output has. -/
def describe (theme : Theme) : String :=
  let name := match theme.name with
    | some name => "Some(" ++ Text.quote name ++ ")"
    | none => "None"
  "Theme \x7b name: " ++ name ++ ", defaults: " ++ theme.defaults.describe ++ ", colors: [" ++
    ", ".intercalate (theme.colorMap.colors.toList.map Text.quote) ++ "] \x7d"

end Theme
end ScopeLexer
