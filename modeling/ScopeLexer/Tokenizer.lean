import ScopeLexer.Line.Scan
import ScopeLexer.Line.Token

/-!
Tokenizing lines with a grammar. A line is given without its line end, and with the state that the line
before it left; the first line has none.
-/
namespace ScopeLexer

open Grammar Regex

/-- How deep groups are scanned again inside one another. A group whose rules match all of it again has
no end of such scans; the number stands for the room there is for them. -/
def Tokenizer.usualDepth : Nat := 10000

structure Tokenizer where
  /-- Tells the tokenizer from every other of its registry. -/
  serial : Nat
  /-- Tells its compiled rules, which it may share, from all others. -/
  rulesSerial : Nat
  grammar : CompiledGrammar
  config : Option GrammarConfig := none
  depth : Nat := Tokenizer.usualDepth

structure ScannedLine where
  /-- The line, with a line end. -/
  line : SourceLine
  pieces : Line.Pieces
  /-- The state for the next line. -/
  state : Stack
  /-- The time was over before the end of the line: the rest is one piece. -/
  stoppedEarly : Bool
  packing : Line.Packing

namespace ScannedLine

def tokens (scanned : ScannedLine) : List Line.Token :=
  Line.tokens scanned.line scanned.pieces scanned.state.contentScopes

def packedTokens (scanned : ScannedLine) : List Line.PackedToken :=
  Line.packedTokens scanned.packing scanned.line scanned.pieces scanned.state.contentScopes

end ScannedLine

/-- Whether the time is over, by the number of steps left. -/
abbrev Clock := Nat → Bool

/-- The clock for a limit in milliseconds. A limit of 0 is over at once. No other is met: how long a
step takes is not known here. -/
def Clock.ofLimit (limit : Option Nat) : Clock := fun _ => limit = some 0

namespace Tokenizer

/-- What decides the metadata of scopes, under a theme. -/
def styling (tokenizer : Tokenizer) (theme : Theme) : Styling :=
  match tokenizer.config with
  | none => { theme := theme }
  | some config =>
    { theme := theme
      initialLanguage := config.initialLanguage
      embeddedLanguages := config.embeddedLanguages }

/-- What is added to the metadata of tokens. -/
def packing (tokenizer : Tokenizer) : Line.Packing :=
  match tokenizer.config with
  | none => {}
  | some config => .ofConfig config

/-- The state before the first line, under a theme. -/
def initialState (tokenizer : Tokenizer) (theme : Theme) : Stack :=
  .root tokenizer.grammar.root
    (.ofGrammar (tokenizer.styling theme) tokenizer.grammar.scopeName)

/-- The line of a text, with a line end. -/
def lineOf (text : String) : SourceLine := .ofText 0 (text.push '\n')

/-- Tokenizes a line with some way to find matches. -/
def scanWith {σ : Type} (tokenizer : Tokenizer) (theme : Theme) (finder : Line.Finder σ)
    (state : Option Stack) (text : String) (clock : Clock) (work : σ) : ScannedLine × σ :=
  let line := lineOf text
  let scanner : Line.Scanner σ := ⟨tokenizer.grammar, tokenizer.styling theme, finder⟩
  let stack := (state.map Stack.forgetLine).getD (tokenizer.initialState theme)
  let outcome := Line.scan scanner tokenizer.depth clock line state.isNone stack { finder := work }
  ({ line := line
     pieces := outcome.work.pieces
     state := outcome.stack.forgetLine
     stoppedEarly := outcome.stoppedEarly
     packing := tokenizer.packing },
    outcome.work.finder)

def scanLine (tokenizer : Tokenizer) (engine : Engine) (theme : Theme) (state : Option Stack)
    (text : String) (clock : Clock) (store : Pattern.Store) : ScannedLine × Pattern.Store :=
  let finder := Line.rememberingFinder engine tokenizer.grammar
  let (scanned, workspace) := tokenizer.scanWith theme finder state text clock { store := store }
  (scanned, workspace.store)

/-- The tokenizer in the form that debug output has. -/
def describe (tokenizer : Tokenizer) : String :=
  "Grammar \x7b scope_name: " ++ Text.quote tokenizer.grammar.scopeName ++ ", rules: " ++
    toString tokenizer.grammar.rules.size ++ ", injections: " ++
    toString tokenizer.grammar.injections.length ++ " \x7d"

end Tokenizer
end ScopeLexer
