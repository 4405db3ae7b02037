import ScopeLexer.Command.Arguments
import ScopeLexer.Json.Writer
import ScopeLexer.Tokenizer

/-!
The forms in which the command writes tokens.
-/
namespace ScopeLexer.Command

open Style

/-- The characters of a line from one to another. -/
def sliceChars (text : String) (start stop : Nat) : String :=
  String.ofList ((text.toList.take stop).drop start)

/-- A line for each token: where it is, its text and its scopes. -/
def scopesOutput (number : Nat) (text : String) (tokens : List Line.Token) : String :=
  String.join (tokens.map fun token =>
    toString number ++ ":" ++ toString token.start ++ ".." ++ toString token.stop ++ " " ++
      Text.quote (sliceChars text token.start token.stop) ++ " " ++
      " ".intercalate token.scopes ++ "\n")

def tokenObject (token : Line.Token) : Json :=
  .ofMembers [
    ("start", .ofNat token.start), ("end", .ofNat token.stop),
    ("scopes", .ofList (token.scopes.map Json.string))]

/-- One array with all tokens. -/
def jsonOutput (tokens : List Line.Token) : String :=
  (Json.ofList (tokens.map tokenObject)).write ++ "\n"

/-- The codes of font styles on a terminal, in the order in which they are written. -/
def fontCodes : List (FontStyle × String) :=
  [(.bold, "1"), (.italic, "3"), (.underline, "4"), (.strikethrough, "9")]

/-- The codes for a token: its font style, and its foreground if the colour map has it. -/
def terminalCodes (colors : List String) (metadata : Metadata) : List String :=
  let fonts := (fontCodes.filter fun (style, _) => metadata.fontStyle.contains style).map Prod.snd
  let color := (colors[metadata.foreground]?).bind fun hex => (Color.ofHex hex).toOption
  fonts ++ (color.map Color.toForeground).toList

/-- A stretch of text with its codes. -/
def coloredText (codes : List String) (text : String) : String :=
  if codes.isEmpty then text else "\x1b[" ++ ";".intercalate codes ++ "m" ++ text ++ "\x1b[0m"

/-- The text of packed tokens in their colours. A token goes up to the next. -/
def coloredTokens (colors : List String) (text : String) : List Line.PackedToken → String
  | [] => ""
  | token :: rest =>
    let stop := (rest.head?.map Line.PackedToken.start).getD text.length
    coloredText (terminalCodes colors token.metadata) (sliceChars text token.start stop) ++
      coloredTokens colors text rest

/-- A line in the colours of the theme. -/
def ansiOutput (colors : List String) (text : String) (tokens : List Line.PackedToken) : String :=
  coloredTokens colors text tokens ++ "\n"

/-- The output for a line, lines being counted from 1. -/
def lineOutput (form : OutputForm) (colors : List String) (number : Nat) (text : String)
    (scanned : ScannedLine) : String :=
  match form with
  | .scopes => scopesOutput number text scanned.tokens
  | .json => jsonOutput scanned.tokens
  | .ansi => ansiOutput colors text scanned.packedTokens

end ScopeLexer.Command
