import ScopeLexer.Json.Decode
import ScopeLexer.Text.Pieces

/-!
Themes as their documents give them. A theme has rules, each with the scopes it applies to and with
settings, and may have editor colours that serve as defaults.
-/
namespace ScopeLexer.Theme

/-- The settings of a rule, as written. -/
structure Settings where
  foreground : Option String := none
  background : Option String := none
  fontStyle : Option String := none
  deriving Repr, DecidableEq, Inhabited

/-- A colour as written, unless it is to be inherited. -/
def unlessInherited : Option String → Option String
  | some "inherit" => none
  | color => color

/-- A rule of a theme. Without scopes it sets the defaults. -/
structure Entry where
  name : Option String := none
  scopes : Option (List String) := none
  settings : Settings := {}
  deriving Repr, DecidableEq, Inhabited

/-- The editor colours that count. -/
structure EditorColors where
  foreground : Option String := none
  background : Option String := none
  deriving Repr, DecidableEq, Inhabited

/-- A theme as written. The rules stand under `settings` or under `tokenColors`. -/
structure Document where
  name : Option String := none
  colors : Option EditorColors := none
  settings : Option (List Entry) := none
  tokenColors : Option (List Entry) := none
  deriving Repr, DecidableEq, Inhabited

/-- The rule that sets editor colours as defaults, if there are any. -/
def EditorColors.entry? (colors : EditorColors) : Option Entry :=
  if colors.foreground.isSome || colors.background.isSome then
    some { settings := { foreground := colors.foreground, background := colors.background } }
  else none

/-- The rules in the order in which they apply: the editor colours first, then those under `settings`
or, without any, those under `tokenColors`. -/
def Document.entries (document : Document) : List Entry :=
  (document.colors.bind EditorColors.entry?).toList ++
    ((document.settings.orElse fun _ => document.tokenColors).getD [])

section Reading

open Json

/-- The text without the commas at its ends. -/
def trimCommas (chars : List Char) : List Char :=
  ((chars.dropWhile (· = ',')).reverse.dropWhile (· = ',')).reverse

/-- Reads scopes: a text with commas between them, or an array of texts. -/
def readScopes (allowed : Nat) : Json → Except DecodeError (Option (List String))
  | .null => .ok none
  | .string text => .ok (some ((Text.piecesOf ',' (trimCommas text.toList)).map String.ofList))
  | .array items fault => some <$> readList (readText "a string") allowed (.array items fault)
  | json => .error (mismatch "string or array of strings" json)

/-- The fields of settings. An array must have them all. -/
def settingsShape : RecordShape where
  name := "RawThemeSettings"
  fields := ["foreground", "background", "fontStyle"]
  requiredInArray := ["foreground", "background", "fontStyle"]

def readSettings : Nat → Json → Except DecodeError Settings :=
  readRecord settingsShape (fun allowed field json settings => do
    let text ← optional (readText "a string") allowed json
    match field with
    | "foreground" => return { settings with foreground := text }
    | "background" => return { settings with background := text }
    | _ => return { settings with fontStyle := text }) {}

def entryShape : RecordShape where
  name := "RawThemeSetting"
  fields := ["name", "scope", "settings"]

def readEntry : Nat → Json → Except DecodeError Entry :=
  readRecord entryShape (fun allowed field json entry => do
    match field with
    | "name" => return { entry with name := ← optional (readText "a string") allowed json }
    | "scope" => return { entry with scopes := ← readScopes allowed json }
    | _ => return { entry with settings := ← readSettings allowed json }) {}

/-- Reads the editor colours among the members of an object. Of two names for the same colour the
first that has one counts. -/
def readColorMembers (allowed : Nat) :
    List (Name × Json) → EditorColors → Except DecodeError EditorColors
  | [], colors => .ok colors
  | (name, json) :: members, colors => do
    let name ← readName json name
    let isForeground := name = "foreground" || name = "editor.foreground"
    let isBackground := name = "background" || name = "editor.background"
    if isForeground && colors.foreground.isNone then
      let color ← optional (readText "a string") allowed json
      readColorMembers allowed members { colors with foreground := color }
    else if isBackground && colors.background.isNone then
      let color ← optional (readText "a string") allowed json
      readColorMembers allowed members { colors with background := color }
    else
      skip json
      readColorMembers allowed members colors

def readColors : Nat → Json → Except DecodeError EditorColors
  | 0, .object _ _ => .error (.fault .malformed)
  | allowed + 1, .object members fault => do
    let colors ← readColorMembers allowed members {}
    orFault fault
    return colors
  | _, json => .error (mismatch "a map of editor colors" json)

def documentShape : RecordShape where
  name := "RawTheme"
  fields := ["name", "colors", "settings", "tokenColors"]

def readDocument : Nat → Json → Except DecodeError Document :=
  readRecord documentShape (fun allowed field json document => do
    match field with
    | "name" => return { document with name := ← optional (readText "a string") allowed json }
    | "colors" => return { document with colors := ← optional readColors allowed json }
    | "settings" =>
      return { document with settings := ← optional (readList readEntry) allowed json }
    | _ => return { document with tokenColors := ← optional (readList readEntry) allowed json }) {}

end Reading

def Document.ofText (text : String) : Except Json.DecodeError Document :=
  Json.decodeDocument readDocument text

end ScopeLexer.Theme
