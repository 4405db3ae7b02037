import ScopeLexer.Json.Decode
import ScopeLexer.Style.Metadata

/-!
Configurations. A grammar can be given a language number, language numbers for embedded scopes, token
types for scopes, and selectors that say where brackets are balanced. A registry can be described by a
document that lists files of grammars, injections, configurations and a theme.
-/
namespace ScopeLexer

/-- What a grammar is configured with. -/
structure GrammarConfig where
  /-- The number of the grammar's language. -/
  initialLanguage : Nat := 0
  /-- Scopes with the number of the language inside them. -/
  embeddedLanguages : Table Nat := {}
  /-- Selectors with the token type that they force. -/
  tokenTypes : Table Style.TokenType := {}
  /-- Selectors for text in which brackets are balanced; `*` is all text. -/
  balancedBrackets : List String := []
  /-- Selectors for text in which brackets are never balanced. -/
  unbalancedBrackets : List String := []
  deriving Repr, DecidableEq, Inhabited

/-- What a registry is built from. -/
structure RegistryConfig where
  /-- Files of grammars, by scope name. -/
  grammars : Table String := {}
  /-- Scope names of injected grammars, by the scope name of the grammar they are injected into. -/
  injections : Table (List String) := {}
  /-- Configurations by scope name. -/
  configurations : Table GrammarConfig := {}
  /-- The file of the theme. -/
  theme : Option String := none
  deriving Repr, DecidableEq, Inhabited

section Reading

open Json Style

/-- Reads a token type: a word, or an object with the word as its only name and null under it.
Anything else is malformed rather than of the wrong type; only what stands in the place of the null is
looked at. -/
def readTokenType (allowed : Nat) (json : Json) : Except DecodeError TokenType :=
  let ofWord (word : String) : Except DecodeError TokenType :=
    match TokenType.all.find? (·.word = word) with
    | some tokenType => .ok tokenType
    | none => .error (.unknownVariant word (TokenType.all.map TokenType.word))
  match json with
  | .string word => ofWord word
  | .broken fault => .error (.fault fault)
  | .object members fault =>
    match allowed, members with
    | 0, _ => .error (.fault .malformed)
    | _, [] => .error (.fault (fault.getD .malformed))
    | _, (name, value) :: others => do
      let tokenType ← match name with
        | .text word => ofWord word
        | .loneSurrogate | .missing => throw (.fault .malformed)
      match value with
      | .null =>
        if !others.isEmpty then throw (.fault .malformed)
        orFault fault
        return tokenType
      | value => throw (mismatch "unit" value)
  | _ => .error (.fault .malformed)

def grammarConfigShape : RecordShape where
  name := "GrammarConfiguration"
  fields := ["initialLanguage", "embeddedLanguages", "tokenTypes", "balancedBracketSelectors",
    "unbalancedBracketSelectors"]

def readGrammarConfig : Nat → Json → Except DecodeError GrammarConfig :=
  readRecord grammarConfigShape (fun allowed field json config => do
    match field with
    | "initialLanguage" => return { config with initialLanguage := ← readWord32 allowed json }
    | "embeddedLanguages" =>
      return { config with embeddedLanguages := ← readTable readWord32 allowed json }
    | "tokenTypes" => return { config with tokenTypes := ← readTable readTokenType allowed json }
    | "balancedBracketSelectors" =>
      return { config with balancedBrackets := ← readList (readText "a string") allowed json }
    | _ =>
      return { config with unbalancedBrackets := ← readList (readText "a string") allowed json }) {}

def registryConfigShape : RecordShape where
  name := "RegistryConfig"
  fields := ["grammars", "injections", "configurations", "theme"]

def readRegistryConfig : Nat → Json → Except DecodeError RegistryConfig :=
  readRecord registryConfigShape (fun allowed field json config => do
    match field with
    | "grammars" =>
      return { config with grammars := ← readTable (readText "path string") allowed json }
    | "injections" =>
      return { config with injections := ← readTable (readList (readText "a string")) allowed json }
    | "configurations" =>
      return { config with configurations := ← readTable readGrammarConfig allowed json }
    | _ => return { config with theme := ← optional (readText "path string") allowed json }) {}

end Reading

def GrammarConfig.ofText (text : String) : Except Json.DecodeError GrammarConfig :=
  Json.decodeDocument readGrammarConfig text

def RegistryConfig.ofText (text : String) : Except Json.DecodeError RegistryConfig :=
  Json.decodeDocument readRegistryConfig text

end ScopeLexer
