import ScopeLexer.Grammar.Source
import ScopeLexer.Json.Decode

/-!
Reading grammars from their documents. Rules are numbered as they are read. An entry of a repository is
a rule or a list of patterns; a problem anywhere inside it is reported as the entry fitting neither.
-/
namespace ScopeLexer.Grammar

open Json

/-- Reading with the rules read so far. -/
abbrev ReadRules := StateT (Array RuleSource) (Except DecodeError)

/-- The place of a rule that has been read. -/
def addRule (rule : RuleSource) : ReadRules Place :=
  modifyGet fun rules => (rules.size, rules.push rule)

def ruleShape : RecordShape where
  name := "RawRule"
  fields := ["include", "name", "contentName", "match", "captures", "begin", "beginCaptures", "end",
    "endCaptures", "while", "whileCaptures", "patterns", "repository", "applyEndPatternLast"]

/-- Reads a boolean, which may be written as an integer. Null counts as false. -/
def readSwitch (allowed : Nat) (json : Json) : ReadRules Bool :=
  match json with
  | .null => pure false
  | .bool value => pure value
  | _ => do
    orFault (bufferFault allowed json)
    match json with
    | .number literal =>
      match literal.value with
      | .integer value =>
        if value < 0x8000000000000000 then pure (value ≠ 0) else throw (.noVariant "BoolOrInt")
      | _ => throw (.noVariant "BoolOrInt")
    | _ => throw (.noVariant "BoolOrInt")

/-- Reads an entry of a repository, `read` being the reader of rules: a list of patterns stands for a
rule that holds them. -/
def readRepositoryEntry (read : Nat → Json → ReadRules Place) (allowed : Nat) (json : Json) :
    ReadRules Place := do
  orFault (bufferFault allowed json)
  let asPatterns : ReadRules Place := do
    addRule { patterns := some (← readList read allowed json) }
  tryCatch asPatterns fun _ =>
    tryCatch (read allowed json) fun _ => throw (.noVariant "RepositoryEntry")

def readRepository (read : Nat → Json → ReadRules Place) :
    Nat → Json → ReadRules (Option (Table Place)) :=
  optional (readTable (readRepositoryEntry read))

/-- Reads a field of a rule, `read` being the reader of the rules inside. -/
def readRuleField (read : Nat → Json → ReadRules Place) (allowed : Nat) (field : String)
    (json : Json) (rule : RuleSource) : ReadRules RuleSource := do
  let asText : ReadRules (Option String) := optional (readText "a string") allowed json
  let asTable : ReadRules (Option (Table Place)) := optional (readTable read) allowed json
  match field with
  | "include" => return { rule with reference := ← asText }
  | "name" => return { rule with name := ← asText }
  | "contentName" => return { rule with contentName := ← asText }
  | "match" => return { rule with matchPattern := ← asText }
  | "captures" => return { rule with captures := ← asTable }
  | "begin" => return { rule with beginPattern := ← asText }
  | "beginCaptures" => return { rule with beginCaptures := ← asTable }
  | "end" => return { rule with endPattern := ← asText }
  | "endCaptures" => return { rule with endCaptures := ← asTable }
  | "while" => return { rule with whilePattern := ← asText }
  | "whileCaptures" => return { rule with whileCaptures := ← asTable }
  | "patterns" => return { rule with patterns := ← optional (readList read) allowed json }
  | "repository" => return { rule with repository := ← readRepository read allowed json }
  | _ => return { rule with endLast := ← readSwitch allowed json }

/-- Reads a rule. The first argument bounds the depth of rules in rules; it need not exceed the depth
of arrays and objects. -/
def readRule : Nat → Nat → Json → ReadRules Place
  | 0, _, _ => throw (.fault .malformed)
  | depth + 1, allowed, json => do
    addRule (← readRecord ruleShape (readRuleField (readRule depth)) {} allowed json)

def grammarShape : RecordShape where
  name := "RawGrammar"
  fields := ["scopeName", "name", "displayName", "fileTypes", "firstLineMatch", "patterns",
    "repository", "injections", "injectionSelector", "injectTo"]
  required := ["scopeName"]
  requiredInArray := ["scopeName"]

def readGrammarField (allowed : Nat) (field : String) (json : Json) (grammar : GrammarSource) :
    ReadRules GrammarSource := do
  let read := readRule (maxNesting + 1)
  let asText : ReadRules (Option String) := optional (readText "a string") allowed json
  match field with
  | "scopeName" => return { grammar with scopeName := ← readText "a string" allowed json }
  | "name" => return { grammar with name := ← asText }
  | "displayName" => return { grammar with displayName := ← asText }
  | "fileTypes" => return { grammar with fileTypes := ← readList (readText "a string") allowed json }
  | "firstLineMatch" => return { grammar with firstLineMatch := ← asText }
  | "patterns" => return { grammar with patterns := ← readList read allowed json }
  | "repository" => return { grammar with repository := ← readRepository read allowed json }
  | "injections" => return { grammar with injections := ← optional (readTable read) allowed json }
  | "injectionSelector" => return { grammar with injectionSelector := ← asText }
  | _ => return { grammar with injectTo := ← readList (readText "a string") allowed json }

def readGrammar (allowed : Nat) (json : Json) : Except DecodeError GrammarSource := do
  let (grammar, rules) ← (readRecord grammarShape readGrammarField {} allowed json).run #[]
  return { grammar with rules := rules }

end ScopeLexer.Grammar

namespace ScopeLexer

def GrammarSource.ofText (text : String) : Except Json.DecodeError GrammarSource :=
  Json.decodeDocument Grammar.readGrammar text

end ScopeLexer
