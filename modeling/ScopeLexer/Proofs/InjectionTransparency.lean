import ScopeLexer.Proofs.RenumberedScan
import ScopeLexer.Proofs.WrappedAgreement

/-! What an injected rule offers. The patterns tried for an injection are those tried inside its
rule: a list offers the rules that it holds, but a rule with a pattern of its own does not
offer this pattern, and a rule with an end offers its end, which then ends whatever is open.

So it does not show whether an injected list stands in a list of its own. It shows for every
other kind of rule. -/
namespace ScopeLexer

open Grammar Pattern Regex

/-- What a tokenized line shows of itself and of the state after it. -/
structure ShownLine where
  tokens : List Line.Token
  packedTokens : List Line.PackedToken
  stoppedEarly : Bool
  depth : Nat
  deriving DecidableEq

/-- What can be seen of a line. The numbers of rules cannot. -/
def ScannedLine.shown (scanned : ScannedLine) : ShownLine :=
  ⟨scanned.tokens, scanned.packedTokens, scanned.stoppedEarly, scanned.state.depth⟩

namespace Grammar.Compilation

variable (compilation : Compilation) (config : Option GrammarConfig) (depth : Nat)

/-- The compiled grammar, put to use. -/
def tokenizer : Tokenizer :=
  { serial := 0, rulesSerial := 0, grammar := compilation.grammar, config, depth }

/-- Nothing has been compiled for use yet. -/
def store : Store := { patterns := compilation.patterns }

/-- What lines show that are tokenized one after the other. -/
def shown (engine : Engine) (theme : Theme) (limit : Option Nat) (lines : List String) :
    List ShownLine :=
  ((compilation.tokenizer config depth).scanLines engine theme (.ofLimit limit) none lines
    compilation.store).map ScannedLine.shown

end Grammar.Compilation

theorem ScannedLine.shown_renamed (rename : RuleId → RuleId) (scanned : ScannedLine) :
    (scanned.renamed rename).shown = scanned.shown := rfl

/-- Lines show the same with grammars that differ in numbers. -/
theorem Renumbering.shown_eq {compilation other : Compilation}
    (numbering : Renumbering compilation.grammar other.grammar)
    (patterns : other.patterns = compilation.patterns) (config : Option GrammarConfig)
    (depth : Nat) (engine : Engine) (theme : Theme) (limit : Option Nat) {lines : List String}
    (finishes : (compilation.tokenizer config depth).Finishes engine theme (.ofLimit limit) none lines
      compilation.store) :
    other.shown config depth engine theme limit lines =
      compilation.shown config depth engine theme limit lines := by
  have store : other.store = compilation.store := by rw [Compilation.store, patterns]; rfl
  have renumbered : Renumbering (compilation.tokenizer config depth).grammar
    (other.tokenizer config depth).grammar := numbering
  have scanned := renumbered.scanLines_renamed rfl rfl engine theme limit none lines _ finishes
  rw [Option.map_none, ← store] at scanned
  rw [Compilation.shown, Compilation.shown, scanned, List.map_map, store]
  exact List.map_congr_left fun line _ => line.shown_renamed _

/-- An injected list can be put into a list of its own. In every table of grammars under their
names, and for every injection of a grammar in it whose rule is a list, the grammar with and
without the outer list does not compile, for the same reason, or lines show the same with both:
tokens, packed tokens, whether they were cut short, and how deep the states after them are.
This is so for all lines that are tokenized, without the outer list, within the bounds, and for
every bound on the depth of groups that are scanned again inside one another. -/
theorem injected_list_transparent (wrapping : Wrapping) (injectors : List String) (engine : Engine)
    (journal : Journal) (config : Option GrammarConfig) (depth : Nat) (theme : Theme)
    (limit : Option Nat) (lines : List String)
    (finishes : ∀ compilation,
      (compile wrapping.base.scopeName wrapping.grammars injectors engine journal).1 =
        .ok compilation →
      (compilation.tokenizer config depth).Finishes engine theme (.ofLimit limit) none lines
        compilation.store) :
    let plain := compile wrapping.base.scopeName wrapping.grammars injectors engine journal
    let listed := compile wrapping.base.scopeName wrapping.others injectors engine journal
    listed.1.map (·.shown config depth engine theme limit lines) =
        plain.1.map (·.shown config depth engine theme limit lines) ∧
      listed.2 = plain.2 := by
  obtain ⟨notes, agree⟩ := wrapping.compile_wrapped engine injectors journal
  simp only
  refine ⟨?_, notes⟩
  rcases agree with ⟨error, here, there⟩ | ⟨compilation, other, here, there, patterns, ⟨numbering⟩⟩
  · rw [here, there]
  · rw [here, there]
    exact congrArg Except.ok
      (numbering.shown_eq patterns config depth engine theme limit (finishes compilation here))

namespace Injected

/-- A list of two rules that is injected, and a rule with an end of its own. -/
def list : GrammarSource where
  scopeName := "source.x"
  patterns := [0]
  injections := some ⟨[("L:source.x", 3)]⟩
  rules := #[{ beginPattern := some "\\(", endPattern := some "\\)", name := some "par" },
    { matchPattern := some "a", name := some "inj" },
    { beginPattern := some "<", endPattern := some ">", name := some "region" },
    { patterns := some [1, 2] }]

/-- The document that the grammar is read from. -/
def document : String :=
  "\x7b\"scopeName\": \"source.x\", " ++
    "\"patterns\": [\x7b\"begin\": \"\\\\(\", \"end\": \"\\\\)\", \"name\": \"par\"\x7d], " ++
    "\"injections\": \x7b\"L:source.x\": \x7b\"patterns\": [" ++
      "\x7b\"match\": \"a\", \"name\": \"inj\"\x7d, " ++
      "\x7b\"begin\": \"<\", \"end\": \">\", \"name\": \"region\"\x7d]\x7d\x7d\x7d"

/-- The list is put into another. -/
def wrapping : Wrapping where
  grammars := ⟨[("source.x", list)]⟩
  keyed scopeName grammar found := by
    simp only [Table.get?, List.lookup_cons, List.lookup_nil] at found
    split at found
    next same =>
      cases found
      exact (eq_of_beq same).symm
    next => cases found
  base := list
  held := rfl
  orderly := GrammarSource.orderly_of_toOption
    (by decide +kernel : (GrammarSource.ofText document).toOption = some list)
  place := 3
  selector := "L:source.x"
  before := []
  after := []
  injections := rfl
  noMatch := rfl
  noStart := rfl
  noReference := rfl

/-- What lines show with a grammar and no others. -/
def shown (source : GrammarSource) (lines : List String) : Option (List (List Line.Token × Nat)) :=
  (compile source.scopeName ⟨[(source.scopeName, source)]⟩ [] backtracking {}).1.toOption.map
    fun compilation => (compilation.shown none 10 backtracking .plain none lines).map
      fun line => (line.tokens, line.depth)

end Injected

/-- A list of rules of two kinds, with lines that enter and leave rules. -/
theorem injected_list_transparent_mixed :
    let plain := compile "source.x" Injected.wrapping.grammars [] backtracking {}
    let listed := compile "source.x" Injected.wrapping.others [] backtracking {}
    Injected.shown Injected.list ["(a<", ">)a"] = some
      [([⟨0, 1, ["source.x", "par"]⟩, ⟨1, 2, ["source.x", "par", "inj"]⟩,
          ⟨2, 3, ["source.x", "par", "region"]⟩], 3),
        ([⟨0, 1, ["source.x", "par", "region"]⟩, ⟨1, 2, ["source.x", "par"]⟩,
          ⟨2, 3, ["source.x", "inj"]⟩], 1)] ∧
    listed.1.map (·.shown none 10 backtracking .plain none ["(a<", ">)a"]) =
      plain.1.map (·.shown none 10 backtracking .plain none ["(a<", ">)a"]) := by
  have finishes : (compile "source.x" Injected.wrapping.grammars [] backtracking {}).1.toOption.all
      (fun compilation => (compilation.tokenizer none 10).Finishes backtracking .plain
        (.ofLimit none) none ["(a<", ">)a"] compilation.store) = true := by
    decide +kernel
  refine ⟨by decide +kernel, (injected_list_transparent Injected.wrapping [] backtracking {} none 10
    .plain none ["(a<", ">)a"] fun compilation compiled => ?_).1⟩
  have compiled : (compile "source.x" Injected.wrapping.grammars [] backtracking {}).1 =
    .ok compilation := compiled
  rw [compiled] at finishes
  exact of_decide_eq_true finishes

namespace Injected

/-- An injected rule that matches within a line. -/
def single : GrammarSource where
  scopeName := "source.x"
  injections := some ⟨[("L:source.x", 0)]⟩
  rules := #[{ matchPattern := some "a", name := some "inj" }]

/-- An injected rule with an end, and a rule with an end of its own. -/
def region : GrammarSource where
  scopeName := "source.x"
  patterns := [0]
  injections := some ⟨[("L:source.x", 1)]⟩
  rules := #[{ beginPattern := some "\\(", endPattern := some "\\)", name := some "par" },
    { beginPattern := some "<", endPattern := some ">", name := some "inj" }]

def block : GrammarSource where
  scopeName := "source.x"
  injections := some ⟨[("L:source.x", 0)]⟩
  rules := #[{ beginPattern := some "^>", whilePattern := some "^>", name := some "inj" }]

end Injected

/-- Rules of the other kinds are not offered when they are injected, except inside a list. The
end of an injected rule ends another. -/
theorem injected_rules_apart :
    (Injected.shown Injected.single ["ba"] = some [([⟨0, 2, ["source.x"]⟩], 1)] ∧
      Injected.shown (Injected.single.wrap 0) ["ba"] =
        some [([⟨0, 1, ["source.x"]⟩, ⟨1, 2, ["source.x", "inj"]⟩], 1)]) ∧
    (Injected.shown Injected.region ["(>a)", "<b>"] = some
        [([⟨0, 1, ["source.x", "par"]⟩, ⟨1, 2, ["source.x", "par"]⟩, ⟨2, 4, ["source.x"]⟩], 1),
          ([⟨0, 2, ["source.x"]⟩, ⟨2, 3, ["source.x"]⟩], 1)] ∧
      Injected.shown (Injected.region.wrap 1) ["(>a)", "<b>"] = some
        [([⟨0, 1, ["source.x", "par"]⟩, ⟨1, 3, ["source.x", "par"]⟩,
            ⟨3, 4, ["source.x", "par"]⟩], 1),
          ([⟨0, 1, ["source.x", "inj"]⟩, ⟨1, 2, ["source.x", "inj"]⟩,
            ⟨2, 3, ["source.x", "inj"]⟩], 1)]) ∧
    (Injected.shown Injected.block [">a", ">b"] =
        some [([⟨0, 2, ["source.x"]⟩], 1), ([⟨0, 2, ["source.x"]⟩], 1)] ∧
      Injected.shown (Injected.block.wrap 0) [">a", ">b"] = some
        [([⟨0, 1, ["source.x", "inj"]⟩, ⟨1, 2, ["source.x", "inj"]⟩], 2),
          ([⟨0, 1, ["source.x", "inj"]⟩, ⟨1, 2, ["source.x", "inj"]⟩], 2)]) := by
  decide +kernel

end ScopeLexer
