import ScopeLexer.Proofs.AnchorFlavours
import ScopeLexer.Proofs.WrittenReading
import ScopeLexer.Registry

/-!
Whether a pattern that is accepted as written is accepted in all flavours. A flavour that replaces no unit of
the pattern is the pattern as written. One that replaces conditions may be refused, as the units of a text
are not the elements of a pattern: in a class a backslash and the letter of a condition are no condition but
the letter, and the character that no text has can make the class a bad one. Where a pattern is written as
documented, conditions stand outside classes only, and the text in a flavour is written as documented, too.
-/
namespace ScopeLexer

open Grammar Pattern Regex

/-- A pattern passes its check just if the engine takes it as written. -/
theorem CachedPattern.validate_passes_iff {text : String} {engine : Engine} {journal : Journal} :
    (∃ checked after, (CachedPattern.ofText text).validate engine journal = (.ok checked, after)) ↔
      ∃ searcher, engine.compile (Pattern.ofText text).source = .ok searcher := by
  simp only [CachedPattern.validate, CachedPattern.ofText]
  cases engine.compile (Pattern.ofText text).source <;> simp

/-- What an engine makes of a pattern's text in a flavour is there whenever it is asked for. -/
theorem CachedPattern.compiled_isSome_iff {text : String} {engine : Engine} {journal after : Journal}
    {checked : CachedPattern} (valid : (CachedPattern.ofText text).validate engine journal = (.ok checked, after))
    (flavour : Flavour) (requests : List Request) (later : Journal) :
    ((requests.foldl (afterRequest engine) (checked, after)).1.compiled engine flavour later).1.isSome = true ↔
      ∃ searcher, engine.compile (flavour.replaceAnchors (Pattern.ofText text).source) = .ok searcher := by
  obtain ⟨same, sound⟩ := (CachedPattern.sound_untouched engine (Pattern.ofText text)).validate valid
  obtain ⟨sameLater, soundLater⟩ := CachedPattern.Sound.afterRequests (checked, after) sound requests
  rw [(soundLater.compiled flavour later).1, sameLater, same]
  change (Pattern.searcher (Pattern.ofText text) engine flavour).isSome = true ↔ _
  have kept : ((if (Pattern.ofText text).hasAnchors then flavour else .both).replaceAnchors
      (Pattern.ofText text).source) = flavour.replaceAnchors (Pattern.ofText text).source := by
    split
    next => rfl
    next unnoticed =>
      have none := eq_false_of_ne_true unnoticed
      rw [replaceAnchors_of_not_hasAnchors none, replaceAnchors_of_not_hasAnchors none]
  unfold Pattern.searcher
  rw [kept]
  cases engine.compile (flavour.replaceAnchors (Pattern.ofText text).source) <;> simp [Except.toOption]

/-- A pattern that is written as documented is taken in all flavours. -/
theorem Regex.Engine.TakesWritten.replaceAnchors {engine : Engine} {room : Nat}
    (takes : engine.TakesWritten room) {shape : Shape} {source : String}
    (written : Written shape source.toList) (short : source.toList.length ≤ room) (flavour : Flavour) :
    ∃ searcher, engine.compile (flavour.replaceAnchors source) = .ok searcher := by
  refine takes _ shape ?_ ?_
  · rw [replaceAnchors_eq, String.toList_ofList]
    exact written.replaceChars flavour
  · rw [replaceAnchors_eq, String.toList_ofList]
    exact Nat.le_trans (length_replaceChars flavour source.toList) short

/-- A pattern that was accepted as written is compiled in a flavour, whenever it is asked for, just if the
engine takes its text in the flavour. So it is compiled in every flavour that replaces nothing of it. If the
engine takes the patterns that are written as documented, those of them that were accepted are compiled in
all flavours. -/
theorem Pattern.accepted_flavours_compile {engine : Engine} {text : String} {journal after : Journal}
    {checked : CachedPattern}
    (valid : (CachedPattern.ofText text).validate engine journal = (.ok checked, after))
    (flavour : Flavour) (requests : List CachedPattern.Request) (later : Journal) :
    let source := (Pattern.ofText text).source
    let asked := requests.foldl (CachedPattern.afterRequest engine) (checked, after)
    let answer := (asked.1.compiled engine flavour later).1
    (answer.isSome = true ↔ ∃ searcher, engine.compile (flavour.replaceAnchors source) = .ok searcher) ∧
      ((∀ unit ∈ units source.toList, ¬ unit.Inactive flavour) → answer.isSome = true) ∧
      ∀ room shape, engine.TakesWritten room → Written shape source.toList →
        source.toList.length ≤ room → answer.isSome = true := by
  intro source asked answer
  have taken := CachedPattern.compiled_isSome_iff valid flavour requests later
  refine ⟨taken, fun active => ?_, fun room shape takes written short => ?_⟩
  · refine taken.mpr ?_
    rw [replaceAnchors_eq_self active]
    exact CachedPattern.validate_passes_iff.mp ⟨checked, after, valid⟩
  · exact taken.mpr (takes.replaceAnchors written short flavour)

/-- Conditions on the start of a document and of a search, each in front of a branch, can be asked for where
neither holds. -/
theorem Pattern.accepted_flavours_compile_branches :
    let source := (Pattern.ofText "\\Aa|\\Gb(?=c)").source
    backtracking.TakesWritten (deepest - 2) ∧ Written (.branches true) source.toList ∧
      source.toList.length ≤ deepest - 2 ∧
      ∃ checked after, (CachedPattern.ofText "\\Aa|\\Gb(?=c)").validate backtracking {} = (.ok checked, after) ∧
        (checked.compiled backtracking .neither {}).1.isSome = true := by
  intro source
  have written : Written (.branches true) source.toList := by
    have first : Written (.branch true) (['\\', 'A'] ++ ['a']) :=
      .next (.condition (by decide)) (.one (.plain (by decide)))
    have ahead : Written (.branch false) ("(?=".toList ++ (['c'] ++ [')'])) :=
      .ahead (by decide) (.whole (.one (.plain (by decide))))
    have letter : Written (.branch true) ['b'] := .one (.plain (by decide))
    have second : Written (.branch true) (['\\', 'G'] ++ (['b'] ++ ("(?=".toList ++ (['c'] ++ [')'])))) :=
      .next (.condition (by decide)) (.next letter ahead)
    have spelled : source.toList = ['\\', 'A'] ++ ['a'] ++ '|' ::
        (['\\', 'G'] ++ (['b'] ++ ("(?=".toList ++ (['c'] ++ [')'])))) := by
      decide
    rw [spelled]
    exact .choice first (.whole second)
  have short : source.toList.length ≤ deepest - 2 := by decide
  obtain ⟨checked, after, valid⟩ := CachedPattern.validate_passes_iff.mpr
    (takesWritten_backtracking source _ written short)
  have compiles := Pattern.accepted_flavours_compile valid .neither [] {}
  exact ⟨takesWritten_backtracking, written, short, checked, after, valid,
    compiles.2.2 _ _ takesWritten_backtracking written short⟩

namespace DroppedClass

/-- A grammar with a rule for the letters from the one that a first line's condition is written with. -/
def source : GrammarSource where
  scopeName := "source.x"
  patterns := [0]
  rules := #[{ matchPattern := some "[\\A-a]", name := some "letter" }]

@[irreducible]
def compilation : Compilation :=
  (compile "source.x" ⟨[("source.x", source)]⟩ [] backtracking {}).1.toOption.get
    (by decide +kernel)

def tokenizer : Tokenizer := { serial := 0, rulesSerial := 1, grammar := compilation.grammar }

/-- A line scanned before any pattern has been compiled in a flavour. -/
def scan (state : Option Stack) (text : String) : ScannedLine :=
  (tokenizer.scanLine backtracking .plain state text (fun _ => false)
    { patterns := compilation.patterns }).1

/-- The class is accepted as written, and refused where its letter is taken for an anchor that cannot
hold. So the rule takes a letter on the first line, and the same letter on the second line is left. -/
theorem anchor_in_class_drops :
    let (answer, journal) := (CachedPattern.ofText "[\\A-a]").validate backtracking {}
    (∃ checked ∈ answer.toOption,
      (checked.compiled backtracking .neither journal).1.isSome = false) ∧
    (scan none "B").tokens = [⟨0, 1, ["source.x", "letter"]⟩] ∧
    (scan (some (scan none "B").state) "B").tokens = [⟨0, 1, ["source.x"]⟩] := by
  decide +kernel

end DroppedClass
end ScopeLexer
