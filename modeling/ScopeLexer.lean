import ScopeLexer.Command.Arguments
import ScopeLexer.Command.Output
import ScopeLexer.Command.Run
import ScopeLexer.Config
import ScopeLexer.Dictionary
import ScopeLexer.Disk
import ScopeLexer.Error
import ScopeLexer.Grammar.Compiler
import ScopeLexer.Grammar.Context
import ScopeLexer.Grammar.Dependencies
import ScopeLexer.Grammar.Reference
import ScopeLexer.Grammar.Rule
import ScopeLexer.Grammar.Source
import ScopeLexer.Grammar.SourceReader
import ScopeLexer.Journal
import ScopeLexer.Json.Decode
import ScopeLexer.Json.Number
import ScopeLexer.Json.Reader
import ScopeLexer.Json.Value
import ScopeLexer.Json.Writer
import ScopeLexer.Line.Capture
import ScopeLexer.Line.Finder
import ScopeLexer.Line.PatternSet
import ScopeLexer.Line.Piece
import ScopeLexer.Line.Scan
import ScopeLexer.Line.Token
import ScopeLexer.Main
import ScopeLexer.Pattern.Backreference
import ScopeLexer.Pattern.Basic
import ScopeLexer.Pattern.Flavour
import ScopeLexer.Pattern.RuleName
import ScopeLexer.Pattern.Store
import ScopeLexer.Regex.Callout
import ScopeLexer.Regex.Calls
import ScopeLexer.Regex.CharSet
import ScopeLexer.Regex.ClassReader
import ScopeLexer.Regex.CodeSize
import ScopeLexer.Regex.Engine
import ScopeLexer.Regex.Error
import ScopeLexer.Regex.Escape
import ScopeLexer.Regex.Exclusion
import ScopeLexer.Regex.Expr
import ScopeLexer.Regex.Folding
import ScopeLexer.Regex.LookBehind
import ScopeLexer.Regex.Matcher
import ScopeLexer.Regex.Name
import ScopeLexer.Regex.Needed
import ScopeLexer.Regex.Options
import ScopeLexer.Regex.Parser
import ScopeLexer.Regex.Preparation
import ScopeLexer.Regex.Property
import ScopeLexer.Regex.Repetition
import ScopeLexer.Regex.Search
import ScopeLexer.Regex.Spans
import ScopeLexer.Regex.Subject
import ScopeLexer.Regex.Token
import ScopeLexer.Regex.Width
import ScopeLexer.Proofs.CompilerGrowth
import ScopeLexer.Proofs.GrammarUse
import ScopeLexer.Proofs.MemoSearch
import ScopeLexer.Proofs.Offsets
import ScopeLexer.Proofs.ScanCourse
import ScopeLexer.Proofs.ScanSimulation
import ScopeLexer.Proofs.StoreSoundness
import ScopeLexer.Proofs.WorkspaceFidelity
import ScopeLexer.Registry
import ScopeLexer.Scope
import ScopeLexer.ScopePath
import ScopeLexer.Selector.Basic
import ScopeLexer.Selector.Parser
import ScopeLexer.Selector.Token
import ScopeLexer.SourceLine
import ScopeLexer.Stack
import ScopeLexer.Style.Color
import ScopeLexer.Style.ColorMap
import ScopeLexer.Style.FontStyle
import ScopeLexer.Style.Metadata
import ScopeLexer.Table
import ScopeLexer.Text.Assigned
import ScopeLexer.Text.Blank
import ScopeLexer.Text.CaseFolding
import ScopeLexer.Text.Category
import ScopeLexer.Text.Decimal
import ScopeLexer.Text.Digit
import ScopeLexer.Text.Letter
import ScopeLexer.Text.LetterCase
import ScopeLexer.Text.Mark
import ScopeLexer.Text.Pieces
import ScopeLexer.Text.Printable
import ScopeLexer.Text.Punctuation
import ScopeLexer.Text.Quoted
import ScopeLexer.Text.Ranges
import ScopeLexer.Text.Recent
import ScopeLexer.Text.Script
import ScopeLexer.Text.Symbol
import ScopeLexer.Theme.Basic
import ScopeLexer.Theme.Document
import ScopeLexer.Theme.Rule
import ScopeLexer.Theme.Trie
import ScopeLexer.Tokenizer
import ScopeLexer.Warning
import ScopeLexer.Proofs.Coverage
import ScopeLexer.Proofs.MemoTransparency
import ScopeLexer.Proofs.ScanProgress
import ScopeLexer.Proofs.ScanTermination
import ScopeLexer.Proofs.StateCongruence
import ScopeLexer.Proofs.CompilerLockstep
import ScopeLexer.Proofs.PackedAgreement
import ScopeLexer.Proofs.CompilationAgreement
import ScopeLexer.Proofs.WorkInvariant
import ScopeLexer.Proofs.ReachableStates
import ScopeLexer.Proofs.DependencyWalk
import ScopeLexer.Proofs.DependencyRounds
import ScopeLexer.Proofs.DependencyCompleteness
import ScopeLexer.Proofs.LoadingCompleteness
import ScopeLexer.Proofs.RenumberedFinder
import ScopeLexer.Proofs.RenumberedScan
import ScopeLexer.Proofs.GroupFlattening
import ScopeLexer.Proofs.WrappedGrammar
import ScopeLexer.Proofs.WrappedCompilation
import ScopeLexer.Proofs.WrappedAgreement
import ScopeLexer.Proofs.InjectionTransparency
import ScopeLexer.Proofs.SourceOrder
import ScopeLexer.Proofs.CompilerLedger
import ScopeLexer.Proofs.RuleLedger
import ScopeLexer.Proofs.RuleGraph
import ScopeLexer.Proofs.MatchSelection
import ScopeLexer.Proofs.ThemeLevels
import ScopeLexer.Proofs.LexicalScope
import ScopeLexer.Proofs.IncludeMeaning
import ScopeLexer.Proofs.ReorderedLists
import ScopeLexer.Proofs.SelectorSyntax
import ScopeLexer.Proofs.SelectorMeaning
import ScopeLexer.Proofs.JournalIndependence
import ScopeLexer.Proofs.LibraryAgreement
import ScopeLexer.Proofs.DocumentSize
import ScopeLexer.Proofs.LentGrammars
import ScopeLexer.Proofs.RegistryCoherence
import ScopeLexer.Proofs.LazyRegistration
import ScopeLexer.Proofs.ScanReach
import ScopeLexer.Proofs.ScopeAdditivity
import ScopeLexer.Proofs.CaptureNesting
import ScopeLexer.Proofs.StyledPaths
import ScopeLexer.Proofs.RegexSearch
import ScopeLexer.Proofs.ContenderScan
import ScopeLexer.Proofs.RegionGrammars
import ScopeLexer.Proofs.BracketBalance
import ScopeLexer.Proofs.EscapedText
import ScopeLexer.Proofs.WordPatterns
import ScopeLexer.Proofs.HeredocRegions
import ScopeLexer.Proofs.ParentMatching
import ScopeLexer.Proofs.TemplateReferences
import ScopeLexer.Proofs.GivenUpScans
import ScopeLexer.Proofs.GroupExpansion
import ScopeLexer.Proofs.ThemeReordering
import ScopeLexer.Proofs.DependencySoundness
import ScopeLexer.Proofs.LineConditions
import ScopeLexer.Proofs.OffsetConversion
import ScopeLexer.Proofs.StackDigests
import ScopeLexer.Proofs.AnchorFlavours
import ScopeLexer.Proofs.FlavourAcceptance
import ScopeLexer.Proofs.WrittenReading
import ScopeLexer.Proofs.PackedFields
import ScopeLexer.Proofs.SelectorTrees
import ScopeLexer.Proofs.EmbeddedLanguages
import ScopeLexer.Proofs.BracketSelectors
import ScopeLexer.Proofs.ScopeAtoms
import ScopeLexer.Proofs.HexColors
import ScopeLexer.Proofs.CaptureTables
