import PalChecker.FileTree
import PalChecker.Main
import PalChecker.Proofs.LongestRun
import PalChecker.Proofs.Parser.ExpressionRules
import PalChecker.Proofs.Parser.StatementRules
import PalChecker.Proofs.Parser.DeclarationRules
import PalChecker.Proofs.Syntax.Canonical
import PalChecker.Proofs.Syntax.Grammar
import PalChecker.Proofs.Parser.CleanRuns
import PalChecker.Proofs.Parser.RoundTrip
import PalChecker.Proofs.Syntax.Sentences
import PalChecker.Proofs.Parser.Numbering
import PalChecker.Proofs.Discovery
import PalChecker.Proofs.Parser.Progress
import PalChecker.Proofs.Typing.Declared
import PalChecker.Proofs.Typing.WellTyped
import PalChecker.Proofs.Parser.Advance
import PalChecker.Proofs.Parser.TwoRuns
import PalChecker.Proofs.Parser.Mirrored
import PalChecker.Proofs.Parser.MirroredPrograms
import PalChecker.Proofs.Parser.ViablePrefix
import PalChecker.Proofs.Parser.Faulted
import PalChecker.Proofs.Syntax.Places
import PalChecker.Proofs.Parser.FaultedExpressions
import PalChecker.Proofs.Parser.AlteredStatements
import PalChecker.Proofs.Parser.AlteredPrograms
import PalChecker.Proofs.Parser.AlteredConstructs
import PalChecker.Proofs.Parser.OmittedTerminals
import PalChecker.Proofs.Parser.OmittedEquals
import PalChecker.Proofs.Syntax.Strewn
import PalChecker.Proofs.Parser.SideBySide
import PalChecker.Proofs.Parser.StrewnStatements
import PalChecker.Proofs.Typing.Renumbered
import PalChecker.Proofs.Parser.StrayRuns
import PalChecker.Proofs.Parser.Runs
import PalChecker.Proofs.Parser.History
import PalChecker.Proofs.Parser.Blame
import PalChecker.Proofs.Syntax.Renamed
import PalChecker.Proofs.Parser.Lockstep
import PalChecker.Proofs.Parser.ProgramEnd
import PalChecker.Proofs.Parser.EarlyErrors
import PalChecker.Proofs.Suppression
import PalChecker.Proofs.Parser.RenamedRuns
import PalChecker.Proofs.Typing.RenamedNames
import PalChecker.Proofs.Renaming
import PalChecker.Proofs.Syntax.Spoilt
import PalChecker.Proofs.Typing.FadedTypes
import PalChecker.Proofs.Typing.SpoiltChecks
import PalChecker.Proofs.Token.Scanning
import PalChecker.Proofs.Token.LineBreaks
import PalChecker.Proofs.Token.Spelling
import PalChecker.Proofs.Token.Grammar
import PalChecker.Proofs.Token.GrammarRuns
import PalChecker.Proofs.Token.Cuts
import PalChecker.Proofs.EndOfFile
import PalChecker.Proofs.Token.Written
import PalChecker.Proofs.Parser.Steps
import PalChecker.Proofs.Parser.Budget
import PalChecker.Proofs.Parser.StepCosts
import PalChecker.Proofs.Parser.Termination
import PalChecker.Proofs.Typing.Declarators
import PalChecker.Proofs.Typing.Redeclarations
import PalChecker.Proofs.Typing.Uses
import PalChecker.Proofs.Typing.Comparisons
import PalChecker.Proofs.Syntax.HeldTokens
import PalChecker.Proofs.HeldTokens
import PalChecker.Proofs.CommandLine.Lines
import PalChecker.Proofs.Parser.CutPrograms
import PalChecker.Proofs.Parser.Precedence
import PalChecker.Proofs.Parser.NumberBound
import PalChecker.Proofs.Parser.MissingParts
import PalChecker.Proofs.Typing.Edits
import PalChecker.Proofs.Typing.ScopeHistory
import PalChecker.Proofs.Syntax.Display
import PalChecker.Proofs.Token.Positions
import PalChecker.Proofs.Parser.Expectations
import PalChecker.Proofs.Typing.Operands
