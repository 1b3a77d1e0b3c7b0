import Partitura.Main
import Partitura.Proofs.Attempts
import Partitura.Proofs.Build.Plugins
import Partitura.Proofs.Cli.Job
import Partitura.Proofs.Codec.Declarations
import Partitura.Proofs.Codec.Strict
import Partitura.Proofs.Codec.Unicode
import Partitura.Proofs.Config.Loading
import Partitura.Proofs.Files.FileTree
import Partitura.Proofs.Files.Recode
import Partitura.Proofs.Files.RoundTrip
import Partitura.Proofs.Layout.Lines
import Partitura.Proofs.Layout.Indentation
import Partitura.Proofs.Layout.Losses
import Partitura.Proofs.Layout.Meaning
import Partitura.Proofs.Layout.Members
import Partitura.Proofs.Layout.Methods
import Partitura.Proofs.Layout.Quotes
import Partitura.Proofs.Layout.Relexing
import Partitura.Proofs.Layout.Stability
import Partitura.Proofs.Layout.Verdict
import Partitura.Proofs.Lint.Bodies
import Partitura.Proofs.Lint.Brackets
import Partitura.Proofs.Lint.Calls
import Partitura.Proofs.Lint.Codings
import Partitura.Proofs.Lint.Directives
import Partitura.Proofs.Lint.Mending
import Partitura.Proofs.Lint.QuotedCalls
import Partitura.Proofs.Lint.Redefinitions
import Partitura.Proofs.Lint.Regions
import Partitura.Proofs.ManuScript.Acceptance
import Partitura.Proofs.ManuScript.ArgumentCounts
import Partitura.Proofs.ManuScript.Brackets
import Partitura.Proofs.ManuScript.Clauses
import Partitura.Proofs.ManuScript.Comments
import Partitura.Proofs.ManuScript.Conclusions
import Partitura.Proofs.ManuScript.Dialects
import Partitura.Proofs.ManuScript.Drift
import Partitura.Proofs.ManuScript.Gist
import Partitura.Proofs.ManuScript.Grammar
import Partitura.Proofs.ManuScript.Lexemes
import Partitura.Proofs.ManuScript.Locations
import Partitura.Proofs.ManuScript.Members
import Partitura.Proofs.ManuScript.Phrases
import Partitura.Proofs.ManuScript.Places
import Partitura.Proofs.ManuScript.Progress
import Partitura.Proofs.ManuScript.Reachability
import Partitura.Proofs.ManuScript.Reading
import Partitura.Proofs.ManuScript.Roles
import Partitura.Proofs.ManuScript.Scripts
import Partitura.Proofs.ManuScript.Sheets
import Partitura.Proofs.ManuScript.Signatures
import Partitura.Proofs.ManuScript.Signs
import Partitura.Proofs.ManuScript.Trees
import Partitura.Proofs.ManuScript.Variables
import Partitura.Proofs.ManuScript.Wording
import Partitura.Proofs.Number.Numerals
import Partitura.Proofs.Score.Converters
import Partitura.Proofs.Score.Counts
import Partitura.Proofs.Score.Durations
import Partitura.Proofs.Score.Pitches
import Partitura.Proofs.Score.PluginCode
import Partitura.Proofs.Score.PluginDeeds
import Partitura.Proofs.Score.PluginLexemes
import Partitura.Proofs.Score.PluginLines
import Partitura.Proofs.Score.PluginReading
import Partitura.Proofs.Score.PluginText
import Partitura.Proofs.Score.PluginTexts
import Partitura.Proofs.Score.Remarks
import Partitura.Proofs.Text.Blanks
import Partitura.Proofs.Text.Classes
import Partitura.Proofs.Text.Escapes
import Partitura.Proofs.Text.Lines
import Partitura.Proofs.Text.Suggestions
import Partitura.ManuScript.LanguageFile
import Partitura.ManuScript.Plugin
import Partitura.Session.Rehearsal
import Partitura.Session.Tasks
import Partitura.Text.Pattern
