import LocaleScript.Script.Scan
import LocaleScript.Table
import LocaleScript.Json.Printer
import LocaleScript.Json.Reader
import LocaleScript.Script.Condenser
import LocaleScript.Script.Wrapper
import LocaleScript.Text.Case
import LocaleScript.Text.Quoted
import LocaleScript.Template.Error
import LocaleScript.Template.Value
import LocaleScript.Template.Engine
import LocaleScript.Builtin.Sources
import LocaleScript.Build.Compiler
import LocaleScript.Locale.Document
import LocaleScript.Build.ConfigDocument
import LocaleScript.Proofs.Script.Reread
import LocaleScript.Proofs.Build.Substitution
import LocaleScript.Proofs.Build.SourceMap
import LocaleScript.Proofs.Script.Nesting
import LocaleScript.Proofs.Script.Wrapping
import LocaleScript.Proofs.Script.Partition
import LocaleScript.Proofs.Build.ScopeLines
import LocaleScript.Proofs.Build.Isolation
import LocaleScript.Proofs.Decimal.Chars
import LocaleScript.Proofs.Script.Data
import LocaleScript.Proofs.Script.OutlinePassage
import LocaleScript.Proofs.Script.BracketFaults
import LocaleScript.Proofs.Build.Minifying
import LocaleScript.Proofs.Build.FileNames
import LocaleScript.Proofs.Script.SelfDelimiting
import LocaleScript.Proofs.Script.Unterminated
import LocaleScript.Proofs.Script.Blanking
import LocaleScript.Proofs.Script.Substitutions
import LocaleScript.Proofs.SourceMap.Word
import LocaleScript.Proofs.Build.SharedSlash
import LocaleScript.Proofs.Script.LineBreaks
import LocaleScript.Proofs.Script.FaultPosition
import LocaleScript.Proofs.Builtin.Missing
import LocaleScript.Proofs.Builtin.Embedding
import LocaleScript.Proofs.Template.Names
import LocaleScript.Proofs.Template.Views
import LocaleScript.Proofs.Locale.History
import LocaleScript.Proofs.Script.Size
import LocaleScript.Proofs.Template.InertData
