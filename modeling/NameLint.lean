import NameLint.Command.Dump
import NameLint.Command.Run
import NameLint.Edit.Splice
import NameLint.Files.Discovery
import NameLint.Lint.Linter
import NameLint.Lint.Registry
import NameLint.Main
import NameLint.Naming.Rule
import NameLint.Proofs.Command.Checking
import NameLint.Proofs.Command.EachOnce
import NameLint.Proofs.Command.Run
import NameLint.Proofs.Edit.Apply
import NameLint.Proofs.Edit.Collision
import NameLint.Proofs.Edit.LoneEdits
import NameLint.Proofs.Edit.Repetition
import NameLint.Proofs.Files.Discovery
import NameLint.Proofs.Files.Search
import NameLint.Proofs.Files.Write
import NameLint.Proofs.Lint.AfterFixing
import NameLint.Proofs.Lint.Finding
import NameLint.Proofs.Lint.Independence
import NameLint.Proofs.Lint.PropertiesMode
import NameLint.Proofs.Lint.Session
import NameLint.Proofs.Naming.CleanRename
import NameLint.Proofs.Naming.Table
import NameLint.Proofs.Naming.Words
import NameLint.Proofs.Report.Checkstyle
import NameLint.Proofs.Report.Plain
import NameLint.Proofs.Settings.Format
import NameLint.Proofs.Settings.Overrides
import NameLint.Proofs.Source.LineEnds
import NameLint.Proofs.Source.LineIndex
import NameLint.Proofs.Source.Lines
import NameLint.Proofs.Source.LocationOrder
import NameLint.Proofs.Text.Span
import NameLint.Proofs.Toml.Keys
import NameLint.Proofs.Tree.Moves
import NameLint.Proofs.Tree.Outline
import NameLint.Report.Checkstyle
import NameLint.Report.Plain
import NameLint.Settings.Load
import NameLint.Source.LineIndex
import NameLint.Toml.Parser
import NameLint.Tree.Cursor
import NameLint.Tree.Outline
