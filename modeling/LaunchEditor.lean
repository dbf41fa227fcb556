import LaunchEditor.FileTree
import LaunchEditor.Main
import LaunchEditor.Editor.Script
import LaunchEditor.Proofs.Editor.Consistent
import LaunchEditor.Proofs.Editor.Checked
import LaunchEditor.Proofs.Editor.Commit
import LaunchEditor.Proofs.Editor.Characters
import LaunchEditor.Proofs.Editor.Color
import LaunchEditor.Proofs.Editor.Confirmed
import LaunchEditor.Proofs.Options.Apply
import LaunchEditor.Proofs.Options.Kept
import LaunchEditor.Proofs.Catalog.Valid
import LaunchEditor.Proofs.Text.Split
import LaunchEditor.Proofs.Editor.FixedPart
import LaunchEditor.Proofs.Session.Cancel
import LaunchEditor.Proofs.Session.Outcome
import LaunchEditor.Proofs.Session.Trace
import LaunchEditor.Proofs.Options.Preview
import LaunchEditor.Proofs.Options.Arguments
import LaunchEditor.Proofs.Shell.Lexeme
import LaunchEditor.Proofs.Shell.Line
import LaunchEditor.Proofs.Terminal.Visible
import LaunchEditor.Proofs.Options.Unambiguous
import LaunchEditor.Proofs.Options.Explicit
import LaunchEditor.Proofs.Editor.Failure
import LaunchEditor.Proofs.Editor.Retype
import LaunchEditor.Proofs.Editor.Overwrite
import LaunchEditor.Proofs.Terminal.Cells
import LaunchEditor.Proofs.Editor.Preview
import LaunchEditor.Proofs.Editor.Abandon
import LaunchEditor.Proofs.Editor.Stacks
import LaunchEditor.Proofs.Shell.Decode
import LaunchEditor.Proofs.Options.Sequence
import LaunchEditor.Proofs.Catalog.Closest
import LaunchEditor.Proofs.Editor.Layout
import LaunchEditor.Proofs.Text.Segments
import LaunchEditor.Proofs.Editor.Selection
import LaunchEditor.Proofs.Catalog.Spelling
