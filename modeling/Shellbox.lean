import Shellbox.Main
import Shellbox.Proofs.Text.Lines
import Shellbox.Proofs.Filesystem.Path
import Shellbox.Proofs.Filesystem.Tree
import Shellbox.Proofs.Filesystem.Reachable
import Shellbox.Proofs.Line.Labels
import Shellbox.Proofs.Line.Tokens
import Shellbox.Proofs.Line.Stages
import Shellbox.Proofs.Line.Quoted
import Shellbox.Proofs.Shell.Calls
import Shellbox.Proofs.Filesystem.Walk
import Shellbox.Proofs.Command.Catalog
import Shellbox.Proofs.Command.History
import Shellbox.Proofs.Filesystem.Changes
import Shellbox.Proofs.Filesystem.Removal
import Shellbox.Proofs.Filesystem.Rows
import Shellbox.Proofs.Filesystem.Directory
import Shellbox.Proofs.Command.Effects
import Shellbox.Proofs.Text.Words
import Shellbox.Proofs.Command.Guard
import Shellbox.Proofs.Command.Lines
import Shellbox.Proofs.Command.Removal
import Shellbox.Proofs.Filesystem.Spelling
import Shellbox.Proofs.Shell.Attempts
import Shellbox.Proofs.Shell.Run
import Shellbox.Proofs.Shell.Frame
import Shellbox.Proofs.Shell.Recorded
import Shellbox.Proofs.Line.Redirected
import Shellbox.Proofs.Line.Spelled
import Shellbox.Proofs.Shell.Piped
import Shellbox.Proofs.Shell.Counting
import Shellbox.Proofs.Shell.Capture
import Shellbox.Proofs.Shell.Expansion
import Shellbox.Proofs.Shell.Aliasing
import Shellbox.Proofs.Filesystem.Records
import Shellbox.Proofs.Filesystem.Planting
import Shellbox.Proofs.Filesystem.Times
import Shellbox.Proofs.Filesystem.Making
import Shellbox.Proofs.Command.Operations
import Shellbox.Proofs.Shell.Clock
import Shellbox.Proofs.Shell.Conversation
import Shellbox.Proofs.Command.Encoders
import Shellbox.Proofs.Codec.Base64
import Shellbox.Proofs.Shell.RoundTrip
import Shellbox.Proofs.Command.Options
import Shellbox.Proofs.Command.Readers
import Shellbox.Proofs.Shell.Reading
import Shellbox.Proofs.Command.Codes
import Shellbox.Proofs.Shell.Launch
import Shellbox.Proofs.Shell.Codes
import Shellbox.Proofs.Filesystem.Starter
import Shellbox.Proofs.Command.Search
import Shellbox.Proofs.Filesystem.Standing
import Shellbox.Proofs.Shell.Appending
import Shellbox.Proofs.Filesystem.Filling
import Shellbox.Proofs.Command.Runs
import Shellbox.Proofs.Shell.Sorting
import Shellbox.Proofs.Command.Collapsing
import Shellbox.Proofs.Number.Exact
import Shellbox.Proofs.Number.Leading
import Shellbox.Proofs.Command.Sorting
import Shellbox.Proofs.Line.Redirections
import Shellbox.Proofs.Command.Registry
import Shellbox.Proofs.Filesystem.Writing
import Shellbox.Proofs.Filesystem.Directories
import Shellbox.Proofs.Filesystem.Resolving
import Shellbox.Proofs.Filesystem.Pruning
import Shellbox.Proofs.Filesystem.Without
import Shellbox.Proofs.Command.InTurn
import Shellbox.Proofs.Command.Forced
import Shellbox.Proofs.Codec.Hex
import Shellbox.Proofs.Shell.Dumps
import Shellbox.Proofs.Shell.Prompt
import Shellbox.Proofs.Codec.Utf8
import Shellbox.Proofs.Pattern.Attempts
import Shellbox.Proofs.Pattern.Reading
import Shellbox.Proofs.Pattern.Glob
import Shellbox.Proofs.Pattern.Lockstep
import Shellbox.Proofs.Filesystem.Finding
import Shellbox.Proofs.Filesystem.Searching
import Shellbox.Proofs.Command.Find
import Shellbox.Proofs.Pattern.Ending
import Shellbox.Proofs.Pattern.Parts
import Shellbox.Proofs.Pattern.Anchored
import Shellbox.Proofs.Pattern.Anchoring
import Shellbox.Proofs.Pattern.Literal
import Shellbox.Proofs.Command.Grep
import Shellbox.Proofs.Success
import Shellbox.Proofs.Number.Numeral
import Shellbox.Proofs.Command.Fields
import Shellbox.Proofs.Command.Columns
import Shellbox.Proofs.Command.Cutting
import Shellbox.Proofs.Command.Substitution
import Shellbox.Proofs.Command.Extracts
import Shellbox.Proofs.Line.Conservation
import Shellbox.Proofs.Command.Escapes
import Shellbox.Proofs.Shell.Printing
import Shellbox.Proofs.Command.Counts
import Shellbox.Proofs.Pattern.Runs
import Shellbox.Proofs.Command.Printable
import Shellbox.Proofs.Command.Listing
import Shellbox.Proofs.Command.Manual
import Shellbox.Proofs.Line.Restart
import Shellbox.Proofs.Shell.Meaning
