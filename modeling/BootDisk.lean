import BootDisk.Assembly
import BootDisk.Boot
import BootDisk.Command
import BootDisk.CommandLine
import BootDisk.Config.Basic
import BootDisk.Config.Decode
import BootDisk.Config.Load
import BootDisk.Container
import BootDisk.Decimal.Binary64
import BootDisk.Decimal.Shortest
import BootDisk.Digest.Hasher
import BootDisk.Digest.Sha256
import BootDisk.Emulator
import BootDisk.Failure
import BootDisk.FileTree.Basic
import BootDisk.FileTree.Calls
import BootDisk.FileTree.Content
import BootDisk.FileTree.Lay
import BootDisk.FileTree.Walk
import BootDisk.Host
import BootDisk.IoError
import BootDisk.Json.Pretty
import BootDisk.Json.Reader
import BootDisk.Machine.Basic
import BootDisk.Machine.Run
import BootDisk.Mismatch
import BootDisk.Options
import BootDisk.Path
import BootDisk.Profile
import BootDisk.Project
import BootDisk.Shell.Builtin.Echo
import BootDisk.Shell.Builtin.Options
import BootDisk.Shell.Builtin.Places
import BootDisk.Shell.Builtin.Signals
import BootDisk.Shell.Builtin.Test
import BootDisk.Shell.Builtin.Variables
import BootDisk.Shell.Expansion
import BootDisk.Shell.Image
import BootDisk.Shell.Number
import BootDisk.Shell.Octets
import BootDisk.Shell.Pattern
import BootDisk.Shell.Process
import BootDisk.Shell.Reader.Commands
import BootDisk.Shell.Reader.Cursor
import BootDisk.Shell.Reader.Words
import BootDisk.Shell.Redirecting
import BootDisk.Shell.Running.Builtins
import BootDisk.Shell.Running.Children
import BootDisk.Shell.Running.Compound
import BootDisk.Shell.Running.Levels
import BootDisk.Shell.Running.Programs
import BootDisk.Shell.Running.Simple
import BootDisk.Shell.Running.Texts
import BootDisk.Shell.Script
import BootDisk.Shell.Search
import BootDisk.Shell.Signal
import BootDisk.Shell.Splitting
import BootDisk.Shell.Sum
import BootDisk.Shell.Utility
import BootDisk.Shell.Utility.Arguments
import BootDisk.Shell.Utility.Basic
import BootDisk.Shell.Utility.Filing
import BootDisk.Shell.Utility.Names
import BootDisk.Shell.Utility.Showing
import BootDisk.Staging
import BootDisk.Staging.Discovery
import BootDisk.Staging.Install
import BootDisk.Staging.Manifest
import BootDisk.Staging.Report
import BootDisk.Staging.Timestamp
import BootDisk.Target
import BootDisk.Text.Blank
import BootDisk.Text.Fields
import BootDisk.Text.Quoted
import BootDisk.Text.Unshown
import BootDisk.Text.Utf8
import BootDisk.Toml.Basic
import BootDisk.Toml.Document
import BootDisk.Toml.Entries
import BootDisk.Toml.Excerpt
import BootDisk.Toml.Reader
import BootDisk.Toml.Scalar
import BootDisk.Toml.Strings
import BootDisk.ToolCheck
import BootDisk.Toolchain.Basic
import BootDisk.Toolchain.Cargo
import BootDisk.Toolchain.Commands
import BootDisk.Toolchain.Scripted
import BootDisk.Tools
import BootDisk.Main
import BootDisk.Proofs.Agree
import BootDisk.Proofs.Assembly
import BootDisk.Proofs.Assembly.History
import BootDisk.Proofs.Basic
import BootDisk.Proofs.Config.Anchored
import BootDisk.Proofs.Config.Meaning
import BootDisk.Proofs.Config.Shape
import BootDisk.Proofs.Config.Written
import BootDisk.Proofs.Container
import BootDisk.Proofs.Container.Capacity
import BootDisk.Proofs.Container.Creation
import BootDisk.Proofs.Container.Writing
import BootDisk.Proofs.Digest
import BootDisk.Proofs.Digest.Reading
import BootDisk.Proofs.Discovery
import BootDisk.Proofs.Discovery.Binaries
import BootDisk.Proofs.Emulator
import BootDisk.Proofs.FileTree.Calls
import BootDisk.Proofs.FileTree.Directory
import BootDisk.Proofs.FileTree.Growth
import BootDisk.Proofs.FileTree.Names
import BootDisk.Proofs.FileTree.Straight
import BootDisk.Proofs.FileTree.Times
import BootDisk.Proofs.FileTree.Walk
import BootDisk.Proofs.FileTree.Writing
import BootDisk.Proofs.Frame
import BootDisk.Proofs.Install
import BootDisk.Proofs.Json.Forms
import BootDisk.Proofs.Json.Written
import BootDisk.Proofs.Machine
import BootDisk.Proofs.Options
import BootDisk.Proofs.Options.Grammar
import BootDisk.Proofs.Path
import BootDisk.Proofs.Run.Both
import BootDisk.Proofs.Run.Calls
import BootDisk.Proofs.Run.Children
import BootDisk.Proofs.Run.Loading
import BootDisk.Proofs.Run.Restaging
import BootDisk.Proofs.Run.Times
import BootDisk.Proofs.Run.Tools
import BootDisk.Proofs.Run.Trace
import BootDisk.Proofs.Run.Unrecorded
import BootDisk.Proofs.Staging
import BootDisk.Proofs.Staging.Aliased
import BootDisk.Proofs.Staging.Apart
import BootDisk.Proofs.Staging.Confined
import BootDisk.Proofs.Staging.FailFast
import BootDisk.Proofs.Staging.History
import BootDisk.Proofs.Staging.Manifest
import BootDisk.Proofs.Staging.Programs
import BootDisk.Proofs.Staging.Rebuild
import BootDisk.Proofs.Staging.Record
import BootDisk.Proofs.Staging.Repeated
import BootDisk.Proofs.Text.Digits
import BootDisk.Proofs.Text.Utf8
import BootDisk.Proofs.Toml.Distinct
import BootDisk.Proofs.Toml.ReadBack
import BootDisk.Proofs.Toml.Written
import BootDisk.Proofs.ToolCheck
import BootDisk.Proofs.Toolchain.Outputs
import BootDisk.Proofs.Toolchain.Target
