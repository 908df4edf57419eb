import Showcase.Command.Builtin
import Showcase.Command.Completion
import Showcase.Command.Error
import Showcase.Command.Invocation
import Showcase.Command.Registry
import Showcase.Command.Resolve
import Showcase.Config
import Showcase.Decimal.Binary64
import Showcase.Decimal.Shortest
import Showcase.Disk
import Showcase.Mail.Message
import Showcase.Mail.Notifier
import Showcase.Mail.Outbox
import Showcase.Mail.Relay
import Showcase.Main
import Showcase.Screen.Draw
import Showcase.Screen.Rows
import Showcase.Screen.Terminal
import Showcase.Shell.Basic
import Showcase.Shell.History
import Showcase.Shell.Key
import Showcase.Shell.Operation
import Showcase.Shell.Session
import Showcase.Style.Color
import Showcase.Style.Line
import Showcase.Style.Palette
import Showcase.Text.Basic
import Showcase.Text.Blank
import Showcase.Text.Hidden
import Showcase.Text.Numeral
import Showcase.Text.Quoted
import Showcase.Text.Reader
import Showcase.Toml.Assembly
import Showcase.Toml.DateTime
import Showcase.Toml.Document
import Showcase.Toml.Scalar
import Showcase.Toml.Shape
import Showcase.Toml.Value
import Showcase.Tree.Basic
import Showcase.Tree.Builtin
import Showcase.Tree.Decode
import Showcase.Tree.Path
import Showcase.Tree.Walk
import Showcase.Proofs.Command.Dispatch
import Showcase.Proofs.Mail.Accounting
import Showcase.Proofs.Shell.Frame
import Showcase.Proofs.Shell.WorkingDirectory
import Showcase.Proofs.Mail.Grammar
import Showcase.Proofs.Shell.Letters
import Showcase.Proofs.Screen.Display
import Showcase.Proofs.Screen.Drawing
import Showcase.Proofs.Screen.Printed
import Showcase.Proofs.Screen.Spans
import Showcase.Proofs.Command.Completion
import Showcase.Proofs.Shell.Scrollback
import Showcase.Proofs.Shell.Independence
import Showcase.Proofs.Shell.History
import Showcase.Proofs.Tree.Trail
import Showcase.Proofs.Mail.Timing
import Showcase.Proofs.Shell.Settling
import Showcase.Proofs.Shell.Entering
import Showcase.Proofs.Toml.Distinct
import Showcase.Proofs.Tree.Document
import Showcase.Proofs.Tree.Addresses
import Showcase.Proofs.Tree.Lookup
import Showcase.Proofs.Tree.Growth
import Showcase.Proofs.Shell.Listing
import Showcase.Proofs.Shell.Recall
import Showcase.Proofs.Tree.Height
import Showcase.Proofs.Shell.Tabbing
import Showcase.Proofs.Command.Tokens
import Showcase.Proofs.Command.Registration
import Showcase.Proofs.Style.Hexadecimal
import Showcase.Proofs.Shell.Parts
import Showcase.Proofs.Shell.Typing
