import SessionGuard.App
import SessionGuard.App.Machine
import SessionGuard.App.Operation
import SessionGuard.Auth.Form
import SessionGuard.Backend
import SessionGuard.Cli.Arguments
import SessionGuard.Cli.Command
import SessionGuard.Cli.Completion
import SessionGuard.Cli.Grammar
import SessionGuard.Cli.Report
import SessionGuard.Cli.Run
import SessionGuard.Config
import SessionGuard.Credentials
import SessionGuard.Disk
import SessionGuard.Disk.Mode
import SessionGuard.Disk.Path
import SessionGuard.Disk.Writing
import SessionGuard.Envelope
import SessionGuard.Error
import SessionGuard.Expiry
import SessionGuard.Http.Exchange
import SessionGuard.Http.Form
import SessionGuard.Http.Request
import SessionGuard.Http.Response
import SessionGuard.Http.Wire
import SessionGuard.Json.Basic
import SessionGuard.Json.Models
import SessionGuard.Json.Numeral
import SessionGuard.Json.Raw
import SessionGuard.Json.Record
import SessionGuard.Main
import SessionGuard.Number.Binary64
import SessionGuard.Number.Shortest
import SessionGuard.Route
import SessionGuard.Route.Gate
import SessionGuard.Route.History
import SessionGuard.Scenario
import SessionGuard.Scenario.Script
import SessionGuard.Scenario.World
import SessionGuard.Session.State
import SessionGuard.Sorted
import SessionGuard.Store
import SessionGuard.Store.SessionFile
import SessionGuard.Text.Base64
import SessionGuard.Text.Escaped
import SessionGuard.Text.Octets
import SessionGuard.Text.Percent
import SessionGuard.Text.Printable
import SessionGuard.Text.Punycode
import SessionGuard.Text.Style
import SessionGuard.Text.Table
import SessionGuard.Text.Trim
import SessionGuard.Text.Width
import SessionGuard.Time
import SessionGuard.Url
import SessionGuard.Url.Domain
import SessionGuard.Url.Host
import SessionGuard.Url.Parser
import SessionGuard.User
import SessionGuard.Yaml.Cursor
import SessionGuard.Yaml.Document
import SessionGuard.Yaml.Lexer
import SessionGuard.Yaml.Node
import SessionGuard.Yaml.Printer
import SessionGuard.Yaml.Scalar
import SessionGuard.Yaml.Token
import SessionGuard.Yaml.Value
import SessionGuard.Proofs.Auth.Action
import SessionGuard.Proofs.Auth.AllOrNothing
import SessionGuard.Proofs.Backend.Address
import SessionGuard.Proofs.Backend.Attempt
import SessionGuard.Proofs.Backend.Bodies
import SessionGuard.Proofs.Backend.Course
import SessionGuard.Proofs.Backend.Lasting
import SessionGuard.Proofs.Backend.Passwords
import SessionGuard.Proofs.Backend.Recovery
import SessionGuard.Proofs.Backend.Rejection
import SessionGuard.Proofs.Backend.Request
import SessionGuard.Proofs.Cli.Answers
import SessionGuard.Proofs.Cli.Changes
import SessionGuard.Proofs.Cli.Coherence
import SessionGuard.Proofs.Cli.Configuring
import SessionGuard.Proofs.Cli.Forms
import SessionGuard.Proofs.Cli.Host
import SessionGuard.Proofs.Cli.Opening
import SessionGuard.Proofs.Cli.Passwords
import SessionGuard.Proofs.Cli.Requests
import SessionGuard.Proofs.Cli.Restarts
import SessionGuard.Proofs.Cli.Separation
import SessionGuard.Proofs.Cli.Shown
import SessionGuard.Proofs.Config.Apart
import SessionGuard.Proofs.Config.Limit
import SessionGuard.Proofs.Config.RoundTrip
import SessionGuard.Proofs.Disk.Directories
import SessionGuard.Proofs.Disk.Entries
import SessionGuard.Proofs.Disk.Frame
import SessionGuard.Proofs.Disk.Left
import SessionGuard.Proofs.Disk.Lookup
import SessionGuard.Proofs.Disk.Path
import SessionGuard.Proofs.Disk.Written
import SessionGuard.Proofs.Gate.Visit
import SessionGuard.Proofs.Http.Alike
import SessionGuard.Proofs.Http.Form
import SessionGuard.Proofs.Http.Refusal
import SessionGuard.Proofs.Http.Transcript
import SessionGuard.Proofs.Json.Accepted
import SessionGuard.Proofs.Json.Grammar
import SessionGuard.Proofs.Json.Members
import SessionGuard.Proofs.Json.Profile
import SessionGuard.Proofs.Json.Reading
import SessionGuard.Proofs.Json.Writing
import SessionGuard.Proofs.Machine.Calls
import SessionGuard.Proofs.Machine.Commands
import SessionGuard.Proofs.Machine.Run
import SessionGuard.Proofs.Machine.Waits
import SessionGuard.Proofs.Number.Digits
import SessionGuard.Proofs.Route.Address
import SessionGuard.Proofs.Route.Replay
import SessionGuard.Proofs.Session.Change
import SessionGuard.Proofs.Session.Coherence
import SessionGuard.Proofs.Session.FailSafe
import SessionGuard.Proofs.Session.Generation
import SessionGuard.Proofs.Session.Overtaking
import SessionGuard.Proofs.Session.SignedOut
import SessionGuard.Proofs.Session.Validation
import SessionGuard.Proofs.Session.Verdict
import SessionGuard.Proofs.Store.Fields
import SessionGuard.Proofs.Store.Missed
import SessionGuard.Proofs.Store.Refinement
import SessionGuard.Proofs.Store.Uses
import SessionGuard.Proofs.Store.Written
import SessionGuard.Proofs.Text.Base64
import SessionGuard.Proofs.Text.Octets
import SessionGuard.Proofs.Text.Pieces
import SessionGuard.Proofs.Text.Trim
import SessionGuard.Proofs.Token.Expiry
import SessionGuard.Proofs.Token.Judgement
import SessionGuard.Proofs.Url.Origin
import SessionGuard.Proofs.Url.Segment
import SessionGuard.Proofs.World.Move
import SessionGuard.Proofs.World.Restore
import SessionGuard.Proofs.Yaml.Contents
import SessionGuard.Proofs.Yaml.Decimal
import SessionGuard.Proofs.Yaml.Entries
import SessionGuard.Proofs.Yaml.Gaps
import SessionGuard.Proofs.Yaml.Lines
import SessionGuard.Proofs.Yaml.Literal
import SessionGuard.Proofs.Yaml.Outlines
import SessionGuard.Proofs.Yaml.Plain
import SessionGuard.Proofs.Yaml.Quoted
import SessionGuard.Proofs.Yaml.Tokens
import SessionGuard.Proofs.Yaml.Written
