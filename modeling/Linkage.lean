import Linkage.Argument
import Linkage.Binding
import Linkage.Bridge
import Linkage.BridgeError
import Linkage.CType
import Linkage.CallStatus
import Linkage.Config
import Linkage.Config.Document
import Linkage.Decimal.Binary64
import Linkage.Decimal.Shortest
import Linkage.Description
import Linkage.FileSystem
import Linkage.Function
import Linkage.Host
import Linkage.Loading
import Linkage.Measure
import Linkage.Named
import Linkage.Notice
import Linkage.Path
import Linkage.Pool
import Linkage.Process
import Linkage.Search
import Linkage.Session
import Linkage.Signature
import Linkage.Source
import Linkage.Text.Blank
import Linkage.Text.Quoted
import Linkage.Text.Record
import Linkage.Text.Split
import Linkage.Text.Terminated
import Linkage.Text.Unshown
import Linkage.Text.Utf8
import Linkage.Thread
import Linkage.Toml.Number
import Linkage.Toml.Quoting
import Linkage.Toml.Reader
import Linkage.Toml.Value
import Linkage.Version
import Linkage.Proofs.Process.Frame
import Linkage.Proofs.Process.Growth
import Linkage.Proofs.Thread.Locks
import Linkage.Proofs.Pool.Locks
import Linkage.Proofs.Loading.Account
import Linkage.Proofs.Loading.Attempt
import Linkage.Proofs.Pool.Account
import Linkage.Proofs.Binding.Bound
import Linkage.Proofs.Pool.Bound
import Linkage.Proofs.Session.Reach
import Linkage.Proofs.Session.Registry
import Linkage.Proofs.Bridge.Stages
import Linkage.Proofs.Text.Decoding
import Linkage.Proofs.Text.Measuring
import Linkage.Proofs.Bridge.Length
import Linkage.Proofs.Process.Verdicts
import Linkage.Proofs.Process.FirstUse
import Linkage.Proofs.Thread.FirstCall
import Linkage.Proofs.Pool.FirstCalls
import Linkage.Proofs.Loading.Standing
import Linkage.Proofs.Thread.Standing
import Linkage.Proofs.Pool.Standing
import Linkage.Proofs.Session.Standing
import Linkage.Proofs.Session.Onlookers
import Linkage.Proofs.Loading.Places
import Linkage.Proofs.Process.Dwindling
import Linkage.Proofs.Loading.Origins
import Linkage.Proofs.Pool.Origins
import Linkage.Proofs.Session.Origins
import Linkage.Proofs.Session.Sources
import Linkage.Proofs.Session.Identity
import Linkage.Proofs.Binding.Descriptor
import Linkage.Proofs.Binding.Provided
import Linkage.Proofs.Pool.Provided
import Linkage.Proofs.Loading.Opened
import Linkage.Proofs.Pool.Opened
import Linkage.Proofs.Host.Opening
import Linkage.Proofs.Search.Candidates
import Linkage.Proofs.Loading.Located
import Linkage.Proofs.Session.Constancy
import Linkage.Proofs.Session.Commands
import Linkage.Proofs.Session.Cached
import Linkage.Proofs.Session.Registered
import Linkage.Proofs.Pool.Waiting
import Linkage.Proofs.Session.Unblocked
import Linkage.Proofs.Pool.Openings
import Linkage.Proofs.Session.Exclusive
import Linkage.Proofs.Process.World
import Linkage.Proofs.Loading.Failing
import Linkage.Proofs.Loading.Twins
import Linkage.Proofs.Session.Failing
import Linkage.Proofs.Binding.Exports
import Linkage.Proofs.Bridge.Sighting
import Linkage.Proofs.Bridge.Linking
import Linkage.Proofs.Text.Cutting
import Linkage.Proofs.Signature.Grammar
import Linkage.Proofs.Toml.Quoting
import Linkage.Proofs.Config.RoundTrip
import Linkage.Proofs.Process.Quiet
import Linkage.Proofs.Pool.Texts
import Linkage.Proofs.Session.Texts
import Linkage.Proofs.Host.Mapping
import Linkage.Proofs.Process.Edits
import Linkage.Proofs.Process.Footprint
import Linkage.Proofs.Process.Tandem
import Linkage.Proofs.Bridge.Tandem
import Linkage.Proofs.Process.Exchange
import Linkage.Proofs.Session.Acts
import Linkage.Proofs.Session.Independent
import Linkage.Proofs.Binding.Decision
import Linkage.Proofs.Process.Notices
import Linkage.Proofs.Loading.Notices
import Linkage.Proofs.Bridge.Notices
import Linkage.Proofs.Session.Turns
import Linkage.Proofs.Session.Notices
import Linkage.Proofs.Search.Order
import Linkage.Proofs.Path.Components
import Linkage.Proofs.FileSystem.Walking
import Linkage.Proofs.Search.Locating
import Linkage.Proofs.Search.Contained
import Linkage.Proofs.Toml.Statements
import Linkage.Proofs.Toml.Names
import Linkage.Proofs.Config.Decoding
import Linkage.Proofs.Text.Lossless
