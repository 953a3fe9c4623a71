import SketchHost.Text.Blank
import SketchHost.Text.Digit
import SketchHost.Text.Word
import SketchHost.Text.Name
import SketchHost.Text.Quoted
import SketchHost.Decimal.Shortest
import SketchHost.Value.Basic
import SketchHost.Value.Shown
import SketchHost.Script.Expression
import SketchHost.Script.Parse
import SketchHost.InstanceMode.Binding
import SketchHost.Text.Edit
import SketchHost.InstanceMode.Hoist
import SketchHost.InstanceMode.Qualify
import SketchHost.InstanceMode.Conversion
import SketchHost.Json.Literal
import SketchHost.Json.Reader
import SketchHost.Json.Writer
import SketchHost.LineMap.Mapper
import SketchHost.Injection.Bridge
import SketchHost.Injection.Wrapper
import SketchHost.Run.Recognition
import SketchHost.Yaml.Place
import SketchHost.Yaml.Scalar
import SketchHost.Yaml.Token
import SketchHost.Yaml.Node
import SketchHost.Yaml.Reader
import SketchHost.Config.Layers
import SketchHost.Config.Settings
import SketchHost.Resize.Clock
import SketchHost.Resize.Session
import SketchHost.Symbols.Source
import SketchHost.Channel.Datum
import SketchHost.Channel.Basic
import SketchHost.Channel.Build
import SketchHost.Run.Attempt
import SketchHost.Run.Runner
import SketchHost.CommandLine.Answer
import SketchHost.Main
import SketchHost.Proofs.Resize.Coherence
import SketchHost.Proofs.Resize.Timers
import SketchHost.Proofs.Resize.TrailingEdge
import SketchHost.Proofs.Resize.Provenance
import SketchHost.Proofs.Resize.Delivery
import SketchHost.Proofs.Resize.Spacing
import SketchHost.Proofs.Resize.Separation
import SketchHost.Proofs.Channel.Identity
import SketchHost.Proofs.Channel.Origins
import SketchHost.Proofs.Channel.Copying
import SketchHost.Proofs.Channel.Guards
import SketchHost.Proofs.Channel.Session
import SketchHost.Proofs.Channel.Routing
import SketchHost.Proofs.Channel.Closing
import SketchHost.Proofs.Run.Errors
import SketchHost.Proofs.Run.Isolation
import SketchHost.Proofs.Run.Staleness
import SketchHost.Proofs.Script.Cursor
import SketchHost.Proofs.Script.WellFormed
import SketchHost.Proofs.Script.Reading
import SketchHost.Proofs.Script.Expressions
import SketchHost.Proofs.Script.Statements
import SketchHost.Proofs.Script.Extents
import SketchHost.Proofs.Script.Occurrences
import SketchHost.Proofs.Script.Scopes
import SketchHost.Proofs.Script.Bare
import SketchHost.Proofs.InstanceMode.Renames
import SketchHost.Proofs.InstanceMode.Hoists
import SketchHost.Proofs.InstanceMode.Names
import SketchHost.Proofs.InstanceMode.Applying
import SketchHost.Proofs.InstanceMode.Lines
import SketchHost.Proofs.InstanceMode.Handle
import SketchHost.Proofs.InstanceMode.Merging
import SketchHost.Proofs.InstanceMode.Shadowing
import SketchHost.Proofs.InstanceMode.Constants
import SketchHost.Proofs.InstanceMode.Image
import SketchHost.Proofs.InstanceMode.ImageBindings
import SketchHost.Proofs.InstanceMode.ImageProgram
import SketchHost.Proofs.InstanceMode.ImageDeclarations
import SketchHost.Proofs.InstanceMode.ImageHoists
import SketchHost.Proofs.InstanceMode.Reconversion
import SketchHost.Proofs.InstanceMode.Definitions
import SketchHost.Proofs.Channel.Robustness
import SketchHost.Proofs.Injection.Lines
import SketchHost.Proofs.Text.Digits
import SketchHost.Proofs.Text.Boundaries
import SketchHost.Proofs.Text.Renumbering
import SketchHost.Proofs.LineMap.Forms
import SketchHost.Proofs.LineMap.Search
import SketchHost.Proofs.LineMap.Rewriting
import SketchHost.Proofs.LineMap.Extraction
import SketchHost.Proofs.LineMap.Reported
import SketchHost.Proofs.Text.Sequential
import SketchHost.Proofs.Run.Reporting
import SketchHost.Proofs.Script.Seams
import SketchHost.Proofs.Script.Endings
import SketchHost.Proofs.Script.Heads
import SketchHost.Proofs.Run.Recognition
import SketchHost.Proofs.Resize.Consistency
import SketchHost.Proofs.Script.FirstFault
import SketchHost.Proofs.InstanceMode.Uniformity
import SketchHost.Proofs.InstanceMode.Targets
import SketchHost.Proofs.InstanceMode.Frame
import SketchHost.Proofs.Resize.Loopless
import SketchHost.Proofs.Channel.Allowlist
import SketchHost.Proofs.Channel.RoundTrip
import SketchHost.Proofs.Channel.Sizes
import SketchHost.Proofs.LineMap.Excerpt
import SketchHost.Proofs.Json.Literal
import SketchHost.Proofs.Injection.Identifiers
import SketchHost.Proofs.Value.Records
import SketchHost.Proofs.Yaml.Names
import SketchHost.Proofs.Config.Layers
