import Stepwise.Main
import Stepwise.Proofs.Double.Comparison
import Stepwise.Proofs.Double.Conversion
import Stepwise.Proofs.Double.Shortest
import Stepwise.Proofs.Double.Texts
import Stepwise.Proofs.Listing.Grouping
import Stepwise.Proofs.Listing.Lowered
import Stepwise.Proofs.Listing.Phrases
import Stepwise.Proofs.Listing.Reading
import Stepwise.Proofs.Listing.Unambiguous
import Stepwise.Proofs.Listing.Words
import Stepwise.Proofs.Program.Enclosed
import Stepwise.Proofs.Program.Fuel
import Stepwise.Proofs.Program.Guarded
import Stepwise.Proofs.Program.Headers
import Stepwise.Proofs.Program.Markers
import Stepwise.Proofs.Program.Mentions
import Stepwise.Proofs.Program.Nesting
import Stepwise.Proofs.Program.Precedence
import Stepwise.Proofs.Program.Reads
import Stepwise.Proofs.Program.Recovery
import Stepwise.Proofs.Program.Starts
import Stepwise.Proofs.Program.TopLevel
import Stepwise.Proofs.Program.Total
import Stepwise.Proofs.Program.Trees
import Stepwise.Proofs.Program.Types
import Stepwise.Proofs.Program.Written
import Stepwise.Proofs.Recorder.Alike
import Stepwise.Proofs.Recorder.Contract
import Stepwise.Proofs.Recorder.Elements
import Stepwise.Proofs.Recorder.Handles
import Stepwise.Proofs.Recorder.Operation
import Stepwise.Proofs.Recorder.Refinement
import Stepwise.Proofs.Recorder.Suppression
import Stepwise.Proofs.Run.Balance
import Stepwise.Proofs.Run.Citation
import Stepwise.Proofs.Run.Citing
import Stepwise.Proofs.Run.Congruence
import Stepwise.Proofs.Run.Cuts
import Stepwise.Proofs.Run.Declaration
import Stepwise.Proofs.Run.Ending
import Stepwise.Proofs.Run.Handles
import Stepwise.Proofs.Run.Jumps
import Stepwise.Proofs.Run.Limits
import Stepwise.Proofs.Run.Located
import Stepwise.Proofs.Run.Lockstep
import Stepwise.Proofs.Run.Moments
import Stepwise.Proofs.Run.NestedScopes
import Stepwise.Proofs.Run.Prefix
import Stepwise.Proofs.Run.Primitive
import Stepwise.Proofs.Run.Safety
import Stepwise.Proofs.Run.Sound
import Stepwise.Proofs.Run.Steady
import Stepwise.Proofs.Run.Suppression
import Stepwise.Proofs.Run.Termination
import Stepwise.Proofs.Run.Valid
import Stepwise.Proofs.Run.Visibility
import Stepwise.Proofs.Run.Within
import Stepwise.Proofs.Snapshot.Identity
import Stepwise.Proofs.Surface.Declaration
import Stepwise.Proofs.Surface.Expression
import Stepwise.Proofs.Surface.RoundTrip
import Stepwise.Proofs.Surface.Statement
import Stepwise.Proofs.Surface.Syntax
import Stepwise.Proofs.Text.Quoted
import Stepwise.Proofs.Timeline.Determinism
import Stepwise.Proofs.Timeline.Pending
import Stepwise.Proofs.Token.Locations
import Stepwise.Proofs.Token.Separators
import Stepwise.Proofs.Token.Spelling
import Stepwise.Proofs.Trace.WellFormed
import Stepwise.Proofs.Viewer.Colouring
import Stepwise.Proofs.Viewer.Highlighted
import Stepwise.Proofs.Viewer.Scrolling
import Stepwise.Proofs.Viewer.Status
import Stepwise.Proofs.Wire.Number
import Stepwise.Proofs.Wire.RoundTrip
