import Wirepool.Fault.Inspect
import Wirepool.Proofs.Arena.Sound
import Wirepool.Proofs.Buffer.Chunks
import Wirepool.Proofs.Buffer.Sound
import Wirepool.Proofs.Buffer.Strip
import Wirepool.Proofs.Pool.Moves
import Wirepool.Proofs.Pool.Placed
import Wirepool.Proofs.Pool.SizeClass
import Wirepool.Proofs.Pool.Sound
import Wirepool.Proofs.Pool.Stays
import Wirepool.Proofs.Session.Detached
import Wirepool.Proofs.Session.Frame
import Wirepool.Proofs.Session.Holdings
import Wirepool.Proofs.Session.Ownership
import Wirepool.Proofs.Session.Sound
import Wirepool.Proofs.Session.Strips
import Wirepool.Proofs.Store.Actions
import Wirepool.Proofs.Store.Messages
import Wirepool.Proofs.Store.Sound
import Wirepool.Proofs.Wire.Entries
import Wirepool.Proofs.Wire.Format
import Wirepool.Proofs.Wire.RoundTrip
import Wirepool.Session.Step
import Wirepool.Wire.Manual
import Wirepool.Proofs.Wire.Lockstep
import Wirepool.Proofs.Wire.Sending
import Wirepool.Proofs.Wire.Verdict
import Wirepool.Proofs.Arena.Tidy
import Wirepool.Proofs.Store.Verdicts
import Wirepool.Proofs.Session.Verdicts
import Wirepool.Proofs.Session.Redeemed
import Wirepool.Proofs.Wire.Kept
import Wirepool.Proofs.Wire.Truncation
import Wirepool.Proofs.Wire.Canonical
import Wirepool.Proofs.Wire.Finding
import Wirepool.Proofs.Wire.Rewriting
import Wirepool.Proofs.Arena.Apart
import Wirepool.Proofs.Arena.Cutting
import Wirepool.Proofs.Session.Conservation
import Wirepool.Proofs.Session.Slices
import Wirepool.Proofs.Session.Stability
import Wirepool.Proofs.Wire.Unseen
import Wirepool.Proofs.Wire.Standstill
import Wirepool.Proofs.Arena.Charge
import Wirepool.Proofs.Wire.Copies
import Wirepool.Proofs.Session.Copies
import Wirepool.Proofs.Pool.Accounts
import Wirepool.Proofs.Store.Books
import Wirepool.Proofs.Pool.Lends
import Wirepool.Proofs.Arena.Books
import Wirepool.Proofs.Store.Encoding
import Wirepool.Proofs.Session.Encoding
import Wirepool.Proofs.Session.Books
import Wirepool.Proofs.Session.Endings
import Wirepool.Proofs.Wire.Suffix
import Wirepool.Proofs.Wire.Cursor
import Wirepool.Proofs.Wire.Running
import Wirepool.Proofs.Wire.Safety
import Wirepool.Proofs.Wire.Orders
import Wirepool.Proofs.Wire.Locality
import Wirepool.Settings.Messages
import Wirepool.Proofs.Store.Configured
import Wirepool.Proofs.Arena.Beside
import Wirepool.Proofs.Session.Beside
import Wirepool.Proofs.Store.Refusal
import Wirepool.Proofs.Session.Spanned
import Wirepool.Proofs.Session.Refusal
import Wirepool.Proofs.Wire.Grammar
import Wirepool.Proofs.Wire.ShortDestination
import Wirepool.Proofs.Wire.Turning
import Wirepool.Proofs.Pool.Marks
import Wirepool.Proofs.Store.Marks
import Wirepool.Proofs.Arena.Marks
import Wirepool.Proofs.Session.Marks
import Wirepool.Proofs.Session.Watching
import Wirepool.Proofs.Wire.Shortest
import Wirepool.Proofs.Wire.Splitting
import Wirepool.Proofs.Buffer.Window
import Wirepool.Proofs.Buffer.Growth
import Wirepool.Proofs.Session.Growth
import Wirepool.Proofs.Session.Windows
import Wirepool.Proofs.Wire.Texts
import Wirepool.Proofs.Buffer.Streaming
import Wirepool.Proofs.Session.Streaming
import Wirepool.Proofs.Arena.Packing
import Wirepool.Proofs.Session.Packing
import Wirepool.Proofs.Pool.Depot
import Wirepool.Proofs.Pool.Tenants
import Wirepool.Proofs.Store.Tenants
import Wirepool.Proofs.Arena.Tenants
import Wirepool.Proofs.Session.Diary
import Wirepool.Proofs.Pool.Fitting
import Wirepool.Proofs.Wire.Folding
import Wirepool.Proofs.Session.Borrowing
