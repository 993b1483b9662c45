import Allocators.Main
import Allocators.Restriction
import Allocators.RoundTrip
import Allocators.Proofs.Balance
import Allocators.Proofs.Frame
import Allocators.Proofs.Lifo
import Allocators.Proofs.Separation
import Allocators.Proofs.Builds
import Allocators.Proofs.Destruction
import Allocators.Proofs.Refusals
import Allocators.Proofs.Table
import Allocators.Proofs.Faultless
import Allocators.Proofs.Interruption
import Allocators.Proofs.Ordinary
import Allocators.Proofs.Shell.Listing
import Allocators.Proofs.Shell.Roll
import Allocators.Proofs.Shell.Commands
import Allocators.Proofs.Shell.Sessions
import Allocators.Proofs.Shell.Record
import Allocators.Proofs.Shell.Books
import Allocators.Proofs.Pools
import Allocators.Proofs.Shell.Misfrees
import Allocators.Proofs.Effect
import Allocators.Proofs.Twins
import Allocators.Proofs.Placement
import Allocators.Proofs.Renewal
import Allocators.Proofs.Misuse
import Allocators.Proofs.Reshape
import Allocators.Proofs.Strand
import Allocators.Proofs.Planning
import Allocators.Proofs.Shorthands
import Allocators.Proofs.Nesting
import Allocators.Proofs.Capabilities
import Allocators.Proofs.Shell.Isolation
import Allocators.Proofs.Shell.Leaks
import Allocators.Proofs.InPlace
import Allocators.Proofs.Relocation
import Allocators.Proofs.Layouts
import Allocators.Proofs.Sizes
import Allocators.Proofs.Undoing
import Allocators.Proofs.Sides
import Allocators.Proofs.Carving
import Allocators.Proofs.Limits
