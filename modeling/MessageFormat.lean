import MessageFormat.Loose.Inventory
import MessageFormat.Loose.Node
import MessageFormat.Loose.Plain
import MessageFormat.Loose.Serialize
import MessageFormat.Message.Fragment
import MessageFormat.Proofs.BlankDelimiters
import MessageFormat.Proofs.Carets
import MessageFormat.Proofs.Depths
import MessageFormat.Proofs.Disabled
import MessageFormat.Proofs.Equivariance
import MessageFormat.Proofs.Exits
import MessageFormat.Proofs.Failures
import MessageFormat.Proofs.Findings
import MessageFormat.Proofs.Formats
import MessageFormat.Proofs.InertText
import MessageFormat.Proofs.Locality
import MessageFormat.Proofs.Locations
import MessageFormat.Proofs.Merging
import MessageFormat.Proofs.OffsetClauses
import MessageFormat.Proofs.Pieces
import MessageFormat.Proofs.Plain.RoundTrip
import MessageFormat.Proofs.QuotedPlaces
import MessageFormat.Proofs.Sessions
import MessageFormat.Proofs.Spacing
import MessageFormat.Proofs.Surveys
