import Metamodel.Limits.Document
import Metamodel.Proofs.Breaking
import Metamodel.Proofs.Capturing
import Metamodel.Proofs.Commuting
import Metamodel.Proofs.Creating
import Metamodel.Proofs.Derivation
import Metamodel.Proofs.Determined
import Metamodel.Proofs.Dimensions
import Metamodel.Proofs.Enclosure
import Metamodel.Proofs.Installed
import Metamodel.Proofs.Mirroring
import Metamodel.Proofs.Nesting
import Metamodel.Proofs.Ordinals
import Metamodel.Proofs.Overwriting
import Metamodel.Proofs.Positions
import Metamodel.Proofs.Reaching
import Metamodel.Proofs.Releasing
import Metamodel.Proofs.Remembering
import Metamodel.Proofs.Reprefixing
import Metamodel.Proofs.Retrieving
import Metamodel.Proofs.Spreading
import Metamodel.Proofs.Transparency
import Metamodel.Proofs.Undoing
import Metamodel.Proofs.Unions
