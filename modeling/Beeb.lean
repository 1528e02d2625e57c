import Beeb.Main
import Beeb.Proofs.Command.AddressList
import Beeb.Proofs.Command.Bounds
import Beeb.Proofs.Command.Run
import Beeb.Proofs.Disc.Description
import Beeb.Proofs.Disc.Destination
import Beeb.Proofs.Disc.PastEnd
import Beeb.Proofs.Disc.Volume
import Beeb.Proofs.Listing.CodeAddresses
import Beeb.Proofs.Listing.Columns
import Beeb.Proofs.Listing.HeaderNumbers
import Beeb.Proofs.Listing.Mismatch
import Beeb.Proofs.Listing.Origin
import Beeb.Proofs.Listing.Reassembly
import Beeb.Proofs.Listing.Relocation
import Beeb.Proofs.Listing.Usage
import Beeb.Proofs.Listing.Variables
import Beeb.Proofs.Variable.Merging
import Beeb.Proofs.Walk.Composition
import Beeb.Proofs.Walk.Hints
