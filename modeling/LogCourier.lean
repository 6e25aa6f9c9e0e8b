import LogCourier.Main
import LogCourier.Proofs.Channel.Pacing
import LogCourier.Proofs.Channel.Receiving
import LogCourier.Proofs.ChunkReader
import LogCourier.Proofs.Clock
import LogCourier.Proofs.Dlt.Filling
import LogCourier.Proofs.Entry.Damage
import LogCourier.Proofs.Host
import LogCourier.Proofs.Id.Forms
import LogCourier.Proofs.Pool.Isolation
import LogCourier.Proofs.Pool.Reassembly
import LogCourier.Proofs.Pool.Refusal
import LogCourier.Proofs.Router
import LogCourier.Proofs.Settings.Location
import LogCourier.Proofs.Transfer.Breaking
import LogCourier.Proofs.Transfer.Growth
import LogCourier.Proofs.Transfer.Removal
