import GdbControl.Client.Reading
import GdbControl.Server
import GdbControl.Tool.Call
import GdbControl.Proofs.Outstanding
import GdbControl.Proofs.Split
import GdbControl.Proofs.Parsing
import GdbControl.Proofs.Coherence
import GdbControl.Proofs.Completion
import GdbControl.Proofs.Pacing
import GdbControl.Proofs.Handling
import GdbControl.Proofs.Destination
import GdbControl.Proofs.Finality
import GdbControl.Proofs.Waiting
import GdbControl.Proofs.Stopping
import GdbControl.Proofs.Launching
import GdbControl.Proofs.Directories
import GdbControl.Proofs.Writing
import GdbControl.Proofs.LastWords
import GdbControl.Proofs.Feeding
import GdbControl.Proofs.Patience
import GdbControl.Proofs.Independence
import GdbControl.Proofs.Recovery
import GdbControl.Proofs.Robustness
import GdbControl.Proofs.Staleness
import GdbControl.Proofs.Buffers
import GdbControl.Proofs.Releasing
import GdbControl.Proofs.Paging
import GdbControl.Proofs.Refusals
import GdbControl.Proofs.Shutdown
import GdbControl.Proofs.Positions
import GdbControl.Proofs.Decoding
