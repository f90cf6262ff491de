import HyProxy.Go
import HyProxy.Protohytale.VarInt
import HyProxy.Protohytale.Codec
import HyProxy.Protohytale.Scalars
import HyProxy.Protohytale.Packet
import HyProxy.Protohytale.Reader
import HyProxy.Protohytale.Invariant
import HyProxy.Protohytale.Refinement
import HyProxy.Protohytale.Connect
import HyProxy.Handlers.Chain
import HyProxy.Handlers.Registry
import HyProxy.Handlers.Dcid
import HyProxy.Handlers.Terminator
import HyProxy.Handlers.Correlation
import HyProxy.Untrusted
