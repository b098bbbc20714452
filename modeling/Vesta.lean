import Vesta.Protocol.Total
import Vesta.Protocol.Integrity
import Vesta.Protocol.Airtime
import Vesta.Receiver.Hex
import Vesta.Receiver.Invariant
import Vesta.Store.Compare
import Vesta.Store.Accepts
import Vesta.Store.Quarantine
import Vesta.Listen.Counters
import Vesta.Listen.Consistency
import Vesta.Listen.Refusal
import Vesta.Listen.Invalidation
import Vesta.Listen.Transparency
import Vesta.Analysis.Temporal
import Vesta.Analysis.Gate
import Vesta.Analysis.Isolation
import Vesta.Radio.Session
import Vesta.Listen.Delivery
import Vesta.Output.Numbers
import Vesta.Output.Stream
