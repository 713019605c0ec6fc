import Geph4.Core
import Geph4.L1Encoding.TokenInfo
import Geph4.L2Table.SessionTable
import Geph4.L3Listener.Listener
import Geph4.L3Listener.Handshake
import Geph4.L4Run.World
import Geph4.L4Run.Reap
import Geph4.L4Run.Provenance
import Geph4.L4Run.Delivery
import Geph4.L4Run.Binding
import Geph4.L4Run.Addresses
import Geph4.L4Run.Ingress
import Geph4.L4Run.Ownership
import Geph4.L4Run.Output
import Geph4.Bridge.Routes
import Geph4.Bridge.Exits
import Geph4.Bridge.NatTable
