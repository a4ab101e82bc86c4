import FungiTransport.Lib.Run
import FungiTransport.Error
import FungiTransport.Framed.Channel
import FungiTransport.Framed.Receiver
import FungiTransport.Framed.Decode
import FungiTransport.Framed.Sender
import FungiTransport.Framed.EndToEnd
import FungiTransport.Lib.Text
import FungiTransport.Lib.SockAddr
import FungiTransport.Lib.Base64
import FungiTransport.Arti.PrivateNet
import FungiTransport.Arti.Lazy
import FungiTransport.Capnp.Registry
import FungiTransport.Capnp.System
import FungiTransport.Lib.Ownership
import FungiTransport.Capnp.Base
import FungiTransport.Capnp.Ownership
import FungiTransport.Capnp.Tasks
import FungiTransport.Capnp.Handles
import FungiTransport.Capnp.Recv
import FungiTransport.Capnp.Delivery
import FungiTransport.Capnp.Origin
import FungiTransport.Capnp.Teardown
import FungiTransport.Capnp.Mutex
import FungiTransport.Capnp.Accept
import FungiTransport.Lib.Reader
import FungiTransport.Lib.Socks5
import FungiTransport.Socks.Connect
import FungiTransport.Lib.Lines
import FungiTransport.Socks.Control
import FungiTransport.Arti.Grammar
import FungiTransport.Arti.Validation
import FungiTransport.Framed.Endpoint
import FungiTransport.Framed.Terminal
import FungiTransport.Lib.Mpsc
import FungiTransport.Mem.Duplex
import FungiTransport.Mem.Honest
import FungiTransport.Mem.Network
import FungiTransport.Capnp.Params
import FungiTransport.Capnp.Transparency
import FungiTransport.Addr
import FungiTransport.Lib.Decimal
import FungiTransport.Framed.ReadState
import FungiTransport.Capnp.Handoff
import FungiTransport.Lib.Progress
import FungiTransport.Framed.Pair
import FungiTransport.Framed.Flow
import FungiTransport.Framed.Honest
import FungiTransport.Harness.Drive
import FungiTransport.Harness.Session
import FungiTransport.Capnp.Attended
import FungiTransport.Capnp.Completion
import FungiTransport.Capnp.Ledger
import FungiTransport.Capnp.Routing
import FungiTransport.Framed.Stream
import FungiTransport.Socks.Commands
import FungiTransport.Socks.Tor
import FungiTransport.Arti.Once
import FungiTransport.Arti.Listener
import FungiTransport.Harness.Args
import FungiTransport.Capnp.Loopback
import FungiTransport.Mem.Settle
import FungiTransport.Mem.Transport
import FungiTransport.Harness.Run
