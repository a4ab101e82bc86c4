import FungiTransport.Addr
import FungiTransport.Capnp.Registry
import FungiTransport.Framed.EndToEnd
import FungiTransport.Socks.Commands
import FungiTransport.Socks.Connect

/-!
# The transport over a tor daemon

A connector opens a stream through the daemon's SOCKS port and frames it; a listener has the daemon
publish an onion service that forwards to its local port, and frames what arrives there.  Nothing but
the address is common to the two peers, and it crosses between them as text: a peer that has it is
taken to the listener that printed it, and what either of them sends the other one receives
(`TorTransport.rendezvous`).
-/

namespace FungiTransport

open Lib Lib.Socks5 FramedChannel

/-- The address of a local port. -/
structure SocketAddr where
  ip : String
  port : UInt16
deriving DecidableEq, Repr

/-- Knobs for the tor-daemon backend. -/
structure TorConfig where
  socksAddr : SocketAddr
  controlAddr : SocketAddr
  maxMsgLen : ℕ
  auth : ControlAuth

/-- `TorConfig::default` -/
def TorConfig.default : TorConfig where
  socksAddr := ⟨"127.0.0.1", 9050⟩
  controlAddr := ⟨"127.0.0.1", 9051⟩
  maxMsgLen := DEFAULT_MAX_MSG_LEN
  auth := .null

/-- What a peer meets on its own machine: the daemon's two ports at their addresses, and the local
port that it binds. -/
structure TorHost where
  proxy : SocketAddr → Proxy
  daemon : SocketAddr → Daemon
  bindErr : Option IoError
  localPort : Except IoError UInt16

/-- What a call comes to: the bytes of the writes that succeeded, and what is opened. -/
structure Opened (α : Type) where
  written : Bytes
  result : Except (Stop ConnectError) α

/-- `TorConnector` -/
structure TorConnector where
  cfg : TorConfig

/-- `TorConnector::connect`: on success, the channel with what its stream holds.  No channel is a
panic of `FramedChannel::new`. -/
def TorConnector.connect (c : TorConnector) (host : TorHost) (addr : OnionAddr) :
    Opened (Option FramedChannel × Pieces IoError) :=
  let dialled := Socks5.connect (host.proxy c.cfg.socksAddr) addr.host addr.port
  { written := dialled.written
    result := dialled.result.map fun stream => (FramedChannel.new c.cfg.maxMsgLen, stream) }

/-- `TorListener`; it holds the service for as long as it lives. -/
structure TorListener where
  localPort : UInt16
  addr : OnionAddr
  maxMsgLen : ℕ
  service : OnionService

namespace TorListener

/-- The address of a service. -/
def onionAddr (serviceId : Text) (virtPort : UInt16) : OnionAddr :=
  OnionAddr.new (String.ofList serviceId ++ ".onion") virtPort

/-- `TorListener::bind` -/
def bind (cfg : TorConfig) (host : TorHost) (virtPort : UInt16) : Opened TorListener :=
  match host.bindErr with
  | some e => ⟨[], .error (.failed (Socks5.ioErr e))⟩
  | none =>
    match host.localPort with
    | .error e => ⟨[], .error (.failed (Socks5.ioErr e))⟩
    | .ok localPort =>
      let created := Control.createOnion (host.daemon cfg.controlAddr) cfg.auth virtPort localPort
      { written := created.written
        result := created.result.map fun service =>
          { localPort := localPort
            addr := onionAddr service.serviceId virtPort
            maxMsgLen := cfg.maxMsgLen
            service := service } }

/-- `TorListener::accept`, for what the local port gives it. -/
def accept (l : TorListener) : Except IoError Unit → Except ConnectError (Option FramedChannel)
  | .error e => .error (Socks5.ioErr e)
  | .ok () => .ok (FramedChannel.new l.maxMsgLen)

end TorListener

/-- `TorTransport` -/
structure TorTransport where
  cfg : TorConfig

namespace TorTransport

/-- `TorTransport::connector` -/
def connector (t : TorTransport) : TorConnector := ⟨t.cfg⟩

/-- `TorTransport::listen`; the nickname is not used. -/
def listen (t : TorTransport) (host : TorHost) (params : ListenParams) :
    Opened (TorListener × OnionAddr) :=
  let bound := TorListener.bind t.cfg host params.virtPort
  { written := bound.written
    result := bound.result.map fun listener => (listener, listener.addr) }

/-! ## Publishing -/

/-- The host has a local port, and a daemon that publishes the service `id` and says so. -/
structure Publishes (cfg : TorConfig) (host : TorHost) (id : Text) : Prop where
  bind : host.bindErr = none
  localPort : ∃ port, host.localPort = .ok port
  willing : Control.Willing (host.daemon cfg.controlAddr) cfg.auth
  accepted : ∃ cs, (host.daemon cfg.controlAddr).reads = delivered cs ∧
    Control.Accepted id
      ((Control.linesOf (host.daemon cfg.controlAddr).ended cs.flatten).map Control.readable)

/-- A listener binds the local port of its host, and what it writes to the daemon is read there as
the cookie of its configuration and a request for a new service that takes what comes to the virtual
port to this local port. -/
structure Asks (cfg : TorConfig) (host : TorHost) (virtPort : UInt16) (written : Bytes)
    (l : TorListener) : Prop where
  localPort : host.localPort = .ok l.localPort
  written : ∃ text secret, written = asBytes text ∧
    Control.cookie (host.daemon cfg.controlAddr) cfg.auth = .ok secret ∧
    Control.readCommands text.toList = some (secret,
      ⟨"NEW:ED25519-V3".toList, "DiscardPK".toList, virtPort.toNat,
        ("127.0.0.1".toList, l.localPort.toNat)⟩)

/-- A listener has asked the daemon for its service, and has its address. -/
lemma listen_of_publishes {t : TorTransport} {host : TorHost} {id : Text}
    (h : Publishes t.cfg host id) (params : ListenParams) :
    ∃ l written, t.listen host params =
        ⟨written, .ok (l, TorListener.onionAddr id params.virtPort)⟩ ∧
      Asks t.cfg host params.virtPort written l ∧ l.maxMsgLen = t.cfg.maxMsgLen := by
  obtain ⟨port, hport⟩ := h.localPort
  obtain ⟨cs, hreads, haccepted⟩ := h.accepted
  have hid := Control.createOnion_delivered h.willing hreads params.virtPort port
  rw [Control.scan_eq_ok.mpr haccepted] at hid
  obtain ⟨service, hservice, rfl⟩ := map_eq_ok.mp hid
  refine ⟨⟨port, TorListener.onionAddr service.serviceId params.virtPort, t.cfg.maxMsgLen, service⟩,
    _, ?_, ⟨hport, Control.read_written hservice⟩, rfl⟩
  simp only [listen, TorListener.bind, h.bind, hport, hservice]
  rfl

/-- The address of a service has a host. -/
lemma onionAddr_host_ne (id : Text) (virtPort : UInt16) :
    (TorListener.onionAddr id virtPort).host ≠ "" := by
  intro h
  have hlen := congrArg (fun s => s.toList.length) h
  simp [TorListener.onionAddr, OnionAddr.new] at hlen

/-! ## Connecting -/

/-- What is sent at one end of a tunnel, read by a channel at the other one: whatever the sends come
to, every `recv` that is kept being read resolves; and once they have all completed, the channel
gives their messages as far as its limit allows. -/
def Carries (s : Sender) (max : ℕ) (ch : FramedChannel) (input : Bytes) : Prop :=
  ∀ recvs r, run Receiver.step (Receiver.start ch input) recvs = some r →
    r.Resolves ∧ ∀ ms, s.Completed ms → r.results = (deliveries max ms).take r.results.length

lemma carries_wire {max : ℕ} {ch tx : FramedChannel} (hnew : FramedChannel.new max = some ch)
    {sends : List SendAction} {s : Sender}
    (hsend : run Sender.step (Sender.start tx) sends = some s) : Carries s max ch s.wire := by
  intro recvs r hrecv
  obtain ⟨hrinv, houtlook⟩ := Receiver.run_outlook hnew hrecv
  refine ⟨Receiver.resolves_of_inv hrinv, ?_⟩
  rintro ms ⟨rfl, hdone⟩
  have hinv := Sender.run_inv hsend
  have hfits : ∀ m ∈ s.calls.map SendCall.msg, m.length < 256 ^ 4 := by
    intro m hm
    obtain ⟨c, hc, rfl⟩ := List.mem_map.mp hm
    exact Sender.fits_of_whole (hinv.call c hc) ((hinv.call c hc).completed (hdone c hc))
  rw [Sender.wire_of_completed hinv hdone, reference_frames hfits] at houtlook
  exact Receiver.results_eq_take houtlook

/-- A proxy that opens the tunnel decodes the address from what the client writes, and is left with
what the client sends through the tunnel. -/
lemma connect_of_success {c : TorConnector} {host : TorHost} {addr : OnionAddr}
    (hp : (host.proxy c.cfg.socksAddr).Willing) (hhost : (asBytes addr.host).length ≤ 255)
    {cs : List Bytes} (hreads : (host.proxy c.cfg.socksAddr).reads = delivered cs)
    {pre back : Bytes} (hpre : Socks5.SuccessReply pre) (hcs : cs.flatten = pre ++ back) :
    ∃ req reads, c.connect host addr = ⟨Socks5.greeting ++ req,
        .ok (FramedChannel.new c.cfg.maxMsgLen, delivered reads)⟩ ∧ reads.flatten = back ∧
      ∀ sent, decodeRequest (req ++ sent) =
        some (⟨1, .domain (asBytes addr.host), addr.port.toNat⟩, sent) := by
  obtain ⟨reads, hok, hrest⟩ := Socks5.result_of_success hp hreads hhost addr.port hpre hcs
  obtain ⟨-, hwritten⟩ := Socks5.written_of_ok hok
  refine ⟨Socks5.request addr.host addr.port, reads, ?_, hrest, fun sent => ?_⟩
  · simp only [TorConnector.connect, hok, hwritten]
    rfl
  · exact decodeRequest_domain 1 hhost addr.port.toNat_lt sent

/-! ## The theorem -/

/-- **Two peers meet.**  A listener whose daemon has published the service `id` has asked it for a
service that takes what comes to its virtual port to its local port; it has the address of this
service at its virtual port, and the text of the address is parsed to it again.  A peer that dials
it through a proxy that opens the tunnel asks the proxy for exactly this host and port, whatever the
pieces in which the proxy's bytes arrive; behind the request are exactly the bytes that its channel
sends, and behind the reply exactly those that the listener's channel sends, so that each of the two
channels receives the messages of the other one. -/
theorem rendezvous {a b : TorTransport} {hostA hostB : TorHost} {id : Text}
    (hpublishes : Publishes b.cfg hostB id) (params : ListenParams)
    (hhost : (asBytes (TorListener.onionAddr id params.virtPort).host).length ≤ 255)
    (hp : (hostA.proxy a.cfg.socksAddr).Willing) {chA chB : FramedChannel}
    (hA : FramedChannel.new a.cfg.maxMsgLen = some chA)
    (hB : FramedChannel.new b.cfg.maxMsgLen = some chB)
    {sendsA sendsB : List SendAction} {sA sB : Sender}
    (hsA : run Sender.step (Sender.start chA) sendsA = some sA)
    (hsB : run Sender.step (Sender.start chB) sendsB = some sB) {cs : List Bytes}
    (hreads : (hostA.proxy a.cfg.socksAddr).reads = delivered cs) {pre : Bytes}
    (hpre : Socks5.SuccessReply pre) (hcs : cs.flatten = pre ++ sB.wire) :
    ∃ l addr asked req reads, b.listen hostB params = ⟨asked, .ok (l, addr)⟩ ∧
      Asks b.cfg hostB params.virtPort asked l ∧
      addr.host = String.ofList id ++ ".onion" ∧ addr.port = params.virtPort ∧
      OnionAddr.fromStr addr.toString = .ok addr ∧
      a.connector.connect hostA addr =
        ⟨Socks5.greeting ++ req, .ok (some chA, delivered reads)⟩ ∧
      decodeRequest (req ++ sA.wire) =
        some (⟨1, .domain (asBytes addr.host), addr.port.toNat⟩, sA.wire) ∧
      l.accept (.ok ()) = .ok (some chB) ∧
      Carries sA b.cfg.maxMsgLen chB sA.wire ∧ reads.flatten = sB.wire ∧
      Carries sB a.cfg.maxMsgLen chA reads.flatten := by
  obtain ⟨l, asked, hlisten, hasks, hmax⟩ := listen_of_publishes hpublishes params
  obtain ⟨req, reads, hconnect, hrest, hreq⟩ :=
    connect_of_success (c := a.connector) hp hhost hreads hpre hcs
  refine ⟨l, _, asked, req, reads, hlisten, hasks, rfl, rfl,
    OnionAddr.fromStr_toString (onionAddr_host_ne _ _), ?_, hreq sA.wire, ?_, carries_wire hB hsA,
    hrest, ?_⟩
  · rw [hconnect]
    simp only [connector, hA]
  · simp only [TorListener.accept, hmax, hB]
  · rw [hrest]
    exact carries_wire hA hsB

/-- The reply of a proxy that opens a tunnel, and a message of two bytes that comes through it. -/
def meetingPieces : List Bytes :=
  [[0x05], [0x00, 0x05, 0x00, 0x00], [0x01, 127, 0, 0, 1, 0, 80, 0, 0, 0], [2, 66], [67]]

/-- A machine whose daemon publishes a service, and whose proxy opens a tunnel. -/
def meetingHost : TorHost where
  proxy := fun _ => { Socks5.openingProxy with reads := delivered meetingPieces }
  daemon := fun _ => Control.publishingDaemon
  bindErr := none
  localPort := .ok 40001

/-- The service is `abc`, and one message goes in each direction. -/
theorem rendezvous_abc :
    let t : TorTransport := ⟨{ TorConfig.default with maxMsgLen := 16 }⟩
    ∃ ch sA sB l addr asked req reads, FramedChannel.new 16 = some ch ∧
      run Sender.step (Sender.start ch) [.send [65], .write 4, .write 1, .flush] = some sA ∧
      run Sender.step (Sender.start ch) [.send [66, 67], .write 4, .write 2, .flush] = some sB ∧
      t.listen meetingHost ⟨9735, none⟩ = ⟨asked, .ok (l, addr)⟩ ∧
      Asks t.cfg meetingHost 9735 asked l ∧ addr.host = "abc.onion" ∧
      t.connector.connect meetingHost addr =
        ⟨Socks5.greeting ++ req, .ok (some ch, delivered reads)⟩ ∧
      decodeRequest (req ++ sA.wire) =
        some (⟨1, .domain (asBytes addr.host), addr.port.toNat⟩, sA.wire) ∧
      Carries sA 16 ch sA.wire ∧ reads.flatten = sB.wire ∧ Carries sB 16 ch reads.flatten := by
  intro t
  obtain ⟨ch, sA, sB, hnew, hsA, hsB, hwire⟩ : ∃ ch sA sB, FramedChannel.new 16 = some ch ∧
      run Sender.step (Sender.start ch) [.send [65], .write 4, .write 1, .flush] = some sA ∧
      run Sender.step (Sender.start ch) [.send [66, 67], .write 4, .write 2, .flush] = some sB ∧
      sB.wire = [0, 0, 0, 2, 66, 67] :=
    ⟨_, _, _, rfl, Option.eq_some_of_isSome (by decide), Option.eq_some_of_isSome (by decide),
      by decide⟩
  have hpublishes : Publishes t.cfg meetingHost "abc".toList :=
    ⟨rfl, ⟨40001, rfl⟩, ⟨rfl, fun _ h => absurd h (by simp [t, TorConfig.default]), rfl, rfl⟩, _,
      rfl, "250 OK".toList, ["250-ServiceID=abc".toList], [], by decide, by decide, by decide,
      by decide⟩
  have hreads : (meetingHost.proxy t.cfg.socksAddr).reads = delivered meetingPieces := rfl
  have hpre : Socks5.SuccessReply [0x05, 0x00, 0x05, 0x00, 0x00, 0x01, 127, 0, 0, 1, 0, 80] :=
    ⟨0x00, [0x01, 127, 0, 0, 1], [0, 80], .ipv4 [127, 0, 0, 1] rfl, rfl, rfl⟩
  obtain ⟨l, addr, asked, req, reads, hlisten, hasks, hhost, -, -, hconnect, hreq, -, hcarriesA,
      hwires, hcarriesB⟩ :=
    rendezvous (a := t) (b := t) hpublishes ⟨9735, none⟩ (by decide) ⟨rfl, rfl, rfl⟩ hnew hnew hsA
      hsB hreads hpre (by rw [hwire]; rfl)
  exact ⟨ch, sA, sB, l, addr, asked, req, reads, hnew, hsA, hsB, hlisten, hasks, hhost, hconnect,
    hreq, hcarriesA, hwires, hcarriesB⟩

end TorTransport

end FungiTransport
