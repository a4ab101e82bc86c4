import FungiTransport.Addr
import FungiTransport.Arti.Lazy
import FungiTransport.Capnp.Registry
import FungiTransport.Lib.Progress

/-!
# The listener of an onion service

`ArtiListener::accept` takes the requests of the service's streams one by one: it refuses those that
are no `BEGIN` on its port, and accepts the first other one.  A call can be dropped at either of its
two awaits; the requests that have not been taken stay in the stream, which the listener owns, and
the one that is being accepted then is lost.

The listener is a transition system.  Of each request that has been taken it records what has become
of it; the theorem accounts for every request that arrives, and for every call.
-/

namespace FungiTransport

open Lib

variable {T : TorCrates}

/-- The request of an incoming stream. -/
inductive IncomingStreamRequest where
  | begin (port : UInt16)
  /-- A `BEGIN_DIR` or a `RESOLVE`. -/
  | other
deriving DecidableEq, Repr

/-- What arti's client answers: whether a nickname is valid and its config can be built, the service
that it launches, if it is not disabled, with its address, if there is one, and the outcome of a
connection. -/
structure TorClient where
  parseNickname : String → Except String String
  buildService : String → Except String String
  launchOnionService : String → Except TorError (Option (Option String))
  connect : String → UInt16 → Except TorError Unit

/-- Where a call of `accept` is suspended: in `incoming.next()`, or in the `accept` of a request. -/
inductive AcceptAwait where
  | next
  | accept (req : IncomingStreamRequest)
deriving DecidableEq, Repr

/-- What has become of a request that was taken. -/
inductive Fate where
  /-- Its circuit was shut down. -/
  | refused
  | accepted
  | failed (text : String)
  /-- The call that was accepting it was dropped. -/
  | abandoned
deriving DecidableEq, Repr

/-- What a caller of `accept` sees. -/
inductive AcceptEvent where
  /-- The call resolved with a channel of this limit. -/
  | accepted (maxMsgLen : ℕ)
  | failed (e : ConnectError)
  /-- The call was dropped while it waited for a request. -/
  | cancelled
  /-- The call was dropped while it was accepting one. -/
  | abandoned
deriving DecidableEq, Repr

/-- `ArtiListener`, with its stream of requests and its caller. -/
structure ArtiListener where
  addr : OnionAddr
  virtPort : UInt16
  maxMsgLen : ℕ
  /-- The requests that have arrived and have not been taken. -/
  incoming : List IncomingStreamRequest
  /-- The stream ends behind them. -/
  ended : Bool
  call : Option AcceptAwait
  /-- The requests that were taken. -/
  taken : List (IncomingStreamRequest × Fate)
  events : List AcceptEvent

inductive AcceptAction where
  | arrive (req : IncomingStreamRequest)
  /-- The service ends its stream of requests. -/
  | close
  /-- The caller starts an `accept`. -/
  | call
  /-- `incoming.next()` is polled. -/
  | next
  /-- The `accept` of the request succeeds. -/
  | opened
  | openFailed (text : String)
  /-- The caller drops its `accept`. -/
  | drop
deriving DecidableEq, Repr

namespace ArtiTransport

/-- `ArtiTransport::listen` of the transport itself. -/
def listenAs (t : ArtiTransport T) (client : TorClient) (nickname : String) (virtPort : UInt16) :
    Except ConnectError ArtiListener := do
  let nickname ← (client.parseNickname nickname).mapError .transport
  let service ← (client.buildService nickname).mapError .transport
  match ← (client.launchOnionService service).mapError connectError with
  | none => .error (.transport "onion service disabled in its own config")
  | some none => .error (.transport "onion address not yet derivable from service keys")
  | some (some host) =>
    .ok
      { addr := OnionAddr.new host virtPort
        virtPort := virtPort
        maxMsgLen := t.maxMsgLen
        incoming := []
        ended := false
        call := none
        taken := []
        events := [] }

/-- `Transport::listen`: the nickname is `fungi` where none is given. -/
def listen (t : ArtiTransport T) (client : TorClient) (params : ListenParams) :
    Except ConnectError (ArtiListener × OnionAddr) := do
  let listener ← t.listenAs client (params.nickname.getD "fungi") params.virtPort
  .ok (listener, listener.addr)

/-- `ArtiConnector::connect`, with the limit of the channel. -/
def connect (t : ArtiTransport T) (client : TorClient) (addr : OnionAddr) : Except ConnectError ℕ :=
  ((client.connect addr.host addr.port).mapError connectError).map fun _ => t.maxMsgLen

end ArtiTransport

namespace ArtiListener

/-- The requests that `accept` accepts. -/
def Ours (l : ArtiListener) (req : IncomingStreamRequest) : Prop := req = .begin l.virtPort

instance (l : ArtiListener) (req : IncomingStreamRequest) : Decidable (l.Ours req) :=
  inferInstanceAs (Decidable (_ = _))

/-- What has become of a request is recorded. -/
def take (l : ArtiListener) (req : IncomingStreamRequest) (fate : Fate) : ArtiListener :=
  { l with taken := l.taken ++ [(req, fate)] }

/-- The call ends. -/
def resolve (l : ArtiListener) (e : AcceptEvent) : ArtiListener :=
  { l with call := none, events := l.events ++ [e] }

/-- One step of the listener, its caller and the onion service. -/
def step (l : ArtiListener) : AcceptAction → Option ArtiListener
  | .arrive req => if l.ended then none else some { l with incoming := l.incoming ++ [req] }
  | .close => if l.ended then none else some { l with ended := true }
  | .call =>
    match l.call with
    | some _ => none
    | none => some { l with call := some .next }
  | .next =>
    match l.call with
    | some .next =>
      match l.incoming with
      | [] => if l.ended then some (l.resolve (.failed .unreachable)) else none
      | req :: rest =>
        if l.Ours req then some { l with incoming := rest, call := some (.accept req) }
        -- the wrong port or another kind of request: `accept` keeps listening
        else some ({ l with incoming := rest }.take req .refused)
    | _ => none
  | .opened =>
    match l.call with
    | some (.accept req) => some ((l.take req .accepted).resolve (.accepted l.maxMsgLen))
    | _ => none
  | .openFailed text =>
    match l.call with
    | some (.accept req) =>
      some ((l.take req (.failed text)).resolve (.failed (.transport text)))
    | _ => none
  | .drop =>
    match l.call with
    | some .next => some (l.resolve .cancelled)
    | some (.accept req) => some ((l.take req .abandoned).resolve .abandoned)
    | none => none

end ArtiListener

/-! ## What is accounted for -/

/-- What the caller sees of a request. -/
def Fate.event? (maxMsgLen : ℕ) : Fate → Option AcceptEvent
  | .refused => none
  | .accepted => some (.accepted maxMsgLen)
  | .failed text => some (.failed (.transport text))
  | .abandoned => some .abandoned

/-- The call had taken a request. -/
def AcceptEvent.isTaken : AcceptEvent → Bool
  | .failed .unreachable | .cancelled => false
  | _ => true

/-- The request that arrives. -/
def AcceptAction.arrival? : AcceptAction → Option IncomingStreamRequest
  | .arrive req => some req
  | _ => none

namespace ArtiListener

/-- The request that is being accepted. -/
def accepting (l : ArtiListener) : Option IncomingStreamRequest :=
  l.call.bind fun
    | .next => none
    | .accept req => some req

/-- The requests that have arrived, in order. -/
def arrived (l : ArtiListener) : List IncomingStreamRequest :=
  l.taken.map Prod.fst ++ l.accepting.toList ++ l.incoming

/-- The invariant of a listener on `virtPort` with the limit `maxMsgLen`. -/
structure Inv (virtPort : UInt16) (maxMsgLen : ℕ) (l : ArtiListener) : Prop where
  port : l.virtPort = virtPort
  limit : l.maxMsgLen = maxMsgLen
  accepting : ∀ req, l.accepting = some req → req = .begin virtPort
  fates : ∀ p ∈ l.taken, p.2 = .refused ↔ p.1 ≠ .begin virtPort
  events : l.events.filter AcceptEvent.isTaken = l.taken.filterMap fun p => p.2.event? maxMsgLen
  unreachable : .failed .unreachable ∈ l.events →
    l.ended = true ∧ l.incoming = [] ∧ l.accepting = none

variable {virtPort : UInt16} {maxMsgLen : ℕ}

/-- The call that has a request ends with it. -/
lemma inv_decided {l : ArtiListener} {req : IncomingStreamRequest} {fate : Fate} {e : AcceptEvent}
    (h : Inv virtPort maxMsgLen l) (hcall : l.call = some (.accept req)) (hfate : fate ≠ .refused)
    (he : fate.event? maxMsgLen = some e) (htaken : e.isTaken = true) :
    Inv virtPort maxMsgLen ((l.take req fate).resolve e) := by
  have hreq : l.accepting = some req := by simp [accepting, hcall]
  have hours := h.accepting req hreq
  refine ⟨h.port, h.limit, by simp [accepting, resolve], ?_, ?_, ?_⟩
  · intro p hp
    rcases List.mem_append.mp hp with hp | hp
    · exact h.fates p hp
    · obtain rfl := List.mem_singleton.mp hp
      simp [hfate, hours]
  · simp [resolve, take, htaken, h.events, he]
  · intro hun
    have hold : .failed .unreachable ∈ l.events := by
      rcases List.mem_append.mp hun with hun | hun
      · exact hun
      · obtain rfl := List.mem_singleton.mp hun
        simp [AcceptEvent.isTaken] at htaken
    have hnone := (h.unreachable hold).2.2
    simp [hreq] at hnone

/-- **The step lemma** of the listener: it keeps the invariant, and adds to the requests that have
arrived the one that arrives. -/
lemma step_inv {l l' : ArtiListener} {a : AcceptAction} (h : Inv virtPort maxMsgLen l)
    (hstep : l.step a = some l') :
    Inv virtPort maxMsgLen l' ∧ l'.arrived = l.arrived ++ a.arrival?.toList := by
  cases a with
  | arrive req =>
    simp only [step] at hstep
    split at hstep
    · cases hstep
    · rename_i hopen
      obtain rfl := Option.some.inj hstep
      refine ⟨⟨h.port, h.limit, h.accepting, h.fates, h.events, fun hun => ?_⟩, ?_⟩
      · exact absurd (h.unreachable hun).1 hopen
      · simp [arrived, AcceptAction.arrival?, accepting]
  | close =>
    simp only [step] at hstep
    split at hstep
    · cases hstep
    · obtain rfl := Option.some.inj hstep
      exact ⟨⟨h.port, h.limit, h.accepting, h.fates, h.events,
        fun hun => ⟨rfl, (h.unreachable hun).2⟩⟩,
        by simp [arrived, AcceptAction.arrival?, accepting]⟩
  | call =>
    simp only [step] at hstep
    split at hstep
    · cases hstep
    · rename_i hcall
      obtain rfl := Option.some.inj hstep
      refine ⟨⟨h.port, h.limit, by simp [accepting], h.fates, h.events, fun hun => ?_⟩, ?_⟩
      · exact ⟨(h.unreachable hun).1, (h.unreachable hun).2.1, rfl⟩
      · simp [arrived, AcceptAction.arrival?, accepting, hcall]
  | next =>
    simp only [step] at hstep
    split at hstep
    · rename_i hcall
      have hnone : l.accepting = none := by simp [accepting, hcall]
      split at hstep
      · rename_i hnil
        split at hstep
        · rename_i hended
          obtain rfl := Option.some.inj hstep
          refine ⟨⟨h.port, h.limit, by simp [accepting, resolve], h.fates, ?_,
            fun _ => ⟨hended, hnil, rfl⟩⟩,
            by simp [arrived, AcceptAction.arrival?, accepting, resolve, hcall]⟩
          simpa [resolve, AcceptEvent.isTaken] using h.events
        · cases hstep
      · rename_i req rest hcons
        have hopen : .failed .unreachable ∉ l.events := fun hun => by
          have hnil := (h.unreachable hun).2.1
          simp [hcons] at hnil
        split at hstep
        · rename_i hours
          obtain rfl := Option.some.inj hstep
          have hreq : req = .begin virtPort := by rw [← h.port]; exact hours
          exact ⟨⟨h.port, h.limit, by simpa [accepting] using hreq, h.fates, h.events,
            fun hun => absurd hun hopen⟩,
            by simp [arrived, AcceptAction.arrival?, accepting, hcall, hcons]⟩
        · rename_i hother
          obtain rfl := Option.some.inj hstep
          have hreq : req ≠ .begin virtPort := fun hreq => hother (by rw [Ours, h.port]; exact hreq)
          refine ⟨⟨h.port, h.limit, by simp [accepting, take, hcall], ?_, ?_,
            fun hun => absurd hun hopen⟩,
            by simp [arrived, AcceptAction.arrival?, accepting, take, hcall, hcons]⟩
          · intro p hp
            rcases List.mem_append.mp hp with hp | hp
            · exact h.fates p hp
            · obtain rfl := List.mem_singleton.mp hp
              simp [hreq]
          · simpa [take, Fate.event?] using h.events
    · cases hstep
  | opened =>
    simp only [step] at hstep
    split at hstep
    · rename_i req hcall
      obtain rfl := Option.some.inj hstep
      rw [h.limit]
      exact ⟨inv_decided h hcall (by simp) rfl rfl,
        by simp [arrived, AcceptAction.arrival?, accepting, resolve, take, hcall]⟩
    · cases hstep
  | openFailed text =>
    simp only [step] at hstep
    split at hstep
    · rename_i req hcall
      obtain rfl := Option.some.inj hstep
      exact ⟨inv_decided h hcall (by simp) rfl rfl,
        by simp [arrived, AcceptAction.arrival?, accepting, resolve, take, hcall]⟩
    · cases hstep
  | drop =>
    simp only [step] at hstep
    split at hstep
    · rename_i hcall
      obtain rfl := Option.some.inj hstep
      refine ⟨⟨h.port, h.limit, by simp [accepting, resolve], h.fates, ?_, fun hun => ?_⟩, ?_⟩
      · simpa [resolve, AcceptEvent.isTaken] using h.events
      · have hold : .failed .unreachable ∈ l.events := by simpa [resolve] using hun
        exact ⟨(h.unreachable hold).1, (h.unreachable hold).2.1, rfl⟩
      · simp [arrived, AcceptAction.arrival?, accepting, resolve, hcall]
    · rename_i req hcall
      obtain rfl := Option.some.inj hstep
      exact ⟨inv_decided h hcall (by simp) rfl rfl,
        by simp [arrived, AcceptAction.arrival?, accepting, resolve, take, hcall]⟩
    · cases hstep

/-! ## A call that is polled -/

/-- The call goes on: nothing arrives, and it is not dropped. -/
def GoesOn (_ : ArtiListener) : AcceptAction → Prop
  | .arrive _ | .close | .call | .drop => False
  | .next | .opened | .openFailed _ => True

instance (l : ArtiListener) (a : AcceptAction) : Decidable (l.GoesOn a) := by
  cases a <;> simp only [GoesOn] <;> infer_instance

/-- What a call has still to take. -/
def rank (l : ArtiListener) : ℕ := l.incoming.length + l.call.toList.length

lemma step_rank {l l' : ArtiListener} {a : AcceptAction} (ha : l.GoesOn a)
    (hstep : l.step a = some l') : l'.rank < l.rank := by
  cases a with
  | arrive req => exact ha.elim
  | close => exact ha.elim
  | call => exact ha.elim
  | drop => exact ha.elim
  | next =>
    simp only [step] at hstep
    split at hstep
    · rename_i hcall
      split at hstep
      · rename_i hnil
        split at hstep
        · obtain rfl := Option.some.inj hstep
          simp [rank, resolve, hcall]
        · cases hstep
      · rename_i req rest hcons
        split at hstep <;> obtain rfl := Option.some.inj hstep <;> simp [rank, take, hcall, hcons]
    · cases hstep
  | opened | openFailed text =>
    simp only [step] at hstep
    split at hstep
    · rename_i req hcall
      obtain rfl := Option.some.inj hstep
      simp [rank, resolve, take, hcall]
    · cases hstep

/-- A call that cannot go on waits for a request. -/
lemma waits_of_stuck {l : ArtiListener} (h : Stuck step GoesOn l) {w : AcceptAwait}
    (hcall : l.call = some w) : w = .next ∧ l.incoming = [] ∧ l.ended = false := by
  cases w with
  | accept req =>
    have hopened : l.step .opened = none := h.step_eq_none trivial
    simp [step, hcall] at hopened
  | next =>
    have hnext : l.step .next = none := h.step_eq_none trivial
    simp only [step, hcall] at hnext
    split at hnext
    · rename_i hnil
      split at hnext
      · cases hnext
      · rename_i hended
        exact ⟨rfl, hnil, by simpa using hended⟩
    · split at hnext <;> cases hnext

/-- A listener begins with nothing, at the port that was asked for. -/
lemma start_of_listen {t : ArtiTransport T} {client : TorClient} {params : ListenParams}
    {l : ArtiListener} {addr : OnionAddr} (hlisten : t.listen client params = .ok (l, addr)) :
    addr = l.addr ∧ l.addr.port = params.virtPort ∧ l.arrived = [] ∧
      Inv params.virtPort t.maxMsgLen l := by
  simp only [ArtiTransport.listen, ArtiTransport.listenAs, bind, Except.bind] at hlisten
  split at hlisten
  · cases hlisten
  · rename_i l' hl
    obtain ⟨rfl, rfl⟩ := Prod.mk.inj (Except.ok.inj hlisten)
    split at hl
    · cases hl
    · split at hl
      · cases hl
      · split at hl
        · cases hl
        · split at hl
          · cases hl
          · cases hl
          · obtain rfl := Except.ok.inj hl
            exact ⟨rfl, rfl, rfl, rfl, rfl, by simp [accepting], by simp, rfl, by simp⟩

/-- A peer that dials the address of a listener has its client ask the service for a stream to the
port on which the listener accepts, and gets a channel of its own limit exactly when it gets the
stream. -/
theorem connect_of_listen {t dialler : ArtiTransport T} {client peer : TorClient}
    {params : ListenParams} {l : ArtiListener} {addr : OnionAddr}
    (hlisten : t.listen client params = .ok (l, addr)) :
    l.Ours (.begin addr.port) ∧
    (∀ n, dialler.connect peer addr = .ok n ↔
      peer.connect addr.host params.virtPort = .ok () ∧ n = dialler.maxMsgLen) ∧
    ∀ e, peer.connect addr.host params.virtPort = .error e →
      dialler.connect peer addr = .error (connectError e) := by
  obtain ⟨rfl, hport, -, hinv⟩ := start_of_listen hlisten
  refine ⟨?_, fun n => ?_, fun e he => ?_⟩
  · rw [Ours, hport, hinv.port]
  · rw [ArtiTransport.connect, hport]
    cases peer.connect l.addr.host params.virtPort <;> simp [Except.mapError, Except.map, eq_comm]
  · rw [ArtiTransport.connect, hport, he]
    rfl

/-- **Every request is decided, once and in order.**  In every run of a listener, the requests that
have arrived are those that were taken, the one that is being accepted and those that wait, in this
order.  Refused are exactly those that are no `BEGIN` on the port of the listener; of each other one
the calls of `accept` tell what has become of it, in the order of the requests.  `Unreachable` is
told only when the stream of requests has ended and each of them was taken.  A call that is polled
ends after as many steps as requests wait, and one more, or waits for a request to arrive. -/
theorem requests_decided {t : ArtiTransport T} {client : TorClient} {params : ListenParams}
    {l : ArtiListener} {addr : OnionAddr} (hlisten : t.listen client params = .ok (l, addr))
    {as : List AcceptAction} {s : ArtiListener} (hrun : run step l as = some s) :
    addr.port = params.virtPort ∧
    s.taken.map Prod.fst ++ s.accepting.toList ++ s.incoming =
      as.filterMap AcceptAction.arrival? ∧
    (∀ p ∈ s.taken, p.2 = .refused ↔ p.1 ≠ .begin params.virtPort) ∧
    s.events.filter AcceptEvent.isTaken = (s.taken.filterMap fun p => p.2.event? t.maxMsgLen) ∧
    (.failed .unreachable ∈ s.events → s.ended = true ∧ s.incoming = [] ∧ s.accepting = none) ∧
    ∀ bs u, EachStep step GoesOn s bs → run step s bs = some u →
      bs.length ≤ s.incoming.length + 1 ∧
        (Stuck step GoesOn u →
          u.call = none ∨ u.call = some .next ∧ u.incoming = [] ∧ u.ended = false) := by
  obtain ⟨rfl, hport, hnil, hinv⟩ := start_of_listen hlisten
  have hs : Inv params.virtPort t.maxMsgLen s :=
    run_invariant (fun _ _ _ h hstep => (step_inv h hstep).1) hinv hrun
  have harrived := log_of_run (f := arrived) (fun _ _ _ h hstep => step_inv h hstep) hinv hrun
  rw [hnil, List.nil_append] at harrived
  refine ⟨hport, harrived, hs.fates, hs.events, hs.unreachable, fun bs u hgoes hrun' => ⟨?_, ?_⟩⟩
  · have hlen := length_add_rank_le (I := fun _ => True) (fun _ _ _ _ ha hstep =>
      ⟨trivial, step_rank ha hstep⟩) trivial hgoes hrun'
    have hrank : s.rank ≤ s.incoming.length + 1 := by
      unfold rank
      cases s.call <;> simp
    omega
  · intro hstuck
    cases hcall : u.call with
    | none => exact .inl rfl
    | some w =>
      obtain ⟨rfl, hrest⟩ := waits_of_stuck hstuck hcall
      exact .inr ⟨rfl, hrest⟩

/-- A client whose services are launched under one address. -/
def willingClient : TorClient where
  parseNickname := .ok
  buildService := .ok
  launchOnionService := fun _ => .ok (some (some "abc.onion"))
  connect := fun _ _ => .ok ()

/-- A request to the wrong port, one whose call is dropped, and one that is accepted. -/
theorem requests_decided_dropped :
    let t : ArtiTransport LazySystem.textCrates := ⟨.fromDirectories "state" "cache", 1024, none⟩
    ∃ l addr s, t.listen willingClient ⟨9735, none⟩ = .ok (l, addr) ∧
      run step l [.arrive (.begin 80), .call, .next, .arrive (.begin 9735), .next,
        .arrive (.begin 9735), .drop, .call, .next, .opened, .close, .call, .next] = some s ∧
      s.events = [.abandoned, .accepted 1024, .failed .unreachable] ∧
      s.taken.map Prod.fst ++ s.accepting.toList ++ s.incoming =
        [.begin 80, .begin 9735, .begin 9735] := by
  intro t
  obtain ⟨l, addr, s, hlisten, hrun, hevents⟩ : ∃ l addr s,
      t.listen willingClient ⟨9735, none⟩ = .ok (l, addr) ∧
      run step l [.arrive (.begin 80), .call, .next, .arrive (.begin 9735), .next,
        .arrive (.begin 9735), .drop, .call, .next, .opened, .close, .call, .next] = some s ∧
      s.events = [.abandoned, .accepted 1024, .failed .unreachable] :=
    ⟨_, _, _, rfl, rfl, rfl⟩
  exact ⟨l, addr, s, hlisten, hrun, hevents, (requests_decided hlisten hrun).2.1⟩

end ArtiListener

end FungiTransport
