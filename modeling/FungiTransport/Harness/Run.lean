import FungiTransport.Harness.Talk
import FungiTransport.Mem.Transport

/-!
# The integration harness over the in-memory transport

`run_listen` publishes, accepts one peer and echoes until it leaves; `run_dial` connects and runs
its messages.  Each is a task: one step of it is one poll, cut at its awaits and at what it drops
when it returns.  Two tasks on one transport come to their ends however they are scheduled, and what
they come to does not depend on the knobs of the transport, its size limit apart.
-/

namespace FungiTransport

open Lib

/-! ## The tasks -/

/-- Where `run_listen` stands. -/
inductive RunListen where
  | listen (params : ListenParams)
  | accept
  | echo (k : ℕ) (st : EchoState)
  /-- It returns `r`, once it has dropped what it owns. -/
  | leaving (drops : List TransportAction) (r : Except String Unit)

/-- Where `run_dial` stands. -/
inductive RunDial where
  | connect
  | connecting (k : ℕ)
  | dial (k : ℕ) (st : DialState)
  | leaving (drops : List TransportAction) (r : Except String Unit)

namespace MemTransport

/-- An action on an end of pair `k`. -/
def channel (t : MemTransport) (k : ℕ) (a : MemAction) : Option MemTransport :=
  t.step (.network (.channel k a))

/-- The driver that owns end `d` of pair `k` goes on with its call. -/
def drive (t : MemTransport) (k : ℕ) (d : Side) (turn : Turn) (slept elapsed : Bool) :
    Option (MemTransport × Await Resolved) :=
  (t.network.pairs[k]?).bind fun p =>
    (t.channel k (p.action d turn slept elapsed)).bind fun t' =>
      (t'.network.pairs[k]?).map fun p' => (t', (p.ends d).await (p'.ends d) turn)

end MemTransport

namespace RunListen

/-- What the task drops when it returns, its channel apart. -/
def drops : List TransportAction := [.network .dropListener, .dropTransport]

/-- One step of `run_listen` on a transport, with what it prints: `expired` says that the timeout of
the await is over. -/
def step (t : MemTransport) (slept elapsed expired : Bool) :
    RunListen → Option (MemTransport × RunListen × List String)
  | .listen params =>
    (t.step (.listen params)).bind fun t' =>
      match t'.listens.getLast? with
      | some (.ok ()) => some (t', .accept, ["ONION=mem", "READY"])
      | some (.error e) => some (t', .leaving [.dropTransport] (.error e.toString), [])
      | none => none
  | .accept =>
    if t.network.accepting then
      (t.step (.network .pollAccept)).bind fun t' =>
        if t'.network.accepting then
          if expired then
            some (t', .leaving (.network .dropAccept :: drops) (.error "accept timed out"), [])
          else some (t', .accept, [])
        else
          match t'.network.accepts.getLast? with
          | some (.ok k) => some (t', .echo k echoOnePeer.start, [])
          | some (.error e) => some (t', .leaving drops (.error e.toString), [])
          | none => none
    else (t.step (.network .accept)).map fun t' => (t', .accept, [])
  | .echo k st =>
    match echoOnePeer.turn st with
    | .done r => (t.channel k (.dropEnd .b)).map fun t' => (t', .leaving drops r, [])
    | turn =>
      (t.drive k .b turn slept elapsed).map fun (t', w) =>
        match w, expired with
        | .pending, true =>
          (t', .leaving
            (.network (.channel k (.dropFut .b)) :: .network (.channel k (.dropEnd .b)) :: drops)
            (.error "echo/dial phase timed out"), [])
        | w, _ => (t', .echo k (echoOnePeer.resume st w), [])
  | .leaving (a :: as) r => (t.step a).map fun t' => (t', .leaving as r, [])
  | .leaving [] _ => none

/-- With no timeout, the task waits for its driver. -/
lemma step_echo {t : MemTransport} {slept elapsed : Bool} {k : ℕ} {st : EchoState}
    (hst : ∀ r, st ≠ .done r) :
    step t slept elapsed false (.echo k st) =
      (t.drive k .b (echoOnePeer.turn st) slept elapsed).map fun (t', w) =>
        (t', .echo k (echoOnePeer.resume st w), []) := by
  cases st with
  | done r => exact absurd rfl (hst r)
  | receiving | replying =>
    refine congrArg (Option.map · _) (funext fun x => ?_)
    obtain ⟨t', w⟩ := x
    cases w <;> rfl

end RunListen

namespace RunDial

/-- One step of `run_dial` for the messages `ms`, with what it prints. -/
def step (ms : List Bytes) (t : MemTransport) (slept elapsed expired : Bool) :
    RunDial → Option (MemTransport × RunDial × List String)
  | .connect =>
    (t.step (.network .connect)).map fun t' => (t', .connecting t.network.connects.length, [])
  | .connecting k =>
    (t.step (.network (.pollConnect k))).bind fun t' =>
      match t'.network.connects[k]? with
      | some .pending =>
        if expired then
          some (t', .leaving [.network (.dropConnect k), .network .dropConnector]
            (.error "connect timed out"), [])
        else some (t', .connecting k, [])
      | some .returned => some (t', .dial k (dialSequence ms).start, [])
      | some .unreachable =>
        some (t', .leaving [.network .dropConnector] (.error ConnectError.unreachable.toString), [])
      | some .dropped | none => none
  | .dial k st =>
    match (dialSequence ms).turn st with
    | .done r =>
      (t.channel k (.dropEnd .a)).map fun t' =>
        (t', .leaving [.network .dropConnector] r, if r = .ok () then ["OK"] else [])
    | turn =>
      (t.drive k .a turn slept elapsed).map fun (t', w) =>
        match w, expired with
        | .pending, true =>
          (t', .leaving [.network (.channel k (.dropFut .a)), .network (.channel k (.dropEnd .a)),
            .network .dropConnector] (.error "echo/dial phase timed out"), [])
        | w, _ => (t', .dial k ((dialSequence ms).resume st w), [])
  | .leaving (a :: as) r => (t.step a).map fun t' => (t', .leaving as r, [])
  | .leaving [] _ => none

/-- With no timeout, the task waits for its driver. -/
lemma step_dial {ms : List Bytes} {t : MemTransport} {slept elapsed : Bool} {k : ℕ} {st : DialState}
    (hst : ∀ r, st ≠ .done r) :
    step ms t slept elapsed false (.dial k st) =
      (t.drive k .a ((dialSequence ms).turn st) slept elapsed).map fun (t', w) =>
        (t', .dial k ((dialSequence ms).resume st w), []) := by
  cases st with
  | done r => exact absurd rfl (hst r)
  | sending | receiving =>
    refine congrArg (Option.map · _) (funext fun x => ?_)
    obtain ⟨t', w⟩ := x
    cases w <;> rfl

end RunDial

/-! ## Two tasks on one transport -/

/-- A transport with `run_listen`, which owns it, and `run_dial`, which has a connector. -/
structure Harness where
  transport : MemTransport
  listen : RunListen
  dial : RunDial
  listenOut : List String
  dialOut : List String

/-- A task is polled; `slept` and `elapsed` are the timers of the channel, `expired` the timeout of
the task. -/
inductive HarnessAction where
  | listen (slept elapsed expired : Bool)
  | dial (slept elapsed expired : Bool)
deriving DecidableEq

def HarnessAction.expired : HarnessAction → Bool
  | .listen _ _ b | .dial _ _ b => b

namespace Harness

/-- The transport is made, and the dialer's connector taken from it before the tasks start. -/
def new (cfg : MemConfig) (params : ListenParams) : Option Harness :=
  ((MemTransport.new cfg).bind fun t => t.step .connector).map fun t =>
    ⟨t, .listen params, .connect, [], []⟩

def step (ms : List Bytes) (s : Harness) : HarnessAction → Option Harness
  | .listen slept elapsed expired =>
    (s.listen.step s.transport slept elapsed expired).map fun (t, task, out) =>
      { s with transport := t, listen := task, listenOut := s.listenOut ++ out }
  | .dial slept elapsed expired =>
    (s.dial.step ms s.transport slept elapsed expired).map fun (t, task, out) =>
      { s with transport := t, dial := task, dialOut := s.dialOut ++ out }

end Harness

/-! ## What the tasks say of the transport -/

namespace RunDial

/-- The state of the connect that the task made. -/
def connects : RunDial → List ConnectState
  | .connect => []
  | .connecting _ => [.pending]
  | .dial _ _ | .leaving _ _ => [.returned]

/-- The task has its connector. -/
def connector : RunDial → Bool
  | .leaving [] _ => false
  | .connect | .connecting _ | .dial _ _ | .leaving (_ :: _) _ => true

/-- The near end is alive. -/
def near : RunDial → Bool
  | .leaving _ _ => false
  | .connect | .connecting _ | .dial _ _ => true

/-- Where the driver stands. -/
def state (ms : List Bytes) : RunDial → DialState
  | .connect | .connecting _ => .loop 0 ms
  | .dial _ st => st
  | .leaving _ r => .done r

def printed : RunDial → List String
  | .leaving _ r => if r = .ok () then ["OK"] else []
  | .connect | .connecting _ | .dial _ _ => []

/-- The task's pair is the first one, and no timeout has cut it short. -/
inductive Ok : RunDial → Prop
  | connect : Ok .connect
  | connecting : Ok (.connecting 0)
  | dial (st : DialState) : Ok (.dial 0 st)
  | leaving (r : Except String Unit) : Ok (.leaving [.network .dropConnector] r)
  | left (r : Except String Unit) : Ok (.leaving [] r)

/-- What the task has returned, when it has dropped all it had. -/
def returned : RunDial → Option (Except String Unit)
  | .leaving [] r => some r
  | .connect | .connecting _ | .dial _ _ | .leaving (_ :: _) _ => none

lemma of_returned {d : RunDial} {r : Except String Unit} (h : d.returned = some r) :
    d = .leaving [] r := by
  cases d with
  | leaving drops r' =>
    cases drops with
    | nil => exact congrArg _ (Option.some.inj h)
    | cons => cases h
  | _ => cases h

/-- The steps outside the driver that the task has still to take. -/
def toDo : RunDial → ℕ
  | .connect => 4
  | .connecting _ => 3
  | .dial _ _ => 2
  | .leaving drops _ => drops.length

end RunDial

namespace RunListen

def accepts : RunListen → List (Except ConnectError ℕ)
  | .listen _ | .accept => []
  | .echo _ _ | .leaving _ _ => [.ok 0]

def listens : RunListen → List (Except ConnectError Unit)
  | .listen _ => []
  | .accept | .echo _ _ | .leaving _ _ => [.ok ()]

/-- The task has the transport. -/
def transport : RunListen → Bool
  | .leaving [] _ => false
  | .listen _ | .accept | .echo _ _ | .leaving (_ :: _) _ => true

/-- The listener is alive. -/
def listener : RunListen → Bool
  | .leaving drops _ => .network .dropListener ∈ drops
  | .listen _ | .accept | .echo _ _ => true

/-- The far end is alive. -/
def far : RunListen → Bool
  | .leaving _ _ => false
  | .listen _ | .accept | .echo _ _ => true

def state : RunListen → EchoState
  | .listen _ | .accept => .receiving
  | .echo _ st => st
  | .leaving _ r => .done r

def printed : RunListen → List String
  | .listen _ => []
  | .accept | .echo _ _ | .leaving _ _ => ["ONION=mem", "READY"]

inductive Ok : RunListen → Prop
  | listen (params : ListenParams) : Ok (.listen params)
  | accept : Ok .accept
  | echo (st : EchoState) : Ok (.echo 0 st)
  | leaving (r : Except String Unit) : Ok (.leaving drops r)
  | deaf (r : Except String Unit) : Ok (.leaving [.dropTransport] r)
  | left (r : Except String Unit) : Ok (.leaving [] r)

def returned : RunListen → Option (Except String Unit)
  | .leaving [] r => some r
  | .listen _ | .accept | .echo _ _ | .leaving (_ :: _) _ => none

lemma of_returned {l : RunListen} {r : Except String Unit} (h : l.returned = some r) :
    l = .leaving [] r := by
  cases l with
  | leaving drops r' =>
    cases drops with
    | nil => exact congrArg _ (Option.some.inj h)
    | cons => cases h
  | _ => cases h

def toDo (accepting : Bool) : RunListen → ℕ
  | .listen _ => 6
  | .accept => 5 - accepting.toNat
  | .echo _ _ => 3
  | .leaving drops _ => drops.length

end RunListen

namespace Harness

/-- What holds of the tasks and their transport, while no timeout is over. -/
structure Inv (cfg : MemConfig) (ms : List Bytes) (s : Harness) : Prop where
  inv : MemTransport.Inv cfg s.transport
  dialer : s.dial.Ok
  server : s.listen.Ok
  connects : s.transport.network.connects = s.dial.connects
  connectors : s.transport.network.connectors =
    s.listen.transport.toNat + s.dial.connector.toNat
  accepts : s.transport.network.accepts = s.listen.accepts
  accepting : s.transport.network.accepting = true → s.listen = .accept
  listens : s.transport.listens = s.listen.listens
  alive : s.transport.alive = s.listen.transport
  rxAlive : s.transport.network.inbound.rxAlive = s.listen.listener
  talk : ∀ p, s.transport.network.pairs[0]? = some p →
    Talk cfg ms p (s.dial.state ms) s.listen.state ∧ (p.ends .a).alive = s.dial.near ∧
      (p.ends .b).alive = s.listen.far
  listenOut : s.listenOut = s.listen.printed
  dialOut : s.dialOut = s.dial.printed

/-- How far the tasks are from their ends. -/
def toDo (ms : List Bytes) (s : Harness) : ℕ :=
  s.dial.toDo + s.listen.toDo s.transport.network.accepting +
    s.transport.network.pairs[0]?.elim (10 * ms.length + 2) fun p =>
      p.talkToDo (s.dial.state ms) s.listen.state

variable {cfg : MemConfig} {ms : List Bytes} {s : Harness}

/-- A task acts on its end of the pair. -/
lemma channel_eq {t : MemTransport} {k : ℕ} {p p' : Duplex} {a : MemAction}
    (hp : t.network.pairs[k]? = some p) (hheld : t.network.Held k a.side)
    (hstep : p.step a = some p') :
    t.channel k a = some { t with network := { t.network with
      pairs := t.network.pairs.set k p' } } := by
  have hpermits : t.permits (.channel k a) = true := rfl
  simp only [MemTransport.channel, MemTransport.step, hpermits, if_true, Network.step, if_pos hheld,
    hp, Option.bind_some, hstep, Option.map_some]

lemma first_pair {t : MemTransport} {p : Duplex} (hp : t.network.pairs = [p]) :
    t.network.pairs[0]? = some p := by
  rw [hp]
  rfl

lemma Inv.talk_dial (h : Inv cfg ms s) {d : RunDial} (hdial : s.dial = d) {p : Duplex}
    (hp : s.transport.network.pairs[0]? = some p) :
    Talk cfg ms p (d.state ms) s.listen.state ∧ (p.ends .a).alive = d.near ∧
      (p.ends .b).alive = s.listen.far := by
  rw [← hdial]
  exact h.talk p hp

lemma Inv.talk_listen (h : Inv cfg ms s) {l : RunListen} (hlisten : s.listen = l) {p : Duplex}
    (hp : s.transport.network.pairs[0]? = some p) :
    Talk cfg ms p (s.dial.state ms) l.state ∧ (p.ends .a).alive = s.dial.near ∧
      (p.ends .b).alive = l.far := by
  rw [← hlisten]
  exact h.talk p hp

/-- There is a pair once the dialer has made its connect. -/
lemma Inv.pair (h : Inv cfg ms s) (hne : s.dial.connects ≠ []) :
    ∃ p, s.transport.network.pairs = [p] := by
  have hlength := h.inv.steady.length
  rw [h.connects] at hlength
  refine List.length_eq_one_iff.mp (hlength.trans ?_)
  cases hdial : s.dial <;> simp_all [RunDial.connects]

/-- The pair after an action of one of the tasks. -/
def withPair (t : MemTransport) (p : Duplex) : MemTransport :=
  { t with network := { t.network with pairs := t.network.pairs.set 0 p } }

lemma pairs_withPair {t : MemTransport} {p p' q : Duplex} (hp : t.network.pairs = [p]) :
    (withPair t p').network.pairs[0]? = some q ↔ p' = q := by
  simp [withPair, hp]

lemma withPair_pairs {t : MemTransport} {p : Duplex} (hp : t.network.pairs = [p]) (p' : Duplex) :
    (withPair t p').network.pairs = [p'] := by
  simp [withPair, hp]

lemma withPair_self {t : MemTransport} {p : Duplex} (hp : t.network.pairs = [p]) :
    withPair t p = t := by
  rw [withPair, hp, List.set_cons_zero, ← hp]

/-- The driver of an end that is held acts on the pair. -/
lemma drive_eq {t : MemTransport} {p p' : Duplex} {d : Side} {turn : Turn} {slept elapsed : Bool}
    (hp : t.network.pairs = [p]) (hheld : t.network.Held 0 d)
    (hstep : p.step (p.action d turn slept elapsed) = some p') :
    t.channel 0 (p.action d turn slept elapsed) = some (withPair t p') ∧
      t.drive 0 d turn slept elapsed =
        some (withPair t p', (p.ends d).await (p'.ends d) turn) := by
  have hp0 := first_pair hp
  have hp0' : (withPair t p').network.pairs[0]? = some p' := (pairs_withPair hp).mpr rfl
  have hchannel : t.channel 0 (p.action d turn slept elapsed) = some (withPair t p') :=
    channel_eq hp0 (by rwa [Duplex.side_action]) hstep
  refine ⟨hchannel, ?_⟩
  rw [MemTransport.drive, hp0, Option.bind_some, hchannel, Option.bind_some, hp0']
  rfl

/-- While the server does not accept, there is no `accept` in progress. -/
lemma Inv.idle (h : Inv cfg ms s) (hlisten : s.listen ≠ .accept) :
    s.transport.network.accepting = false := by
  by_contra hacc
  exact hlisten (h.accepting (by simpa using hacc))

lemma held_near (h : Inv cfg ms s) (hdial : s.dial.connects = [.returned]) :
    s.transport.network.Held 0 .a := by
  simp [Network.Held, h.connects, hdial]

lemma held_far (h : Inv cfg ms s) (hlisten : s.listen.accepts = [.ok 0]) :
    s.transport.network.Held 0 .b := by
  simp [Network.Held, Network.accepted, h.accepts, hlisten, Except.toOption]

/-- The dialer acted on its end. -/
lemma Inv.dialed (h : Inv cfg ms s) {p p' : Duplex} {a : MemAction} {d : RunDial}
    {out : List String} (hp : s.transport.network.pairs = [p])
    (hstep : s.transport.channel 0 a = some (withPair s.transport p')) (hok : d.Ok)
    (hconnects : d.connects = s.dial.connects) (hconnector : d.connector = s.dial.connector)
    (htalk : Talk cfg ms p' (d.state ms) s.listen.state) (hnear : (p'.ends .a).alive = d.near)
    (hfar : (p'.ends .b).alive = (p.ends .b).alive) (hout : s.dialOut ++ out = d.printed) :
    Inv cfg ms
      { s with transport := withPair s.transport p', dial := d, dialOut := s.dialOut ++ out } :=
  { h with
    inv := MemTransport.step_inv h.inv hstep
    dialer := hok
    connects := h.connects.trans hconnects.symm
    connectors := by rw [hconnector]; exact h.connectors
    talk := fun q hq => by
      obtain rfl := (pairs_withPair hp).mp hq
      exact ⟨htalk, hnear, hfar.trans (h.talk p (first_pair hp)).2.2⟩
    dialOut := hout }

/-- The echo server acted on its end. -/
lemma Inv.served (h : Inv cfg ms s) {p p' : Duplex} {a : MemAction} {l : RunListen}
    {out : List String} (hp : s.transport.network.pairs = [p])
    (hstep : s.transport.channel 0 a = some (withPair s.transport p')) (hok : l.Ok)
    (haccepts : l.accepts = s.listen.accepts) (hlistens : l.listens = s.listen.listens)
    (htransport : l.transport = s.listen.transport) (hlistener : l.listener = s.listen.listener)
    (haccepting : s.transport.network.accepting = true → l = .accept)
    (htalk : Talk cfg ms p' (s.dial.state ms) l.state) (hfar : (p'.ends .b).alive = l.far)
    (hnear : (p'.ends .a).alive = (p.ends .a).alive) (hout : s.listenOut ++ out = l.printed) :
    Inv cfg ms { s with
      transport := withPair s.transport p', listen := l, listenOut := s.listenOut ++ out } :=
  { h with
    inv := MemTransport.step_inv h.inv hstep
    server := hok
    connectors := by rw [htransport]; exact h.connectors
    accepts := h.accepts.trans haccepts.symm
    accepting := haccepting
    listens := h.listens.trans hlistens.symm
    alive := h.alive.trans htransport.symm
    rxAlive := h.rxAlive.trans hlistener.symm
    talk := fun q hq => by
      obtain rfl := (pairs_withPair hp).mp hq
      exact ⟨htalk, hnear.trans (h.talk p (first_pair hp)).2.1, hfar⟩
    listenOut := hout }

/-- The dialer waits for an echo. -/
def DialWaits (s : Harness) : Prop :=
  ∃ p i m rest, s.transport.network.pairs = [p] ∧ s.dial = .dial 0 (.receiving i m rest) ∧
    (p.queues .b).buffer = []

lemma toDo_of_pair {p : Duplex} (hp : s.transport.network.pairs = [p]) :
    s.toDo ms = s.dial.toDo + s.listen.toDo s.transport.network.accepting +
      p.talkToDo (s.dial.state ms) s.listen.state := by
  simp [toDo, hp]

/-- A step of the dialer while it runs its messages. -/
lemma dial_drives (h : Inv cfg ms s) {st : DialState} (hdial : s.dial = .dial 0 st)
    (hst : ∀ r, st ≠ .done r) (slept elapsed : Bool) :
    ∃ s', s.step ms (.dial slept elapsed false) = some s' ∧ Inv cfg ms s' ∧
      (s'.toDo ms < s.toDo ms ∨ s' = s ∧ (slept = true → s.DialWaits)) := by
  obtain ⟨p, hp⟩ := h.pair (by simp [hdial, RunDial.connects])
  obtain ⟨htalk, hnear, hfar⟩ := h.talk_dial hdial (first_pair hp)
  change Talk cfg ms p st s.listen.state at htalk
  obtain ⟨p', hstep, st', hst', hprogress⟩ := htalk.dial hst hnear slept elapsed
  obtain ⟨hchannel, hdrive⟩ := drive_eq hp (held_near h (by rw [hdial]; rfl)) hstep
  have hs' : s.step ms (.dial slept elapsed false) = some { s with
      transport := withPair s.transport p', dial := .dial 0 st', dialOut := s.dialOut ++ [] } := by
    simp only [step, hdial, RunDial.step_dial hst, hdrive, Option.map_some, hst']
  refine ⟨_, hs', ?_⟩
  rcases hprogress with hadvances | ⟨rfl, rfl, hwaits⟩
  · refine ⟨h.dialed hp hchannel (.dial st') ?_ ?_ hadvances.talk ?_ (hadvances.alive .b) ?_,
      .inl ?_⟩
    · rw [hdial]; rfl
    · rw [hdial]; rfl
    · exact (hadvances.alive .a).trans hnear
    · rw [h.dialOut, hdial]; rfl
    · rw [toDo_of_pair hp, toDo_of_pair (withPair_pairs hp p'), hdial]
      exact Nat.add_lt_add_left hadvances.toDo _
  · rw [withPair_self hp, ← hdial, List.append_nil]
    refine ⟨h, .inr ⟨rfl, fun hslept => ?_⟩⟩
    obtain ⟨hempty, i, m, rest, rfl⟩ := hwaits hslept
    exact ⟨p', i, m, rest, hp, hdial, hempty⟩

/-- The dialer has the connector until it drops it. -/
lemma connectors_eq (h : Inv cfg ms s) : s.transport.connectors = s.dial.connector.toNat := by
  rw [MemTransport.connectors, h.connectors, h.alive]
  omega

lemma network_eq {t : MemTransport} {a : NetworkAction} {net : Network}
    (hpermits : t.permits a = true) (hstep : t.network.step a = some net) :
    t.step (.network a) = some { t with network := net } := by
  simp only [MemTransport.step, if_pos hpermits, hstep, Option.map_some]

/-- Nobody is accepted before the connect has returned. -/
lemma Inv.unaccepted (h : Inv cfg ms s) (hdial : s.dial.connects ≠ [.returned]) :
    s.listen.state = .receiving ∧ s.listen.far = true ∧ s.listen.listener = true ∧
      s.listen.accepts = [] := by
  have hnone : s.listen.accepts ≠ [.ok 0] := by
    intro hsome
    have hmem : 0 ∈ s.transport.network.accepted := by
      simp [Network.accepted, h.accepts, hsome, Except.toOption]
    have hreturned := h.inv.steady.sane.inv.mem_accepted hmem
    rw [h.connects] at hreturned
    cases hd : s.dial <;> simp [hd, RunDial.connects] at hreturned hdial
  cases hl : s.listen with
  | listen | accept => exact ⟨rfl, rfl, rfl, rfl⟩
  | echo | leaving => exact absurd (by rw [hl]; rfl) hnone

/-- The dialer makes its connect. -/
lemma dial_connects (h : Inv cfg ms s) (hcfg : (duplex cfg).isSome) (hdial : s.dial = .connect)
    (slept elapsed : Bool) :
    ∃ s', s.step ms (.dial slept elapsed false) = some s' ∧ Inv cfg ms s' ∧
      s'.toDo ms < s.toDo ms := by
  obtain ⟨p, hp⟩ := Option.isSome_iff_exists.mp hcfg
  have hconnects : s.transport.network.connects = [] := by rw [h.connects, hdial]; rfl
  have hpairs : s.transport.network.pairs = [] := by
    rw [← List.length_eq_zero_iff, h.inv.steady.length, hconnects]
    rfl
  have hpos : s.transport.network.connectors ≠ 0 := by
    rw [h.connectors, hdial, RunDial.connector, Bool.toNat_true]
    omega
  have hpermits : s.transport.permits .connect = true := by
    rw [MemTransport.permits, connectors_eq h, hdial]
    rfl
  have hnet : s.transport.network.step .connect = some { s.transport.network with
      connects := [.pending]
      pairs := [p]
      inbound := s.transport.network.inbound.cloneTx } := by
    simp only [Network.step, if_neg hpos, h.inv.steady.sane.made, hp, Option.map_some, hconnects,
      hpairs, List.nil_append]
  have hstep := network_eq hpermits hnet
  obtain ⟨htalk, hlive, htoDo⟩ := Talk.new hp ms
  have hs' : s.step ms (.dial slept elapsed false) = some { s with
      transport := { s.transport with network := { s.transport.network with
        connects := [.pending]
        pairs := [p]
        inbound := s.transport.network.inbound.cloneTx } }
      dial := .connecting 0
      dialOut := s.dialOut ++ [] } := by
    simp only [step, hdial, RunDial.step, hstep, Option.map_some, hconnects, List.length_nil]
  obtain ⟨hstate, hfar, -, -⟩ := h.unaccepted (by rw [hdial]; decide)
  refine ⟨_, hs', { h with
    inv := MemTransport.step_inv h.inv hstep
    dialer := .connecting
    connects := rfl
    connectors := by rw [h.connectors, hdial]; rfl
    talk := fun q hq => ?_
    dialOut := by rw [h.dialOut, hdial]; rfl }, ?_⟩
  · obtain rfl : p = q := by simpa using hq
    rw [hstate, hfar]
    exact ⟨htalk, hlive .a, hlive .b⟩
  · simp only [toDo, hdial, hpairs, hstate, List.getElem?_cons_zero, List.getElem?_nil,
      Option.elim_some, Option.elim_none, RunDial.state, RunDial.toDo, htoDo]
    omega

/-- The connect returns: nobody else is in the listener's queue. -/
lemma dial_connected (h : Inv cfg ms s) (hdial : s.dial = .connecting 0) (slept elapsed : Bool) :
    ∃ s', s.step ms (.dial slept elapsed false) = some s' ∧ Inv cfg ms s' ∧
      s'.toDo ms < s.toDo ms := by
  obtain ⟨p, hp⟩ := h.pair (by simp [hdial, RunDial.connects])
  have htalk := h.talk p (first_pair hp)
  have hconnects : s.transport.network.connects = [.pending] := by rw [h.connects, hdial]; rfl
  obtain ⟨hstate, hfar, hlistener, haccepts⟩ := h.unaccepted (by rw [hdial]; decide)
  have hsane := h.inv.steady.sane
  have hrx : s.transport.network.inbound.rxAlive = true := h.rxAlive.trans hlistener
  have hbuffer : s.transport.network.inbound.buffer = [] := by
    have hpushed : s.transport.network.inbound.pushed = [] := by
      rw [← List.length_eq_zero_iff, ← h.inv.steady.sent, hconnects]
      rfl
    have hkept := s.transport.network.inbound.kept hrx
    rw [hpushed] at hkept
    exact (List.append_eq_nil_iff.mp hkept.symm).2
  obtain ⟨q, hq, -⟩ := Mpsc.trySend_of_room 0 hrx (by rw [hbuffer, hsane.capacity]; decide)
  obtain ⟨-, hrx', -⟩ := Mpsc.trySend_sent hq
  have hnet : s.transport.network.step (.pollConnect 0) = some { s.transport.network with
      connects := [.returned]
      inbound := q.dropTx } := by
    simp only [Network.step, hconnects, List.getElem?_cons_zero, if_true, hq, Network.finish,
      List.set_cons_zero]
  have hstep := network_eq rfl hnet
  have hs' : s.step ms (.dial slept elapsed false) = some { s with
      transport := { s.transport with network := { s.transport.network with
        connects := [.returned]
        inbound := q.dropTx } }
      dial := .dial 0 (.loop 0 ms)
      dialOut := s.dialOut ++ [] } := by
    simp only [step, hdial, RunDial.step, hstep, Option.bind_some, List.getElem?_cons_zero,
      Option.map_some]
    rfl
  refine ⟨_, hs', { h with
    inv := MemTransport.step_inv h.inv hstep
    dialer := .dial _
    connects := rfl
    connectors := by rw [h.connectors, hdial]; rfl
    rxAlive := by rw [hlistener]; exact hrx'
    talk := fun _ => h.talk_dial hdial
    dialOut := by rw [h.dialOut, hdial]; rfl }, ?_⟩
  simp only [toDo, hdial, RunDial.state, RunDial.toDo]
  omega

lemma dial_returns (h : Inv cfg ms s) {r : Except String Unit} (hdial : s.dial = .dial 0 (.done r))
    (slept elapsed : Bool) :
    ∃ s', s.step ms (.dial slept elapsed false) = some s' ∧ Inv cfg ms s' ∧
      s'.toDo ms < s.toDo ms := by
  obtain ⟨p, hp⟩ := h.pair (by simp [hdial, RunDial.connects])
  obtain ⟨htalk, hnear, hfar⟩ := h.talk_dial hdial (first_pair hp)
  obtain ⟨p', hstep, htalk', hdead, hfar', htoDo⟩ := Talk.dialer_leaves htalk hnear
  have hchannel : s.transport.channel 0 (.dropEnd .a) = some (withPair s.transport p') :=
    channel_eq (first_pair hp) (held_near h (by rw [hdial]; rfl)) hstep
  have hs' : s.step ms (.dial slept elapsed false) = some { s with
      transport := withPair s.transport p'
      dial := .leaving [.network .dropConnector] r
      dialOut := s.dialOut ++ if r = .ok () then ["OK"] else [] } := by
    simp only [step, hdial, RunDial.step, dialSequence, hchannel, Option.map_some]
  refine ⟨_, hs', h.dialed hp hchannel (.leaving r) ?_ ?_ htalk' hdead hfar' ?_, ?_⟩
  · rw [hdial]; rfl
  · rw [hdial]; rfl
  · rw [h.dialOut, hdial]; rfl
  · rw [toDo_of_pair hp, toDo_of_pair (withPair_pairs hp p'), hdial]
    simp only [RunDial.state] at htoDo ⊢
    rw [htoDo]
    exact Nat.add_lt_add_right (Nat.add_lt_add_right (Nat.lt_succ_self 1) _) _

lemma dial_left (h : Inv cfg ms s) {r : Except String Unit}
    (hdial : s.dial = .leaving [.network .dropConnector] r) (slept elapsed : Bool) :
    ∃ s', s.step ms (.dial slept elapsed false) = some s' ∧ Inv cfg ms s' ∧
      s'.toDo ms < s.toDo ms := by
  have hconn : s.transport.network.connectors = s.listen.transport.toNat + 1 := by
    rw [h.connectors, hdial]
    rfl
  have hpermits : s.transport.permits .dropConnector = true := by
    rw [MemTransport.permits, connectors_eq h, hdial]
    rfl
  have hnet : s.transport.network.step .dropConnector = some { s.transport.network with
      connectors := s.listen.transport.toNat
      inbound := s.transport.network.inbound.dropTx } := by
    simp only [Network.step, hconn, Nat.add_sub_cancel]
    rw [if_neg (Nat.succ_ne_zero _)]
  have hstep := network_eq hpermits hnet
  have hs' : s.step ms (.dial slept elapsed false) = some { s with
      transport := { s.transport with network := { s.transport.network with
        connectors := s.listen.transport.toNat
        inbound := s.transport.network.inbound.dropTx } }
      dial := .leaving [] r
      dialOut := s.dialOut ++ [] } := by
    simp only [step, hdial, RunDial.step, hstep, Option.map_some]
  refine ⟨_, hs', { h with
    inv := MemTransport.step_inv h.inv hstep
    dialer := .left r
    connects := by rw [h.connects, hdial]; rfl
    connectors := rfl
    talk := fun _ => h.talk_dial hdial
    dialOut := by rw [h.dialOut, hdial]; simp [RunDial.printed] }, ?_⟩
  simp only [toDo, hdial, RunDial.state, RunDial.toDo, List.length_nil, List.length_singleton]
  omega

/-- **A step of the dialer**: until it has returned it can be polled, and it comes nearer to its
end, but for a channel that still sleeps and for an echo that is on its way. -/
lemma dial_step (h : Inv cfg ms s) (hcfg : (duplex cfg).isSome) (slept elapsed : Bool)
    (hleft : ∀ r, s.dial ≠ .leaving [] r) :
    ∃ s', s.step ms (.dial slept elapsed false) = some s' ∧ Inv cfg ms s' ∧
      (s'.toDo ms < s.toDo ms ∨ s' = s ∧ (slept = true → s.DialWaits)) := by
  have hlt {s' : Harness} : s.step ms (.dial slept elapsed false) = some s' ∧ Inv cfg ms s' ∧
      s'.toDo ms < s.toDo ms → s.step ms (.dial slept elapsed false) = some s' ∧ Inv cfg ms s' ∧
      (s'.toDo ms < s.toDo ms ∨ s' = s ∧ (slept = true → s.DialWaits)) :=
    fun ⟨hstep, hinv, hrank⟩ => ⟨hstep, hinv, .inl hrank⟩
  have hok := h.dialer
  cases hdial : s.dial with
  | connect => exact (dial_connects h hcfg hdial slept elapsed).imp fun _ => hlt
  | connecting k =>
    rw [hdial] at hok
    cases hok
    exact (dial_connected h hdial slept elapsed).imp fun _ => hlt
  | dial k st =>
    rw [hdial] at hok
    cases hok
    cases st with
    | done r => exact (dial_returns h hdial slept elapsed).imp fun _ => hlt
    | sending i m rest => exact dial_drives h hdial (by simp) slept elapsed
    | receiving i m rest => exact dial_drives h hdial (by simp) slept elapsed
  | leaving drops r =>
    rw [hdial] at hok
    cases hok with
    | leaving => exact (dial_left h hdial slept elapsed).imp fun _ => hlt
    | left => exact absurd hdial (hleft r)

/-- The server waits for the dialer to connect, or to send or leave. -/
def ListenWaits (s : Harness) : Prop :=
  (s.listen = .accept ∧ s.dial.connects ≠ [.returned]) ∨
    ∃ p, s.transport.network.pairs = [p] ∧ s.listen = .echo 0 .receiving ∧
      (p.queues .a).buffer = [] ∧ (p.ends .a).alive = true

/-- An accepted peer has connected. -/
lemma Inv.accepted (h : Inv cfg ms s) (hlisten : s.listen.accepts = [.ok 0]) :
    s.dial.connects = [.returned] := by
  by_contra hne
  have hnone := (h.unaccepted hne).2.2.2
  rw [hlisten] at hnone
  cases hnone

/-- The transport's listener is out once it was asked for. -/
lemma Inv.taken (h : Inv cfg ms s) (hlistens : s.listen.listens = [.ok ()]) :
    s.transport.listener = false := by
  by_contra htrue
  have hnil := (h.inv.listener.mp (by simpa using htrue)).2
  rw [h.listens, hlistens] at hnil
  cases hnil

lemma listen_listens (h : Inv cfg ms s) {params : ListenParams}
    (hlisten : s.listen = .listen params) (slept elapsed : Bool) :
    ∃ s', s.step ms (.listen slept elapsed false) = some s' ∧ Inv cfg ms s' ∧
      s'.toDo ms < s.toDo ms := by
  have halive : s.transport.alive = true := by rw [h.alive, hlisten]; rfl
  have hlistens : s.transport.listens = [] := by rw [h.listens, hlisten]; rfl
  have hlistener := h.inv.listener.mpr ⟨halive, hlistens⟩
  have hstep : s.transport.step (.listen params) =
      some { s.transport with listener := false, listens := [.ok ()] } := by
    simp only [MemTransport.step, halive, hlistener, if_true, hlistens, List.nil_append]
  have hs' : s.step ms (.listen slept elapsed false) = some { s with
      transport := { s.transport with listener := false, listens := [.ok ()] }
      listen := .accept
      listenOut := s.listenOut ++ ["ONION=mem", "READY"] } := by
    simp only [step, hlisten, RunListen.step, hstep, Option.bind_some, List.getLast?_singleton,
      Option.map_some]
  refine ⟨_, hs', { h with
    inv := MemTransport.step_inv h.inv hstep
    server := .accept
    connectors := by rw [h.connectors, hlisten]; rfl
    accepts := by rw [h.accepts, hlisten]; rfl
    accepting := fun _ => rfl
    listens := rfl
    alive := by rw [h.alive, hlisten]; rfl
    rxAlive := by rw [h.rxAlive, hlisten]; rfl
    talk := fun _ => h.talk_listen hlisten
    listenOut := by rw [h.listenOut, hlisten]; rfl }, ?_⟩
  simp only [toDo, hlisten, RunListen.state, RunListen.toDo]
  omega

/-- The server calls `accept`. -/
lemma listen_accepts (h : Inv cfg ms s) (hlisten : s.listen = .accept)
    (haccepting : s.transport.network.accepting = false) (slept elapsed : Bool) :
    ∃ s', s.step ms (.listen slept elapsed false) = some s' ∧ Inv cfg ms s' ∧
      s'.toDo ms < s.toDo ms := by
  have hlistener := h.taken (by rw [hlisten]; rfl)
  have hrx : s.transport.network.inbound.rxAlive = true := by rw [h.rxAlive, hlisten]; rfl
  have hpermits : s.transport.permits .accept = true := by
    rw [MemTransport.permits, hlistener]
    rfl
  have hnet : s.transport.network.step .accept =
      some { s.transport.network with accepting := true } := by
    simp only [Network.step, hrx, haccepting, and_self, if_true]
  have hstep := network_eq hpermits hnet
  have hs' : s.step ms (.listen slept elapsed false) = some { s with
      transport := { s.transport with network := { s.transport.network with accepting := true } }
      listen := .accept
      listenOut := s.listenOut ++ [] } := by
    simp only [step, hlisten, RunListen.step, haccepting, Bool.false_eq_true, if_false, hstep,
      Option.map_some]
  refine ⟨_, hs', { h with
    inv := MemTransport.step_inv h.inv hstep
    server := .accept
    connectors := by rw [h.connectors, hlisten]
    accepts := by rw [h.accepts, hlisten]
    accepting := fun _ => rfl
    listens := by rw [h.listens, hlisten]
    alive := by rw [h.alive, hlisten]
    rxAlive := by rw [h.rxAlive, hlisten]
    talk := fun _ => h.talk_listen hlisten
    listenOut := by rw [h.listenOut, hlisten]; rfl }, ?_⟩
  simp only [toDo, hlisten, RunListen.state, RunListen.toDo, haccepting, Bool.toNat_true,
    Bool.toNat_false]
  omega

/-- What is in the listener's queue before anybody was accepted. -/
lemma queue_eq (h : Inv cfg ms s) (hlisten : s.listen = .accept) :
    s.transport.network.inbound.buffer = s.transport.network.inbound.pushed := by
  have hrx : s.transport.network.inbound.rxAlive = true := by rw [h.rxAlive, hlisten]; rfl
  have hpopped : s.transport.network.inbound.popped = [] := by
    rw [h.inv.steady.sane.inv.accepted, Network.accepted, h.accepts, hlisten]
    rfl
  have hkept := s.transport.network.inbound.kept hrx
  rw [hpopped, List.nil_append] at hkept
  exact hkept.symm

/-- The peer that has connected is accepted. -/
lemma listen_accepted (h : Inv cfg ms s) (hlisten : s.listen = .accept)
    (haccepting : s.transport.network.accepting = true) (hdial : s.dial.connects = [.returned])
    (slept elapsed : Bool) :
    ∃ s', s.step ms (.listen slept elapsed false) = some s' ∧ Inv cfg ms s' ∧
      s'.toDo ms < s.toDo ms := by
  have hlistener := h.taken (by rw [hlisten]; rfl)
  have hpushed : s.transport.network.inbound.pushed = [0] := by
    have hlength := h.inv.steady.sent
    rw [h.connects, hdial] at hlength
    obtain ⟨k, hk⟩ := List.length_eq_one_iff.mp hlength.symm
    have hmem := (h.inv.steady.sane.inv.entered 0).mpr (by rw [h.connects, hdial]; rfl)
    rw [hk] at hmem ⊢
    rw [List.mem_singleton.mp hmem]
  obtain ⟨q, hq, -⟩ := Mpsc.tryRecv_of_cons ((queue_eq h hlisten).trans hpushed)
  obtain ⟨hrx, -, -, -⟩ := Mpsc.tryRecv_got hq
  have hpermits : s.transport.permits .pollAccept = true := by
    rw [MemTransport.permits, hlistener]
    rfl
  have haccepts : s.transport.network.accepts = [] := by rw [h.accepts, hlisten]; rfl
  have hnet : s.transport.network.step .pollAccept = some { s.transport.network with
      accepting := false
      inbound := q
      accepts := [.ok 0] } := by
    simp only [Network.step, haccepting, if_true, hq, haccepts, List.nil_append]
  have hstep := network_eq hpermits hnet
  have hs' : s.step ms (.listen slept elapsed false) = some { s with
      transport := { s.transport with network := { s.transport.network with
        accepting := false
        inbound := q
        accepts := [.ok 0] } }
      listen := .echo 0 .receiving
      listenOut := s.listenOut ++ [] } := by
    simp only [step, hlisten, RunListen.step, haccepting, if_true, hstep, Option.bind_some,
      Bool.false_eq_true, if_false, List.getLast?_singleton, Option.map_some]
    rfl
  refine ⟨_, hs', { h with
    inv := MemTransport.step_inv h.inv hstep
    server := .echo _
    connectors := by rw [h.connectors, hlisten]; rfl
    accepts := rfl
    accepting := fun hfalse => by cases hfalse
    listens := by rw [h.listens, hlisten]; rfl
    alive := by rw [h.alive, hlisten]; rfl
    rxAlive := by
      change q.rxAlive = true
      rw [hrx, h.rxAlive, hlisten]
      rfl
    talk := fun _ => h.talk_listen hlisten
    listenOut := by rw [h.listenOut, hlisten]; rfl }, ?_⟩
  simp only [toDo, hlisten, RunListen.state, RunListen.toDo, haccepting, Bool.toNat_true]
  omega

/-- Nobody has connected. -/
lemma listen_waits (h : Inv cfg ms s) (hlisten : s.listen = .accept)
    (haccepting : s.transport.network.accepting = true) (hdial : s.dial.connects ≠ [.returned])
    (slept elapsed : Bool) : s.step ms (.listen slept elapsed false) = some s := by
  have hlistener := h.taken (by rw [hlisten]; rfl)
  have hpushed : s.transport.network.inbound.pushed = [] := by
    rw [← List.length_eq_zero_iff, ← h.inv.steady.sent, h.connects]
    cases hd : s.dial with
    | connect | connecting => rfl
    | dial | leaving => exact absurd (by rw [hd]; rfl) hdial
  have hsenders : s.transport.network.inbound.senders ≠ 0 := by
    rw [h.inv.steady.sane.inv.senders, h.connectors, hlisten, RunListen.transport, Bool.toNat_true]
    omega
  have hq := Mpsc.tryRecv_of_nil ((queue_eq h hlisten).trans hpushed)
  rw [if_neg hsenders] at hq
  have hpermits : s.transport.permits .pollAccept = true := by
    rw [MemTransport.permits, hlistener]
    rfl
  have hnet : s.transport.network.step .pollAccept = some s.transport.network := by
    simp only [Network.step, haccepting, if_true, hq]
  have hstep := network_eq hpermits hnet
  simp only [step, hlisten, RunListen.step, haccepting, if_true, hstep, Option.bind_some,
    Bool.false_eq_true, if_false, Option.map_some, List.append_nil]
  rw [← hlisten]

/-- A step of the server while it echoes. -/
lemma echo_drives (h : Inv cfg ms s) {st : EchoState} (hlisten : s.listen = .echo 0 st)
    (hst : ∀ r, st ≠ .done r) (slept elapsed : Bool) :
    ∃ s', s.step ms (.listen slept elapsed false) = some s' ∧ Inv cfg ms s' ∧
      (s'.toDo ms < s.toDo ms ∨ s' = s ∧ (slept = true → s.ListenWaits)) := by
  have hdial := h.accepted (by rw [hlisten]; rfl)
  obtain ⟨p, hp⟩ := h.pair (by rw [hdial]; decide)
  obtain ⟨htalk, hnear, hfar⟩ := h.talk_listen hlisten (first_pair hp)
  change Talk cfg ms p _ st at htalk
  obtain ⟨p', hstep, st', hst', hprogress⟩ := htalk.echo hst hfar slept elapsed
  obtain ⟨hchannel, hdrive⟩ := drive_eq hp (held_far h (by rw [hlisten]; rfl)) hstep
  have hs' : s.step ms (.listen slept elapsed false) = some { s with
      transport := withPair s.transport p', listen := .echo 0 st',
      listenOut := s.listenOut ++ [] } := by
    simp only [step, hlisten, RunListen.step_echo hst, hdrive, Option.map_some, hst']
  have hidle := h.idle (by simp [hlisten])
  refine ⟨_, hs', ?_⟩
  rcases hprogress with hadvances | ⟨rfl, rfl, hwaits⟩
  · refine ⟨h.served hp hchannel (.echo st') ?_ ?_ ?_ ?_ (by simp [hidle]) hadvances.talk ?_
      (hadvances.alive .a) ?_, .inl ?_⟩
    · rw [hlisten]; rfl
    · rw [hlisten]; rfl
    · rw [hlisten]; rfl
    · rw [hlisten]; rfl
    · exact (hadvances.alive .b).trans hfar
    · rw [h.listenOut, hlisten]; rfl
    · rw [toDo_of_pair hp, toDo_of_pair (withPair_pairs hp p'), hlisten]
      exact Nat.add_lt_add_left hadvances.toDo _
  · rw [withPair_self hp, ← hlisten, List.append_nil]
    refine ⟨h, .inr ⟨rfl, fun hslept => ?_⟩⟩
    obtain ⟨hempty, hpeer, rfl⟩ := hwaits hslept
    exact .inr ⟨p', hp, hlisten, hempty, hpeer⟩

lemma echo_returns (h : Inv cfg ms s) {r : Except String Unit}
    (hlisten : s.listen = .echo 0 (.done r)) (slept elapsed : Bool) :
    ∃ s', s.step ms (.listen slept elapsed false) = some s' ∧ Inv cfg ms s' ∧
      s'.toDo ms < s.toDo ms := by
  have hdial := h.accepted (by rw [hlisten]; rfl)
  obtain ⟨p, hp⟩ := h.pair (by rw [hdial]; decide)
  obtain ⟨htalk, hnear, hfar⟩ := h.talk_listen hlisten (first_pair hp)
  obtain ⟨p', hstep, htalk', hdead, hnear', htoDo⟩ := Talk.server_leaves htalk hfar
  have hchannel : s.transport.channel 0 (.dropEnd .b) = some (withPair s.transport p') :=
    channel_eq (first_pair hp) (held_far h (by rw [hlisten]; rfl)) hstep
  have hs' : s.step ms (.listen slept elapsed false) = some { s with
      transport := withPair s.transport p'
      listen := .leaving RunListen.drops r
      listenOut := s.listenOut ++ [] } := by
    simp only [step, hlisten, RunListen.step, echoOnePeer, hchannel, Option.map_some]
  have hidle := h.idle (by simp [hlisten])
  refine ⟨_, hs',
    h.served hp hchannel (.leaving r) ?_ ?_ ?_ ?_ (by simp [hidle]) htalk' hdead hnear' ?_, ?_⟩
  · rw [hlisten]; rfl
  · rw [hlisten]; rfl
  · rw [hlisten]; rfl
  · rw [hlisten]
    simp [RunListen.listener, RunListen.drops]
  · rw [h.listenOut, hlisten]; rfl
  · rw [toDo_of_pair hp, toDo_of_pair (withPair_pairs hp p'), hlisten]
    simp only [RunListen.state] at htoDo ⊢
    rw [htoDo]
    exact Nat.add_lt_add_right (Nat.add_lt_add_left (Nat.lt_succ_self 2) _) _

/-- The server drops its listener, whose queue is empty. -/
lemma listen_deaf (h : Inv cfg ms s) {r : Except String Unit}
    (hlisten : s.listen = .leaving RunListen.drops r) (slept elapsed : Bool) :
    ∃ s', s.step ms (.listen slept elapsed false) = some s' ∧ Inv cfg ms s' ∧
      s'.toDo ms < s.toDo ms := by
  have hlistener := h.taken (by rw [hlisten]; rfl)
  have hrx : s.transport.network.inbound.rxAlive = true := by
    rw [h.rxAlive, hlisten]
    simp [RunListen.listener, RunListen.drops]
  have haccepting := h.idle (by simp [hlisten])
  have hbuffer : s.transport.network.inbound.buffer = [] := by
    have hdial := h.accepted (by rw [hlisten]; rfl)
    have hlength := h.inv.steady.sent
    rw [h.connects, hdial] at hlength
    have hpopped : s.transport.network.inbound.popped = [0] := by
      rw [h.inv.steady.sane.inv.accepted, Network.accepted, h.accepts, hlisten]
      rfl
    rw [s.transport.network.inbound.kept hrx, hpopped, List.length_append] at hlength
    have hone : [ConnectState.returned].count .returned = 1 := rfl
    rw [hone, List.length_singleton] at hlength
    exact List.length_eq_zero_iff.mp (by omega)
  have hpermits : s.transport.permits .dropListener = true := by
    rw [MemTransport.permits, hlistener]
    rfl
  have hnet : s.transport.network.step .dropListener = some { s.transport.network with
      inbound := s.transport.network.inbound.dropRx } := by
    have hpairs : s.transport.network.pairs.mapIdx (fun _ p => p) = s.transport.network.pairs :=
      List.ext_getElem? fun k => by simp
    simp only [Network.step, hrx, haccepting, and_self, if_true, Network.closeEnds, hbuffer,
      List.not_mem_nil, if_false, hpairs]
  have hstep := network_eq hpermits hnet
  have hs' : s.step ms (.listen slept elapsed false) = some { s with
      transport := { s.transport with network := { s.transport.network with
        inbound := s.transport.network.inbound.dropRx } }
      listen := .leaving [.dropTransport] r
      listenOut := s.listenOut ++ [] } := by
    simp only [step, hlisten, RunListen.step, RunListen.drops, hstep, Option.map_some]
  refine ⟨_, hs', { h with
    inv := MemTransport.step_inv h.inv hstep
    server := .deaf r
    connectors := by rw [h.connectors, hlisten]; rfl
    accepts := by rw [h.accepts, hlisten]; rfl
    accepting := fun hacc => absurd (haccepting.symm.trans hacc) (by decide)
    listens := by rw [h.listens, hlisten]; rfl
    alive := by rw [h.alive, hlisten]; rfl
    rxAlive := by simp [Mpsc.dropRx, RunListen.listener]
    talk := fun _ => h.talk_listen hlisten
    listenOut := by rw [h.listenOut, hlisten]; rfl }, ?_⟩
  simp only [toDo, hlisten, RunListen.state, RunListen.toDo, RunListen.drops, List.length_cons,
    List.length_nil]
  omega

/-- The server drops the transport, and its connector with it. -/
lemma listen_left (h : Inv cfg ms s) {r : Except String Unit}
    (hlisten : s.listen = .leaving [.dropTransport] r) (slept elapsed : Bool) :
    ∃ s', s.step ms (.listen slept elapsed false) = some s' ∧ Inv cfg ms s' ∧
      s'.toDo ms < s.toDo ms := by
  have hlistener := h.taken (by rw [hlisten]; rfl)
  have halive : s.transport.alive = true := by rw [h.alive, hlisten]; rfl
  have hconn : s.transport.network.connectors = s.dial.connector.toNat + 1 := by
    rw [h.connectors, hlisten, Nat.add_comm]
    rfl
  have hnet : s.transport.network.step .dropConnector = some { s.transport.network with
      connectors := s.dial.connector.toNat
      inbound := s.transport.network.inbound.dropTx } := by
    simp only [Network.step, hconn, Nat.add_sub_cancel]
    rw [if_neg (Nat.succ_ne_zero _)]
  have hstep : s.transport.step .dropTransport = some { s.transport with
      network := { s.transport.network with
        connectors := s.dial.connector.toNat
        inbound := s.transport.network.inbound.dropTx }
      alive := false } := by
    simp only [MemTransport.step, halive, if_true, hnet, Option.bind_some, hlistener,
      Bool.false_eq_true, if_false]
  have hs' : s.step ms (.listen slept elapsed false) = some { s with
      transport := { s.transport with
        network := { s.transport.network with
          connectors := s.dial.connector.toNat
          inbound := s.transport.network.inbound.dropTx }
        alive := false }
      listen := .leaving [] r
      listenOut := s.listenOut ++ [] } := by
    simp only [step, hlisten, RunListen.step, hstep, Option.map_some]
  refine ⟨_, hs', { h with
    inv := MemTransport.step_inv h.inv hstep
    server := .left r
    connectors := (Nat.zero_add _).symm
    accepts := by rw [h.accepts, hlisten]; rfl
    accepting := fun hacc => absurd ((h.idle (by simp [hlisten])).symm.trans hacc) (by decide)
    listens := by rw [h.listens, hlisten]; rfl
    alive := rfl
    rxAlive := by
      change s.transport.network.inbound.rxAlive = _
      rw [h.rxAlive, hlisten]
      rfl
    talk := fun _ => h.talk_listen hlisten
    listenOut := by rw [h.listenOut, hlisten]; rfl }, ?_⟩
  simp only [toDo, hlisten, RunListen.state, RunListen.toDo, List.length_nil, List.length_singleton]
  omega

/-- **A step of the server.** -/
lemma listen_step (h : Inv cfg ms s) (slept elapsed : Bool)
    (hleft : ∀ r, s.listen ≠ .leaving [] r) :
    ∃ s', s.step ms (.listen slept elapsed false) = some s' ∧ Inv cfg ms s' ∧
      (s'.toDo ms < s.toDo ms ∨ s' = s ∧ (slept = true → s.ListenWaits)) := by
  have hlt {s' : Harness} : s.step ms (.listen slept elapsed false) = some s' ∧ Inv cfg ms s' ∧
      s'.toDo ms < s.toDo ms → s.step ms (.listen slept elapsed false) = some s' ∧ Inv cfg ms s' ∧
      (s'.toDo ms < s.toDo ms ∨ s' = s ∧ (slept = true → s.ListenWaits)) :=
    fun ⟨hstep, hinv, hrank⟩ => ⟨hstep, hinv, .inl hrank⟩
  have hok := h.server
  cases hlisten : s.listen with
  | listen params => exact (listen_listens h hlisten slept elapsed).imp fun _ => hlt
  | accept =>
    cases haccepting : s.transport.network.accepting with
    | false => exact (listen_accepts h hlisten haccepting slept elapsed).imp fun _ => hlt
    | true =>
      by_cases hdial : s.dial.connects = [.returned]
      · exact (listen_accepted h hlisten haccepting hdial slept elapsed).imp fun _ => hlt
      · exact ⟨s, listen_waits h hlisten haccepting hdial slept elapsed, h,
          .inr ⟨rfl, fun _ => .inl ⟨hlisten, hdial⟩⟩⟩
  | echo k st =>
    rw [hlisten] at hok
    cases hok
    cases st with
    | done r => exact (echo_returns h hlisten slept elapsed).imp fun _ => hlt
    | receiving => exact echo_drives h hlisten (by simp) slept elapsed
    | replying m => exact echo_drives h hlisten (by simp) slept elapsed
  | leaving drops r =>
    rw [hlisten] at hok
    cases hok with
    | leaving => exact (listen_deaf h hlisten slept elapsed).imp fun _ => hlt
    | deaf => exact (listen_left h hlisten slept elapsed).imp fun _ => hlt
    | left => exact absurd hlisten (hleft r)

/-! ## Runs -/

lemma inv_new (ms : List Bytes) {params : ListenParams} (hnew : new cfg params = some s) :
    Inv cfg ms s ∧ s.toDo ms = 10 * ms.length + 12 := by
  obtain ⟨t', ht', rfl⟩ := Option.map_eq_some_iff.mp hnew
  obtain ⟨t, ht, hstep⟩ := Option.bind_eq_some_iff.mp ht'
  have hinv := MemTransport.step_inv (MemTransport.inv_new ht) hstep
  obtain ⟨net, hnet, rfl⟩ := Option.map_eq_some_iff.mp ht
  obtain ⟨q, hq, rfl⟩ := Option.map_eq_some_iff.mp hnet
  obtain ⟨-, hrx, -, -⟩ := Mpsc.channel_eq_some hq
  simp only [MemTransport.step, if_true, Network.step, Nat.one_ne_zero, if_false,
    Option.map_some, Option.some.injEq] at hstep
  subst hstep
  refine ⟨⟨hinv, .connect, .listen params, rfl, rfl, rfl, fun hacc => ?_, rfl, rfl, hrx,
    fun p hp => ?_, rfl, rfl⟩, ?_⟩
  · cases hacc
  · simp at hp
  · simp only [toDo, RunDial.toDo, RunListen.toDo, List.getElem?_nil, Option.elim_none]
    omega

/-- A step, while no timeout is over. -/
lemma step_inv (h : Inv cfg ms s) (hcfg : (duplex cfg).isSome) {a : HarnessAction} {s' : Harness}
    (hprompt : a.expired = false) (hstep : s.step ms a = some s') :
    Inv cfg ms s' ∧ (s.step ms a ≠ some s → s'.toDo ms < s.toDo ms) := by
  cases a with
  | listen slept elapsed expired =>
    obtain rfl : expired = false := hprompt
    have hleft : ∀ r, s.listen ≠ .leaving [] r := by
      intro r hr
      simp [step, hr, RunListen.step] at hstep
    obtain ⟨u, hu, hinv, hrank⟩ := listen_step h slept elapsed hleft
    obtain rfl := Option.some.inj (hu.symm.trans hstep)
    refine ⟨hinv, fun hmoves => hrank.resolve_right ?_⟩
    rintro ⟨rfl, -⟩
    exact hmoves hu
  | dial slept elapsed expired =>
    obtain rfl : expired = false := hprompt
    have hleft : ∀ r, s.dial ≠ .leaving [] r := by
      intro r hr
      simp [step, hr, RunDial.step] at hstep
    obtain ⟨u, hu, hinv, hrank⟩ := dial_step h hcfg slept elapsed hleft
    obtain rfl := Option.some.inj (hu.symm.trans hstep)
    refine ⟨hinv, fun hmoves => hrank.resolve_right ?_⟩
    rintro ⟨rfl, -⟩
    exact hmoves hu

/-- A step that changes something, while no timeout is over. -/
def Moves (ms : List Bytes) (s : Harness) (a : HarnessAction) : Prop :=
  a.expired = false ∧ s.step ms a ≠ some s

/-- Where nothing moves any more, the step that a task can take leaves everything as it is. -/
lemma waits_of_stuck {a : HarnessAction} {s' : Harness} {P : Prop}
    (hstuck : Stuck (step ms) (Moves ms) s) (hprompt : a.expired = false)
    (hstep : s.step ms a = some s') (h : s'.toDo ms < s.toDo ms ∨ s' = s ∧ P) : P := by
  rcases h with hlt | ⟨-, hp⟩
  · refine absurd hstep (hstuck a s' ⟨hprompt, fun hsame => ?_⟩)
    obtain rfl := Option.some.inj (hstep.symm.trans hsame)
    exact lt_irrefl _ hlt
  · exact hp

/-- Where nothing moves any more, the dialer has returned or waits for an echo. -/
lemma dial_of_stuck (h : Inv cfg ms s) (hcfg : (duplex cfg).isSome)
    (hstuck : Stuck (step ms) (Moves ms) s) :
    s.DialWaits ∨ ∃ r, s.dial = .leaving [] r := by
  by_cases hleft : ∃ r, s.dial = .leaving [] r
  · exact .inr hleft
  · obtain ⟨s', hstep, -, hmoved⟩ := dial_step h hcfg true true fun r hr => hleft ⟨r, hr⟩
    exact .inl (waits_of_stuck hstuck rfl hstep hmoved rfl)

lemma listen_of_stuck (h : Inv cfg ms s) (hstuck : Stuck (step ms) (Moves ms) s) :
    s.ListenWaits ∨ ∃ r, s.listen = .leaving [] r := by
  by_cases hleft : ∃ r, s.listen = .leaving [] r
  · exact .inr hleft
  · obtain ⟨s', hstep, -, hmoved⟩ := listen_step h true true fun r hr => hleft ⟨r, hr⟩
    exact .inl (waits_of_stuck hstuck rfl hstep hmoved rfl)

/-- They do not wait for each other. -/
lemma both_left (h : Inv cfg ms s) (hcfg : (duplex cfg).isSome)
    (hstuck : Stuck (step ms) (Moves ms) s) :
    ∃ r r', s.dial = .leaving [] r ∧ s.listen = .leaving [] r' := by
  rcases dial_of_stuck h hcfg hstuck with ⟨p, i, m, rest, hp, hdial, hbb⟩ | ⟨r, hdial⟩
  · have hphase := (h.talk p (first_pair hp)).1.phase
    rw [hdial, hbb] at hphase
    rcases listen_of_stuck h hstuck with (⟨-, hne⟩ | ⟨q, hq, hlisten, hba, -⟩) | ⟨r', hlisten⟩
    · exact absurd (by rw [hdial]; rfl) hne
    · obtain rfl := List.singleton_inj.mp (hp.symm.trans hq)
      rw [hlisten, hba] at hphase
      exact (hphase.not_still).elim
    · rw [hlisten] at hphase
      obtain ⟨-, -, -, -, -, hne, -⟩ := hphase.of_receiving
      exact absurd rfl (hne r')
  · rcases listen_of_stuck h hstuck with (⟨-, hne⟩ | ⟨p, hp, hlisten, -, halive⟩) | ⟨r', hlisten⟩
    · exact absurd (by rw [hdial]; rfl) hne
    · have hnear := (h.talk p (first_pair hp)).2.1
      rw [hdial, halive] at hnear
      cases hnear
    · exact ⟨r, r', hdial, hlisten⟩

/-- **The harness comes to its end** over the in-memory transport, whatever its room, latency,
deadline and delivery, and however the tasks are scheduled, as long as no timeout of theirs is over.
`run_listen` never fails, and `run_dial` only at the first message that is too large, which it says;
only so many steps change anything; and where nothing moves any more, both have returned: the
messages before that one, or all of them, have gone to the server and come back, in order, and
nothing is left of the channel or of the transport. -/
theorem tasks_complete {cfg : MemConfig} (hcap : ∀ n, cfg.capacity = some n → 1 ≤ n)
    {params : ListenParams} {ms : List Bytes} {s₀ s : Harness} (hnew : new cfg params = some s₀)
    {as : List HarnessAction}
    (hprompt : EachStep (step ms) (fun _ a => a.expired = false) s₀ as)
    (hrun : run (step ms) s₀ as = some s) :
    (EachStep (step ms) (Moves ms) s₀ as → as.length ≤ 10 * ms.length + 12) ∧
      (∀ r, s.listen.returned = some r → r = .ok ()) ∧
      (∀ r, s.dial.returned = some r → ∃ past, Verdict cfg ms past r ∧ ∀ x ∈ past, cfg.Fits x) ∧
      (Stuck (step ms) (Moves ms) s → ∃ past r p, Verdict cfg ms past r ∧
        (∀ x ∈ past, cfg.Fits x) ∧ s.dial.returned = some r ∧ s.listen.returned = some (.ok ()) ∧
        s.listenOut = ["ONION=mem", "READY"] ∧ s.dialOut = (if r = .ok () then ["OK"] else []) ∧
        s.transport.network.pairs = [p] ∧ (p.ends .a).recvs = past.map .ok ∧
        (p.ends .b).recvs = past.map .ok ++ [.error .closed] ∧
        (∀ d, (p.ends d).alive = false) ∧ s.transport.alive = false ∧
        s.transport.network.inbound.rxAlive = false) := by
  have hcfg := (Duplex.duplex_isSome cfg).mpr hcap
  obtain ⟨hinv₀, htoDo⟩ := inv_new ms hnew
  have h : Inv cfg ms s :=
    run_induction (fun u a u' hu ha hstep => (step_inv hu hcfg ha hstep).1) hinv₀ hprompt hrun
  refine ⟨?_, ?_, ?_, ?_⟩
  · intro hmoves
    have hle := length_add_rank_le (I := Inv cfg ms) (fun u a u' hu ha hstep =>
      (step_inv hu hcfg ha.1 hstep).imp_right fun hlt => hlt ha.2) hinv₀ hmoves hrun
    omega
  · intro r hr
    have hlisten := RunListen.of_returned hr
    have hdial := h.accepted (by rw [hlisten]; rfl)
    obtain ⟨p, hp⟩ := h.pair (by rw [hdial]; decide)
    have hphase := (h.talk p (first_pair hp)).1.phase
    rw [hlisten] at hphase
    exact hphase.of_parted.1
  · intro r hr
    have hdial := RunDial.of_returned hr
    obtain ⟨p, hp⟩ := h.pair (by simp [hdial, RunDial.connects])
    have hphase := (h.talk p (first_pair hp)).1.phase
    rw [hdial] at hphase
    obtain ⟨past, hverdict, hfits, -⟩ := hphase.verdict
    exact ⟨past, hverdict, hfits⟩
  · intro hstuck
    obtain ⟨r, r', hdial, hlisten⟩ := both_left h hcfg hstuck
    obtain ⟨p, hp⟩ := h.pair (by simp [hdial, RunDial.connects])
    obtain ⟨htalk, hnear, hfar⟩ := h.talk p (first_pair hp)
    have hphase := htalk.phase
    rw [hdial, hlisten] at hphase
    obtain ⟨rfl, -, past, r'', hr'', hverdict, hfits, hra, hrb⟩ := hphase.of_parted
    obtain rfl := DialState.done.inj hr''
    refine ⟨past, r, p, hverdict, hfits, by rw [hdial]; rfl, by rw [hlisten]; rfl, ?_, ?_, hp, hra,
      hrb, fun d => ?_, ?_, ?_⟩
    · rw [h.listenOut, hlisten]; rfl
    · rw [h.dialOut, hdial]; rfl
    · cases d with
      | a => rw [hnear, hdial]; rfl
      | b => rw [hfar, hlisten]; rfl
    · rw [h.alive, hlisten]; rfl
    · rw [h.rxAlive, hlisten]; rfl

/-- One message goes round through a queue of one. -/
theorem tasks_complete_one :
    let cfg : MemConfig := ⟨some 1, some 8, some 5, none, .bestEffort⟩
    let polls : List HarnessAction := [.listen false false false, .dial false false false,
      .dial false false false, .dial false false false, .dial false false false,
      .dial true false false, .listen false false false, .listen false false false,
      .listen false false false, .listen false false false, .listen false false false,
      .listen true false false, .dial false false false, .dial false false false,
      .dial false false false, .dial false false false, .listen false false false,
      .listen false false false, .listen false false false, .listen false false false,
      .listen false false false]
    ∃ s₀ s, new cfg ⟨1, none⟩ = some s₀ ∧ run (step [[7]]) s₀ polls = some s ∧
      s.dialOut = ["OK"] ∧ s.listen.returned = some (.ok ()) ∧
      ∀ r, s.dial.returned = some r →
        ∃ past, Verdict cfg [[7]] past r ∧ ∀ x ∈ past, cfg.Fits x := by
  intro cfg polls
  obtain ⟨s₀, s, hnew, hrun, hprompt, hout, hlisten⟩ : ∃ s₀ s, new cfg ⟨1, none⟩ = some s₀ ∧
      run (step [[7]]) s₀ polls = some s ∧
      EachStep (step [[7]]) (fun _ a => a.expired = false) s₀ polls ∧
      s.dialOut = ["OK"] ∧ s.listen.returned = some (.ok ()) :=
    ⟨_, _, rfl, Option.eq_some_of_isSome (by decide), by decide, by decide, by decide⟩
  exact ⟨s₀, s, hnew, hrun, hout, hlisten,
    (tasks_complete (by decide) hnew hprompt hrun).2.2.1⟩

end Harness

end FungiTransport
