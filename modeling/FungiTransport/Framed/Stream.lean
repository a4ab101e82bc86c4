import FungiTransport.Framed.Decode
import FungiTransport.Lib.Progress

/-!
# A channel as a stream of messages

`into_stream` turns a channel into a stream with `futures_util::stream::unfold`: the stream owns
the channel, or the future of the step that has taken it, so that a consumer who drops its `next`
drops no `recv`.  Here the channel is a framed one on a byte stream.  The receiver inside gives the
results of the one-shot parser whatever the schedule (`Receiver.step_outlook`); the stream cuts
them off behind the first error.
-/

namespace FungiTransport

open Lib FramedChannel

/-- What `unfold` holds: the channel and `done`, the future of a step, or nothing any more. -/
inductive Unfold where
  | value (done : Bool)
  | future
  | empty
deriving DecidableEq, Repr

/-- The item that a `recv` gives the stream. -/
def RecvEvent.item? : RecvEvent → Option (Except RecvError Bytes)
  | .resolved r => some r
  | .ioError e => some (.error e)
  | .cancelled => none

/-- The stream that `into_stream` makes of a framed channel, and its consumer. -/
structure IntoStream where
  /-- The channel, with the `recv` of the step in progress. -/
  recv : Receiver
  unfold : Unfold
  /-- The consumer has a `next` in progress. -/
  waiting : Bool
  /-- What the consumer's `next`s have returned. -/
  items : List (Option (Except RecvError Bytes))

inductive StreamAction where
  /-- The consumer asks for the next item. -/
  | next
  /-- The read that the step waits for returns `n` bytes, none only at the end. -/
  | read (n : ℕ)
  | readErr (e : IoError)
  /-- The consumer drops its `next`. -/
  | drop
deriving DecidableEq, Repr

namespace IntoStream

/-- The step's future after its `recv` was polled: the step is over when the `recv` is. -/
def settle (s : IntoStream) (r : Receiver) : IntoStream :=
  match r.fut, r.events.getLast?.bind RecvEvent.item? with
  | none, some item =>
    { recv := r, unfold := .value (!item.isOk), waiting := false, items := s.items ++ [some item] }
  | _, _ => { recv := r, unfold := .future, waiting := true, items := s.items }

/-- One step of the stream, its consumer and the byte stream below. -/
def step (s : IntoStream) : StreamAction → Option IntoStream
  | .next =>
    if s.waiting then none
    else
      match s.unfold with
      | .value true => some { s with unfold := .empty, items := s.items ++ [none] }
      | .value false => (s.recv.step .recv).map s.settle
      | .future => some { s with waiting := true }
      -- `unfold` panics when it is polled behind its end
      | .empty => none
  | .read n => if s.waiting then (s.recv.step (.read n)).map s.settle else none
  | .readErr e => if s.waiting then (s.recv.step (.readErr e)).map s.settle else none
  | .drop => if s.waiting then some { s with waiting := false } else none

/-- `into_stream` of a fresh channel on a byte stream that holds `input`. -/
def start (ch : FramedChannel) (input : Bytes) : IntoStream :=
  { recv := Receiver.start ch input, unfold := .value false, waiting := false, items := [] }

end IntoStream

/-! ## What a stream collects -/

/-- The messages among the items that the one-shot parser finds. -/
def messages (items : List Item) : List Bytes := items.filterMap Item.payload?

/-- The error that comes behind the messages. -/
def ending (max : ℕ) : List Item → RecvError
  | [] => .closed
  | .msg _ :: items => ending max items
  | .tooLong len :: _ => .transport (announced len max)
  | .truncated :: _ => .transport midFrame

/-- The items of a stream that gave the messages `ms` and ended with `e`. -/
def collected (ms : List Bytes) (e : RecvError) : List (Option (Except RecvError Bytes)) :=
  ms.map (fun m => some (.ok m)) ++ [some (.error e), none]

/-- The reference parser gives the messages, and then errors. -/
lemma reference_eq (max : ℕ) (input : Bytes) :
    reference max input = (messages (decode 4 max input)).map Except.ok ++ₛ
      Stream'.cons (.error (ending max (decode 4 max input))) (Stream'.const (.error .closed)) := by
  unfold reference messages
  fun_induction decode 4 max input with
  | case1 => exact Stream'.const_eq _
  | case2 | case3 | case4 => rfl
  | case5 bs _ _ _ _ ih =>
    simp only [List.map_cons, List.filterMap_cons, Item.payload?, ending, itemResult,
      Stream'.cons_append_stream]
    rw [ih]

section Prefix

open Stream'

variable {ms ms' : List Bytes} {e : RecvError} {A B : Stream' (Except RecvError Bytes)}

/-- What begins with messages, against the messages and the error behind them: they are the first
of the messages, and where an error comes behind them they are all. -/
lemma prefix_of_append (h : ms.map Except.ok ++ₛ A = ms'.map Except.ok ++ₛ cons (.error e) B) :
    ms <+: ms' ∧ ∀ e' A', A = cons (.error e') A' → ms' = ms ∧ e' = e := by
  induction ms generalizing ms' with
  | nil =>
    refine ⟨List.nil_prefix, fun e' A' hA => ?_⟩
    rw [List.map_nil, nil_append_stream, hA] at h
    cases ms' with
    | nil =>
      obtain ⟨hhead, -⟩ := cons_injective2 h
      exact ⟨rfl, by simpa using hhead⟩
    | cons m ms' =>
      rw [List.map_cons, cons_append_stream] at h
      exact absurd (cons_injective2 h).1 (by simp)
  | cons m ms ih =>
    rw [List.map_cons, cons_append_stream] at h
    cases ms' with
    | nil => exact absurd (cons_injective2 h).1 (by simp)
    | cons m' ms' =>
      rw [List.map_cons, cons_append_stream] at h
      obtain ⟨hhead, htail⟩ := cons_injective2 h
      obtain rfl : m = m' := by simpa using hhead
      obtain ⟨hpre, hlast⟩ := ih htail
      refine ⟨List.cons_prefix_cons.mpr ⟨rfl, hpre⟩, fun e' A' hA => ?_⟩
      obtain ⟨rfl, he⟩ := hlast e' A' hA
      exact ⟨rfl, he⟩

end Prefix

/-! ## What a `recv` comes to -/

namespace Receiver

/-- What a step of a receiver whose caller keeps its future comes to. -/
inductive Went (r r' : Receiver) : RecvAction → Prop
  | begun {w} (hidle : r.fut = none) (hfut : r'.fut = some w) (hevents : r'.events = r.events)
      (hinput : r'.input = r.input) : Went r r' .recv
  | read {w n} (hfut : r'.fut = some w) (hevents : r'.events = r.events)
      (hinput : r'.input.length < r.input.length) : Went r r' (.read n)
  | resolved {a x} (hfut : r'.fut = none) (hevents : r'.events = r.events ++ [.resolved x])
      (hinput : r'.input.length < r.input.length ∨
        r'.input.length = r.input.length ∧ ∃ e, x = .error e) : Went r r' a
  | failed {e} (hfut : r'.fut = none) (hinput : r'.input = r.input)
      (hevents : r'.events = r.events ++ [.ioError (mapRecvIo e)]) : Went r r' (.readErr e)

/-- A `recv` on a channel that is not poisoned waits for a read. -/
lemma recvInner_waits {ch : FramedChannel} (hp : ch.poisoned = false) (h : ReadState ch) :
    ∃ w, ch.recvInner = (ch, .pending w) := by
  unfold recvInner recvHeader
  rw [if_neg (by simp [hp])]
  rcases h.header_le.lt_or_eq with hlt | hfull
  · exact ⟨.header, if_pos hlt⟩
  · obtain ⟨hmax, hsize, hfill⟩ := h.sized hfull
    refine ⟨.payload (ofBe ch.header), ?_⟩
    rw [if_neg (by omega)]
    simp only [if_neg (Nat.not_lt.mpr hmax), ne_eq, hsize, not_true_eq_false, if_false]
    exact if_pos (hsize ▸ hfill)

/-- The end of the stream gives an error. -/
lemma recvResume_eof (ch : FramedChannel) (w : RecvAwait) :
    ∃ ch' e, ch.recvResume w (.data []) = (ch', .ready (.error e)) := by
  cases w with
  | header =>
    simp only [recvResume]
    split <;> exact ⟨_, _, rfl⟩
  | payload len => exact ⟨_, _, rfl⟩

lemma went_of_step {r r' : Receiver} {a : RecvAction} (h : Inv r) (ha : a ≠ .drop)
    (hstep : r.step a = some r') : Went r r' a := by
  cases a with
  | recv =>
    simp only [step] at hstep
    split at hstep
    · cases hstep
    · rename_i hidle
      obtain rfl := Option.some.inj hstep
      cases hp : r.ch.poisoned with
      | true =>
        have hpoll : r.ch.recvInner = (r.ch, .ready (.error .closed)) := if_pos hp
        rw [hpoll]
        exact .resolved rfl rfl (.inr ⟨rfl, .closed, rfl⟩)
      | false =>
        obtain ⟨w, hw⟩ := recvInner_waits hp (h.state hp)
        rw [hw]
        exact .begun hidle rfl rfl rfl
  | read n =>
    simp only [step] at hstep
    split at hstep
    · cases hstep
    · rename_i w hw
      split at hstep
      · rename_i hnil
        split at hstep
        · obtain rfl := Option.some.inj hstep
          obtain ⟨ch', e, hpoll⟩ := recvResume_eof r.ch w
          rw [hpoll]
          exact .resolved rfl rfl (.inr ⟨by rw [hnil]; rfl, e, rfl⟩)
        · cases hstep
      · split at hstep
        · rename_i hn
          obtain rfl := Option.some.inj hstep
          have hless : (r.input.drop n).length < r.input.length := by
            rw [List.length_drop]
            omega
          rcases r.ch.recvResume w (.data (r.input.take n)) with ⟨ch', x | w'⟩
          · exact .resolved rfl rfl (.inl hless)
          · exact .read rfl rfl hless
        · cases hstep
  | readErr e =>
    simp only [step] at hstep
    split at hstep
    · cases hstep
    · obtain rfl := Option.some.inj hstep
      exact .failed rfl rfl rfl
  | drop => exact absurd rfl ha

end Receiver

/-! ## The invariant -/

namespace IntoStream

/-- What was given is accounted for by the results of the receiver: while the stream goes on they
are messages, and behind them is the error that it ended with, or a read has failed. -/
inductive Gave (F : IoError → Prop) (s : IntoStream) : Prop
  | open (ms : List Bytes) (hunfold : s.unfold = .value false ∨ s.unfold = .future)
      (hitems : s.items = ms.map fun m => some (.ok m))
      (hresults : s.recv.results = ms.map Except.ok)
  | over (ms : List Bytes) (e : RecvError)
      (hitems : s.unfold = .value true ∧ s.items ++ [none] = collected ms e ∨
        s.unfold = .empty ∧ s.items = collected ms e)
      (hresults : s.recv.results = ms.map Except.ok ++ [.error e] ∨
        s.recv.results = ms.map Except.ok ∧ ∃ err, F err ∧ e = mapRecvIo err)

/-- The invariant of a stream over the bytes `input`, where reads fail with errors in `F` only. -/
structure Inv (F : IoError → Prop) (max : ℕ) (input : Bytes) (s : IntoStream) : Prop where
  recv : Receiver.Inv s.recv
  outlook : Receiver.outlook s.recv = reference max input
  fut : s.recv.fut.isSome = true ↔ s.unfold = .future
  waits : s.waiting = true → s.unfold = .future
  gave : Gave F s

/-- The reads of a run fail with errors in `F` only. -/
def Fails (F : IoError → Prop) (_ : IntoStream) (a : StreamAction) : Prop :=
  ∀ err, a = .readErr err → F err

variable {F : IoError → Prop} {max : ℕ} {input : Bytes}

lemma inv_start {ch : FramedChannel} (hnew : FramedChannel.new max = some ch) :
    Inv F max input (start ch input) := by
  have hrun : run Receiver.step (Receiver.start ch input) [] = some (Receiver.start ch input) := rfl
  obtain ⟨hinv, houtlook⟩ := Receiver.run_outlook hnew hrun
  exact ⟨hinv, houtlook, by simp [start, Receiver.start], by simp [start],
    .open [] (.inl rfl) rfl rfl⟩

lemma settle_pending (s : IntoStream) {r : Receiver} {w : RecvAwait} (hfut : r.fut = some w) :
    s.settle r = { recv := r, unfold := .future, waiting := true, items := s.items } := by
  simp [settle, hfut]

lemma settle_ready (s : IntoStream) {r : Receiver} {evs : List RecvEvent} {ev : RecvEvent}
    {item : Except RecvError Bytes} (hfut : r.fut = none) (hevents : r.events = evs ++ [ev])
    (hitem : ev.item? = some item) :
    s.settle r =
      { recv := r
        unfold := .value (!item.isOk)
        waiting := false
        items := s.items ++ [some item] } := by
  simp [settle, hfut, hevents, hitem]

/-- A step of the receiver inside keeps the invariant. -/
lemma settle_inv {s : IntoStream} {r : Receiver} {a : RecvAction} (h : Inv F max input s)
    (hopen : s.unfold = .value false ∨ s.unfold = .future) (ha : a ≠ .drop)
    (hfails : ∀ err, a = .readErr err → F err) (hstep : s.recv.step a = some r) :
    Inv F max input (s.settle r) := by
  obtain ⟨hinv, -, houtlook⟩ := Receiver.step_outlook h.recv hstep
  rw [h.outlook] at houtlook
  obtain ⟨ms, hitems, hresults⟩ : ∃ ms : List Bytes, (s.items = ms.map fun m => some (.ok m)) ∧
      s.recv.results = ms.map Except.ok := by
    rcases h.gave with ⟨ms, -, hitems, hresults⟩ | ⟨ms, e, hitems, -⟩
    · exact ⟨ms, hitems, hresults⟩
    · rcases hitems with ⟨hu, -⟩ | ⟨hu, -⟩ <;> simp [hu] at hopen
  -- a `recv` that is not over yet has given nothing
  have hpending : ∀ w, r.fut = some w → r.events = s.recv.events → Inv F max input (s.settle r) :=
    fun w hfut hevents => by
      rw [settle_pending s hfut]
      exact ⟨hinv, houtlook, by simp [hfut], fun _ => rfl,
        .open ms (.inr rfl) hitems (by rw [Receiver.results, hevents]; exact hresults)⟩
  cases Receiver.went_of_step h.recv ha hstep with
  | begun _ hfut hevents _ => exact hpending _ hfut hevents
  | read hfut hevents _ => exact hpending _ hfut hevents
  | @resolved _ x hfut hevents _ =>
    have hres : r.results = s.recv.results ++ [x] := by
      simp [Receiver.results, hevents, RecvEvent.result?]
    rw [settle_ready s hfut hevents rfl]
    refine ⟨hinv, houtlook, by simp [hfut], by simp, ?_⟩
    cases x with
    | ok m => exact .open (ms ++ [m]) (.inl rfl) (by simp [hitems]) (by simp [hres, hresults])
    | error e =>
      exact .over ms e (.inl ⟨rfl, by simp [collected, hitems]⟩) (.inl (by rw [hres, hresults]))
  | @failed err hfut _ hevents =>
    have hres : r.results = s.recv.results := by
      simp [Receiver.results, hevents, RecvEvent.result?]
    rw [settle_ready s hfut hevents rfl]
    exact ⟨hinv, houtlook, by simp [hfut], by simp, .over ms (mapRecvIo err)
      (.inl ⟨rfl, by simp [collected, hitems]⟩)
      (.inr ⟨hres.trans hresults, err, hfails err rfl, rfl⟩)⟩

/-- **The step lemma** of the stream. -/
lemma step_inv {s s' : IntoStream} {a : StreamAction} (h : Inv F max input s) (ha : Fails F s a)
    (hstep : s.step a = some s') : Inv F max input s' := by
  cases a with
  | next =>
    simp only [step] at hstep
    split at hstep
    · cases hstep
    · split at hstep
      · rename_i hu
        obtain rfl := Option.some.inj hstep
        refine ⟨h.recv, h.outlook, ?_, by simp_all, ?_⟩
        · simpa [hu] using h.fut
        · rcases h.gave with ⟨ms, hopen, -⟩ | ⟨ms, e, hitems, hresults⟩
          · simp [hu] at hopen
          · rcases hitems with ⟨-, hitems⟩ | ⟨hempty, -⟩
            · exact .over ms e (.inr ⟨rfl, hitems⟩) hresults
            · simp [hu] at hempty
      · rename_i hu
        obtain ⟨r, hr, rfl⟩ := Option.map_eq_some_iff.mp hstep
        exact settle_inv h (.inl hu) (by simp) (by simp) hr
      · rename_i hu
        obtain rfl := Option.some.inj hstep
        refine ⟨h.recv, h.outlook, h.fut, fun _ => hu, ?_⟩
        rcases h.gave with ⟨ms, hopen, hitems, hresults⟩ | ⟨ms, e, hitems, hresults⟩
        · exact .open ms hopen hitems hresults
        · exact .over ms e hitems hresults
      · cases hstep
  | read n =>
    simp only [step] at hstep
    split at hstep
    · rename_i hwaiting
      obtain ⟨r, hr, rfl⟩ := Option.map_eq_some_iff.mp hstep
      exact settle_inv h (.inr (h.waits hwaiting)) (by simp) (by simp) hr
    · cases hstep
  | readErr err =>
    simp only [step] at hstep
    split at hstep
    · rename_i hwaiting
      obtain ⟨r, hr, rfl⟩ := Option.map_eq_some_iff.mp hstep
      refine settle_inv h (.inr (h.waits hwaiting)) (by simp) (fun err' herr => ?_) hr
      obtain rfl := RecvAction.readErr.inj herr
      exact ha err rfl
    · cases hstep
  | drop =>
    simp only [step] at hstep
    split at hstep
    · obtain rfl := Option.some.inj hstep
      refine ⟨h.recv, h.outlook, h.fut, by simp, ?_⟩
      rcases h.gave with ⟨ms, hopen, hitems, hresults⟩ | ⟨ms, e, hitems, hresults⟩
      · exact .open ms hopen hitems hresults
      · exact .over ms e hitems hresults
    · cases hstep

/-! ## Going on to the end -/

/-- What a stream has still to do: to read the bytes, and to give an item for what was read. -/
def rank (s : IntoStream) : ℕ :=
  3 * s.recv.input.length +
    match s.unfold with
    | .value false => 4
    | .future => if s.waiting then 2 else 3
    | .value true => 1
    | .empty => 0

/-- A step of the receiver inside uses up more bytes than the state of `unfold` gains. -/
lemma settle_rank {s : IntoStream} {r : Receiver} {a : RecvAction} (hinv : Receiver.Inv s.recv)
    (ha : a ≠ .drop) (hstep : s.recv.step a = some r)
    (hrank : s.rank = 3 * s.recv.input.length + 4 ∧ a = .recv ∨
      s.rank = 3 * s.recv.input.length + 2 ∧ a ≠ .recv) :
    (s.settle r).rank < s.rank := by
  cases Receiver.went_of_step hinv ha hstep with
  | begun _ hfut _ hinput =>
    rcases hrank with ⟨hrank, -⟩ | ⟨-, hne⟩
    · rw [hrank, settle_pending s hfut]
      simp only [rank, hinput, if_true]
      omega
    · exact absurd rfl hne
  | read hfut _ hinput =>
    rw [settle_pending s hfut]
    simp only [rank, if_true] at hrank ⊢
    omega
  | @resolved _ x hfut hevents hinput =>
    rw [settle_ready s hfut hevents rfl]
    rcases hinput with hless | ⟨hsame, e, rfl⟩
    · cases x with
      | ok m =>
        simp only [rank, Except.isOk, Except.toBool, Bool.not_true] at hrank ⊢
        omega
      | error e =>
        simp only [rank, Except.isOk, Except.toBool, Bool.not_false] at hrank ⊢
        omega
    · simp only [rank, Except.isOk, Except.toBool, Bool.not_false] at hrank ⊢
      omega
  | failed hfut hinput hevents =>
    rw [settle_ready s hfut hevents rfl]
    simp only [rank, Except.isOk, Except.toBool, Bool.not_false, hinput] at hrank ⊢
    omega

/-- Every step but a drop lowers the rank. -/
lemma step_rank {s s' : IntoStream} {a : StreamAction} (h : Inv F max input s) (ha : a ≠ .drop)
    (hstep : s.step a = some s') : s'.rank < s.rank := by
  have hwaits : s.waiting = true → s.rank = 3 * s.recv.input.length + 2 := fun hw => by
    simp [rank, h.waits hw, hw]
  cases a with
  | next =>
    simp only [step] at hstep
    split at hstep
    · cases hstep
    · rename_i hwaiting
      split at hstep
      · rename_i hu
        obtain rfl := Option.some.inj hstep
        simp [rank, hu]
      · rename_i hu
        obtain ⟨r, hr, rfl⟩ := Option.map_eq_some_iff.mp hstep
        exact settle_rank h.recv (by simp) hr (.inl ⟨by simp [rank, hu], rfl⟩)
      · rename_i hu
        obtain rfl := Option.some.inj hstep
        simp [rank, hu, hwaiting]
      · cases hstep
  | read n =>
    simp only [step] at hstep
    split at hstep
    · rename_i hwaiting
      obtain ⟨r, hr, rfl⟩ := Option.map_eq_some_iff.mp hstep
      exact settle_rank h.recv (by simp) hr (.inr ⟨hwaits hwaiting, by simp⟩)
    · cases hstep
  | readErr e =>
    simp only [step] at hstep
    split at hstep
    · rename_i hwaiting
      obtain ⟨r, hr, rfl⟩ := Option.map_eq_some_iff.mp hstep
      exact settle_rank h.recv (by simp) hr (.inr ⟨hwaits hwaiting, by simp⟩)
    · cases hstep
  | drop => exact absurd rfl ha

/-- A stream is stuck only behind its end. -/
lemma empty_of_stuck {s : IntoStream} (h : Inv F max input s)
    (hstuck : Stuck step (fun _ a => a ≠ .drop) s) : s.unfold = .empty := by
  have hnext : s.step .next = none := hstuck.step_eq_none (by simp)
  by_contra hne
  rcases hu : s.unfold with (_ | _) | _ | _
  · -- the next `recv` can begin
    have hidle : s.recv.fut = none := by
      rw [← Option.not_isSome_iff_eq_none, h.fut, hu]
      simp
    have hwaiting : s.waiting = false := by
      by_contra hw
      have hfuture := h.waits (by simpa using hw)
      simp [hu] at hfuture
    simp [step, hu, hwaiting, Receiver.step, hidle] at hnext
  · have hwaiting : s.waiting = false := by
      by_contra hw
      have hfuture := h.waits (by simpa using hw)
      simp [hu] at hfuture
    simp [step, hu, hwaiting] at hnext
  · cases hwaiting : s.waiting with
    | false => simp [step, hu, hwaiting] at hnext
    | true =>
      -- the `recv` in progress can be given a read
      obtain ⟨w, hw⟩ := Option.isSome_iff_exists.mp (h.fut.mpr hu)
      obtain ⟨⟨n, hn⟩, -⟩ := Receiver.resolves_of_inv h.recv w hw
      obtain ⟨r, hr⟩ := Option.isSome_iff_exists.mp hn
      exact hstuck (.read n) (s.settle r) (by simp) (by simp [step, hwaiting, hr])
  · exact hne hu

/-- **What a stream gives.**  Whatever the chunks in which the bytes arrive and however often the
consumer drops its `next`, the items are the messages that the one-shot parser finds, in order, the
error that it ends with, and the end; where a read fails, its error comes in their place.  A
consumer that goes on gets there: a bounded number of steps, and the stream is at its end. -/
theorem stream_collects {ch : FramedChannel} (hnew : FramedChannel.new max = some ch)
    {as : List StreamAction} {s : IntoStream} (hrun : run step (start ch input) as = some s) :
    ∃ ms e,
      (ms = messages (decode 4 max input) ∧ e = ending max (decode 4 max input) ∨
        ms <+: messages (decode 4 max input) ∧ ∃ err, .readErr err ∈ as ∧ e = mapRecvIo err) ∧
      s.items <+: collected ms e ∧
      (∀ bs u, .drop ∉ bs → run step s bs = some u →
        bs.length ≤ 3 * s.recv.input.length + 4) ∧
      (Stuck step (fun _ a => a ≠ .drop) s → s.items = collected ms e) := by
  have hfails : EachStep step (Fails fun err => .readErr err ∈ as) (start ch input) as :=
    eachStep_iff.mpr fun pre a post u hcut _ err ha => by simp [hcut, ha]
  have h : Inv (fun err => .readErr err ∈ as) max input s :=
    run_induction (fun _ _ _ h ha hstep => step_inv h ha hstep) (inv_start hnew) hfails hrun
  have hbound : ∀ bs u, .drop ∉ bs → run step s bs = some u →
      bs.length ≤ 3 * s.recv.input.length + 4 := by
    intro bs u hdrop hrun'
    have hkept : EachStep step (fun _ a => a ≠ .drop) s bs :=
      eachStep_iff.mpr fun pre a post v hcut _ ha => hdrop (by simp [hcut, ha])
    have hI : Inv (fun _ => True) max input s :=
      run_induction (fun _ _ _ h ha hstep => step_inv h ha hstep) (inv_start hnew)
        (hfails.mono fun _ _ _ _ _ => trivial) hrun
    have hstep : ∀ v a v', Inv (fun _ => True) max input v → a ≠ .drop → step v a = some v' →
        Inv (fun _ => True) max input v' ∧ rank v' < rank v := fun v a v' hv ha hv' =>
      ⟨step_inv hv (fun _ _ => trivial) hv', step_rank hv ha hv'⟩
    have hlen := length_add_rank_le hstep hI hkept hrun'
    have htop : s.rank ≤ 3 * s.recv.input.length + 4 := by
      unfold rank
      split <;> (try split) <;> omega
    omega
  have hresults := h.outlook
  rw [Receiver.outlook, reference_eq] at hresults
  rcases h.gave with ⟨ms, hopen, hitems, hms⟩ | ⟨ms, e, hitems, hms⟩
  · rw [hms] at hresults
    have hpre := (prefix_of_append hresults).1
    refine ⟨_, _, .inl ⟨rfl, rfl⟩, ?_, hbound, fun hstuck => ?_⟩
    · rw [hitems]
      exact (hpre.map _).trans (List.prefix_append _ _)
    · have hempty := empty_of_stuck h hstuck
      rcases hopen with hu | hu <;> simp [hu] at hempty
  · refine ⟨ms, e, ?_, ?_, hbound, fun hstuck => ?_⟩
    · rcases hms with hms | ⟨hms, err, herr, rfl⟩
      · rw [hms, Stream'.append_append_stream] at hresults
        obtain ⟨rfl, rfl⟩ := (prefix_of_append hresults).2 _ _ rfl
        exact .inl ⟨rfl, rfl⟩
      · rw [hms] at hresults
        exact .inr ⟨(prefix_of_append hresults).1, err, herr, rfl⟩
    · rcases hitems with ⟨-, hitems⟩ | ⟨-, hitems⟩
      · exact hitems ▸ List.prefix_append _ _
      · rw [hitems]
    · have hempty := empty_of_stuck h hstuck
      rcases hitems with ⟨hu, -⟩ | ⟨-, hitems⟩
      · simp [hu] at hempty
      · exact hitems

/-- A message in three reads with a `next` dropped between two of them, and a frame that breaks
off. -/
theorem stream_collects_dropped :
    ∃ ch s ms e, FramedChannel.new 16 = some ch ∧
      run step (start ch [0, 0, 0, 1, 65, 0, 0])
        [.next, .read 3, .drop, .next, .read 1, .read 1, .next, .read 2, .read 0, .next] = some s ∧
      s.items = [some (.ok [65]), some (.error (.transport midFrame)), none] ∧
      s.items <+: collected ms e := by
  obtain ⟨ch, s, hnew, hrun, hitems⟩ : ∃ ch s, FramedChannel.new 16 = some ch ∧
      run step (start ch [0, 0, 0, 1, 65, 0, 0])
        [.next, .read 3, .drop, .next, .read 1, .read 1, .next, .read 2, .read 0, .next] = some s ∧
      s.items = [some (.ok [65]), some (.error (.transport midFrame)), none] :=
    ⟨_, _, rfl, Option.eq_some_of_isSome (by decide), by decide⟩
  obtain ⟨ms, e, -, hpre, -⟩ := stream_collects hnew hrun
  exact ⟨ch, s, ms, e, hnew, hrun, hitems, hpre⟩

end IntoStream

end FungiTransport
