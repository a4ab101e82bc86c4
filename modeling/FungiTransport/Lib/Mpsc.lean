import Mathlib.Data.List.Basic
import Mathlib.Data.List.Infix
import Mathlib.Tactic.Common

/-!
# Bounded queues of many producers and one consumer

The channels of `tokio::sync::mpsc`: a buffer of bounded length, the number of sender handles and
whether the receiver is alive.  Each queue carries its history, what was ever pushed and
popped, with the laws that tie it to the buffer, so that these hold of every queue that can be
built.  Suspension is the caller's matter: a send that waits is one whose `trySend` was `full` so
far, and a dropped wait leaves the queue as it is.  This file names nothing of the repository.
-/

namespace FungiTransport.Lib

variable {α : Type}

/-- A queue with its history; no operation reads `pushed` or `popped`. -/
structure Mpsc (α : Type) where
  capacity : ℕ
  senders : ℕ
  rxAlive : Bool
  buffer : List α
  pushed : List α
  popped : List α
  bounded : buffer.length ≤ capacity
  /-- A dropped receiver takes what is in the buffer with it. -/
  drained : rxAlive = false → buffer = []
  /-- Values are popped in the order in which they were pushed, each once. -/
  order : popped <+: pushed
  /-- While the receiver is alive, nothing is lost. -/
  kept : rxAlive = true → pushed = popped ++ buffer

/-- What a send that does not wait comes to. -/
inductive TrySend (α : Type) where
  | sent (q : Mpsc α)
  | full
  | closed

/-- What a receive that does not wait comes to. -/
inductive TryRecv (α : Type) where
  | got (x : α) (q : Mpsc α)
  | empty
  | closed

namespace Mpsc

/-- `mpsc::channel`; `none` is its panic for a capacity of zero. -/
def channel (capacity : ℕ) : Option (Mpsc α) :=
  if 0 < capacity then
    some
      { capacity := capacity
        senders := 1
        rxAlive := true
        buffer := []
        pushed := []
        popped := []
        bounded := Nat.zero_le _
        drained := fun _ => rfl
        order := List.prefix_rfl
        kept := fun _ => rfl }
  else none

/-- Put a value into the buffer. -/
def push (q : Mpsc α) (x : α) (halive : q.rxAlive = true) (hroom : q.buffer.length < q.capacity) :
    Mpsc α :=
  { q with
    buffer := q.buffer ++ [x]
    pushed := q.pushed ++ [x]
    bounded := by
      rw [List.length_append]
      exact hroom
    drained := fun h => absurd (halive.symm.trans h) (by decide)
    order := q.order.trans (List.prefix_append _ _)
    kept := fun h => by rw [q.kept h, List.append_assoc] }

/-- Take the first value out of the buffer. -/
def pop (q : Mpsc α) (x : α) (rest : List α) (hbuffer : q.buffer = x :: rest) : Mpsc α :=
  have hpushed (h : q.rxAlive = true) : q.pushed = (q.popped ++ [x]) ++ rest := by
    rw [q.kept h, hbuffer, List.append_assoc, List.singleton_append]
  { q with
    buffer := rest
    popped := q.popped ++ [x]
    bounded := by
      have hbound := q.bounded
      rw [hbuffer, List.length_cons] at hbound
      omega
    drained := fun h => absurd (q.drained h) (by simp [hbuffer])
    order := by
      cases halive : q.rxAlive with
      | true => exact ⟨rest, (hpushed halive).symm⟩
      | false => exact absurd (q.drained halive) (by simp [hbuffer])
    kept := hpushed }

/-- `Sender::try_send` -/
def trySend (q : Mpsc α) (x : α) : TrySend α :=
  if halive : q.rxAlive = true then
    if hroom : q.buffer.length < q.capacity then .sent (q.push x halive hroom) else .full
  else .closed

/-- `Receiver::recv`, polled once. -/
def tryRecv (q : Mpsc α) : TryRecv α :=
  match hbuffer : q.buffer with
  | x :: rest => .got x (q.pop x rest hbuffer)
  | [] => if q.senders = 0 then .closed else .empty

/-- `Sender::clone` -/
def cloneTx (q : Mpsc α) : Mpsc α := { q with senders := q.senders + 1 }

/-- A sender is dropped. -/
def dropTx (q : Mpsc α) : Mpsc α := { q with senders := q.senders - 1 }

/-- The receiver is dropped. -/
def dropRx (q : Mpsc α) : Mpsc α :=
  { q with
    rxAlive := false
    buffer := []
    bounded := Nat.zero_le _
    drained := fun _ => rfl
    kept := fun h => absurd h (by decide) }

/-! ## What the operations do -/

lemma channel_eq_some {capacity : ℕ} {q : Mpsc α} (h : channel capacity = some q) :
    q.senders = 1 ∧ q.rxAlive = true ∧ q.pushed = [] ∧ q.popped = [] := by
  rw [channel] at h
  split at h
  · obtain rfl := Option.some.inj h
    exact ⟨rfl, rfl, rfl, rfl⟩
  · cases h

lemma trySend_sent {q q' : Mpsc α} {x : α} (h : q.trySend x = .sent q') :
    q.rxAlive = true ∧ q'.rxAlive = true ∧ q'.senders = q.senders ∧
      q'.pushed = q.pushed ++ [x] ∧ q'.popped = q.popped := by
  rw [trySend] at h
  split at h
  · rename_i halive
    split at h
    · obtain rfl := TrySend.sent.inj h
      exact ⟨halive, halive, rfl, rfl, rfl⟩
    · cases h
  · cases h

lemma tryRecv_got {q q' : Mpsc α} {x : α} (h : q.tryRecv = .got x q') :
    q'.rxAlive = q.rxAlive ∧ q'.senders = q.senders ∧ q'.pushed = q.pushed ∧
      q'.popped = q.popped ++ [x] := by
  rw [tryRecv] at h
  split at h
  · obtain ⟨rfl, rfl⟩ := TryRecv.got.inj h
    exact ⟨rfl, rfl, rfl, rfl⟩
  · split at h <;> cases h

/-- The receiver is told that the queue is closed when all senders are gone and everything that
was pushed was popped. -/
lemma tryRecv_closed {q : Mpsc α} (halive : q.rxAlive = true) (h : q.tryRecv = .closed) :
    q.senders = 0 ∧ q.popped = q.pushed := by
  rw [tryRecv] at h
  split at h
  · cases h
  · rename_i hbuffer
    split at h
    · rename_i hsenders
      exact ⟨hsenders, by rw [q.kept halive, hbuffer, List.append_nil]⟩
    · cases h

lemma trySend_capacity {q q' : Mpsc α} {x : α} (h : q.trySend x = .sent q') :
    q'.capacity = q.capacity := by
  rw [trySend] at h
  split at h
  · split at h
    · obtain rfl := TrySend.sent.inj h
      rfl
    · cases h
  · cases h

lemma tryRecv_capacity {q q' : Mpsc α} {x : α} (h : q.tryRecv = .got x q') :
    q'.capacity = q.capacity := by
  rw [tryRecv] at h
  split at h
  · obtain ⟨-, rfl⟩ := TryRecv.got.inj h
    rfl
  · split at h <;> cases h

/-- A send is refused when the receiver is gone. -/
lemma trySend_closed {q : Mpsc α} {x : α} (h : q.trySend x = .closed) : q.rxAlive = false := by
  rw [trySend] at h
  split at h
  · split at h <;> cases h
  · rename_i hgone
    simpa using hgone

/-- A send waits when the receiver is alive and there is no room. -/
lemma trySend_full {q : Mpsc α} {x : α} (h : q.trySend x = .full) :
    q.rxAlive = true ∧ q.buffer.length = q.capacity := by
  rw [trySend] at h
  split at h
  · rename_i halive
    split at h
    · cases h
    · rename_i hroom
      have hbound := q.bounded
      exact ⟨halive, by omega⟩
  · cases h

/-- With room and a receiver, a send is taken at once. -/
lemma trySend_of_room {q : Mpsc α} (x : α) (halive : q.rxAlive = true)
    (hroom : q.buffer.length < q.capacity) :
    ∃ q', q.trySend x = .sent q' ∧ q'.buffer = q.buffer ++ [x] :=
  ⟨q.push x halive hroom, by rw [trySend, dif_pos halive, dif_pos hroom], rfl⟩

lemma tryRecv_of_cons {q : Mpsc α} {x : α} {rest : List α} (h : q.buffer = x :: rest) :
    ∃ q', q.tryRecv = .got x q' ∧ q'.buffer = rest := by
  refine ⟨q.pop x rest h, ?_, rfl⟩
  rw [tryRecv]
  split
  · rename_i y rest' h'
    obtain ⟨rfl, rfl⟩ := List.cons.inj (h.symm.trans h')
    rfl
  · rename_i h'
    rw [h] at h'
    cases h'

lemma tryRecv_of_nil {q : Mpsc α} (h : q.buffer = []) :
    q.tryRecv = if q.senders = 0 then .closed else .empty := by
  rw [tryRecv]
  split
  · rename_i h'
    rw [h] at h'
    cases h'
  · rfl

/-- A receive waits when the buffer is empty and there are senders. -/
lemma tryRecv_empty {q : Mpsc α} (h : q.tryRecv = .empty) : q.buffer = [] ∧ 0 < q.senders := by
  rw [tryRecv] at h
  split at h
  · cases h
  · rename_i hbuffer
    split at h
    · cases h
    · exact ⟨hbuffer, by omega⟩

end Mpsc

end FungiTransport.Lib
