import Mathlib.Data.List.Infix

/-!
# Calls over a stream

A client sends one message and closes its side of the call. A server reads messages and writes
others, and ends the call with a status unless it dies. The network may break a call off.
-/

namespace Rpc

variable {q ρ ε : Type*}

/-- What a client sees of a call. -/
structure Exchange (ρ ε : Type*) where
  wrote : Bool
  closed : Bool
  messages : List ρ
  status : Except ε Unit

/-- What a server does in a call. There is no status when it dies. -/
structure Served (ρ ε : Type*) where
  written : List ρ
  status : Option (Except ε Unit)

/-- The client sees all that the server did. -/
def Through (s : Served ρ ε) (x : Exchange ρ ε) : Prop := x.messages = s.written ∧ s.status = some x.status

/-- Some of what the server wrote arrives, and the network makes up an error. -/
def Broken (s : Served ρ ε) (x : Exchange ρ ε) : Prop := x.messages <+: s.written ∧ ∃ e, x.status = .error e

/-- A call with one message. When it breaks off, the server may not have read the message. -/
def Carried (serve : List q → Served ρ ε) (request : q) (x : Exchange ρ ε) : Prop :=
  Through (serve [request]) x ∨ Broken (serve [request]) x ∨ Broken (serve []) x

/-- A client that expects one message in return. It dies when there is a second one. -/
def single (unwritten unclosed silent : ε) (x : Exchange ρ ε) : Option (Except ε ρ) :=
  if !x.wrote then some (.error unwritten)
  else if !x.closed then some (.error unclosed)
  else
    match x.messages with
    | [] => some (.error silent)
    | [message] => some (x.status.map fun _ => message)
    | _ :: _ :: _ => none

variable {s : Served ρ ε} {x : Exchange ρ ε} {unwritten unclosed silent : ε}

theorem single_eq_ok {message : ρ} : single unwritten unclosed silent x = some (.ok message) ↔
    x.wrote = true ∧ x.closed = true ∧ x.messages = [message] ∧ x.status = .ok () := by
  obtain ⟨wrote, closed, messages, status⟩ := x
  unfold single
  cases wrote with
  | false => simp
  | true =>
    cases closed with
    | false => simp
    | true =>
      rcases messages with _ | ⟨first, _ | ⟨second, rest⟩⟩
      · simp
      · cases status with
        | error e => simp [Except.map]
        | ok u => simp [Except.map]
      · simp

theorem single_nil (hwrote : x.wrote = true) (hclosed : x.closed = true) (hmessages : x.messages = []) :
    single unwritten unclosed silent x = some (.error silent) := by
  simp [single, hwrote, hclosed, hmessages]

theorem single_one {message : ρ} (hwrote : x.wrote = true) (hclosed : x.closed = true)
    (hmessages : x.messages = [message]) :
    single unwritten unclosed silent x = some (x.status.map fun _ => message) := by
  simp [single, hwrote, hclosed, hmessages]

theorem exists_single (h : x.messages.length ≤ 1) :
    ∃ result, single unwritten unclosed silent x = some result := by
  obtain ⟨wrote, closed, messages, status⟩ := x
  unfold single
  cases wrote with
  | false => exact ⟨_, rfl⟩
  | true =>
    cases closed with
    | false => exact ⟨_, rfl⟩
    | true =>
      rcases messages with _ | ⟨first, _ | ⟨second, rest⟩⟩
      · exact ⟨_, rfl⟩
      · exact ⟨_, rfl⟩
      · simp at h

theorem Through.length_le (h : Through s x) : x.messages.length ≤ s.written.length := by rw [h.1]

theorem Broken.length_le (h : Broken s x) : x.messages.length ≤ s.written.length := h.1.length_le

theorem Carried.length_le {serve : List q → Served ρ ε} {request : q} (h : Carried serve request x)
    (hone : (serve [request]).written.length ≤ 1) (hnone : (serve []).written = []) :
    x.messages.length ≤ 1 := by
  rcases h with h | h | h
  · exact h.length_le.trans hone
  · exact h.length_le.trans hone
  · have hle := h.length_le
    rw [hnone] at hle
    exact hle.trans (Nat.zero_le 1)

theorem Carried.through {serve : List q → Served ρ ε} {request : q} (h : Carried serve request x)
    (hok : x.status = .ok ()) : Through (serve [request]) x := by
  rcases h with h | ⟨-, e, he⟩ | ⟨-, e, he⟩
  · exact h
  · rw [hok] at he
    cases he
  · rw [hok] at he
    cases he

end Rpc
