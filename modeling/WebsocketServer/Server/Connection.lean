import WebsocketServer.Library.Run
import WebsocketServer.Ws.StreamParser

/- One TLS connection of the server and its outbound queue. SSL_write's answers are inputs;
   what they do to the queue is computed here. -/
namespace WssServer
open StreamParser

/-- A steady_clock reading in nanoseconds. -/
abbrev TimePoint := Int

def wholeSeconds (duration : Int) : Int := duration.tdiv 1000000000

/-- The offset never passes the end of the data. -/
structure OutboundItem where
  data : Bytes
  offset : Nat := 0
  bounded : offset ≤ data.length := by exact Nat.zero_le _

/-- ssl says whether the pointer is set, fd is none once the socket is closed. outbound_mu names
    the worker inside a critical section; a critical section of the IO thread is a single step. -/
structure Connection where
  fd : Option Nat
  ssl : Bool
  id : UInt64
  tls_done : Bool := false
  tls_early_read_finished : Bool := false
  ws : WebSocketStreamParser := {}
  closing : Bool := false
  ws_upgraded : Bool := false
  outbound : List OutboundItem := []
  outbound_mu : Option Nat := none
  last_ping : TimePoint
  last_server_ping_sent : TimePoint

/-- What SSL_write or SSL_get_error says. The count is between one and the length offered. -/
inductive WriteResult where
  | wrote (ret : Nat)
  | wantWrite
  | wantRead
  | fatal
  deriving DecidableEq

namespace OutboundItem

def remaining (item : OutboundItem) : Bytes := item.data.drop item.offset

def count (item : OutboundItem) (ret : Nat) : Nat :=
  min (max ret 1) (item.data.length - item.offset)

def advance (item : OutboundItem) (ret : Nat) : OutboundItem where
  data := item.data
  offset := item.offset + item.count ret
  bounded := by
    have inside := item.bounded
    simp only [count]
    omega

theorem remaining_advance (item : OutboundItem) (ret : Nat) :
    item.remaining = item.remaining.take (item.count ret) ++ (item.advance ret).remaining := by
  simp only [remaining, advance]
  rw [← List.drop_drop]
  exact (List.take_append_drop _ _).symm

theorem remaining_done {item : OutboundItem} (done : item.data.length ≤ item.offset) :
    item.remaining = [] :=
  List.drop_eq_nil_of_le done

theorem length_taken (item : OutboundItem) (ret : Nat) :
    (item.remaining.take (item.count ret)).length = item.count ret := by
  have inside := item.bounded
  simp only [List.length_take, remaining, List.length_drop, count]
  omega

end OutboundItem

/-- The bytes of the queue that SSL_write has not accepted yet. -/
def unsent (outbound : List OutboundItem) : Bytes := outbound.flatMap OutboundItem.remaining

/-- Items with nothing left are popped before the next write. -/
def popSent (outbound : List OutboundItem) : List OutboundItem :=
  outbound.dropWhile fun item => item.data.length - item.offset = 0

/-- accepted are the bytes SSL_write took, calls the number of times it was called. -/
structure Flushed where
  outbound : List OutboundItem
  tx_bytes_total : UInt64
  accepted : Bytes
  calls : Nat
  drained : Bool

/-- while (!c->outbound.empty()). Calls beyond the given results want to write. -/
def flushLoop (results : List WriteResult) (outbound : List OutboundItem)
    (tx_bytes_total : UInt64) : Flushed :=
  match popSent outbound with
  | [] => ⟨[], tx_bytes_total, [], 0, true⟩
  | item :: rest =>
      match results with
      | .wrote ret :: results =>
          let sent := item.advance ret
          let r := flushLoop results
            (if sent.offset ≥ sent.data.length then rest else sent :: rest)
            (tx_bytes_total + UInt64.ofNat (item.count ret))
          { r with
            accepted := item.remaining.take (item.count ret) ++ r.accepted
            calls := r.calls + 1 }
      | _ => ⟨item :: rest, tx_bytes_total, [], 1, false⟩

/-- An empty queue is drained whether or not the connection is closing. -/
def flushOutbound (writes : List WriteResult) (c : Connection) (tx_bytes_total : UInt64) :
    Flushed :=
  if c.fd = none ∨ c.ssl = false then ⟨c.outbound, tx_bytes_total, [], 0, true⟩
  else if c.outbound.isEmpty then ⟨c.outbound, tx_bytes_total, [], 0, true⟩
  else flushLoop writes c.outbound tx_bytes_total

namespace Connection

def construct (cfd : Nat) (cid : UInt64) (now : TimePoint) : Connection where
  fd := some cfd
  ssl := true
  id := cid
  last_ping := now
  last_server_ping_sent := now

def enqueue (c : Connection) (items : List Bytes) : Connection :=
  { c with outbound := c.outbound ++ items.map fun data => { data } }

/-- closeConnection, as far as the object goes. The SSL object lives on. -/
def close (c : Connection) : Connection := { c with closing := true, fd := none }

def Live (c : Connection) : Prop := c.fd ≠ none ∧ c.ssl = true

end Connection

theorem unsent_append (l₁ l₂ : List OutboundItem) : unsent (l₁ ++ l₂) = unsent l₁ ++ unsent l₂ := by
  simp [unsent]

theorem unsent_enqueue (c : Connection) (items : List Bytes) :
    unsent (c.enqueue items).outbound = unsent c.outbound ++ items.flatten := by
  simp only [Connection.enqueue, unsent_append]
  congr 1
  induction items with
  | nil => rfl
  | cons data items ih =>
    simp only [List.map_cons, List.flatten_cons, ← ih]
    rfl

theorem unsent_popSent (outbound : List OutboundItem) :
    unsent (popSent outbound) = unsent outbound := by
  induction outbound with
  | nil => rfl
  | cons item rest ih =>
    by_cases done : item.data.length - item.offset = 0
    · have empty := item.remaining_done (by omega)
      simp only [popSent, List.dropWhile_cons, done, decide_true, ↓reduceIte] at ih ⊢
      rw [ih]
      simp [unsent, empty]
    · simp [popSent, done]

theorem popSent_head {outbound rest : List OutboundItem} {item : OutboundItem}
    (front : popSent outbound = item :: rest) : item.offset < item.data.length := by
  induction outbound with
  | nil => simp [popSent] at front
  | cons first later ih =>
    by_cases done : first.data.length - first.offset = 0
    · simp only [popSent, List.dropWhile_cons, done, decide_true, ↓reduceIte] at ih front
      exact ih front
    · simp only [popSent, List.dropWhile_cons, done, decide_false, Bool.false_eq_true,
        ↓reduceIte, List.cons.injEq] at front
      obtain ⟨rfl, _⟩ := front
      omega

theorem unsent_sent (item : OutboundItem) (rest : List OutboundItem) :
    unsent (if item.offset ≥ item.data.length then rest else item :: rest) =
      item.remaining ++ unsent rest := by
  by_cases done : item.data.length ≤ item.offset
  · rw [if_pos done, item.remaining_done done]
    rfl
  · rw [if_neg done]
    rfl

/- One pass of the loop body: nothing left to send, a refused write, or a write that took
   some bytes and another pass. -/
theorem flushLoop_cases (results : List WriteResult) (outbound : List OutboundItem) (tx : UInt64) :
    (unsent outbound = [] ∧ flushLoop results outbound tx = ⟨[], tx, [], 0, true⟩) ∨
    (∃ item rest, popSent outbound = item :: rest ∧
      flushLoop results outbound tx = ⟨item :: rest, tx, [], 1, false⟩) ∨
    ∃ item rest ret later, popSent outbound = item :: rest ∧ results = .wrote ret :: later ∧
      flushLoop results outbound tx =
        let sent := item.advance ret
        let r := flushLoop later (if sent.offset ≥ sent.data.length then rest else sent :: rest)
          (tx + UInt64.ofNat (item.count ret))
        { r with
          accepted := item.remaining.take (item.count ret) ++ r.accepted
          calls := r.calls + 1 } := by
  cases front : popSent outbound with
  | nil =>
    left
    constructor
    · rw [← unsent_popSent, front]
      rfl
    · rw [flushLoop.eq_def, front]
  | cons item rest =>
    right
    cases results with
    | nil =>
      left
      exact ⟨item, rest, rfl, by rw [flushLoop.eq_def, front]⟩
    | cons result later =>
      cases result with
      | wrote ret =>
        right
        exact ⟨item, rest, ret, later, rfl, rfl, by rw [flushLoop.eq_def, front]⟩
      | wantWrite | wantRead | fatal =>
        left
        exact ⟨item, rest, rfl, by rw [flushLoop.eq_def, front]⟩

theorem flushLoop_accepted (results : List WriteResult) (outbound : List OutboundItem)
    (tx : UInt64) :
    (flushLoop results outbound tx).accepted ++ unsent (flushLoop results outbound tx).outbound =
      unsent outbound := by
  induction results generalizing outbound tx with
  | nil =>
    rcases flushLoop_cases [] outbound tx with ⟨empty, run⟩ | ⟨item, rest, front, run⟩ |
      ⟨_, _, _, _, _, other, _⟩
    · rw [run, empty]
      rfl
    · rw [run, ← unsent_popSent outbound, front]
      rfl
    · contradiction
  | cons result results ih =>
    rcases flushLoop_cases (result :: results) outbound tx with ⟨empty, run⟩ |
      ⟨item, rest, front, run⟩ | ⟨item, rest, ret, later, front, same, run⟩
    · rw [run, empty]
      rfl
    · rw [run, ← unsent_popSent outbound, front]
      rfl
    · obtain ⟨_, rfl⟩ := List.cons.inj same
      simp only [run, List.append_assoc, ih, unsent_sent]
      rw [← List.append_assoc, ← item.remaining_advance, ← unsent_popSent outbound, front]
      rfl

theorem flushLoop_drained {results : List WriteResult} {outbound : List OutboundItem} {tx : UInt64}
    (drained : (flushLoop results outbound tx).drained = true) :
    (flushLoop results outbound tx).outbound = [] := by
  induction results generalizing outbound tx with
  | nil =>
    rcases flushLoop_cases [] outbound tx with ⟨_, run⟩ | ⟨_, _, _, run⟩ | ⟨_, _, _, _, _, other, _⟩
    · rw [run]
    · simp [run] at drained
    · contradiction
  | cons result results ih =>
    rcases flushLoop_cases (result :: results) outbound tx with ⟨_, run⟩ | ⟨_, _, _, run⟩ |
      ⟨item, rest, ret, later, _, same, run⟩
    · rw [run]
    · simp [run] at drained
    · obtain ⟨_, rfl⟩ := List.cons.inj same
      simp only [run] at drained ⊢
      exact ih drained

theorem flushLoop_total (results : List WriteResult) (outbound : List OutboundItem) (tx : UInt64) :
    (flushLoop results outbound tx).tx_bytes_total =
      tx + UInt64.ofNat (flushLoop results outbound tx).accepted.length := by
  induction results generalizing outbound tx with
  | nil =>
    rcases flushLoop_cases [] outbound tx with ⟨_, run⟩ | ⟨_, _, _, run⟩ | ⟨_, _, _, _, _, other, _⟩
    · simp [run]
    · simp [run]
    · contradiction
  | cons result results ih =>
    rcases flushLoop_cases (result :: results) outbound tx with ⟨_, run⟩ | ⟨_, _, _, run⟩ |
      ⟨item, rest, ret, later, _, same, run⟩
    · simp [run]
    · simp [run]
    · obtain ⟨_, rfl⟩ := List.cons.inj same
      simp only [run, ih, List.length_append, item.length_taken, UInt64.ofNat_add]
      ac_rfl

theorem flushLoop_calls (results : List WriteResult) (outbound : List OutboundItem) (tx : UInt64) :
    (flushLoop results outbound tx).calls = 0 ↔ unsent outbound = [] := by
  rcases flushLoop_cases results outbound tx with ⟨empty, run⟩ | ⟨item, rest, front, run⟩ |
    ⟨item, rest, ret, later, front, _, run⟩
  · simp [run, empty]
  · have inside := popSent_head front
    rw [run, ← unsent_popSent outbound, front]
    simp [unsent, OutboundItem.remaining, List.drop_eq_nil_iff]
    omega
  · have inside := popSent_head front
    rw [run, ← unsent_popSent outbound, front]
    simp [unsent, OutboundItem.remaining, List.drop_eq_nil_iff]
    omega

section
variable (writes : List WriteResult) (c : Connection) (tx_bytes_total : UInt64)

theorem flushOutbound_cases :
    ((¬ c.Live ∨ c.outbound = []) ∧
      flushOutbound writes c tx_bytes_total = ⟨c.outbound, tx_bytes_total, [], 0, true⟩) ∨
    (c.Live ∧
      flushOutbound writes c tx_bytes_total = flushLoop writes c.outbound tx_bytes_total) := by
  unfold flushOutbound
  by_cases gone : c.fd = none ∨ c.ssl = false
  · left
    rw [if_pos gone]
    refine ⟨Or.inl ?_, rfl⟩
    rintro ⟨fd, ssl⟩
    rcases gone with here | here
    · exact fd here
    · rw [ssl] at here
      contradiction
  · rw [if_neg gone]
    by_cases empty : c.outbound.isEmpty = true
    · left
      rw [if_pos empty]
      exact ⟨Or.inr (List.isEmpty_iff.mp empty), rfl⟩
    · right
      rw [if_neg empty]
      simp only [not_or, Bool.not_eq_false] at gone
      exact ⟨gone, rfl⟩

theorem flush_accepted :
    (flushOutbound writes c tx_bytes_total).accepted ++
      unsent (flushOutbound writes c tx_bytes_total).outbound = unsent c.outbound := by
  rcases flushOutbound_cases writes c tx_bytes_total with ⟨_, run⟩ | ⟨_, run⟩
  · rw [run]
    rfl
  · rw [run]
    exact flushLoop_accepted writes c.outbound tx_bytes_total

theorem flush_drained (live : c.Live)
    (drained : (flushOutbound writes c tx_bytes_total).drained = true) :
    (flushOutbound writes c tx_bytes_total).outbound = [] := by
  rcases flushOutbound_cases writes c tx_bytes_total with ⟨gone | empty, run⟩ | ⟨_, run⟩
  · contradiction
  · rw [run, empty]
  · rw [run] at drained ⊢
    exact flushLoop_drained drained

theorem flush_total :
    (flushOutbound writes c tx_bytes_total).tx_bytes_total =
      tx_bytes_total + UInt64.ofNat (flushOutbound writes c tx_bytes_total).accepted.length := by
  rcases flushOutbound_cases writes c tx_bytes_total with ⟨_, run⟩ | ⟨_, run⟩
  · simp [run]
  · rw [run]
    exact flushLoop_total writes c.outbound tx_bytes_total

theorem flush_calls :
    (flushOutbound writes c tx_bytes_total).calls = 0 ↔ ¬ c.Live ∨ unsent c.outbound = [] := by
  rcases flushOutbound_cases writes c tx_bytes_total with ⟨still, run⟩ | ⟨live, run⟩
  · rw [run]
    refine ⟨fun _ => ?_, fun _ => rfl⟩
    rcases still with gone | empty
    · exact Or.inl gone
    · exact Or.inr (by rw [empty]; rfl)
  · rw [run, flushLoop_calls]
    simp [live]

end

end WssServer
