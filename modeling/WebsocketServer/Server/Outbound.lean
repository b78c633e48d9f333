import WebsocketServer.Server.Connection

/- The outbound queue under every interleaving of its critical sections: pushes by the IO
   thread or a worker, calls of flushOutbound, and the two ways a connection starts to close. -/
namespace WssServer

structure Channel where
  connection : Connection
  tx_bytes_total : UInt64

inductive QueueOp where
  | enqueue (items : List Bytes)
  | flush (writes : List WriteResult)
  | closeFrame
  | closeConnection

inductive QueueEvent where
  | enqueued (items : List Bytes)
  | flushed (drained : Bool) (accepted : Bytes)
  | closing

def queueStep (ch : Channel) : QueueOp → Channel × QueueEvent
  | .enqueue items => ({ ch with connection := ch.connection.enqueue items }, .enqueued items)
  | .flush writes =>
      let r := flushOutbound writes ch.connection ch.tx_bytes_total
      (⟨{ ch.connection with outbound := r.outbound }, r.tx_bytes_total⟩,
        .flushed r.drained r.accepted)
  | .closeFrame => ({ ch with connection := { ch.connection with closing := true } }, .closing)
  | .closeConnection => ({ ch with connection := ch.connection.close }, .closing)

def QueueEvent.given : QueueEvent → Bytes
  | .enqueued items => items.flatten
  | _ => []

def QueueEvent.sent : QueueEvent → Bytes
  | .flushed _ accepted => accepted
  | _ => []

abbrev QueueRun := List (Run.Taken Channel QueueOp QueueEvent)

/-- Everything enqueued and everything SSL_write accepted, in the order of the run. -/
def enqueuedBytes (run : QueueRun) : Bytes := run.flatMap fun t => t.output.given

def acceptedBytes (run : QueueRun) : Bytes := run.flatMap fun t => t.output.sent

theorem queueStep_conserves (ch : Channel) (op : QueueOp) :
    unsent ch.connection.outbound ++ (queueStep ch op).2.given =
      (queueStep ch op).2.sent ++ unsent (queueStep ch op).1.connection.outbound := by
  cases op with
  | enqueue items => exact (unsent_enqueue ch.connection items).symm
  | flush writes =>
    have kept := flush_accepted writes ch.connection ch.tx_bytes_total
    simpa [queueStep, QueueEvent.given, QueueEvent.sent] using kept.symm
  | closeFrame => exact List.append_nil _
  | closeConnection => exact List.append_nil _

theorem queueStep_total (ch : Channel) (op : QueueOp) :
    (queueStep ch op).1.tx_bytes_total =
      ch.tx_bytes_total + UInt64.ofNat (queueStep ch op).2.sent.length := by
  cases op with
  | flush writes => exact flush_total writes ch.connection ch.tx_bytes_total
  | enqueue | closeFrame | closeConnection => exact (UInt64.add_zero _).symm

theorem queueStep_drained {ch : Channel} {op : QueueOp} {accepted : Bytes}
    (live : ch.connection.Live) (drained : (queueStep ch op).2 = .flushed true accepted) :
    (queueStep ch op).1.connection.outbound = [] := by
  cases op with
  | flush writes =>
    simp only [queueStep, QueueEvent.flushed.injEq] at drained ⊢
    exact flush_drained writes ch.connection ch.tx_bytes_total live drained.1
  | enqueue | closeFrame | closeConnection => contradiction

theorem run_total (ch : Channel) (ops : List QueueOp) :
    (Run.final queueStep ch ops).tx_bytes_total =
      ch.tx_bytes_total + UInt64.ofNat (acceptedBytes (Run.steps queueStep ch ops)).length := by
  induction ops generalizing ch with
  | nil => exact (UInt64.add_zero _).symm
  | cons op ops ih =>
    have later := ih (queueStep ch op).1
    rw [queueStep_total] at later
    simp only [acceptedBytes, Run.steps, List.flatMap_cons, List.length_append, UInt64.ofNat_add,
      ← UInt64.add_assoc] at later ⊢
    exact later

/-- No byte of output is lost, duplicated or reordered, and a flush that reports a drained
    queue on a live connection has emptied it. -/
theorem output_preserved (cfd : Nat) (cid : UInt64) (now : TimePoint) (tx_bytes_total : UInt64)
    (ops : List QueueOp) :
    let ch : Channel := ⟨.construct cfd cid now, tx_bytes_total⟩
    let run := Run.steps queueStep ch ops
    let last := Run.final queueStep ch ops
    acceptedBytes run ++ unsent last.connection.outbound = enqueuedBytes run ∧
      (∀ t ∈ run, ∀ accepted, t.output = .flushed true accepted → t.before.connection.Live →
        t.after.connection.outbound = []) ∧
      (∀ t ∈ run, t.after.tx_bytes_total =
        t.before.tx_bytes_total + UInt64.ofNat t.output.sent.length) ∧
      last.tx_bytes_total = tx_bytes_total + UInt64.ofNat (acceptedBytes run).length := by
  intro ch run last
  constructor
  · have conserved := Run.conserved queueStep (fun ch : Channel => unsent ch.connection.outbound)
      QueueEvent.given QueueEvent.sent queueStep_conserves ch ops
    exact conserved.symm
  constructor
  · intro t mem accepted output live
    obtain ⟨after, same⟩ := Run.steps_taken queueStep mem
    rw [after]
    exact queueStep_drained live (same ▸ output)
  constructor
  · intro t mem
    obtain ⟨after, same⟩ := Run.steps_taken queueStep mem
    rw [after, same]
    exact queueStep_total t.before t.input
  · exact run_total ch ops

/- A write that stops in the middle of the second item, an item pushed behind it, an empty
   item between them, and the retry. -/
example :
    let ch : Channel := ⟨.construct 7 1 0, 0⟩
    let ops := [.enqueue [[1, 2], [3, 4, 5]], .flush [.wrote 2, .wrote 1, .wantWrite],
      .enqueue [[], [6]], .flush [.wrote 2, .wrote 1]]
    acceptedBytes (Run.steps queueStep ch ops) = [1, 2, 3, 4, 5, 6] ∧
      (Run.final queueStep ch ops).tx_bytes_total = 6 := by
  decide

end WssServer
