import WebsocketServer.Server.EarlyWrites
import WebsocketServer.Ws.Delivered

/- The frames the server acts on are the ones feed delivers. -/
namespace WssServer
open StreamParser WebSocketCodec

def IoFrames : IoState → Prop
  | .sendUpgrade _ _ _ frames | .nextFrame _ _ frames | .flushIfDone _ _ frames =>
      ∀ f ∈ frames, WholeMessage f
  | _ => True

structure FrameInv (s : Server) : Prop where
  parsers : ∀ c, Reassembly (s.objects c).ws
  io : IoFrames s.io

theorem close_ws (s : Server) (fd : Nat) (c : ConnRef) :
    ((s.closeConnection fd).objects c).ws = (s.objects c).ws :=
  s.close_keeps fd Connection.ws (fun _ => rfl) c

theorem sent_ws (s : Server) (c : ConnRef) (r : Flushed) (other : ConnRef) :
    ((s.sent c r).objects other).ws = (s.objects other).ws :=
  s.modify_keeps c (fun conn => { conn with outbound := r.outbound }) Connection.ws rfl other

theorem takeParser_ws (s : Server) (c : ConnRef) (r : FeedResult) (other : ConnRef) :
    ((takeParser s c r).objects other).ws =
      if other = c then r.parser else (s.objects other).ws := by
  simp only [takeParser, Server.modify_objects]
  by_cases same : other = c
  · rw [if_pos same, if_pos same]
  · rw [if_neg same, if_neg same]

theorem Pushes.ws {sys : Answers} {s s' : Server} {at' io : IoState} {c : ConnRef}
    {kind : ItemKind} {item : Bytes} (site : Pushes sys s at' s' c kind item io) (other : ConnRef) :
    (s'.objects other).ws = (s.objects other).ws := by
  cases site with
  | upgrade | unsupported | closeReply => rfl
  | pong | ping => exact s.modify_keeps _ _ Connection.ws rfl other

/- The IO thread changes the parser of the connection it has read from, by one call of feed. -/
theorem ioMove_frameParser {config : Config} {sys : Answers} {s : Server} {r : Stepped}
    (move : IoMove config sys s r) (c : ConnRef) :
    (r.1.objects c).ws = (s.objects c).ws ∨
      ∃ v caller buf, s.io = .inbound v caller buf ∧ v.c = c ∧
        (r.1.objects c).ws = (s.fed config sys v buf).parser := by
  have taken {v : Visit} {caller : Caller} {buf : Bytes} (here : s.io = .inbound v caller buf)
      {conn : Connection}
      (same : conn.ws = ((takeParser s v.c (s.fed config sys v buf)).objects c).ws) :
      conn.ws = (s.objects c).ws ∨ ∃ v caller buf, s.io = .inbound v caller buf ∧ v.c = c ∧
        conn.ws = (s.fed config sys v buf).parser := by
    rw [takeParser_ws] at same
    by_cases own : c = v.c
    · rw [if_pos own] at same
      exact Or.inr ⟨v, caller, buf, here, own.symm, same⟩
    · rw [if_neg own] at same
      exact Or.inl same
  have moved {s' : Server} {c' : ConnRef} {f : Connection → Connection} {io : IoState}
      (keeps : (f (s'.objects c')).ws = (s'.objects c').ws) :
      (((s'.modify c' f).goto io).objects c).ws = (s'.objects c).ws :=
    s'.modify_keeps c' f Connection.ws keeps c
  cases move with
  | stays | goes | cleans => exact Or.inl rfl
  | closes site => exact Or.inl (close_ws s _ c)
  | flushes site unlocked => exact Or.inl (sent_ws s _ _ c)
  | drains site out closing => exact Or.inl ((close_ws _ _ c).trans (sent_ws s _ _ c))
  | throws here left thrown => exact taken here (close_ws _ _ c)
  | delivers here returns response => exact taken here rfl
  | upgrades here returns response =>
    exact taken here (moved (by rfl))
  | pushes site unlocked =>
    left
    rw [← site.ws c]
    exact moved (by rfl)
  | earlyDone | accepted | ponged | peerCloses => exact Or.inl (moved (by rfl))
  | @submits v =>
    exact Or.inl (s.modify_keeps v.c (fun c => { c with last_ping := sys.now }) Connection.ws rfl c)

theorem Next.frames {config : Config} {s : Server} {at' io : IoState} (next : Next config s at' io)
    (known : IoFrames at') : IoFrames io := by
  cases next with
  | keepsOutput => exact known
  | _ => trivial

theorem Closes.frames {at' io : IoState} {fd : Nat} (site : Closes at' fd io) : IoFrames io := by
  cases site <;> trivial

theorem LeavesBroken.frames {v : Visit} {caller : Caller} {io : IoState}
    (left : LeavesBroken v caller io) : IoFrames io := by
  cases left <;> trivial

theorem Flushes.frames {s : Server} {at' io : IoState} {c : ConnRef} (site : Flushes s at' c io)
    (known : IoFrames at') : IoFrames io := by
  cases site with
  | pushed => exact known
  | _ => trivial

theorem Pushes.frames {sys : Answers} {s s' : Server} {at' io : IoState} {c : ConnRef}
    {kind : ItemKind} {item : Bytes} (site : Pushes sys s at' s' c kind item io)
    (known : IoFrames at') : IoFrames io := by
  cases site with
  | upgrade => exact known
  | pong | unsupported => exact fun f mem => known f (List.mem_cons_of_mem _ mem)
  | closeReply =>
    intro f mem
    contradiction
  | ping => trivial

theorem ioMove_frames {config : Config} {sys : Answers} {s : Server} {r : Stepped}
    (inv : FrameInv s) (move : IoMove config sys s r) : FrameInv r.1 := by
  constructor
  · intro c
    rcases ioMove_frameParser move c with same | ⟨v, caller, buf, here, rfl, fed⟩
    · rw [same]
      exact inv.parsers c
    · rw [fed]
      exact (feed_whole config.ssl config.env sys.now_seconds s.seen (inv.parsers v.c) buf).1
  · have known := inv.io
    have fed {v : Visit} {buf : Bytes} : ∀ f ∈ (s.fed config sys v buf).outFrames, WholeMessage f :=
      (feed_whole config.ssl config.env sys.now_seconds s.seen (inv.parsers v.c) buf).2
    cases move with
    | stays => exact known
    | goes next => exact next.frames known
    | closes site => exact site.frames
    | flushes site unlocked => exact site.frames known
    | throws here left thrown => exact left.frames
    | delivers here returns response => exact fed
    | upgrades here returns response => exact fed
    | pushes site unlocked => exact site.frames known
    | ponged here =>
      rw [here] at known
      exact fun f mem => known f (List.mem_cons_of_mem _ mem)
    | submits here same =>
      rw [here] at known
      exact fun f mem => known f (List.mem_cons_of_mem _ mem)
    | drains | earlyDone | accepted | peerCloses | cleans => trivial

theorem workerMove_ws {config : Config} {s : Server} {w : Nat} {r : Stepped}
    (move : WorkerMove config s w r) (c : ConnRef) : (r.1.objects c).ws = (s.objects c).ws := by
  cases move with
  | enters => exact s.modify_keeps _ (fun c => { c with outbound_mu := some w }) Connection.ws rfl c
  | pushes =>
    exact s.modify_keeps _ (fun c => { c.enqueue _ with outbound_mu := none }) Connection.ws rfl c
  | _ => rfl

theorem addConnection_parsers {config : Config} {s : Server} {cfd : Nat} {now : TimePoint}
    (parsers : ∀ c, Reassembly (s.objects c).ws) (c : ConnRef) :
    Reassembly ((addConnection config s cfd now).objects c).ws := by
  simp only [addConnection, Function.update_apply]
  by_cases new : c = s.allocated
  · rw [if_pos new]
    exact ⟨by simp [Connection.construct], by simp [Connection.construct]⟩
  · rw [if_neg new]
    exact parsers c

theorem step_frames {config : Config} {s : Server} (inv : FrameInv s) (i : Input) :
    FrameInv (step config s i).1 := by
  have move := step_move config s i
  generalize step config s i = r at move ⊢
  cases move with
  | stays => exact inv
  | io sys => exact ioMove_frames inv (ioStep_move config sys s)
  | @worker w real sys =>
    have move := workerStep_move config sys s w
    constructor
    · intro c
      rw [workerMove_ws move c]
      exact inv.parsers c
    · rw [(workerMove_same move).2]
      exact inv.io
  | hangup fd e =>
    refine ⟨?_, trivial⟩
    intro c
    rw [Server.goto_objects, close_ws]
    exact inv.parsers c
  | shakes | reads | timer | wake => exact ⟨inv.parsers, trivial⟩
  | accepts now waits fresh =>
    refine ⟨addConnection_parsers inv.parsers, ?_⟩
    simp only [addConnection, waits, IoFrames]
  | refuses now waits fresh =>
    refine ⟨?_, trivial⟩
    intro c
    rw [Server.goto_objects, close_ws]
    exact addConnection_parsers inv.parsers c

theorem start_frames (disk : FileSystem Bytes) : FrameInv (start disk) :=
  ⟨fun _ => ⟨by simp [start, unallocated], by simp [start, unallocated]⟩, trivial⟩

/-- The states of a server that started with some files on its disk. -/
def Reachable (config : Config) (s : Server) : Prop :=
  Run.Reachable (step config) (fun s => ∃ disk, s = start disk) s

theorem reachable_frames {config : Config} {s : Server} (reachable : Reachable config s) :
    FrameInv s := by
  apply Run.invariant_reachable _ (fun s i inv => step_frames inv i) reachable
  rintro s ⟨disk, rfl⟩
  exact start_frames disk

/-- Over any calls of feed and setOpenMode a parser delivers whole messages of known kinds only,
    so the server never takes up a frame for its unsupported branch. -/
theorem delivered_frames_whole :
    (∀ (ssl : Upgrade.OpenSsl) (env : Upgrade.Environment) (requireMaskFromPeer : Bool)
      (calls : List ParserCall),
      Reassembly (Run.final (callParser ssl env) (construct requireMaskFromPeer) calls) ∧
        ∀ t ∈ Run.steps (callParser ssl env) (construct requireMaskFromPeer) calls,
          ∀ f ∈ t.output, WholeMessage f) ∧
    ∀ (config : Config) (s : Server), Reachable config s →
      ∀ v caller frame frames, s.io = .nextFrame v caller (frame :: frames) →
        frame.opcode ∈ knownOpcodes := by
  constructor
  · exact calls_whole
  · intro config s reachable v caller frame frames here
    have known := (reachable_frames reachable).io
    rw [here] at known
    exact (known frame List.mem_cons_self).opcode

end WssServer
