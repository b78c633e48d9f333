import WebsocketServer.Server.Closing
import WebsocketServer.Server.Frames
import WebsocketServer.Server.Visits
import WebsocketServer.Ws.ServerFrames

/- Everything ever pushed to the outbound queue of a connection, in order: the response to the
   upgrade request, and behind it frames. -/
namespace WssServer
open StreamParser WebSocketCodec Upgrade

def Observation.items (c : ConnRef) : Observation → List Bytes
  | .enqueued c' _ items => if c' = c then items else []
  | .sslWrite _ _ | .peerClose _ | .submitted _ _ _ | .handled _ _ _ => []

def wire (c : ConnRef) (trace : List Observation) : List Bytes := trace.flatMap (·.items c)

/-- The response was pushed, and nothing but frames behind it. -/
def Upgraded (c : ConnRef) (past : List Observation) : Prop :=
  ∃ accept frames, wire c past = acceptResponse accept :: frames ∧ ∀ f ∈ frames, ServerFrame f

theorem wire_append (c : ConnRef) (past out : List Observation) :
    wire c (past ++ out) = wire c past ++ wire c out :=
  List.flatMap_append

theorem wire_silent {c : ConnRef} {out : List Observation} (silent : ∀ o ∈ out, o.items c = []) :
    wire c out = [] :=
  List.flatMap_eq_nil_iff.mpr silent

theorem wire_pushed (c c' : ConnRef) (kind : ItemKind) (items : List Bytes) :
    wire c [.enqueued c' kind items] = if c' = c then items else [] :=
  List.append_nil _

theorem Upgraded.ne_nil {c : ConnRef} {past : List Observation} (upgraded : Upgraded c past) :
    wire c past ≠ [] := by
  obtain ⟨accept, frames, same, _⟩ := upgraded
  rw [same]
  exact List.cons_ne_nil _ _

def Follows (past out : List Observation) : Prop :=
  ∀ c, wire c out = [] ∨ Upgraded c past ∧ ∀ f ∈ wire c out, ServerFrame f

theorem follows_silent {past out : List Observation} (silent : ∀ o ∈ out, ∀ c, o.items c = []) :
    Follows past out :=
  fun c => Or.inl (wire_silent fun o mem => silent o mem c)

theorem follows_push {past : List Observation} {c : ConnRef} {kind : ItemKind} {items : List Bytes}
    (upgraded : Upgraded c past) (frames : ∀ f ∈ items, ServerFrame f) :
    Follows past [.enqueued c kind items] := by
  intro c'
  rw [wire_pushed]
  by_cases same : c = c'
  · rw [if_pos same]
    exact Or.inr ⟨same ▸ upgraded, frames⟩
  · rw [if_neg same]
    exact Or.inl rfl

section
variable {past out : List Observation} {c : ConnRef}

theorem Upgraded.append (upgraded : Upgraded c past) (follows : Follows past out) :
    Upgraded c (past ++ out) := by
  obtain ⟨accept, frames, same, whole⟩ := upgraded
  refine ⟨accept, frames ++ wire c out, by rw [wire_append, same]; rfl, ?_⟩
  intro f mem
  rcases List.mem_append.mp mem with old | new
  · exact whole f old
  · rcases follows c with none | ⟨_, frames⟩
    · rw [none] at new
      contradiction
    · exact frames f new

theorem Follows.untouched (follows : Follows past out) (none : wire c past = []) :
    wire c (past ++ out) = [] := by
  rw [wire_append, none]
  rcases follows c with silent | ⟨upgraded, _⟩
  · exact silent
  · exact absurd none upgraded.ne_nil

theorem upgraded_first {kind : ItemKind} {accept : Bytes} (none : wire c past = []) :
    Upgraded c (past ++ [.enqueued c kind [acceptResponse accept]]) := by
  refine ⟨accept, [], ?_, by simp⟩
  rw [wire_append, none, wire_pushed, if_pos rfl]
  rfl

end

def IoState.upgrading : IoState → Option ConnRef
  | .sendUpgrade v _ _ _ => some v.c
  | _ => none

def Worker.sends : Worker → Option (ConnRef × List Bytes)
  | .replying _ conn frames | .appending _ conn frames => some (conn, frames)
  | .waiting | .fetched _ _ | .locked _ _ | .notifying _ => none

/-- What decides that a connection has left HTTP behind. -/
def Connection.mode (c : Connection) : State × Bool := (c.ws.state_, c.ws_upgraded)

def Switched (c : Connection) : Prop := c.ws.state_ = .Open ∨ c.ws_upgraded = true

theorem switched_same {c c' : Connection} (same : c'.mode = c.mode) (switched : Switched c') :
    Switched c := by
  simp only [Connection.mode, Prod.mk.injEq] at same
  unfold Switched
  rw [← same.1, ← same.2]
  exact switched

structure Unread (s : Server) (c : ConnRef) : Prop where
  old : c < s.allocated
  absent : ∀ fd, s.conns.lookup fd ≠ some c
  unvisited : ∀ v, s.io.visit = some v → s.io.reads = true → v.c ≠ c

def IoWire (past : List Observation) (objects : ConnRef → Connection) : IoState → Prop
  | .sendUpgrade v _ acceptResp _ =>
      wire v.c past = [] ∧ (objects v.c).ws.state_ = .Open ∧
        ∃ accept, acceptResp = acceptResponse accept
  | .nextFrame v _ frames | .flushIfDone v _ frames => frames ≠ [] → Upgraded v.c past
  | .sendClose v _ _ => Upgraded v.c past
  | _ => True

structure Settled (s : Server) : Prop where
  refs : RefInv s
  tls : TlsInv s
  frames : FrameInv s
  visits : VisitsOwn s
  replies : ∀ w t, (s.workers w).sends = some t → ∀ f ∈ t.2, ServerFrame f

structure WireInv (past : List Observation) (s : Server) : Prop where
  settled : Settled s
  streams : ∀ c, wire c past = [] ∨
    Upgraded c past ∧ (s.objects c).ws.state_ = .Open ∧ c < s.allocated
  switched : ∀ c, Switched (s.objects c) →
    Upgraded c past ∨ s.io.upgrading = some c ∨ Unread s c
  io : IoWire past s.objects s.io
  tasks : Outstanding (fun _ task => Upgraded task.weak past) s
  workers : ∀ w t, (s.workers w).sends = some t → Upgraded t.1 past

theorem IoWire.append {past out : List Observation} {objects objects' : ConnRef → Connection}
    {io : IoState} (known : IoWire past objects io) (follows : Follows past out)
    (opened : ∀ c, (objects c).ws.state_ = .Open → (objects' c).ws.state_ = .Open) :
    IoWire (past ++ out) objects' io := by
  cases io with
  | sendUpgrade v caller acceptResp frames =>
    exact ⟨follows.untouched known.1, opened v.c known.2.1, known.2.2⟩
  | nextFrame v caller frames | flushIfDone v caller frames =>
    exact fun some => (known some).append follows
  | sendClose v caller code => exact Upgraded.append known follows
  | _ => trivial

theorem workerStep_replies {config : Config} {sys : FileTransferManager.SysResults} {s : Server}
    (replies : ∀ w t, (s.workers w).sends = some t → ∀ f ∈ t.2, ServerFrame f) (w : Nat) :
    ∀ w' t, ((workerStep config sys s w).1.workers w').sends = some t →
      ∀ f ∈ t.2, ServerFrame f := by
  have own (frames : List Bytes) (ticket : Nat) (conn : ConnRef)
      (whole : ∀ f ∈ frames, ServerFrame f) :
      ∀ t, (Worker.replying ticket conn frames).sends = some t → ∀ f ∈ t.2, ServerFrame f := by
    intro t here
    obtain rfl := Option.some.inj here
    exact whole
  unfold workerStep
  cases state : s.workers w with
  | waiting =>
    dsimp only
    unfold workerLoop
    cases s.pool.take with
    | none => exact replies
    | some taken => exact setWorker_some replies rfl (by simp [Worker.sends])
  | fetched ticket task =>
    dsimp only
    by_cases gone : expired config s task.weak = true
    · rw [if_pos gone]
      exact setWorker_some replies rfl (by simp [Worker.sends])
    · rw [if_neg gone]
      exact setWorker_some replies rfl (by simp [Worker.sends])
  | locked ticket task =>
    obtain ⟨weak, message⟩ := task
    cases message with
    | text payload =>
      apply setWorker_some replies rfl
      apply own
      simp [buildTextFrame_server]
    | binary payload =>
      unfold runTask
      dsimp only
      apply setWorker_some replies rfl
      split
      · simp [Worker.sends]
      · apply own
        intro f mem
        obtain ⟨data, _, rfl⟩ := List.mem_map.mp mem
        exact buildBinaryFrame_server data
  | replying ticket conn frames =>
    apply Server.whenUnlocked_either (P := fun r => ∀ w' t, (r.1.workers w').sends = some t →
      ∀ f ∈ t.2, ServerFrame f) replies
    unfold checkOpen
    dsimp only
    split
    · exact setWorker_some replies rfl (by simp [Worker.sends])
    · apply setWorker_some replies rfl
      intro t here
      exact replies w t (by rw [state]; exact here)
  | appending ticket conn frames => exact setWorker_some replies rfl (by simp [Worker.sends])
  | notifying conn => exact setWorker_some replies rfl (by simp [Worker.sends])

theorem step_settled {config : Config} {s : Server} (settled : Settled s) (i : Input) :
    Settled (step config s i).1 := by
  refine ⟨step_refs settled.refs i, step_inv settled.tls i, step_frames settled.frames i,
    step_visitsOwn settled.tls settled.visits i, ?_⟩
  cases i with
  | worker w sys =>
    unfold step
    by_cases real : w < config.workerCount
    · simp only [if_pos real]
      exact workerStep_replies settled.replies w
    · simp only [if_neg real]
      exact settled.replies
  | _ =>
    rw [(step_main config s (by simp)).workers]
    exact settled.replies

section
variable {past : List Observation} {config : Config} {sys : Answers} {s : Server}
  (inv : WireInv past s)
include inv

theorem WireInv.main {r : Stepped} (settled : Settled r.1) (only : IoOnly s r)
    (kept : AllKept s r.1) (continues : Continues s.io r.1.io)
    (grows : ∀ c, Upgraded c past → Upgraded c (past ++ r.2))
    (begins : ∀ c, wire c past = [] → wire c (past ++ r.2) = [] ∨
      Upgraded c (past ++ r.2) ∧ (r.1.objects c).ws.state_ = .Open ∧ c < s.allocated)
    (pending : ∀ c, s.io.upgrading = some c → Upgraded c (past ++ r.2))
    (switched : ∀ c, Switched (r.1.objects c) →
      Switched (s.objects c) ∨ Upgraded c past ∨ r.1.io.upgrading = some c ∨ Unread r.1 c)
    (io : IoWire (past ++ r.2) r.1.objects r.1.io)
    (submits : ∀ c ticket message, .submitted c ticket message ∈ r.2 → Upgraded c past) :
    WireInv (past ++ r.2) r.1 where
  settled := settled
  streams := by
    intro c
    rw [only.allocated]
    rcases inv.streams c with none | ⟨upgraded, opened, old⟩
    · exact begins c none
    · exact Or.inr ⟨grows c upgraded, (kept c).opened opened, old⟩
  switched := by
    intro c now
    rcases switched c now with before | upgraded | next | unread
    · rcases inv.switched c before with upgraded | next | unread
      · exact Or.inl (grows c upgraded)
      · exact Or.inl (pending c next)
      · refine Or.inr (Or.inr ⟨only.allocated ▸ unread.old, ?_, ?_⟩)
        · exact fun fd found => unread.absent fd (only.conns fd c found)
        · exact fun v held reads =>
            unread.unvisited v (continues v held).1 ((continues v held).2 reads)
    · exact Or.inl (grows c upgraded)
    · exact Or.inr (Or.inl next)
    · exact Or.inr (Or.inr unread)
  io := io
  tasks := by
    apply outstanding_main (inv.tasks.mono fun _ task => grows task.weak)
      ⟨only.workers, only.tasks⟩
    exact fun c ticket message mem => grows c (submits c ticket message mem)
  workers := by
    intro w t here
    rw [only.workers] at here
    exact grows t.1 (inv.workers w t here)

theorem WireInv.follow {r : Stepped} (free : s.io.upgrading = none) (settled : Settled r.1)
    (only : IoOnly s r) (kept : AllKept s r.1) (continues : Continues s.io r.1.io)
    (follows : Follows past r.2)
    (switched : ∀ c, Switched (r.1.objects c) →
      Switched (s.objects c) ∨ Upgraded c past ∨ r.1.io.upgrading = some c ∨ Unread r.1 c)
    (io : IoWire past r.1.objects r.1.io)
    (submits : ∀ c ticket message, .submitted c ticket message ∈ r.2 → Upgraded c past) :
    WireInv (past ++ r.2) r.1 := by
  apply inv.main settled only kept continues _ _ _ switched (io.append follows fun _ => id) submits
  · exact fun c upgraded => upgraded.append follows
  · exact fun c none => Or.inl (follows.untouched none)
  · intro c next
    rw [free] at next
    contradiction

end

theorem close_mode (s : Server) (fd : Nat) (c : ConnRef) :
    ((s.closeConnection fd).objects c).mode = (s.objects c).mode :=
  s.close_keeps fd Connection.mode (fun _ => rfl) c

theorem Pushes.mode {sys : Answers} {s s' : Server} {at' io : IoState} {c : ConnRef}
    {kind : ItemKind} {item : Bytes} (site : Pushes sys s at' s' c kind item io) (other : ConnRef) :
    (s'.objects other).mode = (s.objects other).mode := by
  cases site with
  | upgrade | unsupported | closeReply => rfl
  | pong | ping => exact s.modify_keeps _ _ Connection.mode rfl other

theorem sslWrites_items (s : Server) (ref : ConnRef) (r : Flushed) :
    ∀ o ∈ s.sslWrites ref r, ∀ c, o.items c = [] := by
  intro o mem c
  rw [(List.mem_replicate.mp mem).2]
  rfl

theorem sslWrites_submits {s : Server} {ref c : ConnRef} {r : Flushed} {ticket : Nat}
    {message : Message} : .submitted c ticket message ∉ s.sslWrites ref r := by
  simp [Server.sslWrites]

theorem sent_mode (s : Server) (c : ConnRef) (r : Flushed) (other : ConnRef) :
    ((s.sent c r).objects other).mode = (s.objects other).mode :=
  s.modify_keeps c (fun conn => { conn with outbound := r.outbound }) Connection.mode rfl other

theorem takeParser_mode (s : Server) {c other : ConnRef} (r : FeedResult) (apart : other ≠ c) :
    ((takeParser s c r).objects other).mode = (s.objects other).mode := by
  simp only [takeParser, Server.modify_objects, if_neg apart]

theorem Next.wire {past : List Observation} {config : Config} {s : Server} {at' io : IoState}
    (next : Next config s at' io) (known : IoWire past s.objects at') :
    IoWire past s.objects io := by
  cases next with
  | keepsOutput => exact known
  | _ => trivial

theorem Closes.wire {past : List Observation} {objects : ConnRef → Connection}
    {at' io : IoState} {fd : Nat} (site : Closes at' fd io) : IoWire past objects io := by
  cases site <;> trivial

theorem Flushes.wire {past : List Observation} {s : Server} {objects : ConnRef → Connection}
    {at' io : IoState} {c : ConnRef} (site : Flushes s at' c io)
    (known : IoWire past s.objects at') : IoWire past objects io := by
  cases site with
  | pushed => exact known
  | _ => trivial

theorem LeavesBroken.wire {past : List Observation} {objects : ConnRef → Connection} {v : Visit}
    {caller : Caller} {io : IoState} (left : LeavesBroken v caller io) :
    IoWire past objects io := by
  cases left <;> trivial

/- One connection left HTTP behind, or its own clause says why not. -/
theorem switched_except {past : List Observation} {s s' : Server} {ref : ConnRef}
    (others : ∀ c, c ≠ ref → (s'.objects c).mode = (s.objects c).mode)
    (own : Switched (s'.objects ref) → Switched (s.objects ref) ∨ Upgraded ref past ∨
      s'.io.upgrading = some ref ∨ Unread s' ref) :
    ∀ c, Switched (s'.objects c) →
      Switched (s.objects c) ∨ Upgraded c past ∨ s'.io.upgrading = some c ∨ Unread s' c := by
  intro c now
  by_cases same : c = ref
  · rw [same] at now ⊢
    exact own now
  · exact Or.inl (switched_same (others c same) now)

section
variable {past : List Observation} {config : Config} {sys : Answers} {s : Server} {v : Visit}
  {caller : Caller} {buf : Bytes} (inv : WireInv past s)
include inv

/- What one read makes of a connection: it was upgraded before, it still waits for the rest of
   the request, or its response is due and the first thing to push. -/
theorem read_cases (config : Config) (sys : Answers) (here : s.io = .inbound v caller buf) :
    (Upgraded v.c past ∧ (s.fed config sys v buf).outAcceptResponse = []) ∨
    ((s.fed config sys v buf).parser.state_ = (s.objects v.c).ws.state_ ∧
      (s.fed config sys v buf).outAcceptResponse = [] ∧
      (s.fed config sys v buf).outFrames = []) ∨
    (wire v.c past = [] ∧ (s.fed config sys v buf).parser.state_ = .Open ∧
      ∃ accept, (s.fed config sys v buf).outAcceptResponse = acceptResponse accept) := by
  cases mode : (s.objects v.c).ws.state_ with
  | Open =>
    left
    refine ⟨?_, (feed_stays_open _ _ _ _ mode buf).2⟩
    rcases inv.switched v.c (Or.inl mode) with upgraded | next | unread
    · exact upgraded
    · rw [here] at next
      contradiction
    · exact absurd rfl (unread.unvisited v (by rw [here]; rfl) (by rw [here]; rfl))
  | AwaitingHttpUpgrade =>
    right
    have untouched : wire v.c past = [] := by
      rcases inv.streams v.c with none | ⟨_, opened, _⟩
      · exact none
      · rw [mode] at opened
        contradiction
    rcases feed_answers config.ssl config.env sys.now_seconds s.seen mode buf with
      ⟨waits, silent, none⟩ | ⟨opened, accept, response⟩
    · exact Or.inl ⟨waits, silent, none⟩
    · exact Or.inr ⟨untouched, opened, accept, response⟩

/- A connection on which the parser threw is in the table no more, nor read from. -/
theorem throws_unread {io : IoState} (here : s.io = .inbound v caller buf)
    (left : LeavesBroken v caller io) (r : FeedResult) :
    Unread (((takeParser s v.c r).closeConnection v.fd).goto io) v.c := by
  have table := sameTable_close (sameTable_takeParser s v.c r) v.fd
  refine ⟨?_, ?_, ?_⟩
  · have held := inv.settled.refs.io v.c (by rw [here]; rfl)
    exact lt_of_lt_of_eq held table.allocated.symm
  · intro fd found
    have old := table.conns fd v.c found
    obtain rfl := (inv.settled.visits v (by rw [here]; rfl) fd v.c old).mpr rfl
    have absent := close_absent (takeParser s v.c r) v.fd
    exact absurd (absent.symm.trans found) (by simp)
  · intro v' _ reads
    rw [Server.goto_io, left.reads] at reads
    contradiction

theorem WireInv.stays : WireInv (past ++ []) s := by
  rw [List.append_nil]
  exact inv

/- Where the response is already there the frames may be pushed; where it is not, there are none. -/
theorem delivers_wire {r : Stepped} (free : s.io.upgrading = none) (settled : Settled r.1)
    (here : s.io = .inbound v caller buf)
    (response : (s.fed config sys v buf).outAcceptResponse = [])
    (run : r = ((takeParser s v.c (s.fed config sys v buf)).goto
      (.nextFrame v caller (s.fed config sys v buf).outFrames), []))
    (only : IoOnly s r) (kept : AllKept s r.1) (continues : Continues s.io r.1.io) :
    WireInv (past ++ r.2) r.1 := by
  have cases := read_cases inv config sys here
  subst run
  apply inv.follow free settled only kept continues (follows_silent (by simp))
  · apply switched_except
    · exact fun c other => takeParser_mode s _ other
    · intro now
      rcases cases with ⟨upgraded, _⟩ | ⟨waits, _, _⟩ | ⟨_, _, accept, some⟩
      · exact Or.inr (Or.inl upgraded)
      · refine Or.inl (switched_same ?_ now)
        simp only [Connection.mode, Server.goto_objects, takeParser, Server.modify_self, waits]
      · rw [response] at some
        exact absurd some.symm (acceptResponse_ne_nil accept)
  · intro frames
    rcases cases with ⟨upgraded, _⟩ | ⟨_, _, none⟩ | ⟨_, _, accept, some⟩
    · exact upgraded
    · contradiction
    · rw [response] at some
      exact absurd some.symm (acceptResponse_ne_nil accept)
  · simp

theorem upgrades_wire {r : Stepped} (free : s.io.upgrading = none) (settled : Settled r.1)
    (here : s.io = .inbound v caller buf)
    (response : (s.fed config sys v buf).outAcceptResponse ≠ [])
    (run : r = (((takeParser s v.c (s.fed config sys v buf)).modify v.c fun c =>
        { c with ws_upgraded := true, last_server_ping_sent := sys.now }).goto
      (.sendUpgrade v caller (s.fed config sys v buf).outAcceptResponse
        (s.fed config sys v buf).outFrames), []))
    (only : IoOnly s r) (kept : AllKept s r.1) (continues : Continues s.io r.1.io) :
    WireInv (past ++ r.2) r.1 := by
  have cases := read_cases inv config sys here
  subst run
  apply inv.follow free settled only kept continues (follows_silent (by simp))
  · apply switched_except
    · intro c other
      rw [Server.goto_objects, Server.modify_objects, if_neg other]
      exact takeParser_mode s _ other
    · exact fun _ => Or.inr (Or.inr (Or.inl rfl))
  · rcases cases with ⟨_, none⟩ | ⟨_, none, _⟩ | ⟨untouched, opened, some⟩
    · exact absurd none response
    · exact absurd none response
    · refine ⟨untouched, ?_, some⟩
      simp only [Server.goto_objects, Server.modify_self, takeParser, opened]
  · simp

theorem pushes_frame {s' : Server} {c : ConnRef} {kind : ItemKind} {item : Bytes} {io : IoState}
    (site : Pushes sys s s.io s' c kind item io) (free : s.io.upgrading = none) :
    Upgraded c past ∧ ServerFrame item := by
  have known := inv.io
  have frames := inv.settled.frames.io
  generalize here : s.io = at' at site known free frames
  cases site with
  | upgrade => contradiction
  | @pong v caller frame rest ping =>
    have control := (frames frame List.mem_cons_self).control (by rw [ping]; decide)
    exact ⟨known (List.cons_ne_nil _ _), buildPong_server control⟩
  | unsupported => exact ⟨known (List.cons_ne_nil _ _), buildTextFrame_server _⟩
  | closeReply => exact ⟨known, buildClose_server _⟩
  | @ping now all fd todo ref found done upgraded open' =>
    refine ⟨?_, buildPing_server (by simp)⟩
    rcases inv.switched c (Or.inr upgraded) with up | next | unread
    · exact up
    · rw [here] at next
      contradiction
    · exact absurd found (unread.absent fd)

theorem Pushes.wire {s' : Server} {c : ConnRef} {kind : ItemKind} {item : Bytes} {io : IoState}
    (site : Pushes sys s s.io s' c kind item io) (free : s.io.upgrading = none)
    (objects : ConnRef → Connection) : IoWire past objects io := by
  have known := inv.io
  generalize s.io = at' at site known free
  cases site with
  | upgrade => contradiction
  | pong | unsupported => exact fun _ => known (List.cons_ne_nil _ _)
  | closeReply =>
    intro some
    contradiction
  | ping => trivial

theorem ioMove_wire {r : Stepped} (move : IoMove config sys s r) (free : s.io.upgrading = none)
    (settled : Settled r.1) : WireInv (past ++ r.2) r.1 := by
  have only := ioMove_only move
  have kept := ioMove_kept move
  have continues := ioMove_continues move
  have quiet (silent : ∀ o ∈ r.2, ∀ c, o.items c = [])
      (mode : ∀ c, (r.1.objects c).mode = (s.objects c).mode) :=
    inv.follow free settled only kept continues (follows_silent silent)
      fun c now => Or.inl (switched_same (mode c) now)
  have moved {s' : Server} {c' : ConnRef} {f : Connection → Connection} {io : IoState}
      (keeps : (f (s'.objects c')).mode = (s'.objects c').mode) (c : ConnRef) :
      (((s'.modify c' f).goto io).objects c).mode = (s'.objects c).mode :=
    s'.modify_keeps c' f Connection.mode keeps c
  have known := inv.io
  cases move with
  | stays => exact inv.stays
  | goes next => exact quiet (by simp) (fun _ => rfl) (next.wire inv.io) (by simp)
  | closes site => exact quiet (by simp) (close_mode s _) site.wire (by simp)
  | flushes site unlocked =>
    apply quiet (sslWrites_items s _ _) (sent_mode s _ _) (site.wire inv.io)
    exact fun c ticket message mem => absurd mem sslWrites_submits
  | drains site out closing =>
    apply quiet (sslWrites_items s _ _) _ trivial
    · exact fun c ticket message mem => absurd mem sslWrites_submits
    · exact fun c => (close_mode _ _ c).trans (sent_mode s _ _ c)
  | earlyDone | accepted => exact quiet (by simp) (moved (by rfl)) trivial (by simp)
  | @throws v caller buf what io here left thrown =>
    apply inv.follow free settled only kept continues (follows_silent (by simp))
    · apply switched_except
      · exact fun c other => (close_mode _ _ c).trans (takeParser_mode s _ other)
      · exact fun _ => Or.inr (Or.inr (Or.inr (throws_unread inv here left _)))
    · exact left.wire
    · simp
  | delivers here returns response =>
    exact delivers_wire inv free settled here response rfl only kept continues
  | upgrades here returns response =>
    exact upgrades_wire inv free settled here response rfl only kept continues
  | pushes site unlocked =>
    obtain ⟨upgraded, frame⟩ := pushes_frame inv site free
    apply inv.follow free settled only kept continues
    · apply follows_push upgraded
      intro f mem
      rw [List.mem_singleton.mp mem]
      exact frame
    · intro c now
      left
      refine switched_same ?_ now
      rw [← site.mode c]
      exact moved (by rfl) c
    · exact site.wire inv free _
    · simp [sendItem]
  | ponged here =>
    rw [here] at known
    exact quiet (by simp) (moved (by rfl)) (fun _ => known (List.cons_ne_nil _ _)) (by simp)
  | peerCloses here close =>
    rw [here] at known
    exact quiet (by simp [Observation.items]) (moved (by rfl)) (known (List.cons_ne_nil _ _))
      (by simp)
  | @submits v caller frame frames message here same =>
    rw [here] at known
    have upgraded : Upgraded v.c past := known (List.cons_ne_nil _ _)
    apply quiet
    · simp [submitTask, Observation.items]
    · exact s.modify_keeps v.c (fun c => { c with last_ping := sys.now }) Connection.mode rfl
    · exact fun _ => upgraded
    · intro c ticket message mem
      obtain ⟨rfl, _⟩ : c = v.c ∧ _ := by simpa using List.mem_singleton.mp mem
      exact upgraded
  | cleans here => exact quiet (by simp) (fun _ => rfl) trivial (by simp)

theorem sendUpgrade_wire {acceptResp : Bytes} {frames : List WsFrame} {r : Stepped}
    (here : s.io = .sendUpgrade v caller acceptResp frames) (settled : Settled r.1)
    (run : r = sendItem s v.c .upgrade acceptResp (.flushIfDone v caller frames))
    (only : IoOnly s r) (kept : AllKept s r.1) (continues : Continues s.io r.1.io) :
    WireInv (past ++ r.2) r.1 := by
  have known := inv.io
  rw [here] at known
  obtain ⟨untouched, opened, accept, rfl⟩ := known
  have upgraded : Upgraded v.c (past ++ r.2) := by
    subst run
    exact upgraded_first untouched
  have others {c : ConnRef} (other : c ≠ v.c) : wire c (past ++ r.2) = wire c past := by
    subst run
    rw [wire_append, sendItem, wire_pushed, if_neg (Ne.symm other), List.append_nil]
  apply inv.main settled only kept continues
  · intro c up
    by_cases same : c = v.c
    · exact same ▸ upgraded
    · unfold Upgraded
      rw [others same]
      exact up
  · intro c none
    by_cases same : c = v.c
    · subst same
      exact Or.inr ⟨upgraded, (kept v.c).opened opened,
        inv.settled.refs.io v.c (by rw [here]; rfl)⟩
    · exact Or.inl ((others same).trans none)
  · intro c next
    rw [here] at next
    obtain rfl := Option.some.inj next
    exact upgraded
  · intro c now
    left
    subst run
    exact switched_same (s.modify_keeps v.c (·.enqueue _) Connection.mode rfl c) now
  · subst run
    exact fun _ => upgraded
  · subst run
    simp [sendItem]

theorem ioStep_wire (settled : Settled (ioStep config sys s).1) :
    WireInv (past ++ (ioStep config sys s).2) (ioStep config sys s).1 := by
  have move := ioStep_move config sys s
  cases pending : s.io.upgrading with
  | none => exact ioMove_wire inv move pending settled
  | some c =>
    cases here : s.io with
    | sendUpgrade v caller acceptResp frames =>
      have run : ioStep config sys s = s.whenUnlocked v.c
          (sendItem s v.c .upgrade acceptResp (.flushIfDone v caller frames)) := by
        unfold ioStep
        rw [here]
      rcases s.whenUnlocked_cases v.c
        (sendItem s v.c .upgrade acceptResp (.flushIfDone v caller frames)) with
        ⟨_, taken⟩ | ⟨_, blocked⟩
      · exact sendUpgrade_wire inv here settled (run.trans taken) (ioMove_only move)
          (ioMove_kept move) (ioMove_continues move)
      · rw [run, blocked]
        exact inv.stays
    | _ =>
      rw [here] at pending
      contradiction

theorem workerMove_follows {w : Nat} {r : Stepped} (move : WorkerMove config s w r) :
    Follows past r.2 := by
  cases move with
  | pushes inside =>
    have sends := congrArg Worker.sends inside
    exact follows_push (inv.workers w _ sends) (inv.settled.replies w _ sends)
  | handles => exact follows_silent (by simp [Observation.items])
  | _ => exact follows_silent (by simp)

theorem workerMove_sends {w : Nat} {r : Stepped} (move : WorkerMove config s w r) :
    ∀ w' t, (r.1.workers w').sends = some t → Upgraded t.1 past := by
  cases move with
  | stays => exact inv.workers
  | takes | drops | locks | refuses | returns =>
    exact setWorker_some inv.workers rfl (by simp [Worker.sends])
  | @handles ticket task next fileManager locked after =>
    have upgraded := inv.tasks.workers w (ticket, task) (by rw [locked]; rfl)
    apply setWorker_some inv.workers rfl
    rcases after with rfl | ⟨frames, rfl⟩
    · simp [Worker.sends]
    · intro t here
      obtain rfl := Option.some.inj here
      exact upgraded
  | enters ready unlocked open' =>
    apply setWorker_some inv.workers rfl
    intro t here
    exact inv.workers w t (by rw [ready]; exact here)
  | pushes inside => exact setWorker_some inv.workers rfl (by simp [Worker.sends])

theorem workerMove_wire {w : Nat} {r : Stepped} (move : WorkerMove config s w r)
    (settled : Settled r.1) : WireInv (past ++ r.2) r.1 := by
  have follows := workerMove_follows inv move
  obtain ⟨conns, io, allocated⟩ := workerMove_table move
  have mode (c : ConnRef) : (r.1.objects c).mode = (s.objects c).mode := by
    cases move with
    | enters =>
      exact s.modify_keeps _ (fun c => { c with outbound_mu := some w }) Connection.mode rfl c
    | pushes =>
      exact s.modify_keeps _ (fun c => { c.enqueue _ with outbound_mu := none }) Connection.mode
        rfl c
    | _ => rfl
  have opened (c : ConnRef) (before : (s.objects c).ws.state_ = .Open) :
      (r.1.objects c).ws.state_ = .Open := (congrArg Prod.fst (mode c)).trans before
  refine ⟨settled, ?_, ?_, ?_, ?_, ?_⟩
  · intro c
    rw [allocated]
    rcases inv.streams c with none | ⟨upgraded, before, old⟩
    · exact Or.inl (follows.untouched none)
    · exact Or.inr ⟨upgraded.append follows, opened c before, old⟩
  · intro c now
    rw [io]
    rcases inv.switched c (switched_same (mode c) now) with upgraded | next | unread
    · exact Or.inl (upgraded.append follows)
    · exact Or.inr (Or.inl next)
    · exact Or.inr (Or.inr ⟨allocated ▸ unread.old, conns ▸ unread.absent, io ▸ unread.unvisited⟩)
  · rw [io]
    exact inv.io.append follows opened
  · exact (outstanding_worker inv.tasks move).1.mono fun _ _ upgraded => upgraded.append follows
  · exact fun w' t here => (workerMove_sends inv move w' t here).append follows

theorem visit_wire {fd : Nat} {c : ConnRef} {e : Events} {io : IoState} (waits : s.io = .epollWait)
    (found : s.conns.lookup fd = some c) (begins : io.visit = some ⟨fd, c, e⟩)
    (calm : IoWire past s.objects io) (settled : Settled (s.goto io)) :
    WireInv (past ++ []) (s.goto io) := by
  rw [List.append_nil]
  refine ⟨settled, inv.streams, ?_, calm, ⟨inv.tasks.pool, inv.tasks.workers⟩, inv.workers⟩
  intro c' now
  rcases inv.switched c' now with upgraded | next | unread
  · exact Or.inl upgraded
  · rw [waits] at next
    contradiction
  · refine Or.inr (Or.inr ⟨unread.old, unread.absent, ?_⟩)
    rintro v held _ rfl
    obtain rfl := Option.some.inj (begins.symm.trans held)
    exact unread.absent fd found

theorem addConnection_wire {cfd : Nat} {now : TimePoint} (waits : s.io = .epollWait)
    (settled : Settled (addConnection config s cfd now)) :
    WireInv past (addConnection config s cfd now) := by
  have old {c : ConnRef} (before : c < s.allocated) :
      (addConnection config s cfd now).objects c = s.objects c :=
    addConnection_other (Nat.ne_of_lt before)
  refine ⟨settled, ?_, ?_, ?_, ⟨inv.tasks.pool, inv.tasks.workers⟩, inv.workers⟩
  · intro c
    rcases inv.streams c with none | ⟨upgraded, opened, before⟩
    · exact Or.inl none
    · exact Or.inr ⟨upgraded, by rw [old before]; exact opened, Nat.lt_succ_of_lt before⟩
  · intro c switched
    by_cases new : c = s.allocated
    · subst new
      simp [addConnection, Switched, Connection.construct] at switched
    · rw [addConnection_other new] at switched
      rcases inv.switched c switched with upgraded | next | unread
      · exact Or.inl upgraded
      · exact Or.inr (Or.inl next)
      · refine Or.inr (Or.inr ⟨Nat.lt_succ_of_lt unread.old, ?_, unread.unvisited⟩)
        intro fd found
        by_cases here : fd = cfd
        · rw [here] at found
          simp only [addConnection, AList.lookup_insert, Option.some.injEq] at found
          exact new found.symm
        · simp only [addConnection, AList.lookup_insert_ne here] at found
          exact unread.absent fd found
  · simp only [addConnection, waits, IoWire]

theorem interrupts_wire {r : Stepped} (waits : s.io = .epollWait) (settled : Settled r.1)
    (only : IoOnly s r) (kept : AllKept s r.1) (out : r.2 = [])
    (mode : ∀ c, (r.1.objects c).mode = (s.objects c).mode) (ended : r.1.io.visit = none)
    (calm : IoWire past r.1.objects r.1.io) : WireInv (past ++ r.2) r.1 := by
  apply inv.follow (by rw [waits]; rfl) settled only kept (continues_ended ended) _
    (fun c now => Or.inl (switched_same (mode c) now)) calm
  · simp [out]
  · exact follows_silent (by simp [out])

end

theorem arrival_waits (config : Config) (s : Server) {i : Input} (io : ∀ sys, i ≠ .io sys)
    (worker : ∀ w sys, i ≠ .worker w sys) :
    s.io = .epollWait ∨ step config s i = (s, []) := by
  cases i with
  | io sys => exact absurd rfl (io sys)
  | worker w sys => exact absurd rfl (worker w sys)
  | _ =>
    unfold step
    cases s.io with
    | epollWait => exact Or.inl rfl
    | _ => exact Or.inr rfl

theorem step_wire {past : List Observation} {config : Config} {s : Server} (inv : WireInv past s)
    (i : Input) : WireInv (past ++ (step config s i).2) (step config s i).1 := by
  have settled : Settled (step config s i).1 := step_settled inv.settled i
  have waits := arrival_waits config s (i := i)
  have move := step_move config s i
  generalize step config s i = r at move settled waits ⊢
  have arrives (io : ∀ sys, i ≠ .io sys) (worker : ∀ w sys, i ≠ .worker w sys)
      (taken : s.io = .epollWait → WireInv (past ++ r.2) r.1) : WireInv (past ++ r.2) r.1 := by
    rcases waits io worker with here | still
    · exact taken here
    · rw [still]
      exact inv.stays
  cases move with
  | stays => exact inv.stays
  | io sys => exact ioStep_wire inv settled
  | worker real sys => exact workerMove_wire inv (workerStep_move config sys s _) settled
  | hangup fd e =>
    exact arrives (by simp) (by simp) fun here =>
      interrupts_wire inv here settled (hangup_only s fd) (kept_close s fd) rfl (close_mode s fd)
        rfl trivial
  | shakes e found undone =>
    exact arrives (by simp) (by simp) fun here => visit_wire inv here found rfl trivial settled
  | reads e found done =>
    exact arrives (by simp) (by simp) fun here => visit_wire inv here found rfl trivial settled
  | accepts now here fresh =>
    rw [List.append_nil]
    exact addConnection_wire inv here settled
  | @refuses cfd now here fresh =>
    have added : Settled (step config s (.listen cfd now true)).1 := step_settled inv.settled _
    unfold step listen at added
    simp only [here, if_neg fresh, ↓reduceIte] at added
    exact interrupts_wire (addConnection_wire inv here added) here settled (hangup_only _ cfd)
      (kept_close _ cfd) rfl (close_mode _ cfd) rfl trivial
  | timer now order =>
    exact arrives (by simp) (by simp) fun here =>
      interrupts_wire inv here settled (goto_only (released rfl)) (fun _ => kept_refl _) rfl
        (fun _ => rfl) rfl trivial
  | wake order =>
    exact arrives (by simp) (by simp) fun here =>
      interrupts_wire inv here settled (goto_only (released rfl)) (fun _ => kept_refl _) rfl
        (fun _ => rfl) rfl trivial

theorem start_wire (disk : FileSystem Bytes) : WireInv [] (start disk) where
  settled := ⟨start_refs disk, start_tls disk, start_frames disk, visitsOwn_ended rfl,
    by simp [start, Worker.sends]⟩
  streams := fun _ => Or.inl rfl
  switched := by simp [start, unallocated, Switched]
  io := trivial
  tasks := ⟨by simp [start, ThreadPool.empty], by simp [start, Worker.task]⟩
  workers := by simp [start, Worker.sends]

/-- Whatever a client sends and however the threads interleave, all that is ever pushed to the
    queue of a connection is one upgrade response and, behind it, unmasked final frames. -/
theorem stream_well_formed (config : Config) (disk : FileSystem Bytes) (inputs : List Input)
    (c : ConnRef) :
    let items := wire c (Run.trace (step config) (start disk) inputs)
    items = [] ∨ ∃ accept frames, items = acceptResponse accept :: frames ∧
      ∀ f ∈ frames, ServerFrame f ∧ ∀ other, f ≠ acceptResponse other := by
  intro items
  have keeps (past : List Observation) (s : Server) (i : Input) (inv : WireInv past s) (_ : True) :
      WireInv (past ++ (step config s i).2) (step config s i).1 := step_wire inv i
  have allowed : ∀ t ∈ Run.steps (step config) (start disk) inputs, True := fun _ _ => trivial
  have last := Run.invariant_trace WireInv (fun _ _ => True) keeps (start_wire disk) allowed
  rcases last.streams c with none | ⟨⟨accept, frames, same, whole⟩, _⟩
  · exact Or.inl none
  · exact Or.inr ⟨accept, frames, same,
      fun f mem => ⟨whole f mem, serverFrame_not_response (whole f mem)⟩⟩

/- The upgrade, and a Ping answered behind it. -/
example :
    wire 0 (Run.trace (step plainConfig) (start .empty) (upgradeRun ++
      [.io { quiet with read := .ret (buildClientPing none [7]) }, .io quiet, .io quiet])) =
      [acceptResponse (CString.bytes "s3pPLMBiTxaQ9kYGzzhZRbK+xOo="), [0x8A, 1, 7]] := by
  decide +kernel

end WssServer
