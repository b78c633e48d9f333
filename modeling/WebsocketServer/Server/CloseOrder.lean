import WebsocketServer.Library.Run
import WebsocketServer.Library.Trace
import WebsocketServer.Server.Closing
import WebsocketServer.Server.EarlyWrites

/- What the server still does on a connection after a Close frame. -/
namespace WssServer
open StreamParser WebSocketCodec

/-- Once the Close reply is in the queue nothing else is pushed to it. -/
def NothingAfterClose (trace : List Observation) : Prop :=
  ∀ before after c kind items, trace = before ++ .enqueued c kind items :: after →
    ∀ reply, Observation.enqueued c .closeReply reply ∉ before

/-- A binary message handed to handleClientMessage was received before any Close frame. -/
def HandedBeforeClose (trace : List Observation) : Prop :=
  ∀ before after c ticket payload, trace = before ++ .handled c ticket (.binary payload) :: after →
    Trace.Ahead (· = .peerClose c) (.submitted c ticket (.binary payload)) before

def CloseRespected (before : List Observation) : Observation → Prop
  | .enqueued c _ _ => ∀ reply, .enqueued c .closeReply reply ∉ before
  | .handled c ticket (.binary payload) =>
      Trace.Ahead (· = .peerClose c) (.submitted c ticket (.binary payload)) before
  | .handled _ _ (.text _) | .sslWrite _ _ | .peerClose _ | .submitted _ _ _ => True

theorem respected_iff (trace : List Observation) :
    Trace.Justified CloseRespected trace ↔ NothingAfterClose trace ∧ HandedBeforeClose trace := by
  constructor
  · intro justified
    exact ⟨fun before after c kind items same => justified before _ after same,
      fun before after c ticket payload same => justified before _ after same⟩
  · intro ⟨nothing, handed⟩ before o after same
    cases o with
    | enqueued c kind items => exact nothing before after c kind items same
    | handled c ticket message =>
      cases message with
      | text payload => trivial
      | binary payload => exact handed before after c ticket payload same
    | sslWrite | peerClose | submitted => trivial

/-- The step takes up a frame other than text or Pong on a connection that is closing already. -/
def takesAfterClose (s : Server) : Input → Bool
  | .io _ =>
      match s.io with
      | .nextFrame v _ (frame :: _) =>
          (s.objects v.c).closing && frame.opcode != 0x1 && frame.opcode != 0xA
      | _ => false
  | _ => false

def IoClose (past : List Observation) (objects : ConnRef → Connection) : IoState → Prop
  | .sendUpgrade v _ _ _ => .peerClose v.c ∉ past ∧ (objects v.c).ws.state_ = .Open
  | .sendClose v _ _ =>
      .peerClose v.c ∈ past ∧ ∀ reply, .enqueued v.c .closeReply reply ∉ past
  | .nextFrame v _ frames | .flushIfDone v _ frames =>
      frames ≠ [] → (objects v.c).ws.state_ = .Open
  | _ => True

def InTime (past : List Observation) (ticket : Nat) (task : Task) : Prop :=
  ∀ payload, task.message = .binary payload →
    Trace.Ahead (· = .peerClose task.weak) (.submitted task.weak ticket (.binary payload)) past

structure CloseInv (past : List Observation) (s : Server) : Prop where
  refs : RefInv s
  respected : Trace.Justified CloseRespected past
  closed : ∀ c, .peerClose c ∈ past →
    (s.objects c).closing = true ∧ (s.objects c).ws.state_ = .Open ∧ c < s.allocated
  replied : ∀ c reply, .enqueued c .closeReply reply ∈ past → .peerClose c ∈ past
  io : IoClose past s.objects s.io
  inside : ∀ w ticket c frames, s.workers w = .appending ticket c frames →
    (s.objects c).outbound_mu = some w ∧ ∀ reply, .enqueued c .closeReply reply ∉ past
  tasks : Outstanding (InTime past) s

theorem InTime.append {past : List Observation} {ticket : Nat} {task : Task}
    (inTime : InTime past ticket task) (out : List Observation) :
    InTime (past ++ out) ticket task :=
  fun payload message => (inTime payload message).append out

section
variable {past : List Observation} {config : Config} {s : Server} (inv : CloseInv past s)
include inv

theorem open_unclosed {c : ConnRef} (open' : (s.objects c).closing = false) :
    .peerClose c ∉ past := by
  intro mem
  have closing := (inv.closed c mem).1
  rw [open'] at closing
  contradiction

theorem unclosed_unreplied {c : ConnRef} (unclosed : .peerClose c ∉ past) (reply : List Bytes) :
    .enqueued c .closeReply reply ∉ past :=
  fun mem => unclosed (inv.replied c reply mem)

/- One step of the IO thread: what it puts out has to respect the Close frames so far. -/
theorem CloseInv.main {r : Stepped} (refs : RefInv r.1) (only : IoOnly s r)
    (kept : AllKept s r.1) (io : IoClose (past ++ r.2) r.1.objects r.1.io)
    (respects : ∀ before o after, r.2 = before ++ o :: after → CloseRespected (past ++ before) o)
    (closes : ∀ c, .peerClose c ∈ r.2 → (r.1.objects c).closing = true ∧
      (r.1.objects c).ws.state_ = .Open ∧ c < r.1.allocated)
    (replies : ∀ c reply, .enqueued c .closeReply reply ∈ r.2 →
      .peerClose c ∈ past ∧ (s.objects c).outbound_mu = none)
    (submits : ∀ c ticket payload, .submitted c ticket (.binary payload) ∈ r.2 →
      .peerClose c ∉ past) : CloseInv (past ++ r.2) r.1 where
  refs := refs
  respected := Trace.justified_append inv.respected respects
  closed := by
    intro c mem
    rcases List.mem_append.mp mem with old | new
    · obtain ⟨closing, opened, bound⟩ := inv.closed c old
      exact ⟨(kept c).closing closing, (kept c).opened opened, only.allocated ▸ bound⟩
    · exact closes c new
  replied := by
    intro c reply mem
    rcases List.mem_append.mp mem with old | new
    · exact List.mem_append_left _ (inv.replied c reply old)
    · exact List.mem_append_left _ (replies c reply new).1
  io := io
  inside := by
    intro w ticket c frames here
    rw [only.workers] at here
    obtain ⟨holder, none⟩ := inv.inside w ticket c frames here
    refine ⟨(kept c).outbound_mu.trans holder, ?_⟩
    intro reply mem
    rcases List.mem_append.mp mem with old | new
    · exact none reply old
    · have free := (replies c reply new).2
      rw [holder] at free
      contradiction
  tasks := by
    apply outstanding_main (inv.tasks.mono fun _ _ inTime => inTime.append r.2)
      ⟨only.workers, only.tasks⟩
    intro c ticket message mem payload binary
    obtain rfl : message = .binary payload := binary
    rcases only.tasks with ⟨_, plain⟩ | ⟨_, _, _, _, out⟩
    · exact absurd (plain _ mem) (by simp [Plain])
    · rw [out] at mem ⊢
      rw [← List.mem_singleton.mp mem]
      apply Trace.ahead_last
      rintro _ old rfl
      exact submits c ticket payload (by rw [out]; exact mem) old

theorem CloseInv.silent {r : Stepped} (refs : RefInv r.1) (only : IoOnly s r)
    (kept : AllKept s r.1) (writes : ∀ o ∈ r.2, ∃ c done, o = .sslWrite c done)
    (io : IoClose past r.1.objects r.1.io) : CloseInv (past ++ r.2) r.1 := by
  have other {o : Observation} (mem : o ∈ r.2) (not : ∀ c done, o ≠ .sslWrite c done) : False := by
    obtain ⟨c, done, same⟩ := writes o mem
    exact not c done same
  have still {o : Observation} (not : ∀ c done, o ≠ .sslWrite c done) :
      o ∈ past ++ r.2 ↔ o ∈ past := by
    rw [List.mem_append]
    constructor
    · intro mem
      rcases mem with old | new
      · exact old
      · exact (other new not).elim
    · exact Or.inl
  apply inv.main refs only kept
  · revert io
    cases r.1.io with
    | sendUpgrade v caller acceptResp frames =>
      intro io
      exact ⟨fun mem => io.1 ((still (by simp)).mp mem), io.2⟩
    | sendClose v caller code =>
      intro io
      exact ⟨(still (by simp)).mpr io.1, fun reply mem => io.2 reply ((still (by simp)).mp mem)⟩
    | _ => exact id
  · intro before o after same
    obtain ⟨c, done, rfl⟩ := writes o (by rw [same]; simp)
    trivial
  · intro c mem
    exact (other mem (by simp)).elim
  · intro c reply mem
    exact (other mem (by simp)).elim
  · intro c ticket payload mem
    exact (other mem (by simp)).elim

theorem CloseInv.push {r : Stepped} {c : ConnRef} {kind : ItemKind} {items : List Bytes}
    (refs : RefInv r.1) (only : IoOnly s r) (kept : AllKept s r.1)
    (out : r.2 = [.enqueued c kind items])
    (unreplied : ∀ reply, .enqueued c .closeReply reply ∉ past)
    (reply : kind = .closeReply → .peerClose c ∈ past ∧ (s.objects c).outbound_mu = none)
    (io : ∀ past', IoClose past' r.1.objects r.1.io) : CloseInv (past ++ r.2) r.1 := by
  apply inv.main refs only kept (io _)
  · intro before o after same
    rw [out] at same
    cases before with
    | nil =>
      obtain ⟨rfl, _⟩ := List.cons.inj same
      rw [List.append_nil]
      exact unreplied
    | cons first before => simp at same
  · simp [out]
  · intro c' reply' mem
    rw [out] at mem
    obtain ⟨rfl, rfl, _⟩ : c' = c ∧ .closeReply = kind ∧ reply' = items := by
      simpa using List.mem_singleton.mp mem
    exact reply rfl
  · simp [out]

end

theorem sslWrites_mem {s : Server} {c : ConnRef} {r : Flushed} {o : Observation}
    (mem : o ∈ s.sslWrites c r) : ∃ c done, o = .sslWrite c done :=
  ⟨_, _, (List.mem_replicate.mp mem).2⟩

theorem Next.close {past : List Observation} {config : Config} {s : Server} {at' io : IoState}
    (next : Next config s at' io) (known : IoClose past s.objects at') :
    IoClose past s.objects io := by
  cases next with
  | keepsOutput => exact known
  | _ => trivial

theorem Closes.close {past : List Observation} {objects : ConnRef → Connection}
    {at' io : IoState} {fd : Nat} (site : Closes at' fd io) : IoClose past objects io := by
  cases site <;> trivial

theorem Flushes.close {past : List Observation} {s s' : Server} {at' io : IoState} {c : ConnRef}
    (site : Flushes s at' c io) (kept : AllKept s s') (known : IoClose past s.objects at') :
    IoClose past s'.objects io := by
  cases site with
  | @pushed v => exact fun some => (kept v.c).opened (known some)
  | _ => trivial

theorem delivers_close {past : List Observation} {config : Config} {sys : Answers} {s : Server}
    {v : Visit} {caller : Caller} {buf : Bytes} :
    IoClose past (takeParser s v.c (s.fed config sys v buf)).objects
      (.nextFrame v caller (s.fed config sys v buf).outFrames) := by
  intro frames
  simp only [takeParser, Server.modify_self]
  exact feed_delivers config.ssl config.env sys.now_seconds s.seen (s.objects v.c).ws buf
    (Or.inl frames)

/- Every step of the IO thread keeps the invariant, unless it takes a frame after the Close. -/
section
variable {past : List Observation} {config : Config} {sys : Answers} {s : Server} {v : Visit}
  (inv : CloseInv past s)
include inv

theorem CloseInv.stays : CloseInv (past ++ []) s := by
  rw [List.append_nil]
  exact inv

/- Frames of a kind that the condition speaks of were taken before any Close frame. -/
theorem taken_unclosed {caller : Caller} {frame : WsFrame} {frames : List WsFrame}
    (here : s.io = .nextFrame v caller (frame :: frames))
    (allowed : takesAfterClose s (.io sys) = false) (text : frame.opcode ≠ 0x1)
    (pong : frame.opcode ≠ 0xA) : .peerClose v.c ∉ past := by
  apply open_unclosed inv
  by_contra closing
  simp only [Bool.not_eq_false] at closing
  simp [takesAfterClose, here, closing, text, pong] at allowed

theorem taken_open {caller : Caller} {frame : WsFrame} {frames : List WsFrame}
    (here : s.io = .nextFrame v caller (frame :: frames)) :
    (s.objects v.c).ws.state_ = .Open := by
  have known := inv.io
  rw [here] at known
  exact known (by simp)

/- At each place where the IO thread pushes, no Close reply can have been pushed yet. -/
theorem pushes_unreplied {s' : Server} {c : ConnRef} {kind : ItemKind} {item : Bytes} {io : IoState}
    (site : Pushes sys s s.io s' c kind item io) (allowed : takesAfterClose s (.io sys) = false)
    (reply : List Bytes) : .enqueued c .closeReply reply ∉ past := by
  have known := inv.io
  generalize here : s.io = at' at site known
  cases site with
  | upgrade => exact unclosed_unreplied inv known.1 reply
  | closeReply => exact known.2 reply
  | ping found done upgraded open' => exact unclosed_unreplied inv (open_unclosed inv open') reply
  | pong ping =>
    have none := taken_unclosed inv here allowed (by simp [ping]) (by simp [ping])
    exact unclosed_unreplied inv none reply
  | unsupported ping pong close text binary =>
    exact unclosed_unreplied inv (taken_unclosed inv here allowed text pong) reply

/- The reply to a Close frame is pushed behind its arrival. -/
theorem pushes_replied {s' : Server} {c : ConnRef} {item : Bytes} {io : IoState}
    (site : Pushes sys s s.io s' c .closeReply item io) : .peerClose c ∈ past := by
  have known := inv.io
  generalize s.io = at' at site known
  cases site with
  | closeReply => exact known.1

/- The frames behind the one at hand came over the same open connection. -/
theorem pushes_next {s' s'' : Server} {c : ConnRef} {kind : ItemKind} {item : Bytes} {io : IoState}
    (site : Pushes sys s s.io s' c kind item io) (kept : AllKept s s'')
    (past' : List Observation) : IoClose past' s''.objects io := by
  have known := inv.io
  generalize here : s.io = at' at site known
  cases site with
  | ping => trivial
  | @upgrade v => exact fun _ => (kept v.c).opened known.2
  | closeReply =>
    intro some
    contradiction
  | @pong v | @unsupported v => exact fun _ => (kept v.c).opened (taken_open inv here)

theorem upgrades_close {caller : Caller} {buf acceptResp : Bytes} {frames : List WsFrame}
    (response : (s.fed config sys v buf).outAcceptResponse ≠ []) :
    IoClose past ((takeParser s v.c (s.fed config sys v buf)).modify v.c fun c =>
        { c with ws_upgraded := true, last_server_ping_sent := sys.now }).objects
      (.sendUpgrade v caller acceptResp frames) := by
  constructor
  · intro closed
    apply response
    exact (feed_stays_open config.ssl config.env sys.now_seconds s.seen
      (inv.closed v.c closed).2.1 buf).2
  · simp only [takeParser, Server.modify_self]
    exact feed_delivers config.ssl config.env sys.now_seconds s.seen (s.objects v.c).ws buf
      (Or.inr response)

theorem peerCloses_close {caller : Caller} {frame : WsFrame} {frames : List WsFrame}
    (here : s.io = .nextFrame v caller (frame :: frames)) (close : frame.opcode = 0x8)
    (allowed : takesAfterClose s (.io sys) = false) {io : IoState}
    (sends : io = .sendClose v caller (closeCode frame.payload))
    (only : IoOnly s ((s.modify v.c fun c => { c with closing := true }).goto io, [.peerClose v.c]))
    (kept : AllKept s ((s.modify v.c fun c => { c with closing := true }).goto io)) :
    CloseInv (past ++ [.peerClose v.c])
      ((s.modify v.c fun c => { c with closing := true }).goto io) := by
  have none := taken_unclosed inv here allowed (by simp [close]) (by simp [close])
  apply inv.main (ioOnly_refs inv.refs only) only kept
  · rw [Server.goto_io, sends]
    refine ⟨by simp, ?_⟩
    intro reply mem
    have old : .enqueued v.c .closeReply reply ∈ past := by simpa using mem
    exact unclosed_unreplied inv none reply old
  · intro before o after same
    cases before with
    | nil =>
      obtain ⟨rfl, _⟩ := List.cons.inj same
      trivial
    | cons first before => simp at same
  · intro c mem
    obtain rfl : c = v.c := by simpa using mem
    refine ⟨?_, (kept v.c).opened (taken_open inv here), inv.refs.io v.c (by rw [here]; rfl)⟩
    simp only [Server.goto_objects, Server.modify_self]
  · simp
  · simp

theorem submits_close {c : ConnRef} {message : Message} {s' : Server} {io : IoState}
    (binary : ∀ payload, message = .binary payload → .peerClose c ∉ past)
    (only : IoOnly s (submitTask s' c message io)) (kept : AllKept s (submitTask s' c message io).1)
    (next : ∀ past', IoClose past' (submitTask s' c message io).1.objects io) :
    CloseInv (past ++ (submitTask s' c message io).2) (submitTask s' c message io).1 := by
  apply inv.main (ioOnly_refs inv.refs only) only kept (next _)
  · intro before o after same
    cases before with
    | nil =>
      obtain ⟨rfl, _⟩ := List.cons.inj same
      trivial
    | cons first before => simp [submitTask] at same
  · simp [submitTask]
  · simp [submitTask]
  · intro c' ticket payload mem
    obtain ⟨rfl, _, same⟩ : c' = c ∧ ticket = _ ∧ .binary payload = message := by
      simpa using List.mem_singleton.mp mem
    exact binary payload same.symm

theorem ioMove_close {r : Stepped} (move : IoMove config sys s r)
    (allowed : takesAfterClose s (.io sys) = false) : CloseInv (past ++ r.2) r.1 := by
  have only := ioMove_only move
  have kept := ioMove_kept move
  have quiet (writes : ∀ o ∈ r.2, ∃ c done, o = .sslWrite c done) :=
    inv.silent (ioOnly_refs inv.refs only) only kept writes
  cases move with
  | stays => exact inv.stays
  | goes next => exact quiet (by simp) (next.close inv.io)
  | closes site => exact quiet (by simp) site.close
  | flushes site unlocked => exact quiet (fun _ => sslWrites_mem) (site.close kept inv.io)
  | drains site out closing => exact quiet (fun _ => sslWrites_mem) trivial
  | earlyDone | accepted | cleans => exact quiet (by simp) trivial
  | throws here left thrown => exact quiet (by simp) (by cases left <;> trivial)
  | delivers here returns response => exact quiet (by simp) delivers_close
  | upgrades here returns response => exact quiet (by simp) (upgrades_close inv response)
  | pushes site unlocked =>
    apply inv.push (ioOnly_refs inv.refs only) only kept rfl (pushes_unreplied inv site allowed)
    · rintro rfl
      exact ⟨pushes_replied inv site, unlocked⟩
    · exact pushes_next inv site kept
  | @ponged v caller frame frames here =>
    exact quiet (by simp) (fun _ => (kept v.c).opened (taken_open inv here))
  | peerCloses here close => exact peerCloses_close inv here close allowed rfl only kept
  | @submits v caller frame frames message here same =>
    apply submits_close inv _ only kept
    · exact fun _ _ => (kept v.c).opened (taken_open inv here)
    · rintro payload rfl
      rcases same with ⟨_, other⟩ | ⟨binary, _⟩
      · cases other
      · exact taken_unclosed inv here allowed (by simp [binary]) (by simp [binary])

/- What a worker puts out: a message received in time, or a push inside the critical section
   in which it saw closing unset. -/
theorem workerMove_respects {w : Nat} {r : Stepped} (move : WorkerMove config s w r) :
    Trace.Justified CloseRespected (past ++ r.2) := by
  have tasks := (outstanding_worker inv.tasks move).2
  apply Trace.justified_append inv.respected
  intro before o after same
  cases move with
  | @handles ticket task next fileManager locked settled =>
    cases before with
    | nil =>
      obtain ⟨rfl, _⟩ := List.cons.inj same
      rw [List.append_nil]
      cases message : task.message with
      | text payload => trivial
      | binary payload =>
        exact tasks task.weak ticket task.message List.mem_cons_self payload message
    | cons first before => simp at same
  | pushes inside =>
    cases before with
    | nil =>
      obtain ⟨rfl, _⟩ := List.cons.inj same
      rw [List.append_nil]
      exact (inv.inside w _ _ _ inside).2
    | cons first before => simp [pushReplies] at same
  | _ => simp at same

theorem workerMove_inside {w : Nat} {r : Stepped} (move : WorkerMove config s w r) :
    ∀ w' ticket c frames, r.1.workers w' = .appending ticket c frames →
      (r.1.objects c).outbound_mu = some w' ∧ ∀ reply, .enqueued c .closeReply reply ∉ past := by
  -- a worker that does not enter keeps its lock, for nobody else enters or leaves in its place
  have set (s' : Server) {state : Worker} (workers : s'.workers = s.workers)
      (others : ∀ w' ticket c frames, w' ≠ w → s.workers w' = .appending ticket c frames →
        (s'.objects c).outbound_mu = some w')
      (own : ∀ ticket c frames, state = .appending ticket c frames →
        (s'.objects c).outbound_mu = some w ∧ ∀ reply, .enqueued c .closeReply reply ∉ past) :
      ∀ w' ticket c frames, (s'.setWorker w state).workers w' = .appending ticket c frames →
        ((s'.setWorker w state).objects c).outbound_mu = some w' ∧
          ∀ reply, .enqueued c .closeReply reply ∉ past := by
    intro w'
    apply setWorker_cases (P := fun w' state => ∀ ticket c frames,
      state = .appending ticket c frames → (s'.objects c).outbound_mu = some w' ∧
        ∀ reply, .enqueued c .closeReply reply ∉ past)
    · intro other different ticket c frames here
      rw [workers] at here
      exact ⟨others other ticket c frames different here,
        (inv.inside other ticket c frames here).2⟩
    · exact own
  have still (w' ticket : Nat) (c : ConnRef) (frames : List Bytes) (_ : w' ≠ w)
      (here : s.workers w' = .appending ticket c frames) : (s.objects c).outbound_mu = some w' :=
    (inv.inside w' ticket c frames here).1
  have beside (conn : ConnRef) (f : Connection → Connection)
      (free : ∀ w', w' ≠ w → (s.objects conn).outbound_mu ≠ some w') (w' ticket : Nat)
      (c : ConnRef) (frames : List Bytes) (different : w' ≠ w)
      (here : s.workers w' = .appending ticket c frames) :
      ((s.modify conn f).objects c).outbound_mu = some w' := by
    have holder := still w' ticket c frames different here
    rw [Server.modify_objects]
    by_cases same : c = conn
    · rw [same] at holder
      exact absurd holder (free w' different)
    · rw [if_neg same]
      exact holder
  cases move with
  | stays => exact inv.inside
  | takes idle front => exact set _ rfl still (by simp)
  | drops fetched gone => exact set _ rfl still (by simp)
  | locks fetched alive => exact set _ rfl still (by simp)
  | handles locked next =>
    apply set _ rfl still
    rcases next with rfl | ⟨_, rfl⟩
    · simp
    · simp
  | refuses ready => exact set _ rfl still (by simp)
  | @enters _ conn _ ready unlocked open' =>
    refine set (s.modify conn _) rfl (beside conn _ ?_) ?_
    · simp [unlocked]
    · intro ticket c frames same
      obtain ⟨_, rfl, _⟩ := Worker.appending.inj same
      rw [Server.modify_self]
      exact ⟨rfl, unclosed_unreplied inv (open_unclosed inv open')⟩
  | @pushes _ conn _ inside =>
    refine set (s.modify conn _) rfl (beside conn _ ?_) ?_
    · intro w' different holder
      rw [(inv.inside w _ _ _ inside).1] at holder
      exact different (Option.some.inj holder).symm
    · simp
  | returns pushed => exact set _ rfl still (by simp)

theorem workerMove_close {w : Nat} {r : Stepped} (move : WorkerMove config s w r) :
    CloseInv (past ++ r.2) r.1 := by
  have outs : (∀ c, .peerClose c ∉ r.2) ∧ ∀ c reply, .enqueued c .closeReply reply ∉ r.2 := by
    cases move <;> simp [pushReplies]
  have objects (c : ConnRef) : (r.1.objects c).closing = (s.objects c).closing ∧
      (r.1.objects c).ws = (s.objects c).ws := by
    cases move with
    | enters ready unlocked open' =>
      exact ⟨s.modify_keeps _ (fun c => { c with outbound_mu := some w }) Connection.closing rfl c,
        s.modify_keeps _ (fun c => { c with outbound_mu := some w }) Connection.ws rfl c⟩
    | pushes inside =>
      exact ⟨s.modify_keeps _ (fun c => { c.enqueue _ with outbound_mu := none })
          Connection.closing rfl c,
        s.modify_keeps _ (fun c => { c.enqueue _ with outbound_mu := none }) Connection.ws rfl c⟩
    | _ => exact ⟨rfl, rfl⟩
  have table := (workerMove_table move).2
  have closes (c : ConnRef) : .peerClose c ∈ past ++ r.2 ↔ .peerClose c ∈ past := by
    simp [outs.1 c]
  have replies (c : ConnRef) (reply : List Bytes) :
      .enqueued c .closeReply reply ∈ past ++ r.2 ↔ .enqueued c .closeReply reply ∈ past := by
    simp [outs.2 c reply]
  refine ⟨workerMove_refs inv.refs move, workerMove_respects inv move, ?_, ?_, ?_, ?_, ?_⟩
  · intro c mem
    rw [(objects c).1, (objects c).2, table.2]
    exact inv.closed c ((closes c).mp mem)
  · intro c reply mem
    exact (closes c).mpr (inv.replied c reply ((replies c reply).mp mem))
  · have here := inv.io
    rw [table.1]
    cases io : s.io with
    | sendUpgrade v caller acceptResp frames =>
      rw [io] at here
      exact ⟨fun mem => here.1 ((closes v.c).mp mem), (objects v.c).2 ▸ here.2⟩
    | sendClose v caller code =>
      rw [io] at here
      exact ⟨(closes v.c).mpr here.1, fun reply mem => here.2 reply ((replies v.c reply).mp mem)⟩
    | nextFrame v caller frames | flushIfDone v caller frames =>
      rw [io] at here
      exact fun some => (objects v.c).2 ▸ here some
    | _ => trivial
  · intro w' ticket c frames here
    obtain ⟨holder, none⟩ := workerMove_inside inv move w' ticket c frames here
    exact ⟨holder, fun reply mem => none reply ((replies c reply).mp mem)⟩
  · exact (outstanding_worker inv.tasks move).1.mono fun _ _ inTime => inTime.append r.2

end

section
variable {past : List Observation} {config : Config} {s : Server}

theorem CloseInv.arrives {s' : Server} (inv : CloseInv past s) (refs : RefInv s')
    (shared : s'.workers = s.workers ∧ s'.pool = s.pool) (bound : s.allocated ≤ s'.allocated)
    (kept : ∀ c < s.allocated, Kept (s.objects c) (s'.objects c))
    (io : IoClose past s'.objects s'.io) :
    CloseInv (past ++ []) s' := by
  rw [List.append_nil]
  refine ⟨refs, inv.respected, ?_, inv.replied, io, ?_, ?_⟩
  · intro c mem
    obtain ⟨closing, opened, old⟩ := inv.closed c mem
    exact ⟨(kept c old).closing closing, (kept c old).opened opened, Nat.lt_of_lt_of_le old bound⟩
  · intro w ticket c frames here
    rw [shared.1] at here
    have old := inv.refs.workers w c (by rw [here]; rfl)
    obtain ⟨holder, none⟩ := inv.inside w ticket c frames here
    exact ⟨(kept c old).outbound_mu.trans holder, none⟩
  · constructor
    · intro t mem
      rw [shared.2] at mem
      exact inv.tasks.pool t mem
    · intro w t here
      rw [shared.1] at here
      exact inv.tasks.workers w t here

theorem addConnection_kept (config : Config) (s : Server) (cfd : Nat) (now : TimePoint) :
    ∀ c < s.allocated, Kept (s.objects c) ((addConnection config s cfd now).objects c) := by
  intro c old
  rw [addConnection_other (Nat.ne_of_lt old)]
  exact kept_refl _

theorem step_close (inv : CloseInv past s) (i : Input) (allowed : takesAfterClose s i = false) :
    CloseInv (past ++ (step config s i).2) (step config s i).1 := by
  have refs : RefInv (step config s i).1 := step_refs inv.refs i
  have goes (io : IoState) (refs : RefInv (s.goto io)) (calm : IoClose past s.objects io) :
      CloseInv (past ++ []) (s.goto io) :=
    inv.arrives refs ⟨rfl, rfl⟩ (Nat.le_refl _) (fun _ _ => kept_refl _) calm
  have move := step_move config s i
  generalize step config s i = r at move refs ⊢
  cases move with
  | stays => exact inv.stays
  | io sys => exact ioMove_close inv (ioStep_move config sys s) allowed
  | @worker w real sys => exact workerMove_close inv (workerStep_move config sys s w)
  | hangup fd e =>
    have same := sameTable_close (sameTable_refl s) fd
    exact inv.arrives refs ⟨same.workers, same.pool⟩ (Nat.le_of_eq same.allocated.symm)
      (fun c _ => kept_close s fd c) trivial
  | @accepts cfd now waits fresh =>
    have kept := addConnection_kept config s cfd now
    exact inv.arrives refs ⟨rfl, rfl⟩ (Nat.le_succ _) kept (waits ▸ trivial)
  | @refuses cfd now waits fresh =>
    have kept := addConnection_kept config s cfd now
    have same := sameTable_close (sameTable_refl (addConnection config s cfd now)) cfd
    exact inv.arrives refs ⟨same.workers, same.pool⟩ (same.allocated ▸ Nat.le_succ _)
      (fun c old => (kept c old).trans (kept_close _ cfd c)) trivial
  | shakes e found undone => exact goes _ refs trivial
  | reads e found done => exact goes _ refs trivial
  | timer now order => exact goes _ refs trivial
  | wake order => exact goes _ refs trivial

theorem start_close (disk : FileSystem Bytes) : CloseInv [] (start disk) where
  refs := start_refs disk
  respected := Trace.justified_nil _
  closed := by simp
  replied := by simp
  io := trivial
  inside := by simp [start]
  tasks := ⟨by simp [start, ThreadPool.empty], by simp [start, Worker.task]⟩

end

/-- In a run that takes up nothing but text and Pong behind a Close frame, nothing is pushed
    behind the Close reply, and no binary message from behind the Close frame is handled. -/
theorem nothing_follows_close (config : Config) (disk : FileSystem Bytes) (inputs : List Input)
    (within : ∀ t ∈ Run.steps (step config) (start disk) inputs,
      takesAfterClose t.before t.input = false) :
    NothingAfterClose (Run.trace (step config) (start disk) inputs) ∧
      HandedBeforeClose (Run.trace (step config) (start disk) inputs) := by
  have last := Run.invariant_trace CloseInv (fun s i => takesAfterClose s i = false)
    (fun _ _ i inv allowed => step_close inv i allowed) (start_close disk) within
  exact (respected_iff _).mp last.respected

def closeRun : List Input :=
  upgradeRun ++ [.io { quiet with read := .ret (buildClientFrame none 0x8 []) }, .io quiet,
    .io quiet, .io quiet, .io quiet, .io quiet, .io quiet]

def afterClose (more : Bytes) : List Input :=
  closeRun ++ [.epoll 5 { EPOLLIN := true }, .io quiet, .io { quiet with read := .ret more },
    .io quiet, .io quiet]

def pingAfterClose : List Input := afterClose (buildClientPing none [])

/-- A text frame behind the Close frame, and then the timer. -/
def textAfterClose : List Input :=
  afterClose (buildClientFrame none 0x1 (CString.bytes "late")) ++
    [.io quiet, .io quiet, .timer 1000000000 [5], .io quiet, .io quiet, .io quiet, .io quiet]

theorem nothing_follows_close_run :
    NothingAfterClose (Run.trace (step plainConfig) (start .empty) textAfterClose) ∧
      HandedBeforeClose (Run.trace (step plainConfig) (start .empty) textAfterClose) :=
  nothing_follows_close plainConfig .empty textAfterClose (by decide +kernel)

theorem pong_follows_close :
    ¬ ∀ (config : Config) (disk : FileSystem Bytes) (inputs : List Input),
      NothingAfterClose (Run.trace (step config) (start disk) inputs) ∧
        HandedBeforeClose (Run.trace (step config) (start disk) inputs) := by
  intro claimed
  have reply : Observation.enqueued 0 .closeReply [buildClose 1000] ∈
      (Run.trace (step plainConfig) (start .empty) pingAfterClose).dropLast := by
    decide +kernel
  have last : Run.trace (step plainConfig) (start .empty) pingAfterClose =
      (Run.trace (step plainConfig) (start .empty) pingAfterClose).dropLast ++
        [.enqueued 0 .pong [buildPong []]] := by
    decide +kernel
  exact (claimed plainConfig .empty pingAfterClose).1 _ _ _ _ _ last _ reply

end WssServer
