import WebsocketServer.Server.Moves

/- What the IO thread can do to everything it shares with the workers: it may submit one task,
   drop connections from the table, and let go of the connection it works on. -/
namespace WssServer

def Plain : Observation → Prop
  | .sslWrite _ _ | .peerClose _ => True
  | .enqueued _ (.reply _) _ => False
  | .enqueued _ _ _ => True
  | .submitted _ _ _ | .handled _ _ _ => False

structure IoOnly (s : Server) (r : Stepped) : Prop where
  workers : r.1.workers = s.workers
  allocated : r.1.allocated = s.allocated
  conns : ∀ fd c, r.1.conns.lookup fd = some c → s.conns.lookup fd = some c
  holds : ∀ c, r.1.io.holds = some c → s.io.holds = some c
  tasks : (r.1.pool = s.pool ∧ ∀ o ∈ r.2, Plain o) ∨
    ∃ c message, s.io.holds = some c ∧ r.1.pool = s.pool.submit ⟨c, message⟩ ∧
      r.2 = [.submitted c s.pool.submitted_ message]

structure SameTable (s s' : Server) : Prop where
  workers : s'.workers = s.workers
  allocated : s'.allocated = s.allocated
  conns : ∀ fd c, s'.conns.lookup fd = some c → s.conns.lookup fd = some c
  pool : s'.pool = s.pool

theorem sameTable_refl (s : Server) : SameTable s s := ⟨rfl, rfl, fun _ _ found => found, rfl⟩

theorem sameTable_modify (s : Server) (c : ConnRef) (f : Connection → Connection) :
    SameTable s (s.modify c f) :=
  ⟨rfl, rfl, fun _ _ found => found, rfl⟩

theorem sameTable_close {s s' : Server} (same : SameTable s s') (fd : Nat) :
    SameTable s (s'.closeConnection fd) := by
  have kept (fd' : Nat) (c : ConnRef)
      (found : (s'.closeConnection fd).conns.lookup fd' = some c) : s.conns.lookup fd' = some c :=
    same.conns fd' c (Server.lookup_closed found).2
  rcases s'.closeConnection_cases fd with ⟨_, run⟩ | ⟨ref, _, run⟩
  · rw [run]
    exact same
  · rw [run] at kept ⊢
    exact ⟨same.workers, same.allocated, kept, same.pool⟩

theorem SameTable.goto {s s' : Server} (same : SameTable s s') {io : IoState}
    {out : List Observation} (holds : ∀ c, io.holds = some c → s.io.holds = some c)
    (plain : ∀ o ∈ out, Plain o) : IoOnly s (s'.goto io, out) :=
  ⟨same.workers, same.allocated, same.conns, holds, Or.inl ⟨same.pool, plain⟩⟩

theorem ioOnly_blocked (s : Server) : IoOnly s (s, []) :=
  ⟨rfl, rfl, fun _ _ found => found, fun _ held => held, Or.inl ⟨rfl, by simp⟩⟩

section
variable {config : Config} {sys : Answers} {s : Server} {v : Visit}

theorem Next.holds {at' io : IoState} (next : Next config s at' io) (c : ConnRef)
    (held : io.holds = some c) : at'.holds = some c := by
  cases next <;> first | exact held | cases held

theorem Closes.holds {at' io : IoState} {fd : Nat} (site : Closes at' fd io) (c : ConnRef)
    (held : io.holds = some c) : at'.holds = some c := by
  cases site with
  | read => exact held
  | earlyRead | accept | idle => cases held

theorem Flushes.holds {at' io : IoState} {c : ConnRef} (site : Flushes s at' c io) (c' : ConnRef)
    (held : io.holds = some c') : at'.holds = some c' := by
  cases site with
  | handshaken | pushed => exact held
  | pending | writable | each => cases held

theorem Pushes.holds {at' io : IoState} {s' : Server} {c : ConnRef} {kind : ItemKind}
    {item : Bytes} (site : Pushes sys s at' s' c kind item io) (c' : ConnRef)
    (held : io.holds = some c') : at'.holds = some c' := by
  cases site with
  | ping => cases held
  | _ => exact held

/- What is pushed is the IO thread's own, and so is the time stamp set before. -/
theorem Pushes.plain {at' io : IoState} {s' : Server} {c : ConnRef} {kind : ItemKind}
    {item : Bytes} (site : Pushes sys s at' s' c kind item io) :
    Plain (.enqueued c kind [item]) := by
  cases site <;> trivial

theorem Pushes.table {at' io : IoState} {s' : Server} {c : ConnRef} {kind : ItemKind}
    {item : Bytes} (site : Pushes sys s at' s' c kind item io) : SameTable s s' := by
  cases site with
  | upgrade | unsupported | closeReply => exact sameTable_refl s
  | pong | ping => exact sameTable_modify s _ _

theorem sameTable_sent (s : Server) (c : ConnRef) (r : Flushed) : SameTable s (s.sent c r) :=
  ⟨rfl, rfl, fun _ _ found => found, rfl⟩

theorem sslWrites_plain (s : Server) (c : ConnRef) (r : Flushed) :
    ∀ o ∈ s.sslWrites c r, Plain o := by
  intro o mem
  rw [(List.mem_replicate.mp mem).2]
  trivial

theorem goto_only {io : IoState} (holds : ∀ c, io.holds = some c → s.io.holds = some c) :
    IoOnly s (s.goto io, []) :=
  (sameTable_refl s).goto holds (by simp)

theorem released {io : IoState} (free : io.holds = none) :
    ∀ c, io.holds = some c → s.io.holds = some c := by
  intro c held
  rw [free] at held
  contradiction

theorem hangup_only (s : Server) (fd : Nat) :
    IoOnly s ((s.closeConnection fd).goto .epollWait, []) :=
  (sameTable_close (sameTable_refl s) fd).goto (released rfl) (by simp)

theorem LeavesBroken.holds {caller : Caller} {io : IoState} (left : LeavesBroken v caller io)
    (c : ConnRef) (held : io.holds = some c) : v.c = c := by
  cases left with
  | early => cases held
  | read => exact Option.some.inj held

theorem sameTable_takeParser (s : Server) (c : ConnRef) (r : StreamParser.FeedResult) :
    SameTable s (takeParser s c r) :=
  ⟨rfl, rfl, fun _ _ found => found, rfl⟩

theorem ioMove_only {r : Stepped} (move : IoMove config sys s r) : IoOnly s r := by
  have visits {at' : IoState} (here : s.io = at') {c : ConnRef} (held : at'.holds = some c) :
      s.io.holds = some c := here ▸ held
  cases move with
  | stays => exact ioOnly_blocked s
  | goes next => exact goto_only next.holds
  | closes site => exact (sameTable_close (sameTable_refl s) _).goto site.holds (by simp)
  | @flushes c io site unlocked =>
    exact (sameTable_sent s c _).goto site.holds (sslWrites_plain s c _)
  | @drains v site out closing =>
    exact (sameTable_close (sameTable_sent s v.c _) v.fd).goto (released rfl)
      (sslWrites_plain s v.c _)
  | @earlyDone v site =>
    apply (sameTable_modify s v.c _).goto _ (by simp)
    intro c held
    rcases site with here | here
    · exact visits here held
    · exact visits here held
  | @accepted v here =>
    exact (sameTable_modify s v.c _).goto (fun c held => visits here held) (by simp)
  | throws here left thrown =>
    apply (sameTable_close (sameTable_takeParser s _ _) _).goto _ (by simp)
    intro c held
    exact visits here (congrArg some (left.holds c held))
  | delivers here returns response =>
    exact (sameTable_takeParser s _ _).goto (fun c held => visits here held) (by simp)
  | @upgrades v caller buf here returns response =>
    have upgraded : SameTable s ((takeParser s v.c (s.fed config sys v buf)).modify v.c fun c =>
        { c with ws_upgraded := true, last_server_ping_sent := sys.now }) :=
      ⟨rfl, rfl, fun _ _ found => found, rfl⟩
    exact upgraded.goto (fun c held => visits here held) (by simp)
  | @pushes s' c kind item io site unlocked =>
    have table := site.table
    have pushed : SameTable s (s'.modify c (·.enqueue [item])) :=
      ⟨table.workers, table.allocated, table.conns, table.pool⟩
    exact pushed.goto site.holds (by simpa using site.plain)
  | @ponged v caller frame frames here =>
    exact (sameTable_modify s v.c _).goto (fun c held => visits here held) (by simp)
  | @peerCloses v caller frame frames here close =>
    exact (sameTable_modify s v.c _).goto (fun c held => visits here held) (by simp [Plain])
  | @submits v caller frame frames message here same =>
    exact ⟨rfl, rfl, fun _ _ found => found, fun c held => visits here held,
      Or.inr ⟨v.c, message, visits here rfl, rfl, rfl⟩⟩
  | cleans here =>
    exact ⟨rfl, rfl, fun _ _ found => found, released rfl, Or.inl ⟨rfl, by simp⟩⟩

end

theorem ioStep_only (config : Config) (sys : Answers) (s : Server) :
    IoOnly s (ioStep config sys s) :=
  ioMove_only (ioStep_move config sys s)

structure MainOnly (s : Server) (r : Stepped) : Prop where
  workers : r.1.workers = s.workers
  tasks : (r.1.pool = s.pool ∧ ∀ o ∈ r.2, Plain o) ∨
    ∃ c message, s.io.holds = some c ∧ r.1.pool = s.pool.submit ⟨c, message⟩ ∧
      r.2 = [.submitted c s.pool.submitted_ message]

theorem mainOnly_quiet {s : Server} {r : Stepped} (workers : r.1.workers = s.workers)
    (pool : r.1.pool = s.pool) (out : r.2 = []) : MainOnly s r :=
  ⟨workers, Or.inl ⟨pool, by simp [out]⟩⟩

theorem close_shared (s : Server) (fd : Nat) :
    (s.closeConnection fd).workers = s.workers ∧ (s.closeConnection fd).pool = s.pool := by
  have same := sameTable_close (sameTable_refl s) fd
  exact ⟨same.workers, same.pool⟩

theorem step_main (config : Config) (s : Server) {i : Input} (main : ∀ w sys, i ≠ .worker w sys) :
    MainOnly s (step config s i) := by
  have move := step_move config s i
  generalize step config s i = r at move ⊢
  cases move with
  | io sys =>
    have only := ioStep_only config sys s
    exact ⟨only.workers, only.tasks⟩
  | @worker w real sys => exact absurd rfl (main w sys)
  | hangup fd e => exact mainOnly_quiet (close_shared s fd).1 (close_shared s fd).2 rfl
  | @refuses cfd now waits fresh =>
    have shared := close_shared (addConnection config s cfd now) cfd
    exact mainOnly_quiet shared.1 shared.2 rfl
  | _ => exact mainOnly_quiet rfl rfl rfl

end WssServer
