import WebsocketServer.Server.Closing
import WebsocketServer.Server.EarlyWrites
import WebsocketServer.Server.Workers

/- The timer's pings and its idle sweep. A ping is due by last_server_ping_sent, the sweep goes by
   last_ping, and an upgrade refreshes the first of them only. -/
namespace WssServer

def Beating (c : Connection) : Prop :=
  c.tls_done = true ∧ c.ws_upgraded = true ∧ c.closing = false

def Spared (config : Config) (now : TimePoint) (c : Connection) : Prop :=
  Beating c → wholeSeconds (now - c.last_ping) ≤ config.idleTimeoutSec

/-- The timer fires when no ping is due on a connection that the sweep takes to be idle. -/
def Overlooks (config : Config) (s : Server) (i : Input) : Prop :=
  ∃ now order fd c, i = .timer now order ∧ s.io = .epollWait ∧ s.conns.lookup fd = some c ∧
    Beating (s.objects c) ∧
    wholeSeconds (now - (s.objects c).last_server_ping_sent) < config.pingIntervalSec ∧
    config.idleTimeoutSec < wholeSeconds (now - (s.objects c).last_ping)

/-- What a timer pass knows of the connections: behind the pings the sweep spares those that are
    upgraded, and before its turn each of those is spared or a ping is due. -/
def TimerKnows (config : Config) (s : Server) : IoState → Prop
  | .timerPing now _ todo => ∀ fd c, s.conns.lookup fd = some c →
      Spared config now (s.objects c) ∨ (fd ∈ todo ∧
        config.pingIntervalSec ≤ wholeSeconds (now - (s.objects c).last_server_ping_sent))
  | .flushEach _ (some (now, _)) | .timerSweep now _ =>
      ∀ fd c, s.conns.lookup fd = some c → Spared config now (s.objects c)
  | .closeEach todo => ∀ fd ∈ todo, ∀ c, s.conns.lookup fd = some c → ¬ Beating (s.objects c)
  | _ => True

theorem idleTimeoutSec_pos (config : Config) : 0 < config.idleTimeoutSec := by
  unfold Config.idleTimeoutSec
  split
  · decide
  · omega

theorem pingIntervalSec_pos (config : Config) : 0 < config.pingIntervalSec := by
  unfold Config.pingIntervalSec
  dsimp only
  split
  · omega
  · split
    · omega
    · omega

/-- What the timer reads of a connection, a later close apart. -/
structure SameBeat (c c' : Connection) : Prop where
  beating : Beating c' → Beating c
  last_ping : c'.last_ping = c.last_ping
  last_server_ping_sent : c'.last_server_ping_sent = c.last_server_ping_sent

section
variable {config : Config} {sys : Answers} {s s' : Server} {io : IoState}

theorem timerKnows_kept (conns : ∀ fd c, s'.conns.lookup fd = some c → s.conns.lookup fd = some c)
    (beats : ∀ c, SameBeat (s.objects c) (s'.objects c)) (knows : TimerKnows config s io) :
    TimerKnows config s' io := by
  have spared {now : TimePoint} {c : ConnRef} (before : Spared config now (s.objects c)) :
      Spared config now (s'.objects c) := by
    intro beating
    rw [(beats c).last_ping]
    exact before ((beats c).beating beating)
  cases io with
  | timerPing now all todo =>
    intro fd c found
    rw [(beats c).last_server_ping_sent]
    exact (knows fd c (conns fd c found)).imp_left spared
  | flushEach todo timer =>
    cases timer with
    | none => trivial
    | some timer => exact fun fd c found => spared (knows fd c (conns fd c found))
  | timerSweep now all => exact fun fd c found => spared (knows fd c (conns fd c found))
  | closeEach todo =>
    intro fd mem c found beating
    exact knows fd mem c (conns fd c found) ((beats c).beating beating)
  | _ => trivial

theorem sameBeat_update {ref : ConnRef} {conn : Connection}
    (objects : s'.objects = Function.update s.objects ref conn)
    (same : SameBeat (s.objects ref) conn) (c : ConnRef) :
    SameBeat (s.objects c) (s'.objects c) :=
  Server.objects_update (R := fun _ => SameBeat) (fun _ => ⟨id, rfl, rfl⟩) objects same c

theorem timerKnows_update {ref : ConnRef} {conn : Connection} (knows : TimerKnows config s io)
    (conns : s'.conns = s.conns) (objects : s'.objects = Function.update s.objects ref conn)
    (same : SameBeat (s.objects ref) conn) : TimerKnows config s' io := by
  apply timerKnows_kept _ (sameBeat_update objects same) knows
  intro fd c found
  rw [conns] at found
  exact found

theorem closed_sameBeat (s : Server) (fd : Nat) (c : ConnRef) :
    SameBeat (s.objects c) ((s.closeConnection fd).objects c) := by
  have closes (ref : ConnRef) : SameBeat (s.objects ref) (s.objects ref).close := by
    refine ⟨?_, rfl, rfl⟩
    rintro ⟨_, _, open'⟩
    contradiction
  exact Server.objects_close (R := fun _ => SameBeat) (fun _ => ⟨id, rfl, rfl⟩) closes fd c

theorem Next.knows (next : Next config s s.io io) (knows : TimerKnows config s s.io)
    (turn : ∀ now all fd todo, s.io ≠ .timerPing now all (fd :: todo)) :
    TimerKnows config s io := by
  generalize s.io = at' at next knows turn
  cases next with
  | @skipsPing now all fd todo => exact absurd rfl (turn now all fd todo)
  | pinged =>
    intro fd c found
    rcases knows fd c found with spared | ⟨mem, _⟩
    · exact spared
    · contradiction
  | @skipsFlush fd todo timer =>
    cases timer with
    | none => trivial
    | some timer => exact knows
  | flushedTimer => exact knows
  | @sweeps now all =>
    intro fd mem c found beating
    have idle := (List.mem_filter.mp mem).2
    simp only [WssServer.idle, found, decide_eq_true_eq] at idle
    have spared := knows fd c found beating
    omega
  | skipsClose => exact fun fd mem => knows fd (List.mem_cons_of_mem _ mem)
  | _ => trivial

/- The ping of one connection refreshes what the sweep reads. -/
theorem timerPing_knows {now : TimePoint} {all : List Nat} {fd : Nat} {todo : List Nat}
    (here : s.io = .timerPing now all (fd :: todo)) (knows : TimerKnows config s s.io) :
    TimerKnows config (timerPing config s now all fd todo).1
      (timerPing config s now all fd todo).1.io := by
  rw [here] at knows
  rcases timerPing_cases config s now all fd todo with ⟨undue, run⟩ | ⟨ref, found, _, _, _, run⟩
  · rw [run]
    intro fd' c found'
    rcases knows fd' c found' with spared | ⟨mem, due⟩
    · exact .inl spared
    · rcases List.mem_cons.mp mem with rfl | later
      · left
        rintro ⟨done, upgraded, open'⟩
        exact absurd due (not_le.mpr (undue c found' done upgraded open'))
      · exact .inr ⟨later, due⟩
  · rw [run]
    apply Server.whenUnlocked_either (P := fun r => TimerKnows config r.1 r.1.io)
    · dsimp only
      rw [here]
      exact knows
    · intro fd' c found'
      by_cases same : c = ref
      · left
        intro _
        subst same
        simp only [sendItem, Server.goto_objects, Server.modify_self, Connection.enqueue,
          Int.sub_self, wholeSeconds]
        have positive := idleTimeoutSec_pos config
        simp
        omega
      · simp only [sendItem, Server.goto_objects, Server.modify_objects, if_neg same]
        rcases knows fd' c found' with spared | ⟨mem, due⟩
        · exact .inl spared
        · rcases List.mem_cons.mp mem with rfl | later
          · exact absurd (Option.some.inj (found'.symm.trans found)) same
          · exact .inr ⟨later, due⟩

theorem ioMove_knows {r : Stepped} (move : IoMove config sys s r)
    (knows : TimerKnows config s s.io)
    (turn : ∀ now all fd todo, s.io ≠ .timerPing now all (fd :: todo)) :
    TimerKnows config r.1 r.1.io := by
  cases move with
  | stays => exact knows
  | goes next => exact next.knows knows turn
  | @closes fd io site =>
    generalize s.io = at' at site knows
    cases site with
    | earlyRead | accept | read => trivial
    | @idle fd todo =>
      have rest : TimerKnows config s (.closeEach todo) :=
        fun fd' mem => knows fd' (List.mem_cons_of_mem _ mem)
      exact timerKnows_kept (fun fd' c found => (Server.lookup_closed found).2)
        (closed_sameBeat s fd) rest
  | @flushes c io site unlocked =>
    generalize s.io = at' at site knows
    cases site with
    | pending | handshaken | pushed | writable => trivial
    | @each fd todo timer c found done open' =>
      have rest : TimerKnows config s (.flushEach todo timer) := by
        cases timer with
        | none => trivial
        | some timer => exact knows
      exact timerKnows_update rest rfl rfl ⟨id, rfl, rfl⟩
  | throws here left thrown => cases left <;> trivial
  | @pushes s' c kind item io site unlocked =>
    generalize s.io = at' at site turn
    cases site with
    | upgrade | pong | unsupported | closeReply => trivial
    | @ping now all fd todo => exact absurd rfl (turn now all fd todo)
  | drains | earlyDone | accepted | delivers | upgrades | ponged | peerCloses | submits
  | cleans => trivial

theorem ioStep_knows (knows : TimerKnows config s s.io) :
    TimerKnows config (ioStep config sys s).1 (ioStep config sys s).1.io := by
  by_cases turn : ∃ now all fd todo, s.io = .timerPing now all (fd :: todo)
  · obtain ⟨now, all, fd, todo, here⟩ := turn
    have run : ioStep config sys s = timerPing config s now all fd todo := by
      unfold ioStep
      rw [here]
    rw [run]
    exact timerPing_knows here knows
  · apply ioMove_knows (ioStep_move config sys s) knows
    intro now all fd todo here
    exact turn ⟨now, all, fd, todo, here⟩

theorem workerMove_knows {w : Nat} {r : Stepped} (move : WorkerMove config s w r)
    (knows : TimerKnows config s s.io) : TimerKnows config r.1 r.1.io := by
  cases move with
  | enters ready unlocked open' =>
    exact timerKnows_update knows rfl rfl ⟨id, rfl, rfl⟩
  | pushes inside =>
    exact timerKnows_update knows rfl rfl ⟨id, rfl, rfl⟩
  | _ => exact knows

theorem timer_knows {now : TimePoint} {order : List Nat} (waits : s.io = .epollWait)
    (all : order.Perm s.conns.keys) (avoids : ¬ Overlooks config s (.timer now order)) :
    TimerKnows config s (.timerPing now order order) := by
  intro fd c found
  have listed : fd ∈ order :=
    all.mem_iff.mpr (AList.mem_keys.mp (AList.lookup_isSome.mp (by rw [found]; rfl)))
  by_cases due : config.pingIntervalSec ≤ wholeSeconds (now - (s.objects c).last_server_ping_sent)
  · exact .inr ⟨listed, due⟩
  · left
    intro beating
    by_contra idle
    exact avoids ⟨now, order, fd, c, rfl, waits, found, beating, not_le.mp due, not_le.mp idle⟩

theorem step_knows (knows : TimerKnows config s s.io) {i : Input}
    (avoids : ¬ Overlooks config s i) :
    TimerKnows config (step config s i).1 (step config s i).1.io := by
  cases i with
  | io sys => exact ioStep_knows knows
  | worker w sys =>
    by_cases real : w < config.workerCount
    · simp only [step, if_pos real]
      exact workerMove_knows (workerStep_move config sys s w) knows
    · simp only [step, if_neg real]
      exact knows
  | timer now order =>
    by_cases fires : s.io = .epollWait ∧ order.Perm s.conns.keys
    · have run : step config s (.timer now order) = (s.goto (.timerPing now order order), []) := by
        simp only [step, fires.1, if_pos fires.2]
      have pass := timer_knows fires.1 fires.2 avoids
      rw [run]
      exact pass
    · have run : step config s (.timer now order) = (s, []) := by
        unfold step
        cases here : s.io with
        | epollWait => exact if_neg fun all => fires ⟨here, all⟩
        | _ => rfl
      rw [run]
      exact knows
  | epoll fd e =>
    have move := step_move config s (.epoll fd e)
    generalize step config s (.epoll fd e) = r at move ⊢
    cases move with
    | stays => exact knows
    | hangup | shakes | reads => trivial
  | listen cfd now added =>
    have move := step_move config s (.listen cfd now added)
    generalize step config s (.listen cfd now added) = r at move ⊢
    cases move with
    | stays => exact knows
    | accepts now waits fresh =>
      simp only [addConnection, waits]
      trivial
    | refuses => trivial
  | wake order =>
    have move := step_move config s (.wake order)
    generalize step config s (.wake order) = r at move ⊢
    cases move with
    | stays => exact knows
    | wake order => trivial

end

def Input.reading : Input → Option TimePoint
  | .listen _ now _ | .timer now _ => some now
  | .io sys => some sys.now
  | .epoll _ _ | .wake _ | .worker _ _ => none

def SteadyClock (inputs : List Input) : Prop :=
  (inputs.filterMap Input.reading).Pairwise (· ≤ ·)

instance (inputs : List Input) : Decidable (SteadyClock inputs) :=
  inferInstanceAs (Decidable ((inputs.filterMap Input.reading).Pairwise (· ≤ ·)))

/-- By how much an upgrade may come behind last_ping, in nanoseconds. -/
def upgradeWindow (config : Config) : Int :=
  (config.idleTimeoutSec + 1 - config.pingIntervalSec) * 1000000000

/-- The step completes an upgrade, later than the window behind last_ping. -/
def UpgradesLate (config : Config) (s : Server) (i : Input) : Prop :=
  ∃ sys v caller buf, i = .io sys ∧ s.io = .inbound v caller buf ∧
    (s.fed config sys v buf).outAcceptResponse ≠ [] ∧
    upgradeWindow config < sys.now - (s.objects v.c).last_ping

/-- last_server_ping_sent is not too far ahead of last_ping. -/
def InWindow (config : Config) (c : Connection) : Prop :=
  c.ws_upgraded = true → c.last_server_ping_sent - c.last_ping ≤ upgradeWindow config ∧
    0 ≤ upgradeWindow config

theorem wholeSeconds_lt {x p : Int} (positive : 0 < p) (less : wholeSeconds x < p) :
    x < p * 1000000000 := by
  unfold wholeSeconds at less
  by_contra large
  have floor : x.tdiv 1000000000 = x / 1000000000 := Int.tdiv_eq_ediv_of_nonneg (by omega)
  omega

theorem lt_wholeSeconds {x t : Int} (positive : 0 < t) (more : t < wholeSeconds x) :
    (t + 1) * 1000000000 ≤ x := by
  unfold wholeSeconds at more
  by_cases sign : 0 ≤ x
  · have floor : x.tdiv 1000000000 = x / 1000000000 := Int.tdiv_eq_ediv_of_nonneg sign
    omega
  · have negative : 0 ≤ (-x).tdiv 1000000000 := Int.tdiv_nonneg (by omega) (by omega)
    rw [Int.neg_tdiv] at negative
    omega

/- Within the window a connection that the sweep takes to be idle is due for a ping. -/
theorem inWindow_due {config : Config} {s : Server}
    (window : ∀ c, InWindow config (s.objects c)) (i : Input) : ¬ Overlooks config s i := by
  rintro ⟨now, order, fd, c, rfl, _, _, ⟨_, upgraded, _⟩, recent, idle⟩
  obtain ⟨ahead, _⟩ := window c upgraded
  have ping := wholeSeconds_lt (pingIntervalSec_pos config) recent
  have quiet := lt_wholeSeconds (idleTimeoutSec_pos config) idle
  unfold upgradeWindow at ahead
  linarith

inductive Stamps (config : Config) (s : Server) (i : Input) (c : ConnRef) (c' : Connection) :
    Prop where
  | same (upgraded : c'.ws_upgraded = (s.objects c).ws_upgraded)
      (ping : c'.last_ping = (s.objects c).last_ping)
      (server : c'.last_server_ping_sent = (s.objects c).last_server_ping_sent) :
      Stamps config s i c c'
  | heard {sys : Answers} (io : i = .io sys) (held : s.io.holds = some c)
      (upgraded : c'.ws_upgraded = (s.objects c).ws_upgraded) (ping : c'.last_ping = sys.now)
      (server : c'.last_server_ping_sent = (s.objects c).last_server_ping_sent) :
      Stamps config s i c c'
  | upgraded {sys : Answers} (io : i = .io sys) (held : s.io.holds = some c)
      (ping : c'.last_ping = (s.objects c).last_ping) (server : c'.last_server_ping_sent = sys.now)
      (window : ¬ UpgradesLate config s i →
        sys.now - (s.objects c).last_ping ≤ upgradeWindow config) :
      Stamps config s i c c'
  | pinged {now : TimePoint} {all todo : List Nat} (io : s.io = .timerPing now all todo)
      (before : (s.objects c).ws_upgraded = true) (ping : c'.last_ping = now)
      (server : c'.last_server_ping_sent = now) : Stamps config s i c c'
  | accepted {now : TimePoint} (reading : i.reading = some now) (upgraded : c'.ws_upgraded = false)
      (ping : c'.last_ping = now) : Stamps config s i c c'

section
variable {config : Config} {s : Server} {i : Input}

theorem Stamps.fields {c : ConnRef} {c' c'' : Connection} (stamps : Stamps config s i c c')
    (same : c''.ws_upgraded = c'.ws_upgraded ∧ c''.last_ping = c'.last_ping ∧
      c''.last_server_ping_sent = c'.last_server_ping_sent) : Stamps config s i c c'' := by
  obtain ⟨upgraded, ping, server⟩ := same
  cases stamps with
  | same upgraded' ping' server' =>
    exact .same (upgraded.trans upgraded') (ping.trans ping') (server.trans server')
  | heard io held upgraded' ping' server' =>
    exact .heard io held (upgraded.trans upgraded') (ping.trans ping') (server.trans server')
  | upgraded io held ping' server' window =>
    exact .upgraded io held (ping.trans ping') (server.trans server') window
  | pinged io before ping' server' =>
    exact .pinged io before (ping.trans ping') (server.trans server')
  | accepted reading upgraded' ping' =>
    exact .accepted reading (upgraded.trans upgraded') (ping.trans ping')

theorem Stamps.update {s₁ s' : Server} {c ref : ConnRef} {conn : Connection}
    (stamps : Stamps config s i c (s₁.objects c))
    (objects : s'.objects = Function.update s₁.objects ref conn)
    (same : conn.ws_upgraded = (s₁.objects ref).ws_upgraded ∧
      conn.last_ping = (s₁.objects ref).last_ping ∧
      conn.last_server_ping_sent = (s₁.objects ref).last_server_ping_sent) :
    Stamps config s i c (s'.objects c) := by
  rw [objects, Function.update_apply]
  by_cases here : c = ref
  · rw [if_pos here]
    rw [here] at stamps ⊢
    exact stamps.fields same
  · rw [if_neg here]
    exact stamps

theorem stamps_close (s₁ : Server) (fd : Nat) {c : ConnRef}
    (stamps : Stamps config s i c (s₁.objects c)) :
    Stamps config s i c ((s₁.closeConnection fd).objects c) := by
  rcases s₁.closeConnection_cases fd with ⟨_, run⟩ | ⟨ref, _, run⟩
  · rw [run]
    exact stamps
  · rw [run]
    exact stamps.update rfl ⟨rfl, rfl, rfl⟩

theorem stamps_set {s' : Server} {ref : ConnRef} {conn : Connection}
    (objects : s'.objects = Function.update s.objects ref conn)
    (stamps : Stamps config s i ref conn) (c : ConnRef) :
    Stamps config s i c (s'.objects c) :=
  Server.objects_update (R := fun c _ conn => Stamps config s i c conn)
    (fun _ => .same rfl rfl rfl) objects stamps c

theorem ioMove_stamps {sys : Answers} {r : Stepped} (move : IoMove config sys s r) (c : ConnRef) :
    Stamps config s (.io sys) c (r.1.objects c) := by
  have still : Stamps config s (.io sys) c (s.objects c) := .same rfl rfl rfl
  have hears {ref : ConnRef} (held : s.io.holds = some ref) :
      Stamps config s (.io sys) ref { s.objects ref with last_ping := sys.now } :=
    .heard rfl held rfl rfl rfl
  cases move with
  | stays | goes | cleans => exact still
  | closes site => exact stamps_close s _ still
  | flushes | earlyDone | accepted | delivers | peerCloses =>
    exact still.update rfl ⟨rfl, rfl, rfl⟩
  | @drains v site out closing =>
    have sent : Stamps config s (.io sys) c ((s.sent v.c (s.flush sys v.c)).objects c) :=
      still.update rfl ⟨rfl, rfl, rfl⟩
    exact stamps_close _ _ sent
  | @throws v caller buf what io here left thrown =>
    have fed : Stamps config s (.io sys) c
        ((takeParser s v.c (s.fed config sys v buf)).objects c) :=
      still.update rfl ⟨rfl, rfl, rfl⟩
    exact stamps_close _ _ fed
  | @upgrades v caller buf here returns response =>
    by_cases same : c = v.c
    · subst same
      rw [Server.goto_objects, Server.modify_self, takeParser, Server.modify_self]
      refine .upgraded rfl (by rw [here]; rfl) rfl rfl ?_
      intro early
      by_contra late
      exact early ⟨sys, v, caller, buf, rfl, here, response, not_le.mp late⟩
    · have fed : Stamps config s (.io sys) c
          ((takeParser s v.c (s.fed config sys v buf)).objects c) :=
        still.update rfl ⟨rfl, rfl, rfl⟩
      rw [Server.goto_objects, Server.modify_objects, if_neg same]
      exact fed
  | @pushes s' ref kind item io site unlocked =>
    have stamped : Stamps config s (.io sys) c (s'.objects c) := by
      generalize at_ : s.io = at' at site
      cases site with
      | upgrade | unsupported | closeReply => exact still
      | pong => exact stamps_set rfl (hears (by rw [at_]; rfl)) c
      | ping found done upgraded open' =>
        exact stamps_set rfl (.pinged at_ upgraded rfl rfl) c
    exact stamped.update rfl ⟨rfl, rfl, rfl⟩
  | @ponged v caller frame frames here =>
    exact stamps_set rfl (hears (by rw [here]; rfl)) c
  | @submits v caller frame frames message here same =>
    exact stamps_set rfl (hears (by rw [here]; rfl)) c

theorem step_stamps (config : Config) (s : Server) (i : Input) (c : ConnRef) :
    Stamps config s i c ((step config s i).1.objects c) := by
  have still : Stamps config s i c (s.objects c) := .same rfl rfl rfl
  have move := step_move config s i
  generalize step config s i = r at move ⊢
  cases move with
  | io sys => exact ioMove_stamps (ioStep_move config sys s) c
  | @worker w real sys =>
    have moved := workerStep_move config sys s w
    generalize workerStep config sys s w = r at moved ⊢
    cases moved with
    | enters | pushes => exact still.update rfl ⟨rfl, rfl, rfl⟩
    | _ => exact still
  | hangup fd e => exact stamps_close s fd still
  | accepts now waits fresh => exact stamps_set rfl (.accepted rfl rfl rfl) c
  | @refuses cfd now waits fresh =>
    have added : Stamps config s (.listen cfd now false) c
        ((addConnection config s cfd now).objects c) :=
      stamps_set rfl (.accepted rfl rfl rfl) c
    exact stamps_close _ _ added
  | stays | shakes | reads | timer | wake => exact still

theorem step_timer {now : TimePoint} {all todo : List Nat}
    (pass : (step config s i).1.io = .timerPing now all todo) :
    i.reading = some now ∨ ∃ all todo, s.io = .timerPing now all todo := by
  have move := step_move config s i
  generalize step config s i = r at move pass
  cases move with
  | io sys =>
    have moved := ioStep_move config sys s
    generalize ioStep config sys s = r at moved pass
    right
    cases moved with
    | stays => exact ⟨_, _, pass⟩
    | goes next =>
      generalize s.io = at' at next
      cases next <;> cases pass
      exact ⟨_, _, rfl⟩
    | closes site =>
      generalize s.io = at' at site
      cases site <;> cases pass
    | flushes site unlocked =>
      generalize s.io = at' at site
      cases site <;> cases pass
    | pushes site unlocked =>
      generalize s.io = at' at site
      cases site <;> cases pass
      exact ⟨_, _, rfl⟩
    | throws here left thrown => cases left <;> cases pass
    | drains | earlyDone | accepted | delivers | upgrades | ponged | peerCloses | submits
    | cleans => cases pass
  | @worker w real sys =>
    rw [(workerMove_table (workerStep_move config sys s w)).2.1] at pass
    exact .inr ⟨_, _, pass⟩
  | stays => exact .inr ⟨_, _, pass⟩
  | accepts now' waits fresh =>
    simp only [addConnection, waits] at pass
    contradiction
  | timer now' order =>
    obtain ⟨rfl, _⟩ := IoState.timerPing.inj pass
    exact .inl rfl
  | hangup | shakes | reads | refuses | wake => cases pass

theorem step_accepted {c : ConnRef} (fresh : s.allocated ≤ c)
    (made : c < (step config s i).1.allocated) :
    i.reading = some ((step config s i).1.objects c).last_ping := by
  have none (same : (step config s i).1.allocated = s.allocated) :
      i.reading = some ((step config s i).1.objects c).last_ping := by
    rw [same] at made
    exact absurd made (not_lt.mpr fresh)
  have newest {cfd : Nat} {now : TimePoint}
      (made : c < (addConnection config s cfd now).allocated) : c = s.allocated :=
    Nat.le_antisymm (Nat.le_of_lt_succ made) fresh
  have move := step_move config s i
  generalize step config s i = r at move made none ⊢
  cases move with
  | io sys => exact none (ioStep_only config sys s).allocated
  | @worker w real sys => exact none (workerMove_table (workerStep_move config sys s w)).2.2
  | hangup fd e => exact none (hangup_only s fd).allocated
  | accepts now waits free =>
    obtain rfl := newest made
    simp only [Input.reading, addConnection, Function.update_self, Connection.construct]
  | @refuses cfd now waits free =>
    rw [(hangup_only (addConnection config s cfd now) cfd).allocated] at made
    obtain rfl := newest made
    have same := (closed_sameBeat (addConnection config s cfd now) cfd s.allocated).last_ping
    rw [Server.goto_objects, same]
    simp only [Input.reading, addConnection, Function.update_self, Connection.construct]
  | stays | shakes | reads | timer | wake => exact none rfl

/-- No stamp is later than b, nor is the reading of a timer pass. -/
structure StampedBy (s : Server) (b : TimePoint) : Prop where
  connections : ∀ c < s.allocated, (s.objects c).last_ping ≤ b
  timer : ∀ now all todo, s.io = .timerPing now all todo → now ≤ b

theorem step_stampedBy {b : TimePoint} (stamped : StampedBy s b)
    (reading : ∀ r, i.reading = some r → r ≤ b) : StampedBy (step config s i).1 b := by
  constructor
  · intro c made
    by_cases fresh : s.allocated ≤ c
    · exact reading _ (step_accepted fresh made)
    · have older := stamped.connections c (not_le.mp fresh)
      cases step_stamps config s i c with
      | same upgraded ping server => exact ping ▸ older
      | heard io held upgraded ping server => exact ping ▸ reading _ (io ▸ rfl)
      | upgraded io held ping server window => exact ping ▸ older
      | pinged io before ping server => exact ping ▸ stamped.timer _ _ _ io
      | accepted reading' upgraded ping => exact ping ▸ reading _ reading'
  · intro now all todo pass
    rcases step_timer pass with here | ⟨_, _, before⟩
    · exact reading now here
    · exact stamped.timer now _ _ before

/- On a steady clock an upgrade in time opens the window, and nothing closes it. -/
theorem step_inWindow (refs : RefInv s) (window : ∀ c, InWindow config (s.objects c))
    (stamped : ∀ r, i.reading = some r → StampedBy s r) (early : ¬ UpgradesLate config s i)
    (c : ConnRef) : InWindow config ((step config s i).1.objects c) := by
  intro up
  cases step_stamps config s i c with
  | same upgraded ping server =>
    rw [ping, server]
    exact window c (upgraded.symm.trans up)
  | @heard sys io held upgraded ping server =>
    obtain ⟨ahead, opened⟩ := window c (upgraded.symm.trans up)
    have steady := (stamped sys.now (io ▸ rfl)).connections c (refs.io c held)
    rw [ping, server]
    exact ⟨by linarith, opened⟩
  | @upgraded sys io held ping server late =>
    have ahead := late early
    have steady := (stamped sys.now (io ▸ rfl)).connections c (refs.io c held)
    rw [ping, server]
    exact ⟨ahead, by linarith⟩
  | pinged io before ping server =>
    obtain ⟨_, opened⟩ := window c before
    rw [ping, server]
    exact ⟨by linarith, opened⟩
  | accepted reading upgraded ping =>
    rw [upgraded] at up
    contradiction

end

abbrev Past := List (Run.Taken Server Input (List Observation))

def Punctual (config : Config) (past : Past) (s : Server) : Prop :=
  SteadyClock (past.map Run.Taken.input) →
    (∀ t ∈ past, ¬ UpgradesLate config t.before t.input) →
      RefInv s ∧ (∀ c, InWindow config (s.objects c)) ∧
        ∀ b, (∀ r ∈ (past.map Run.Taken.input).filterMap Input.reading, r ≤ b) → StampedBy s b

theorem step_punctual {config : Config} {past : Past} {s : Server} (i : Input)
    (punctual : Punctual config past s) :
    Punctual config (past ++ [⟨s, i, (step config s i).1, (step config s i).2⟩])
      (step config s i).1 := by
  intro steady early
  simp only [SteadyClock, List.map_append, List.map_cons, List.map_nil, List.filterMap_append,
    List.pairwise_append] at steady
  obtain ⟨before, _, across⟩ := steady
  obtain ⟨refs, window, stamped⟩ := punctual before fun t mem =>
    early t (List.mem_append_left _ mem)
  have now : ∀ r, i.reading = some r → StampedBy s r := by
    intro r reading
    apply stamped r
    intro r' mem
    exact across r' mem r (by simp [reading])
  refine ⟨step_refs refs i, ?_, ?_⟩
  · exact step_inWindow refs window now
      (early ⟨s, i, (step config s i).1, (step config s i).2⟩ (by simp))
  · intro b bounds
    simp only [List.map_append, List.map_cons, List.map_nil, List.filterMap_append,
      List.mem_append] at bounds
    apply step_stampedBy (stamped b fun r mem => bounds r (.inl mem))
    intro r reading
    exact bounds r (.inr (by simp [reading]))

/-- The idle sweep never closes an upgraded connection in a run whose timer overlooks none; and it
    overlooks none, on a steady clock, if no upgrade comes late. -/
theorem heartbeat_keeps_alive (config : Config) (disk : FileSystem Bytes) (inputs : List Input) :
    ((∀ t ∈ Run.steps (step config) (start disk) inputs, ¬ Overlooks config t.before t.input) →
      ∀ t ∈ Run.steps (step config) (start disk) inputs, ∀ fd todo c,
        t.before.io = .closeEach (fd :: todo) → t.before.conns.lookup fd = some c →
          ¬ Beating (t.before.objects c)) ∧
    (SteadyClock inputs →
      (∀ t ∈ Run.steps (step config) (start disk) inputs,
        ¬ UpgradesLate config t.before t.input) →
      ∀ t ∈ Run.steps (step config) (start disk) inputs, ¬ Overlooks config t.before t.input) := by
  constructor
  · intro avoids t mem fd todo c sweeps found
    have begins : TimerKnows config (start disk) (start disk).io := trivial
    have knows := (Run.invariant_steps
      (fun s => TimerKnows config s s.io) (fun s i => ¬ Overlooks config s i)
      (fun s i holds avoid => step_knows holds avoid) begins avoids).1 t mem
    rw [sweeps] at knows
    exact knows fd List.mem_cons_self c found
  · intro steady early t mem
    obtain ⟨earlier, later, split⟩ := List.append_of_mem mem
    have begins : Punctual config [] (start disk) := by
      intro _ _
      refine ⟨start_refs disk, ?_, ?_⟩
      · intro c upgraded
        contradiction
      · intro b _
        refine ⟨?_, ?_⟩
        · intro c made
          exact absurd made (Nat.not_lt_zero c)
        · intro now all todo pass
          contradiction
    have punctual := Run.invariant_before (Punctual config)
      (fun past s i holds => step_punctual i holds) begins split
    have part : (earlier.map Run.Taken.input).Sublist inputs := by
      rw [← Run.steps_inputs (step config) (start disk) inputs, split, List.map_append]
      exact List.sublist_append_left _ _
    have window := (punctual (steady.sublist (part.filterMap _))
      (fun t' mem' => early t' (split ▸ List.mem_append_left _ mem'))).2.1
    exact inWindow_due window t.input

def Input.fires : Input → Option TimePoint
  | .timer now _ => some now
  | _ => none

def Input.stamped (now : TimePoint) : Input → Input
  | .io sys => .io { sys with now }
  | i => i

def FiresEverySecond (inputs : List Input) : Prop :=
  (inputs.filterMap Input.fires).IsChain fun a b => b = a + 1000000000

instance (inputs : List Input) : Decidable (FiresEverySecond inputs) :=
  inferInstanceAs (Decidable ((inputs.filterMap Input.fires).IsChain fun a b =>
    b = a + 1000000000))

def timerPass (sec : Int) : List Input :=
  .timer (sec * 1000000000) [5] :: List.replicate 6 (.io { quiet with now := sec * 1000000000 })

/-- Idle timeout 6 s, so a ping every 5 s. A client upgrades 3 s after the accept and falls
    silent; at 7 s no ping is due and the accept is 7 s ago. -/
def slowUpgrade : List Input :=
  .listen 5 0 true :: timerPass 1 ++ timerPass 2 ++
    (upgradeRun.tail ++ [Input.io quiet, Input.io quiet]).map (Input.stamped 3000000000) ++
    timerPass 3 ++ timerPass 4 ++ timerPass 5 ++ timerPass 6 ++ timerPass 7

def IoState.closes : IoState → List Nat
  | .closeEach todo => todo
  | _ => []

theorem closes_first {io : IoState} {fd : Nat} (first : io.closes.head? = some fd) :
    ∃ todo, io = .closeEach (fd :: todo) := by
  cases io with
  | closeEach todo =>
    obtain ⟨todo, rfl⟩ := List.head?_eq_some_iff.mp first
    exact ⟨todo, rfl⟩
  | _ => contradiction

def hastyConfig : Config := { plainConfig with wsIdleTimeoutSec := 6 }

theorem slow_upgrade_swept :
    ¬ ∀ (config : Config) (disk : FileSystem Bytes) (inputs : List Input),
      SteadyClock inputs → FiresEverySecond inputs →
        ∀ t ∈ Run.steps (step config) (start disk) inputs, ∀ fd todo c,
          t.before.io = .closeEach (fd :: todo) → t.before.conns.lookup fd = some c →
            ¬ Beating (t.before.objects c) := by
  intro claimed
  have swept : (Run.steps (step hastyConfig) (start .empty) slowUpgrade).any (fun t =>
      t.before.io.closes.head? = some 5 && t.before.conns.lookup 5 = some 0 &&
        (t.before.objects 0).tls_done && (t.before.objects 0).ws_upgraded &&
        !(t.before.objects 0).closing) = true := by decide +kernel
  obtain ⟨t, mem, sweeps⟩ := List.any_eq_true.mp swept
  simp only [Bool.and_eq_true, decide_eq_true_eq, Bool.not_eq_true'] at sweeps
  obtain ⟨⟨⟨⟨first, found⟩, done⟩, upgraded⟩, open'⟩ := sweeps
  obtain ⟨todo, here⟩ := closes_first first
  exact claimed hastyConfig .empty slowUpgrade (by decide +kernel) (by decide +kernel) t mem
    5 todo 0 here found ⟨done, upgraded, open'⟩

end WssServer
