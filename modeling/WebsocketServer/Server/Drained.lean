import WebsocketServer.Server.EarlyWrites
import WebsocketServer.Server.Visits
import WebsocketServer.Ws.Codec

/- Connections that wait to be closed. A connection whose Close reply is written is closed at the
   end of the pass that wrote it, if the event has EPOLLOUT. -/
namespace WssServer

/-- The connection that may be closing with an empty queue: the pass at hand is still to look
    at it. -/
def IoState.settles : IoState → Option ConnRef
  | .readable v | .readLoop v | .writable v | .sendClose v _ _ | .inbound v .readLoop _
  | .sendUpgrade v .readLoop _ _ | .nextFrame v .readLoop _ | .flushIfDone v .readLoop _ => some v.c
  | _ => none

/-- Nothing keeps a connection from being closed, and it is not closed. -/
def Stranded (s : Server) (c : ConnRef) : Prop :=
  (∃ fd, s.conns.lookup fd = some c) ∧ (s.objects c).closing = true ∧ (s.objects c).outbound = []

def OnlySettling (s : Server) : Prop := ∀ c, Stranded s c → s.io.settles = some c

/-- The end of a pass that leaves its connection closing with an empty queue: the queue is empty
    and the event had no EPOLLOUT, or SSL_write takes all of it behind an unfinished handshake. -/
def LeavesDrained (s : Server) (i : Input) : Prop :=
  ∃ v sys, i = .io sys ∧ s.conns.lookup v.fd = some v.c ∧ (s.objects v.c).closing = true ∧
    ((s.io = .writable v ∧ v.e.EPOLLOUT = false ∧ (s.objects v.c).outbound = []) ∨
      (s.io = .handshakePending v ∧ v.e.EPOLLOUT = true ∧ (s.objects v.c).outbound_mu = none ∧
        (s.flush sys v.c).outbound = []))

section
variable {config : Config} {sys : Answers} {s s' : Server} {c : ConnRef}

theorem stranded_same (conns : s'.conns = s.conns)
    (objects : ∀ c, (s'.objects c).closing = true → (s'.objects c).outbound = [] →
      (s.objects c).closing = true ∧ (s.objects c).outbound = [])
    (stranded : Stranded s' c) : Stranded s c := by
  obtain ⟨found, closing, empty⟩ := stranded
  rw [conns] at found
  exact ⟨found, objects c closing empty⟩

theorem stranded_update {ref : ConnRef} {conn : Connection} (stranded : Stranded s' c)
    (conns : s'.conns = s.conns) (objects : s'.objects = Function.update s.objects ref conn)
    (keeps : conn.closing = true → conn.outbound = [] →
      (s.objects ref).closing = true ∧ (s.objects ref).outbound = []) : Stranded s c := by
  apply stranded_same conns _ stranded
  exact Server.objects_update
    (R := fun _ conn conn' => conn'.closing = true → conn'.outbound = [] →
      conn.closing = true ∧ conn.outbound = [])
    (fun _ closing empty => ⟨closing, empty⟩) objects keeps

theorem stranded_stamped {ref : ConnRef} {conn : Connection} (stranded : Stranded s' c)
    (conns : s'.conns = s.conns) (objects : s'.objects = Function.update s.objects ref conn)
    (keeps : conn.closing = (s.objects ref).closing ∧ conn.outbound = (s.objects ref).outbound) :
    Stranded s c := by
  apply stranded_update stranded conns objects
  rw [keeps.1, keeps.2]
  exact fun closing empty => ⟨closing, empty⟩

theorem stranded_close (tls : TlsInv s) {fd : Nat} (stranded : Stranded (s.closeConnection fd) c) :
    Stranded s c ∧ s.conns.lookup fd ≠ some c := by
  obtain ⟨⟨fd', closed⟩, closing, empty⟩ := stranded
  obtain ⟨other, found⟩ := Server.lookup_closed closed
  rcases s.closeConnection_cases fd with ⟨absent, run⟩ | ⟨ref, here, run⟩
  · rw [run] at closing empty
    refine ⟨⟨⟨fd', found⟩, closing, empty⟩, ?_⟩
    rw [absent]
    exact (Option.some_ne_none c).symm
  · rw [run] at closing empty
    have apart : c ≠ ref := by
      rintro rfl
      have own := (tls.live fd' c found).1
      rw [(tls.live fd c here).1] at own
      exact other (Option.some.inj own).symm
    simp only [Server.modify_objects, if_neg apart] at closing empty
    refine ⟨⟨⟨fd', found⟩, closing, empty⟩, ?_⟩
    rw [here]
    exact fun same => apart (Option.some.inj same).symm

theorem flushLoop_undrained {results : List WriteResult} {outbound : List OutboundItem}
    {tx : UInt64} (undrained : (flushLoop results outbound tx).drained = false) :
    (flushLoop results outbound tx).outbound ≠ [] := by
  induction results generalizing outbound tx with
  | nil =>
    rcases flushLoop_cases [] outbound tx with ⟨_, run⟩ | ⟨item, rest, _, run⟩ |
      ⟨_, _, _, _, _, other, _⟩
    · simp [run] at undrained
    · simp [run]
    · contradiction
  | cons result results ih =>
    rcases flushLoop_cases (result :: results) outbound tx with ⟨_, run⟩ | ⟨item, rest, _, run⟩ |
      ⟨item, rest, ret, later, _, same, run⟩
    · simp [run] at undrained
    · simp [run]
    · obtain ⟨_, rfl⟩ := List.cons.inj same
      simp only [run] at undrained ⊢
      exact ih undrained

theorem flush_undrained {writes : List WriteResult} {conn : Connection} {tx : UInt64}
    (undrained : (flushOutbound writes conn tx).drained = false) :
    (flushOutbound writes conn tx).outbound ≠ [] := by
  rcases flushOutbound_cases writes conn tx with ⟨_, run⟩ | ⟨_, run⟩
  · rw [run] at undrained
    contradiction
  · rw [run] at undrained ⊢
    exact flushLoop_undrained undrained

variable (tls : TlsInv s) (own : VisitsOwn s) (only : OnlySettling s)
include only

theorem stranded_sent {ref : ConnRef} {r : Flushed} (stranded : Stranded (s.sent ref r) c) :
    (c = ref ∧ (s.objects c).closing = true ∧ r.outbound = []) ∨ s.io.settles = some c := by
  obtain ⟨found, closing, empty⟩ := stranded
  by_cases same : c = ref
  · subst same
    simp only [Server.sent, Server.modify_self] at closing empty
    exact .inl ⟨rfl, closing, empty⟩
  · right
    simp only [Server.sent, Server.modify_objects, if_neg same] at closing empty
    exact only c ⟨found, closing, empty⟩

theorem pushed_settles {s₁ : Server} {ref : ConnRef} {kind : ItemKind} {item : Bytes}
    {io : IoState} (site : Pushes sys s s.io s₁ ref kind item io) :
    ¬ Stranded (sendItem s₁ ref kind item io).1 c := by
  intro stranded
  have apart : c ≠ ref := by
    rintro rfl
    have empty := stranded.2.2
    simp [sendItem, Connection.enqueue] at empty
  have was : Stranded s₁ c := by
    obtain ⟨found, closing, empty⟩ := stranded
    simp only [sendItem, Server.goto_objects, Server.modify_objects, if_neg apart] at closing empty
    exact ⟨found, closing, empty⟩
  have before := only c
  generalize s.io = at' at site before
  cases site with
  | @upgrade v caller acceptResp frames
  | @unsupported v caller frame frames ping pong close text binary =>
    cases caller with
    | driveTlsEarlyRead => cases before was
    | readLoop => exact apart (Option.some.inj (before was)).symm
  | @pong v caller frame frames ping =>
    cases caller with
    | driveTlsEarlyRead => cases before (stranded_stamped was rfl rfl ⟨rfl, rfl⟩)
    | readLoop =>
      exact apart (Option.some.inj (before (stranded_stamped was rfl rfl ⟨rfl, rfl⟩))).symm
  | closeReply => exact apart (Option.some.inj (before was)).symm
  | ping => cases before (stranded_stamped was rfl rfl ⟨rfl, rfl⟩)

include own

/- Where the pass at hand is over, nobody is left stranded but by its last step. -/
theorem Next.settles {io : IoState} (next : Next config s s.io io)
    (avoids : ¬ LeavesDrained s (.io sys)) (stranded : Stranded s c) : io.settles = some c := by
  have before := only c stranded
  have here := own
  generalize at_ : s.io = at' at next before here
  cases next with
  | @unwritable v unwritable =>
    exfalso
    obtain rfl := Option.some.inj before
    obtain ⟨⟨fd, found⟩, closing, empty⟩ := stranded
    have same := (own v (by rw [at_]; rfl) fd v.c found).mpr rfl
    exact avoids ⟨v, sys, rfl, same ▸ found, closing, .inl ⟨at_, unwritable, empty⟩⟩
  | @keepsOutput v caller frames undone =>
    cases caller with
    | driveTlsEarlyRead => exact before
    | readLoop => exact before
  | _ => exact before

include tls

theorem Closes.settles {fd : Nat} {io : IoState} (site : Closes s.io fd io)
    (stranded : Stranded (s.closeConnection fd) c) : io.settles = some c := by
  obtain ⟨was, other⟩ := stranded_close tls stranded
  have before := only c was
  generalize at_ : s.io = at' at site before
  cases site with
  | @read v =>
    exfalso
    obtain rfl := Option.some.inj before
    obtain ⟨⟨fd, found⟩, _⟩ := was
    have same := (own v (by rw [at_]; rfl) fd v.c found).mpr rfl
    exact other (same ▸ found)
  | earlyRead | accept | idle => cases before

theorem Flushes.settles {ref : ConnRef} {io : IoState} (site : Flushes s s.io ref io)
    (unlocked : (s.objects ref).outbound_mu = none) (avoids : ¬ LeavesDrained s (.io sys))
    (pending : ∀ v, s.io = .writable v → v.e.EPOLLOUT = false)
    (stranded : Stranded (s.sent ref (s.flush sys ref)) c) : io.settles = some c := by
  have found := stranded.1
  have after := stranded_sent only stranded
  have known := tls.io
  generalize at_ : s.io = at' at site after known
  cases site with
  | @pending v out =>
    exfalso
    rcases after with ⟨rfl, closing, empty⟩ | before
    · obtain ⟨fd, found⟩ := found
      have same := (own v (by rw [at_]; rfl) fd v.c found).mpr rfl
      exact avoids ⟨v, sys, rfl, same ▸ found, closing, .inr ⟨at_, out, unlocked, empty⟩⟩
    · cases before
  | @handshaken v =>
    rcases after with ⟨rfl, _⟩ | before
    · rfl
    · cases before
  | @pushed v caller frames done =>
    cases caller with
    | driveTlsEarlyRead =>
      rw [known.1] at done
      contradiction
    | readLoop =>
      rcases after with ⟨rfl, _⟩ | before
      · rfl
      · exact before
  | @writable v out =>
    rw [pending v at_] at out
    contradiction
  | each found done open' =>
    rcases after with ⟨rfl, closing, _⟩ | before
    · rw [open'] at closing
      contradiction
    · cases before

theorem writable_settles {v : Visit} (here : s.io = .writable v) (out : v.e.EPOLLOUT = true) :
    OnlySettling (writable sys s v).1 := by
  intro c stranded
  unfold writable at stranded ⊢
  rw [if_pos out] at stranded ⊢
  rcases s.whenUnlocked_cases v.c ((closeIfDrained s v (s.flush sys v.c)).goto .epollWait,
      s.sslWrites v.c (s.flush sys v.c)) with ⟨_, run⟩ | ⟨_, run⟩
  · rw [run] at stranded ⊢
    exfalso
    have visits : s.io.visit = some v := by rw [here]; rfl
    have settles (same : s.io.settles = some c) : v.c = c := by
      rw [here] at same
      exact Option.some.inj same
    have stranded : Stranded (closeIfDrained s v (s.flush sys v.c)) c := stranded
    unfold closeIfDrained at stranded
    by_cases drained : ((s.flush sys v.c).drained && (s.objects v.c).closing) = true
    · rw [if_pos drained] at stranded
      obtain ⟨was, other⟩ := stranded_close
        (tls.same (same_sent s v.c (s.flush sys v.c)) tls.io) stranded
      have same : v.c = c := by
        rcases stranded_sent only was with ⟨same, _⟩ | before
        · exact same.symm
        · exact settles before
      obtain ⟨⟨fd, found⟩, _⟩ := was
      have found : s.conns.lookup fd = some c := found
      have number := (own v visits fd c found).mpr same.symm
      exact other (number ▸ found)
    · rw [if_neg drained] at stranded
      rcases stranded_sent only stranded with ⟨rfl, closing, empty⟩ | before
      · rw [closing, Bool.and_true] at drained
        exact flush_undrained (Bool.not_eq_true _ ▸ drained) empty
      · obtain rfl := settles before
        obtain ⟨_, closing, empty⟩ := stranded
        simp only [Server.sent, Server.modify_self] at closing empty
        rw [closing, Bool.and_true] at drained
        exact flush_undrained (Bool.not_eq_true _ ▸ drained) empty
  · rw [run] at stranded ⊢
    exact only c stranded

theorem ioStep_settles (avoids : ¬ LeavesDrained s (.io sys)) :
    OnlySettling (ioStep config sys s).1 := by
  by_cases writing : ∃ v, s.io = .writable v ∧ v.e.EPOLLOUT = true
  · obtain ⟨v, here, out⟩ := writing
    have run : ioStep config sys s = writable sys s v := by
      unfold ioStep
      rw [here]
    rw [run]
    exact writable_settles tls own only here out
  have pending : ∀ v, s.io = .writable v → v.e.EPOLLOUT = false := by
    intro v here
    by_contra out
    exact writing ⟨v, here, Bool.not_eq_false _ ▸ out⟩
  have move := ioStep_move config sys s
  generalize ioStep config sys s = r at move ⊢
  intro c stranded
  have visits {at' : IoState} (here : s.io = at') (was : Stranded s c) :
      at'.settles = some c := here ▸ only c was
  cases move with
  | stays => exact only c stranded
  | goes next => exact next.settles own only avoids stranded
  | closes site => exact site.settles tls own only stranded
  | flushes site unlocked => exact site.settles tls own only unlocked avoids pending stranded
  | drains here out closing =>
    rw [pending _ here] at out
    contradiction
  | pushes site unlocked => exact absurd stranded (pushed_settles only site)
  | @earlyDone v site =>
    have was : Stranded s c := stranded_stamped stranded rfl rfl ⟨rfl, rfl⟩
    rcases site with here | here
    · cases visits here was
    · cases visits here was
  | accepted here => cases visits here (stranded_stamped stranded rfl rfl ⟨rfl, rfl⟩)
  | @throws v caller buf what io here left thrown =>
    exfalso
    obtain ⟨was, other⟩ := stranded_close
      (tls.same (same_takeParser s v.c (s.fed config sys v buf)) tls.io) stranded
    have before := visits here (stranded_stamped was rfl rfl ⟨rfl, rfl⟩)
    cases caller with
    | driveTlsEarlyRead => cases before
    | readLoop =>
      obtain rfl := Option.some.inj before
      obtain ⟨⟨fd, found⟩, _⟩ := was
      have found : s.conns.lookup fd = some v.c := found
      have number := (own v (by rw [here]; rfl) fd v.c found).mpr rfl
      exact other (number ▸ found)
  | @delivers v caller buf here returns response =>
    have before := visits here (stranded_stamped stranded rfl rfl ⟨rfl, rfl⟩)
    cases caller <;> exact before
  | @upgrades v caller buf here returns response =>
    have fed : Stranded (takeParser s v.c (s.fed config sys v buf)) c :=
      stranded_stamped stranded rfl rfl ⟨rfl, rfl⟩
    have before := visits here (stranded_stamped fed rfl rfl ⟨rfl, rfl⟩)
    cases caller <;> exact before
  | @ponged v caller frame frames here =>
    have was : Stranded s c := stranded_stamped stranded rfl rfl ⟨rfl, rfl⟩
    have before := visits here was
    cases caller <;> exact before
  | @peerCloses v caller frame frames here close =>
    by_cases same : c = v.c
    · exact congrArg some same.symm
    · have was : Stranded s c := by
        obtain ⟨found, closing, empty⟩ := stranded
        simp only [Server.goto_objects, Server.modify_objects, if_neg same] at closing empty
        exact ⟨found, closing, empty⟩
      have before := visits here was
      cases caller with
      | driveTlsEarlyRead => cases before
      | readLoop => exact before
  | @submits v caller frame frames message here same =>
    have was : Stranded s c := stranded_stamped stranded rfl rfl ⟨rfl, rfl⟩
    have before := visits here was
    cases caller <;> exact before
  | cleans here => cases visits here stranded

end

theorem workerMove_settles {config : Config} {s : Server} {w : Nat} {r : Stepped}
    (only : OnlySettling s) (move : WorkerMove config s w r) : OnlySettling r.1 := by
  intro c stranded
  rw [(workerMove_table move).2.1]
  apply only c
  cases move with
  | enters ready unlocked open' =>
    exact stranded_stamped stranded rfl rfl ⟨rfl, rfl⟩
  | @pushes ticket conn frames inside =>
    have kept (closing : (s.objects conn).closing = true)
        (empty : ((s.objects conn).enqueue frames).outbound = []) :
        (s.objects conn).closing = true ∧ (s.objects conn).outbound = [] :=
      ⟨closing, (List.append_eq_nil_iff.mp empty).1⟩
    exact stranded_update stranded rfl rfl kept
  | _ => exact stranded

theorem event_settles {config : Config} {s : Server} {i : Input} {r : Stepped} (tls : TlsInv s)
    (nobody : ∀ c, ¬ Stranded s c) (move : Move config s i r)
    (threads : (∀ sys, i ≠ .io sys) ∧ ∀ w sys, i ≠ .worker w sys) (c : ConnRef) :
    ¬ Stranded r.1 c := by
  have added {cfd : Nat} {now : TimePoint} : ¬ Stranded (addConnection config s cfd now) c := by
    rintro ⟨⟨fd, found⟩, closing, empty⟩
    by_cases new : c = s.allocated
    · subst new
      simp only [addConnection, Function.update_self, Connection.construct] at closing
      contradiction
    · rw [addConnection_other new] at closing empty
      apply nobody c
      refine ⟨⟨fd, ?_⟩, closing, empty⟩
      by_cases same : fd = cfd
      · rw [same] at found
        simp only [addConnection, AList.lookup_insert, Option.some.injEq] at found
        exact absurd found.symm new
      · simp only [addConnection, AList.lookup_insert_ne same] at found
        exact found
  intro stranded
  cases move with
  | io sys => exact threads.1 sys rfl
  | @worker w real sys => exact threads.2 w sys rfl
  | hangup fd e => exact nobody c (stranded_close tls stranded).1
  | accepts now waits fresh => exact added stranded
  | refuses now waits fresh =>
    exact added (stranded_close (addConnection_inv tls fresh waits) stranded).1
  | stays | shakes | reads | timer | wake => exact nobody c stranded

theorem step_settles {config : Config} {s : Server} (tls : TlsInv s) (own : VisitsOwn s)
    (only : OnlySettling s) {i : Input} (avoids : ¬ LeavesDrained s i) :
    OnlySettling (step config s i).1 := by
  have event (threads : (∀ sys, i ≠ .io sys) ∧ ∀ w sys, i ≠ .worker w sys)
      (busy : s.io ≠ .epollWait → step config s i = (s, [])) :
      OnlySettling (step config s i).1 := by
    by_cases waits : s.io = .epollWait
    · have nobody : ∀ c, ¬ Stranded s c := by
        intro c stranded
        have settles := only c stranded
        rw [waits] at settles
        contradiction
      intro c stranded
      exact absurd stranded (event_settles tls nobody (step_move config s i) threads c)
    · rw [busy waits]
      exact only
  cases i with
  | io sys => exact ioStep_settles tls own only avoids
  | worker w sys =>
    by_cases real : w < config.workerCount
    · simp only [step, if_pos real]
      exact workerMove_settles only (workerStep_move config sys s w)
    · simp only [step, if_neg real]
      exact only
  | epoll | listen | timer | wake =>
    apply event (by simp)
    intro busy
    unfold step
    cases here : s.io with
    | epollWait => exact absurd here busy
    | _ => rfl

/- The step that the condition names does leave a connection stranded. -/
theorem leavesDrained_strands {config : Config} {s : Server} {i : Input}
    (leaves : LeavesDrained s i) :
    (step config s i).1.io = .epollWait ∧ ∃ c, Stranded (step config s i).1 c := by
  obtain ⟨v, sys, rfl, found, closing, site⟩ := leaves
  rcases site with ⟨here, out, empty⟩ | ⟨here, out, unlocked, empty⟩
  · have run : step config s (.io sys) = (s.goto .epollWait, []) := by
      simp only [step, ioStep, here, writable, out, Bool.false_eq_true, ↓reduceIte]
    rw [run]
    exact ⟨rfl, v.c, ⟨v.fd, found⟩, closing, empty⟩
  · have run : step config s (.io sys) = ((s.sent v.c (s.flush sys v.c)).goto .epollWait,
        s.sslWrites v.c (s.flush sys v.c)) := by
      simp only [step, ioStep, here, out, ↓reduceIte, flushThen, Server.whenUnlocked, unlocked]
    rw [run]
    refine ⟨rfl, v.c, ⟨v.fd, found⟩, ?_, ?_⟩
    · simp only [Server.goto_objects, Server.sent, Server.modify_self, closing]
    · simp only [Server.goto_objects, Server.sent, Server.modify_self, empty]

/-- Whenever the event loop goes back to epoll_wait no connection is closing with nothing left to
    send, exactly when no pass ends on a drained connection without closing it. -/
theorem closes_carried_out_exact (config : Config) (disk : FileSystem Bytes)
    (inputs : List Input) :
    (∀ t ∈ Run.steps (step config) (start disk) inputs, t.after.io = .epollWait →
      ∀ fd c, t.after.conns.lookup fd = some c →
        ¬ ((t.after.objects c).closing = true ∧ (t.after.objects c).outbound = [])) ↔
    ∀ t ∈ Run.steps (step config) (start disk) inputs, ¬ LeavesDrained t.before t.input := by
  constructor
  · intro settled t mem leaves
    obtain ⟨after, _⟩ := Run.steps_taken (step config) mem
    obtain ⟨waits, c, ⟨fd, found⟩, stranded⟩ :=
      @leavesDrained_strands config t.before t.input leaves
    rw [← after] at waits found stranded
    exact settled t mem waits fd c found stranded
  · intro avoids t mem waits fd c found stranded
    have begins : TlsInv (start disk) ∧ VisitsOwn (start disk) ∧ OnlySettling (start disk) := by
      refine ⟨start_tls disk, visitsOwn_ended rfl, ?_⟩
      intro c stranded
      obtain ⟨⟨fd, found⟩, _⟩ := stranded
      contradiction
    have before := (Run.invariant_steps
      (fun s => TlsInv s ∧ VisitsOwn s ∧ OnlySettling s) (fun s i => ¬ LeavesDrained s i)
      (fun s i holds avoid => ⟨step_inv holds.1 i, step_visitsOwn holds.1 holds.2.1 i,
        step_settles holds.1 holds.2.1 holds.2.2 avoid⟩) begins avoids).1 t mem
    have after : OnlySettling (step config t.before t.input).1 :=
      step_settles before.1 before.2.1 before.2.2 (avoids t mem)
    rw [← (Run.steps_taken (step config) mem).1] at after
    have settles := after c ⟨⟨fd, found⟩, stranded⟩
    rw [waits] at settles
    contradiction

/-- The client closes in one event without EPOLLOUT; SSL_write takes everything at once. -/
def completedClose : List Input :=
  upgradeRun ++ [.io { quiet with read := .ret (WebSocketCodec.buildClientFrame none 0x8 []) },
    .io quiet, .io quiet, .io quiet, .io { quiet with writes := [.wrote 1000, .wrote 1000] },
    .io quiet, .io quiet]

theorem completed_close_forgotten :
    ¬ ∀ (config : Config) (disk : FileSystem Bytes) (inputs : List Input),
      ∀ t ∈ Run.steps (step config) (start disk) inputs, t.after.io = .epollWait →
        ∀ fd c, t.after.conns.lookup fd = some c →
          ¬ ((t.after.objects c).closing = true ∧ (t.after.objects c).outbound = []) := by
  intro claimed
  have last : ((Run.steps (step plainConfig) (start .empty) completedClose).getLast?.map fun t =>
      (t.after.io.waits, t.after.conns.lookup 5, (t.after.objects 0).closing,
        (t.after.objects 0).outbound.isEmpty)) =
      some (true, some 0, true, true) := by decide +kernel
  obtain ⟨t, step, fields⟩ := Option.map_eq_some_iff.mp last
  simp only [Prod.mk.injEq] at fields
  obtain ⟨waits, found, closing, empty⟩ := fields
  have settled := claimed plainConfig .empty completedClose t (List.mem_of_getLast? step)
  cases here : t.after.io with
  | epollWait => exact settled here 5 0 found ⟨closing, List.isEmpty_iff.mp empty⟩
  | _ => simp [IoState.waits, here] at waits

end WssServer
