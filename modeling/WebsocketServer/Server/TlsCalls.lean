import WebsocketServer.File.Upload
import WebsocketServer.Server.EarlyWrites
import WebsocketServer.Server.References
import WebsocketServer.Server.Visits

/- The calls on the SSL object of a connection, and the close of its socket. closeConnection
   closes the socket at once; the SSL object goes with the last shared_ptr. -/
namespace WssServer

inductive TlsCall where
  | SSL_read_early_data
  | SSL_accept
  | SSL_read
  | SSL_write
  | SSL_shutdown
  deriving DecidableEq

inductive TlsEvent where
  | call (c : ConnRef) (what : TlsCall)
  | closed (c : ConnRef)
  deriving DecidableEq

/-- The call the IO thread reads with. While closeConnection waits behind a failed call, the
    call was made before. -/
def receiveCalls (sys : Answers) (s : Server) : List TlsEvent :=
  let made (v : Visit) (what : TlsCall) (fails : Bool) : List TlsEvent :=
    if fails && (s.objects v.c).outbound_mu.isSome then [] else [.call v.c what]
  match s.io with
  | .driveTlsEarlyRead v =>
      made v .SSL_read_early_data (match sys.early with | .error => true | _ => false)
  | .driveTlsAccept v => made v .SSL_accept (match sys.accept with | .error => true | _ => false)
  | .readLoop v =>
      made v .SSL_read (match sys.read with | .ret [] | .error => true | _ => false)
  | _ => []

def Input.receives (s : Server) : Input → List TlsEvent
  | .io sys => receiveCalls sys s
  | _ => []

def writeCalls (observed : List Observation) : List TlsEvent :=
  observed.filterMap fun
    | .sslWrite c _ => some (.call c .SSL_write)
    | _ => none

/-- The connections whose socket is closed between two states; a new one begins open. -/
def closedBetween (s s' : Server) : List ConnRef :=
  (List.range s'.allocated).filter fun c =>
    (decide (s.allocated ≤ c) || (s.objects c).fd.isSome) && (s'.objects c).fd.isNone

def releasedBetween (config : Config) (s s' : Server) : List ConnRef :=
  (List.range s'.allocated).filter fun c =>
    (decide (s.allocated ≤ c) || !expired config s c) && expired config s' c

def destructor (s : Server) (c : ConnRef) : List TlsEvent :=
  (if (s.objects c).ssl then [.call c .SSL_shutdown] else []) ++
    if (s.objects c).fd.isSome then [.closed c] else []

/-- A step with its calls in order: the IO thread reads or writes, then closes, and what nothing
    refers to any more is destroyed. -/
def tlsStep (config : Config) (s : Server) (i : Input) : Server × List TlsEvent :=
  let r := step config s i
  (r.1, i.receives s ++ writeCalls r.2 ++ (closedBetween s r.1).map .closed ++
    (releasedBetween config s r.1).flatMap (destructor r.1))

/-- Of two calls in order, the second is not on a connection whose socket the first closed. -/
def BeforeClose (e e' : TlsEvent) : Prop := ∀ c what, e = .closed c → e' ≠ .call c what

def LetsGo (config : Config) (s : Server) (i : Input) (c : ConnRef) : Prop :=
  c < (step config s i).1.allocated ∧ (s.allocated ≤ c ∨ Referenced config s c) ∧
    ¬ Referenced config (step config s i).1 c

structure SameSockets (s s' : Server) : Prop where
  conns : s'.conns = s.conns
  allocated : s'.allocated = s.allocated
  sockets : ∀ c, (s'.objects c).fd = (s.objects c).fd ∧ (s'.objects c).ssl = (s.objects c).ssl

inductive Sockets (s s' : Server) : Prop where
  | same (same : SameSockets s s')
  | closes {s₁ s₂ : Server} {fd : Nat} (before : SameSockets s s₁)
      (closed : s₂ = s₁.closeConnection fd) (behind : SameSockets s₂ s')
      (stops : s'.io.reads = false)

theorem SameSockets.trans {a b c : Server} (first : SameSockets a b) (second : SameSockets b c) :
    SameSockets a c where
  conns := second.conns.trans first.conns
  allocated := second.allocated.trans first.allocated
  sockets := fun ref => ⟨(second.sockets ref).1.trans (first.sockets ref).1,
    (second.sockets ref).2.trans (first.sockets ref).2⟩

theorem sameSockets_update {s s' : Server} (c : ConnRef) {conn : Connection}
    (conns : s'.conns = s.conns) (allocated : s'.allocated = s.allocated)
    (objects : s'.objects = Function.update s.objects c conn)
    (keeps : conn.fd = (s.objects c).fd ∧ conn.ssl = (s.objects c).ssl) : SameSockets s s' :=
  ⟨conns, allocated, Server.objects_update
    (R := fun _ conn conn' => conn'.fd = conn.fd ∧ conn'.ssl = conn.ssl) (fun _ => ⟨rfl, rfl⟩)
    objects keeps⟩

theorem SameTls.sockets {s s' : Server} (same : SameTls s s') : SameSockets s s' :=
  ⟨same.conns, same.allocated, fun c => (tls_fields (same.tls c)).2⟩

theorem ioMove_sockets {config : Config} {sys : Answers} {s : Server} {r : Stepped}
    (move : IoMove config sys s r) : Sockets s r.1 := by
  have refl (s' : Server) (io : IoState) : SameSockets s' (s'.goto io) := (same_goto s' io).sockets
  cases move with
  | stays | cleans => exact .same ⟨rfl, rfl, fun _ => ⟨rfl, rfl⟩⟩
  | goes next => exact .same (refl s _)
  | closes site =>
    refine .closes (refl s s.io) rfl (refl _ _) ?_
    generalize s.io = at' at site
    cases site <;> rfl
  | drains site out closing => exact .closes (same_sent s _ _).sockets rfl (refl _ _) rfl
  | throws here left thrown =>
    exact .closes (same_takeParser s _ _).sockets rfl (refl _ _) left.reads
  | @upgrades v caller buf here returns response =>
    exact .same ((same_takeParser s v.c (s.fed config sys v buf)).sockets.trans
      (sameSockets_update v.c rfl rfl rfl ⟨rfl, rfl⟩))
  | @pushes s' c kind item io site unlocked =>
    exact .same (site.same.sockets.trans (sameSockets_update c rfl rfl rfl ⟨rfl, rfl⟩))
  | flushes | delivers | earlyDone | accepted | ponged | peerCloses | submits =>
    exact .same (sameSockets_update _ rfl rfl rfl ⟨rfl, rfl⟩)

section
variable {config : Config} {s s' : Server} {c : ConnRef}

theorem Sockets.ages (moves : Sockets s s') :
    s'.allocated = s.allocated ∧ (s'.objects c).ssl = (s.objects c).ssl ∧
      ((s'.objects c).fd = (s.objects c).fd ∨ (s'.objects c).fd = none) := by
  cases moves with
  | same same => exact ⟨same.allocated, (same.sockets c).2, .inl (same.sockets c).1⟩
  | @closes s₁ s₂ fd before closed behind stops =>
    obtain ⟨fdb, sslb⟩ := before.sockets c
    obtain ⟨fda, ssla⟩ := behind.sockets c
    rw [behind.allocated, ssla, fda, closed]
    rcases s₁.closeConnection_cases fd with ⟨_, run⟩ | ⟨ref, _, run⟩
    · rw [run]
      exact ⟨before.allocated, sslb, .inl fdb⟩
    · rw [run, s₁.modify_keeps ref Connection.close Connection.ssl rfl c, s₁.modify_objects]
      refine ⟨before.allocated, sslb, ?_⟩
      by_cases same : c = ref
      · rw [if_pos same]
        exact .inr rfl
      · rw [if_neg same]
        exact .inl fdb

theorem Sockets.stays {fd : Nat} (moves : Sockets s s') (open' : (s'.objects c).fd = some fd)
    (found : s.conns.lookup fd = some c) : s'.conns.lookup fd = some c := by
  cases moves with
  | same same =>
    rw [same.conns]
    exact found
  | @closes s₁ s₂ fd' before closed behind stops =>
    rw [behind.conns, closed]
    rw [(behind.sockets c).1, closed] at open'
    rw [← before.conns] at found
    rcases s₁.closeConnection_cases fd' with ⟨_, run⟩ | ⟨ref, other, run⟩
    · rw [run]
      exact found
    · rw [run] at open' ⊢
      have apart : fd ≠ fd' := by
        rintro rfl
        obtain rfl := Option.some.inj (found.symm.trans other)
        rw [s₁.modify_self] at open'
        contradiction
      exact (AList.lookup_erase_ne apart).trans found

end

/-- Every connection ever made has an SSL object; an open socket is in the table under its
    number, and the IO thread reads from open sockets only. -/
structure SocketInv (s : Server) : Prop where
  ssl : ∀ c < s.allocated, (s.objects c).ssl = true
  table : ∀ c < s.allocated, ∀ fd, (s.objects c).fd = some fd → s.conns.lookup fd = some c
  reads : ∀ v, s.io.visit = some v → s.io.reads = true → (s.objects v.c).fd ≠ none

theorem start_sockets (disk : FileSystem Bytes) : SocketInv (start disk) := by
  refine ⟨?_, ?_, ?_⟩
  · intro c made
    exact absurd made (Nat.not_lt_zero c)
  · intro c made
    exact absurd made (Nat.not_lt_zero c)
  · intro v visits
    contradiction

section
variable {config : Config} {s s' : Server}

theorem Sockets.inv (moves : Sockets s s') (inv : SocketInv s) (continues : Continues s.io s'.io) :
    SocketInv s' := by
  have older {c : ConnRef} (made : c < s'.allocated) : c < s.allocated :=
    (moves.ages (c := c)).1 ▸ made
  refine ⟨?_, ?_, ?_⟩
  · intro c made
    rw [moves.ages.2.1]
    exact inv.ssl c (older made)
  · intro c made fd open'
    apply moves.stays open'
    rcases moves.ages (c := c) with ⟨_, _, same | closed⟩
    · exact inv.table c (older made) fd (same.symm.trans open')
    · rw [closed] at open'
      contradiction
  · intro v visits reads
    obtain ⟨visited, read⟩ := continues v visits
    cases moves with
    | same same =>
      rw [(same.sockets v.c).1]
      exact inv.reads v visited (read reads)
    | closes before closed behind stops =>
      rw [stops] at reads
      contradiction

theorem hangup_sockets (s : Server) (fd : Nat) :
    Sockets s ((s.closeConnection fd).goto .epollWait) :=
  .closes (same_goto s s.io).sockets rfl (same_goto _ _).sockets rfl

theorem addConnection_sockets {cfd : Nat} {now : TimePoint} (inv : SocketInv s)
    (waits : s.io = .epollWait) (fresh : cfd ∉ s.conns) :
    SocketInv (addConnection config s cfd now) := by
  have newest (c : ConnRef) (made : c < s.allocated + 1) : c < s.allocated ∨ c = s.allocated :=
    Nat.lt_succ_iff_lt_or_eq.mp made
  refine ⟨?_, ?_, ?_⟩
  · intro c made
    rcases newest c made with old | rfl
    · rw [addConnection_other (Nat.ne_of_lt old)]
      exact inv.ssl c old
    · simp only [addConnection, Function.update_self, Connection.construct]
  · intro c made fd open'
    rcases newest c made with old | rfl
    · rw [addConnection_other (Nat.ne_of_lt old)] at open'
      have found := inv.table c old fd open'
      have apart : fd ≠ cfd := by
        rintro rfl
        exact fresh (AList.lookup_isSome.mp (by rw [found]; rfl))
      exact (AList.lookup_insert_ne apart).trans found
    · simp only [addConnection, Function.update_self, Connection.construct,
        Option.some.injEq] at open'
      subst open'
      exact AList.lookup_insert _
  · intro v visits
    simp only [addConnection, waits] at visits
    contradiction

theorem step_socketInv (tls : TlsInv s) (inv : SocketInv s) (i : Input) :
    SocketInv (step config s i).1 := by
  have move := step_move config s i
  generalize step config s i = r at move ⊢
  have visit {fd : Nat} {c : ConnRef} (found : s.conns.lookup fd = some c) {io : IoState}
      {e : Events}
      (begins : io.visit = some ⟨fd, c, e⟩) : SocketInv (s.goto io) := by
    refine ⟨inv.ssl, inv.table, ?_⟩
    intro v visits _
    obtain rfl := Option.some.inj (begins.symm.trans visits)
    rw [Server.goto_objects, (tls.live fd c found).1]
    exact Option.some_ne_none fd
  cases move with
  | stays => exact inv
  | io sys =>
    have moved := ioStep_move config sys s
    exact (ioMove_sockets moved).inv inv (ioMove_continues moved)
  | @worker w real sys =>
    obtain ⟨same, io⟩ := workerMove_same (workerStep_move config sys s w)
    exact (Sockets.same same.sockets).inv inv (io ▸ continues_refl s.io)
  | hangup fd e => exact (hangup_sockets s fd).inv inv (continues_ended rfl)
  | shakes e found undone => exact visit found rfl
  | reads e found done => exact visit found rfl
  | accepts now waits fresh => exact addConnection_sockets inv waits fresh
  | @refuses cfd now waits fresh =>
    exact (hangup_sockets _ cfd).inv (addConnection_sockets inv waits fresh)
      (continues_ended rfl)
  | timer | wake => exact (Sockets.same (same_goto s _).sockets).inv inv (continues_ended rfl)

theorem step_closed {c : ConnRef} (made : c < s.allocated) (closed : (s.objects c).fd = none)
    (i : Input) : ((step config s i).1.objects c).fd = none := by
  have stays {s₁ s₂ : Server} (moves : Sockets s₁ s₂) (before : (s₁.objects c).fd = none) :
      (s₂.objects c).fd = none := by
    rcases moves.ages (c := c) with ⟨_, _, same | now⟩
    · exact same.trans before
    · exact now
  have added {cfd : Nat} {now : TimePoint} :
      ((addConnection config s cfd now).objects c).fd = none := by
    rw [addConnection_other (Nat.ne_of_lt made), closed]
  have move := step_move config s i
  generalize step config s i = r at move ⊢
  cases move with
  | io sys => exact stays (ioMove_sockets (ioStep_move config sys s)) closed
  | @worker w real sys =>
    exact stays (.same (workerMove_same (workerStep_move config sys s w)).1.sockets) closed
  | hangup fd e => exact stays (hangup_sockets s fd) closed
  | accepts now waits fresh => exact added
  | @refuses cfd now waits fresh => exact stays (hangup_sockets _ cfd) added
  | stays | shakes | reads | timer | wake => exact closed

def OpenCall (s : Server) (e : TlsEvent) : Prop :=
  ∃ c what, e = .call c what ∧ (s.objects c).fd ≠ none ∧ what ≠ .SSL_shutdown

theorem receives_open (inv : SocketInv s) (i : Input) : ∀ e ∈ i.receives s, OpenCall s e := by
  have made {v : Visit} {what : TlsCall} {fails : Bool} (visits : s.io.visit = some v)
      (reads : s.io.reads = true) (call : what ≠ .SSL_shutdown) :
      ∀ e ∈ (if fails && (s.objects v.c).outbound_mu.isSome then [] else [TlsEvent.call v.c what]),
        OpenCall s e := by
    intro e mem
    split at mem
    · contradiction
    · rw [List.mem_singleton.mp mem]
      exact ⟨v.c, what, rfl, inv.reads v visits reads, call⟩
  cases i with
  | io sys =>
    simp only [Input.receives, receiveCalls]
    split
    · rename_i v here
      exact made (by rw [here]; rfl) (by rw [here]; rfl) (by simp)
    · rename_i v here
      exact made (by rw [here]; rfl) (by rw [here]; rfl) (by simp)
    · rename_i v here
      exact made (by rw [here]; rfl) (by rw [here]; rfl) (by simp)
    · exact fun e mem => nomatch mem
  | _ => exact fun e mem => nomatch mem

theorem step_writes_live {c : ConnRef} {done : Bool} {i : Input}
    (mem : .sslWrite c done ∈ (step config s i).2) : (s.objects c).Live := by
  have flushed {sys : Answers} {ref : ConnRef}
      (mem : .sslWrite c done ∈ s.sslWrites ref (s.flush sys ref)) : (s.objects c).Live := by
    obtain ⟨called, same⟩ := List.mem_replicate.mp mem
    obtain ⟨rfl, _⟩ := Observation.sslWrite.inj same
    by_contra gone
    rw [Server.flush, ne_eq, flush_calls] at called
    exact called (.inl gone)
  have move := step_move config s i
  generalize step config s i = r at move mem
  cases move with
  | io sys =>
    have moved := ioStep_move config sys s
    generalize ioStep config sys s = r at moved mem
    cases moved with
    | flushes site unlocked => exact flushed mem
    | drains site out closing => exact flushed mem
    | pushes | peerCloses | submits => simp [sendItem, submitTask] at mem
    | _ => simp at mem
  | @worker w real sys =>
    have moved := workerStep_move config sys s w
    generalize workerStep config sys s w = r at moved mem
    cases moved <;> simp [pushReplies] at mem
  | _ => simp at mem

theorem writes_open {i : Input} : ∀ e ∈ writeCalls (step config s i).2, OpenCall s e := by
  intro e mem
  obtain ⟨o, out, call⟩ := List.mem_filterMap.mp mem
  split at call
  · rename_i c done
    rw [← Option.some.inj call]
    exact ⟨c, .SSL_write, rfl, (step_writes_live out).1, by simp⟩
  · contradiction

theorem mem_closedBetween {c : ConnRef} :
    c ∈ closedBetween s s' ↔ c < s'.allocated ∧ (s'.objects c).fd = none ∧
      (s.allocated ≤ c ∨ (s.objects c).fd ≠ none) := by
  simp only [closedBetween, List.mem_filter, List.mem_range, Bool.and_eq_true, Bool.or_eq_true,
    decide_eq_true_eq, Option.isSome_iff_ne_none, Option.isNone_iff_eq_none]
  tauto

theorem mem_releasedBetween {i : Input} {c : ConnRef} :
    c ∈ releasedBetween config s (step config s i).1 ↔ LetsGo config s i c := by
  have held : (!expired config s c) = true ↔ Referenced config s c := by
    rw [Bool.not_eq_true', ← Bool.not_eq_true, expired_iff, not_not]
  simp only [releasedBetween, List.mem_filter, List.mem_range, Bool.and_eq_true, Bool.or_eq_true,
    decide_eq_true_eq, held, expired_iff, LetsGo]

/- What loses its last reference has its socket closed already. -/
theorem released_destructor {c : ConnRef} (inv : SocketInv s) (made : c < s.allocated)
    (free : ¬ Referenced config s c) :
    (s.objects c).fd = none ∧ destructor s c = [.call c .SSL_shutdown] := by
  have closed : (s.objects c).fd = none := by
    cases open' : (s.objects c).fd with
    | none => rfl
    | some fd => exact absurd (.inl ⟨fd, inv.table c made fd open'⟩) free
  refine ⟨closed, ?_⟩
  rw [destructor, inv.ssl c made, closed]
  rfl

theorem mem_destroyed {i : Input} (inv : SocketInv (step config s i).1) {e : TlsEvent} :
    e ∈ (releasedBetween config s (step config s i).1).flatMap (destructor (step config s i).1) ↔
      ∃ c, LetsGo config s i c ∧ e = .call c .SSL_shutdown := by
  simp only [List.mem_flatMap, mem_releasedBetween]
  constructor
  · intro ⟨c, letsGo, mem⟩
    rw [(released_destructor inv letsGo.1 letsGo.2.2).2] at mem
    exact ⟨c, letsGo, List.mem_singleton.mp mem⟩
  · intro ⟨c, letsGo, same⟩
    refine ⟨c, letsGo, ?_⟩
    rw [(released_destructor inv letsGo.1 letsGo.2.2).2, same]
    exact List.mem_singleton_self _

theorem mem_shutdown {i : Input} (inv : SocketInv s) (later : SocketInv (step config s i).1)
    {c : ConnRef} : .call c .SSL_shutdown ∈ (tlsStep config s i).2 ↔ LetsGo config s i c := by
  have never : ∀ e ∈ i.receives s ++ writeCalls (step config s i).2,
      e ≠ .call c .SSL_shutdown := by
    intro e mem same
    obtain ⟨c', what, call, _, other⟩ : OpenCall s e := by
      rcases List.mem_append.mp mem with received | written
      · exact receives_open inv i e received
      · exact writes_open e written
    exact other (TlsEvent.call.inj (call.symm.trans same)).2
  simp only [tlsStep, List.mem_append (s := _ ++ _ ++ _), List.mem_append (s := _ ++ _),
    mem_destroyed later]
  constructor
  · rintro ((front | closed) | ⟨c', letsGo, same⟩)
    · exact absurd rfl (never _ front)
    · simp at closed
    · obtain ⟨rfl, _⟩ := TlsEvent.call.inj same
      exact letsGo
  · exact fun letsGo => .inr ⟨c, letsGo, rfl⟩

/-- The only call behind the close of a socket is the destructor's. -/
def LateShutdown (e e' : TlsEvent) : Prop :=
  ∀ c what, e = .closed c → e' = .call c what → what = .SSL_shutdown

structure TlsTrace (past : List TlsEvent) (s : Server) : Prop where
  sockets : SocketInv s
  tls : TlsInv s
  closed : ∀ c, .closed c ∈ past ↔ c < s.allocated ∧ (s.objects c).fd = none
  late : past.Pairwise LateShutdown
  shutdown : ∀ c, .call c .SSL_shutdown ∈ past → ¬ past.Pairwise BeforeClose

theorem tlsStep_closed {past : List TlsEvent} (trace : TlsTrace past s) (i : Input) (c : ConnRef) :
    .closed c ∈ past ++ (i.receives s ++ writeCalls (step config s i).2 ++
        (closedBetween s (step config s i).1).map .closed) ↔
      c < (step config s i).1.allocated ∧ ((step config s i).1.objects c).fd = none := by
  have front : .closed c ∉ i.receives s ++ writeCalls (step config s i).2 := by
    intro mem
    obtain ⟨_, _, call, _⟩ : OpenCall s (.closed c) := by
      rcases List.mem_append.mp mem with received | written
      · exact receives_open trace.sockets i _ received
      · exact writes_open _ written
    contradiction
  have between : TlsEvent.closed c ∈ (closedBetween s (step config s i).1).map .closed ↔
      c ∈ closedBetween s (step config s i).1 := by
    simp only [List.mem_map, TlsEvent.closed.injEq, exists_eq_right]
  rw [List.mem_append, List.mem_append, between, mem_closedBetween, trace.closed]
  have grows := step_allocated config s i
  constructor
  · rintro (⟨made, closed⟩ | received | ⟨made, closed, _⟩)
    · exact ⟨Nat.lt_of_lt_of_le made grows, step_closed made closed i⟩
    · exact absurd received front
    · exact ⟨made, closed⟩
  · intro ⟨made, closed⟩
    by_cases before : c < s.allocated ∧ (s.objects c).fd = none
    · exact .inl before
    · refine .inr (.inr ⟨made, closed, ?_⟩)
      by_contra neither
      rw [not_or, not_le, not_not] at neither
      exact before neither

theorem tlsStep_late {past calls ends : List TlsEvent} (trace : TlsTrace past s)
    (calling : ∀ e ∈ calls, OpenCall s e)
    (ending : ∀ e ∈ ends, ∃ c, e = .closed c ∨ e = .call c .SSL_shutdown) :
    (past ++ (calls ++ ends)).Pairwise LateShutdown := by
  have last {e e' : TlsEvent} (mem : e' ∈ ends) : LateShutdown e e' := by
    intro c what _ call
    obtain ⟨c', same | same⟩ := ending e' mem
    · rw [same] at call
      contradiction
    · exact (TlsEvent.call.inj (call.symm.trans same)).2
  have first {e e' : TlsEvent} (mem : e ∈ calls) : LateShutdown e e' := by
    intro c what close
    obtain ⟨_, _, call, _⟩ := calling e mem
    rw [call] at close
    contradiction
  refine List.pairwise_append.mpr ⟨trace.late, List.pairwise_append.mpr ⟨?_, ?_, ?_⟩, ?_⟩
  · exact List.pairwise_of_forall_mem_list fun e mem e' _ => first mem
  · exact List.pairwise_of_forall_mem_list fun e _ e' mem => last mem
  · exact fun e mem e' _ => first mem
  · intro e before e' mem
    rcases List.mem_append.mp mem with called | ended
    · rintro c what rfl rfl
      obtain ⟨c', _, same, open', _⟩ := calling _ called
      obtain ⟨rfl, _⟩ := TlsEvent.call.inj same
      exact absurd ((trace.closed c).mp before).2 open'
    · exact last ended

theorem tlsStep_trace {past : List TlsEvent} (trace : TlsTrace past s) (i : Input) :
    TlsTrace (past ++ (tlsStep config s i).2) (tlsStep config s i).1 := by
  have later : SocketInv (step config s i).1 := step_socketInv trace.tls trace.sockets i
  have closes := @tlsStep_closed config s past trace i
  have destroyed (e : TlsEvent) := mem_destroyed later (e := e)
  have calling : ∀ e ∈ i.receives s ++ writeCalls (step config s i).2, OpenCall s e := by
    intro e mem
    rcases List.mem_append.mp mem with received | written
    · exact receives_open trace.sockets i e received
    · exact writes_open e written
  simp only [tlsStep]
  generalize i.receives s ++ writeCalls (step config s i).2 = calls at closes calling ⊢
  generalize (releasedBetween config s (step config s i).1).flatMap _ = ends at destroyed ⊢
  refine ⟨later, step_inv trace.tls i, ?_, ?_, ?_⟩
  · intro c
    rw [← List.append_assoc, List.mem_append, closes]
    constructor
    · rintro (known | mem)
      · exact known
      · obtain ⟨_, _, call⟩ := (destroyed _).mp mem
        contradiction
    · exact .inl
  · rw [List.append_assoc]
    apply tlsStep_late trace calling
    intro e mem
    rcases List.mem_append.mp mem with closed | ended
    · obtain ⟨c, _, same⟩ := List.mem_map.mp closed
      exact ⟨c, .inl same.symm⟩
    · obtain ⟨c, _, same⟩ := (destroyed e).mp ended
      exact ⟨c, .inr same⟩
  · intro c mem all
    rw [← List.append_assoc] at mem all
    obtain ⟨front, _, across⟩ := List.pairwise_append.mp all
    rcases List.mem_append.mp mem with before | now
    · rcases List.mem_append.mp before with past' | called
      · exact trace.shutdown c past' (List.pairwise_append.mp front).1
      · rcases List.mem_append.mp called with called | closed
        · obtain ⟨_, _, call, _, other⟩ := calling _ called
          exact other (TlsEvent.call.inj call).2.symm
        · simp at closed
    · obtain ⟨c', letsGo, same⟩ := (destroyed _).mp now
      obtain ⟨rfl, _⟩ := TlsEvent.call.inj same
      have closed := (closes c).mpr ⟨letsGo.1, (released_destructor later letsGo.1 letsGo.2.2).1⟩
      exact across _ closed _ now c .SSL_shutdown rfl rfl

end

/-- The only call a run makes on the SSL object of a connection behind the close of its socket is
    the SSL_shutdown of the destructor, and it makes none exactly when no step drops the last
    shared_ptr to a connection. -/
theorem calls_before_close_exact (config : Config) (disk : FileSystem Bytes)
    (inputs : List Input) :
    (Run.trace (tlsStep config) (start disk) inputs).Pairwise LateShutdown ∧
      ((Run.trace (tlsStep config) (start disk) inputs).Pairwise BeforeClose ↔
        ∀ t ∈ Run.steps (tlsStep config) (start disk) inputs, ∀ c,
          ¬ LetsGo config t.before t.input c) := by
  have free : ∀ t ∈ Run.steps (tlsStep config) (start disk) inputs, True := fun _ _ => trivial
  have begins : TlsTrace [] (start disk) :=
    ⟨start_sockets disk, start_tls disk, fun c => ⟨fun mem => (nomatch mem),
      fun made => absurd made.1 (Nat.not_lt_zero c)⟩, .nil, fun c mem => nomatch mem⟩
  have trace := Run.invariant_trace TlsTrace (fun _ _ => True)
    (fun past s i holds _ => tlsStep_trace holds i) begins free
  have keeps (s : Server) (i : Input) (holds : TlsInv s ∧ SocketInv s) (_ : True) :
      TlsInv (tlsStep config s i).1 ∧ SocketInv (tlsStep config s i).1 :=
    ⟨step_inv holds.1 i, step_socketInv holds.1 holds.2 i⟩
  have invariant := (Run.invariant_steps (fun s => TlsInv s ∧ SocketInv s) (fun _ _ => True) keeps
    ⟨start_tls disk, start_sockets disk⟩ free).1
  have shuts (c : ConnRef) :
      .call c .SSL_shutdown ∈ Run.trace (tlsStep config) (start disk) inputs ↔
        ∃ t ∈ Run.steps (tlsStep config) (start disk) inputs, LetsGo config t.before t.input c := by
    unfold Run.trace
    rw [List.mem_flatMap]
    apply exists_congr
    intro t
    apply and_congr_right
    intro mem
    obtain ⟨tls, sockets⟩ := invariant t mem
    rw [(Run.steps_taken (tlsStep config) mem).2]
    exact mem_shutdown sockets (step_socketInv tls sockets t.input)
  refine ⟨trace.late, ?_⟩
  constructor
  · intro all t mem c letsGo
    exact trace.shutdown c ((shuts c).mpr ⟨t, mem, letsGo⟩) all
  · intro never
    apply trace.late.imp_of_mem
    rintro e e' _ mem late c what rfl rfl
    obtain rfl := late c what rfl rfl
    obtain ⟨t, step, letsGo⟩ := (shuts c).mp mem
    exact never t step c letsGo

/-- A worker holds the connection of a text message when the peer hangs up. The next client gets
    its descriptor before the worker lets go, and SSL_shutdown writes to that client's socket. -/
def reusedDescriptor : List Input :=
  upgradeRun ++ [.io { quiet with read := .ret (WebSocketCodec.buildClientFrame none 0x1 []) },
    .io quiet, .io quiet, .io quiet, .io quiet, .io quiet, .worker 0 FileTransferManager.willing,
    .worker 0 FileTransferManager.willing, .epoll 5 { EPOLLERR := true }, .listen 5 0 true,
    .worker 0 FileTransferManager.willing, .worker 0 FileTransferManager.willing]

theorem shutdown_follows_close :
    ¬ ∀ (config : Config) (disk : FileSystem Bytes) (inputs : List Input),
      (Run.trace (tlsStep config) (start disk) inputs).Pairwise BeforeClose := by
  intro claimed
  have both : [.closed 0, .call 0 .SSL_shutdown].Sublist
      (Run.trace (tlsStep plainConfig) (start .empty) reusedDescriptor) := by decide +kernel
  have ordered := (claimed plainConfig .empty reusedDescriptor).sublist both
  exact (List.pairwise_pair.mp ordered) 0 .SSL_shutdown rfl rfl

end WssServer
