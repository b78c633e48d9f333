import WebsocketServer.Library.Run
import WebsocketServer.Server.Handshake

/- Which of the calls of flushOutbound come before the handshake is finished. -/
namespace WssServer

def WritesEarly (r : Stepped) : Prop := ∃ c, .sslWrite c false ∈ r.2

theorem silent {r : Stepped} (nothing : r.2 = []) : ¬ WritesEarly r := by
  intro ⟨c, mem⟩
  rw [nothing] at mem
  contradiction

theorem sslWrites_early (s : Server) (c : ConnRef) (r : Flushed) :
    (∃ c', .sslWrite c' false ∈ s.sslWrites c r) ↔ r.calls ≠ 0 ∧
    (s.objects c).tls_done = false := by
  simp only [Server.sslWrites, List.mem_replicate, Observation.sslWrite.injEq]
  constructor
  · intro ⟨_, called, _, undone⟩
    exact ⟨called, undone.symm⟩
  · intro ⟨called, undone⟩
    exact ⟨c, called, rfl, undone.symm⟩

/-- The flush behind an unfinished handshake, taken with something in the queue. -/
def EarlyFlush (s : Server) (i : Input) : Prop :=
  ∃ v sys, i = .io sys ∧ s.io = .handshakePending v ∧ v.e.EPOLLOUT = true ∧
    (s.objects v.c).outbound_mu = none ∧ unsent (s.objects v.c).outbound ≠ []

/- A flush before the handshake is the one behind an unfinished handshake. -/
theorem flushes_early {sys : Answers} {s : Server} (inv : TlsInv s) {c : ConnRef} {io : IoState}
    (site : Flushes s s.io c io) (unlocked : (s.objects c).outbound_mu = none)
    (early : ∃ c', .sslWrite c' false ∈ s.sslWrites c (s.flush sys c)) :
    EarlyFlush s (.io sys) := by
  obtain ⟨called, undone⟩ := (sslWrites_early s c _).mp early
  have late (done : (s.objects c).tls_done = true) : EarlyFlush s (.io sys) := by
    rw [undone] at done
    contradiction
  have known := inv.io
  generalize here : s.io = at' at site known
  cases site with
  | @pending v out =>
    refine ⟨v, sys, rfl, here, out, unlocked, ?_⟩
    intro empty
    apply called
    rw [Server.flush, flush_calls]
    exact Or.inr empty
  | handshaken => exact late known
  | pushed done => exact late done
  | writable out => exact late (known out)
  | each found done open' => exact late done

theorem ioMove_early {config : Config} {sys : Answers} {s : Server} (inv : TlsInv s) {r : Stepped}
    (move : IoMove config sys s r) (early : WritesEarly r) : EarlyFlush s (.io sys) := by
  have quiet {out : List Observation} (none : ∀ c, .sslWrite c false ∉ out)
      (some : ∃ c, .sslWrite c false ∈ out) : EarlyFlush s (.io sys) := by
    obtain ⟨c, mem⟩ := some
    exact absurd mem (none c)
  cases move with
  | flushes site unlocked => exact flushes_early inv site unlocked early
  | @drains v site out closing =>
    obtain ⟨_, undone⟩ := (sslWrites_early s v.c _).mp early
    have known := inv.io
    rw [site] at known
    rw [known out] at undone
    contradiction
  | pushes | peerCloses | submits => exact quiet (by simp [sendItem, submitTask]) early
  | _ => exact quiet (by simp) early

theorem ioStep_early {config : Config} {sys : Answers} {s : Server} (inv : TlsInv s) :
    WritesEarly (ioStep config sys s) ↔ EarlyFlush s (.io sys) := by
  constructor
  · exact ioMove_early inv (ioStep_move config sys s)
  · intro ⟨v, sys', input, here, out, unlocked, queued⟩
    obtain rfl := Input.io.inj input
    have shaking := inv.io
    rw [here] at shaking
    unfold ioStep WritesEarly
    simp only [here, if_pos out, flushThen, Server.whenUnlocked, if_pos unlocked]
    rw [sslWrites_early, Server.flush, Ne, flush_calls, not_or, not_not]
    exact ⟨⟨shaking.2, queued⟩, shaking.1⟩

theorem workerMove_late {config : Config} {s : Server} {w : Nat} {r : Stepped}
    (move : WorkerMove config s w r) : ¬ WritesEarly r := by
  intro ⟨c, mem⟩
  cases move <;> simp [pushReplies] at mem

theorem step_early {config : Config} {s : Server} (inv : TlsInv s) (i : Input) :
    WritesEarly (step config s i) ↔ EarlyFlush s i := by
  have never {P : Prop} (other : ∀ sys, i ≠ .io sys) (late : ¬ P) : P ↔ EarlyFlush s i := by
    constructor
    · intro early
      exact absurd early late
    · intro ⟨_, sys, input, _⟩
      exact absurd input (other sys)
  have move := step_move config s i
  generalize step config s i = r at move ⊢
  cases move with
  | stays other => exact never other (silent rfl)
  | io sys => exact ioStep_early inv
  | @worker w real sys => exact never (by simp) (workerMove_late (workerStep_move config sys s w))
  | _ => exact never (by simp) (silent rfl)

/-- A run calls SSL_write on a connection whose handshake is not finished exactly when it
    takes the flush behind a pending handshake with something left to send. -/
theorem writes_after_handshake (config : Config) (disk : FileSystem Bytes) (inputs : List Input) :
    (∀ t ∈ Run.steps (step config) (start disk) inputs, ¬ EarlyFlush t.before t.input) ↔
      ∀ t ∈ Run.steps (step config) (start disk) inputs, ∀ c,
        Observation.sslWrite c false ∉ t.output := by
  have keeps (s : Server) (i : Input) (inv : TlsInv s) (_ : True) : TlsInv (step config s i).1 :=
    step_inv inv i
  have allowed : ∀ t ∈ Run.steps (step config) (start disk) inputs, True := fun _ _ => trivial
  have invariant := (Run.invariant_steps TlsInv (fun _ _ => True) keeps (start_tls disk) allowed).1
  have same (t : Run.Taken Server Input (List Observation))
      (mem : t ∈ Run.steps (step config) (start disk) inputs) :
      (∃ c, Observation.sslWrite c false ∈ t.output) ↔ EarlyFlush t.before t.input := by
    rw [(Run.steps_taken (step config) mem).2]
    exact step_early (invariant t mem) t.input
  constructor
  · intro never t mem c early
    exact never t mem ((same t mem).mp ⟨c, early⟩)
  · intro late t mem flush
    obtain ⟨c, early⟩ := (same t mem).mpr flush
    exact late t mem c early

/-- SHA1 and Base64 of the key in the request below. -/
def sampleOpenSsl : Upgrade.OpenSsl where
  SHA1 := fun _ =>
    [0xb3, 0x7a, 0x4f, 0x2c, 0xc0, 0x62, 0x4f, 0x16, 0x90, 0xf6, 0x46, 0x06, 0xcf, 0x38, 0x59,
      0x45, 0xb2, 0xbe, 0xc4, 0xea]
  EVP_EncodeBlock := fun _ => CString.bytes "s3pPLMBiTxaQ9kYGzzhZRbK+xOo="

def upgradeRequest : Bytes :=
  CString.bytes "GET / HTTP/1.1\r\nUpgrade: websocket\r\n" ++
    CString.bytes "Sec-WebSocket-Key: dGhlIHNhbXBsZSBub25jZQ==\r\nX-Nonce: 7f\r\n\r\n"

def quiet : Answers where
  now := 0
  now_seconds := 0
  early := .want
  accept := .want
  read := .want
  writes := []
  order := FileTransferManager.byLastUpdate
  unlinkOk := fun _ => true

/-- A server with four workers and without early data. -/
def plainConfig : Config where
  ssl := sampleOpenSsl
  env := ⟨none, none⟩
  hardware_concurrency := 4

/-- A client connects, shakes hands and upgrades; the server is about to read on. -/
def upgradeRun : List Input :=
  [.listen 5 0 true, .epoll 5 { EPOLLIN := true }, .io quiet, .io { quiet with accept := .done },
    .io quiet, .io quiet, .io { quiet with read := .ret upgradeRequest }, .io quiet, .io quiet,
    .io quiet, .io quiet]

/-- The upgrade request comes as early data, SSL_accept wants to write, and wants to read when
    the socket has become writable. -/
def earlyUpgrade : List Input :=
  [.listen 5 0 true, .epoll 5 { EPOLLIN := true }, .io quiet,
    .io { quiet with early := .success upgradeRequest }, .io quiet, .io quiet, .io quiet, .io quiet,
    .io { quiet with early := .finish }, .io quiet, .io quiet,
    .epoll 5 { EPOLLOUT := true }, .io quiet, .io quiet, .io quiet]

def earlyConfig : Config := { plainConfig with env := ⟨none, some "1"⟩ }

theorem early_upgrade_writes :
    ¬ ∀ (config : Config) (disk : FileSystem Bytes) (inputs : List Input),
      ∀ t ∈ Run.steps (step config) (start disk) inputs, ∀ c,
        Observation.sslWrite c false ∉ t.output := by
  intro claimed
  have trace : ((Run.steps (step earlyConfig) (start .empty) earlyUpgrade).map
      (·.output)).getLast? = some [.sslWrite 0 false] := by
    decide +kernel
  have last := List.mem_of_getLast? trace
  obtain ⟨t, mem, output⟩ := List.mem_map.mp last
  exact claimed earlyConfig .empty earlyUpgrade t mem 0 (by simp [output])

end WssServer
