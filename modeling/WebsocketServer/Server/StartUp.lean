import WebsocketServer.Common.ConfigFile

/- main of the server: from the configuration file and the command line to what WssServer::run is
   given. -/
namespace StartUp
open CString CText ConfigFile

def uint16Cast (v : Int) : UInt16 := UInt16.ofInt v

structure Parameters where
  port : UInt16
  certFile : Bytes
  keyFile : Bytes
  enableTicket : Int
  sessionTimeout : Int
  enable0Rtt : Int
  httpPort : UInt16
  httpRoot : Bytes
  logDir : Bytes
  enableFileLog : Bool
  wsIdleTimeoutSec : Int
  wsServerPingIntervalSec : Int
  minTlsVersion : Int
  deriving DecidableEq

inductive Refusal where
  | configPathMissing
  | configInvalid (configPath : Bytes) (loadErr : Option Bytes)
  | configNotFound (configPath : Bytes)
  | unknownArgument (arg : Bytes)
  | usage
  deriving DecidableEq

/-- The line on standard error; usage(argv[0]) follows an unknown argument, or stands alone. -/
def Refusal.message : Refusal → Bytes
  | .configPathMissing => bytes "[错误] --config 需要指定文件路径\n"
  | .configInvalid configPath loadErr =>
      bytes "[错误] 配置文件解析失败: " ++ configPath ++ bytes " — " ++ loadErr.getD [] ++ bytes "\n"
  | .configNotFound configPath => bytes "[错误] 找不到配置文件: " ++ configPath ++ bytes "\n"
  | .unknownArgument arg => bytes "[错误] 未知参数: " ++ arg ++ bytes "\n"
  | .usage => []

def defaultConfigPath : Bytes := bytes "config/wss_server.conf"

/-- The first pass: configPath and userSetConfigPath. Any --config counts, whatever stands before
    it. -/
def findConfig : Bytes × Bool → List Bytes → Except Refusal (Bytes × Bool)
  | found, [] => .ok found
  | found, [arg] => if arg = bytes "--config" then .error .configPathMissing else .ok found
  | found, arg :: next :: rest =>
      if arg = bytes "--config" then findConfig (next, true) rest
      else findConfig found (next :: rest)

/-- files has the contents of every file that can be opened. -/
def readConfig (files : Bytes → Option Bytes) (configPath : Bytes) (userSetConfigPath : Bool) :
    Except Refusal Map :=
  match files configPath with
  | some text =>
      let loaded := load configPath (some text)
      if loaded.ok then .ok loaded.out else .error (.configInvalid configPath loaded.err)
  | none => if userSetConfigPath then .error (.configNotFound configPath) else .ok ∅

def configured (cfg : Map) : Parameters where
  port := uint16Cast (getInt cfg (bytes "port") 0)
  certFile := getString cfg (bytes "cert") []
  keyFile := getString cfg (bytes "key") []
  enableTicket := getInt cfg (bytes "enable_ticket") 1
  sessionTimeout := getLong cfg (bytes "session_timeout") 300
  enable0Rtt := getInt cfg (bytes "enable_0rtt") 0
  httpPort := uint16Cast (getInt cfg (bytes "http_port") 8080)
  httpRoot := getString cfg (bytes "http_root") (bytes "web")
  logDir := getString cfg (bytes "log_dir") (bytes "log")
  enableFileLog := getBool cfg (bytes "log_file") true
  wsIdleTimeoutSec := getInt cfg (bytes "ws_idle_timeout") 0
  wsServerPingIntervalSec := getInt cfg (bytes "ws_ping_interval") 0
  minTlsVersion := 13

inductive Opt where
  | config
  | port
  | cert
  | key
  | enableTicket
  | sessionTimeout
  | enable0rtt
  | httpPort
  | httpRoot
  | logDir
  | wsIdleTimeout
  | wsPingInterval
  | minTlsVersion
  deriving DecidableEq

def Opt.name : Opt → Bytes
  | .config => bytes "--config"
  | .port => bytes "--port"
  | .cert => bytes "--cert"
  | .key => bytes "--key"
  | .enableTicket => bytes "--enable-ticket"
  | .sessionTimeout => bytes "--session-timeout"
  | .enable0rtt => bytes "--enable-0rtt"
  | .httpPort => bytes "--http-port"
  | .httpRoot => bytes "--http-root"
  | .logDir => bytes "--log-dir"
  | .wsIdleTimeout => bytes "--ws-idle-timeout"
  | .wsPingInterval => bytes "--ws-ping-interval"
  | .minTlsVersion => bytes "--min-tls-version"

def Opt.all : List Opt :=
  [.config, .port, .cert, .key, .enableTicket, .sessionTimeout, .enable0rtt, .httpPort, .httpRoot,
    .logDir, .wsIdleTimeout, .wsPingInterval, .minTlsVersion]

/-- The branch of the second pass that tests for this argument, if there is one. -/
def findOption (arg : Bytes) : Option Opt := Opt.all.find? fun o => o.name = arg

def Opt.set (p : Parameters) (value : Bytes) : Opt → Parameters
  | .config => p
  | .port => { p with port := uint16Cast (atoi value) }
  | .cert => { p with certFile := value }
  | .key => { p with keyFile := value }
  | .enableTicket => { p with enableTicket := atoi value }
  | .sessionTimeout => { p with sessionTimeout := (strtol value).getD 0 }
  | .enable0rtt => { p with enable0Rtt := atoi value }
  | .httpPort => { p with httpPort := uint16Cast (atoi value) }
  | .httpRoot => { p with httpRoot := value }
  | .logDir => { p with logDir := value }
  | .wsIdleTimeout => { p with wsIdleTimeoutSec := atoi value }
  | .wsPingInterval => { p with wsServerPingIntervalSec := atoi value }
  | .minTlsVersion => { p with minTlsVersion := atoi value }

def noLogFile : Bytes := bytes "--no-log-file"

/-- The second pass, in which the command line overrides the configuration. -/
def applyOptions : Parameters → List Bytes → Except Refusal Parameters
  | p, [] => .ok p
  | p, [arg] =>
      if arg = noLogFile then .ok { p with enableFileLog := false }
      else .error (.unknownArgument arg)
  | p, arg :: value :: rest =>
      if arg = noLogFile then applyOptions { p with enableFileLog := false } (value :: rest)
      else match findOption arg with
        | some o => applyOptions (o.set p value) rest
        | none => .error (.unknownArgument arg)

def configuration (files : Bytes → Option Bytes) (args : List Bytes) : Except Refusal Map := do
  let (configPath, userSetConfigPath) ← findConfig (defaultConfigPath, false) args
  readConfig files configPath userSetConfigPath

/-- main up to the call of WssServer::run; args are the arguments behind the program's name. -/
def startUp (files : Bytes → Option Bytes) (args : List Bytes) : Except Refusal Parameters := do
  let cfg ← configuration files args
  let p ← applyOptions (configured cfg) args
  if p.port = 0 ∨ p.certFile = [] ∨ p.keyFile = [] then .error .usage else .ok p

/-- The value behind the last of the options of this name. -/
def lastOption (o : Opt) : List Bytes → Option Bytes
  | arg :: value :: rest =>
      if arg = noLogFile then lastOption o (value :: rest)
      else (lastOption o rest).or (if arg = o.name then some value else none)
  | _ => none

/-- A command line made of options, each followed by its value if it takes one. -/
def WellFormed : List Bytes → Prop
  | [] => True
  | [arg] => arg = noLogFile
  | arg :: value :: rest =>
      if arg = noLogFile then WellFormed (value :: rest)
      else (∃ o : Opt, o.name = arg) ∧ WellFormed rest

structure Target (β : Type) where
  option : Opt
  field : Parameters → β
  read : Bytes → β
  sets : ∀ p value, field (option.set p value) = read value
  keeps : ∀ p value o, o ≠ option → field (o.set p value) = field p
  quiet : ∀ p : Parameters, field { p with enableFileLog := false } = field p

def portTarget : Target UInt16 where
  option := .port
  field := Parameters.port
  read value := uint16Cast (atoi value)
  sets _ _ := rfl
  keeps p value o other := by cases o <;> first | rfl | contradiction
  quiet _ := rfl

def httpPortTarget : Target UInt16 where
  option := .httpPort
  field := Parameters.httpPort
  read value := uint16Cast (atoi value)
  sets _ _ := rfl
  keeps p value o other := by cases o <;> first | rfl | contradiction
  quiet _ := rfl

def certTarget : Target Bytes where
  option := .cert
  field := Parameters.certFile
  read value := value
  sets _ _ := rfl
  keeps p value o other := by cases o <;> first | rfl | contradiction
  quiet _ := rfl

def keyTarget : Target Bytes where
  option := .key
  field := Parameters.keyFile
  read value := value
  sets _ _ := rfl
  keeps p value o other := by cases o <;> first | rfl | contradiction
  quiet _ := rfl

theorem findOption_name (o : Opt) : findOption o.name = some o := by
  cases o <;> decide

theorem findOption_some {arg : Bytes} {o : Opt} (found : findOption arg = some o) :
    o.name = arg := by
  have test := List.find?_some found
  simpa using test

theorem name_injective {o other : Opt} (same : o.name = other.name) : o = other := by
  have found := findOption_name o
  rw [same, findOption_name other] at found
  exact (Option.some.inj found).symm

/- The last option of a name decides its field. -/
theorem applyOptions_field {β : Type} (t : Target β) {p q : Parameters} {args : List Bytes}
    (applied : applyOptions p args = .ok q) :
    t.field q = ((lastOption t.option args).map t.read).getD (t.field p) := by
  fun_induction applyOptions p args with
  | case1 p =>
    rw [← Except.ok.inj applied]
    rfl
  | case2 p =>
    rw [← Except.ok.inj applied]
    exact t.quiet p
  | case3 p arg other => contradiction
  | case4 p value rest ih =>
    rw [ih applied, lastOption, if_pos rfl, t.quiet]
  | case5 p arg value rest other o found ih =>
    rw [ih applied, lastOption, if_neg other]
    have name := findOption_some found
    by_cases same : o = t.option
    · rw [if_pos (by rw [← name, same]), ← same]
      cases lastOption o rest with
      | none =>
        exact (congrArg (fun o : Opt => t.field (o.set p value)) same).trans (t.sets p value)
      | some later => rfl
    · have apart : ¬ arg = t.option.name := fun equal => same (name_injective (name.trans equal))
      rw [if_neg apart, Option.or_none, t.keeps p value o same]
  | case6 p arg value rest other unknown => contradiction

theorem applyOptions_wellFormed (p : Parameters) (args : List Bytes) :
    WellFormed args ↔ ∃ q, applyOptions p args = .ok q := by
  fun_induction applyOptions p args with
  | case1 p => exact iff_of_true trivial ⟨p, rfl⟩
  | case2 p => exact iff_of_true rfl ⟨_, rfl⟩
  | case3 p arg other => exact iff_of_false other (by simp)
  | case4 p value rest ih =>
    rw [WellFormed, if_pos rfl]
    exact ih
  | case5 p arg value rest other o found ih =>
    rw [WellFormed, if_neg other, ← ih]
    exact and_iff_right ⟨o, findOption_some found⟩
  | case6 p arg value rest other unknown =>
    rw [WellFormed, if_neg other]
    refine iff_of_false ?_ (by simp)
    rintro ⟨⟨o, rfl⟩, _⟩
    simp [findOption_name] at unknown

inductive Setting where
  | port
  | httpPort

def Setting.target : Setting → Target UInt16
  | .port => portTarget
  | .httpPort => httpPortTarget

def Setting.key : Setting → Bytes
  | .port => bytes "port"
  | .httpPort => bytes "http_port"

def Setting.defaultVal : Setting → Int
  | .port => 0
  | .httpPort => 8080

section
variable (files : Bytes → Option Bytes) (args : List Bytes)

/-- The text that decides a port: the last one on the command line, or else the one in the
    configuration. -/
def Given (which : Setting) (text : Bytes) : Prop :=
  lastOption which.target.option args = some text ∨
    lastOption which.target.option args = none ∧
      ∃ cfg, configuration files args = .ok cfg ∧ cfg.lookup which.key = some text

/-- The number a port has before it is cast. -/
def number (cfg : Map) (which : Setting) : Int :=
  ((lastOption which.target.option args).map atoi).getD (getInt cfg which.key which.defaultVal)

/-- What a start needs: a configuration that can be read, a command line of options, a port that
    does not vanish in 16 bits, a certificate and a key. -/
structure Complete (cfg : Map) : Prop where
  config : configuration files args = .ok cfg
  options : WellFormed args
  port : ¬ number args cfg .port % 65536 = 0
  cert : (lastOption .cert args).getD (getString cfg (bytes "cert") []) ≠ []
  key : (lastOption .key args).getD (getString cfg (bytes "key") []) ≠ []

/-- The start is refused, or the port is the integer n. -/
def Kept (which : Setting) (n : Int) : Prop :=
  ∀ p, startUp files args = .ok p → ((which.target.field p).toNat : Int) = n

end

section
variable {files : Bytes → Option Bytes} {args : List Bytes} {cfg : Map}

theorem toNat_uint16Cast (v : Int) : ((uint16Cast v).toNat : Int) = v % 65536 := by
  rw [uint16Cast, UInt16.ofInt, UInt16.toNat_ofNat']
  omega

theorem uint16Cast_zero (v : Int) : uint16Cast v = 0 ↔ v % 65536 = 0 := by
  rw [← toNat_uint16Cast, ← UInt16.toNat_inj]
  exact Int.natCast_eq_zero.symm

theorem signedCast_low (v : Int) : signedCast 32 v % 65536 = v % 65536 := by
  have whole : (v.bmod (2 ^ 32)) % (2 ^ 32 : Nat) = v % (2 ^ 32 : Nat) := Int.bmod_emod
  have part : (65536 : Int) ∣ (2 ^ 32 : Nat) := by decide
  rw [signedCast, ← Int.emod_emod_of_dvd _ part, whole, Int.emod_emod_of_dvd _ part]

theorem configured_port (cfg : Map) (which : Setting) :
    which.target.field (configured cfg) = uint16Cast (getInt cfg which.key which.defaultVal) := by
  cases which <;> rfl

theorem applied_port {p : Parameters} (applied : applyOptions (configured cfg) args = .ok p)
    (which : Setting) : which.target.field p = uint16Cast (number args cfg which) := by
  have read : which.target.read = uint16Cast ∘ atoi := by cases which <;> rfl
  rw [applyOptions_field which.target applied, configured_port, number, read]
  cases lastOption which.target.option args <;> rfl

theorem applied_complete {p : Parameters} (applied : applyOptions (configured cfg) args = .ok p)
    (config : configuration files args = .ok cfg) :
    Complete files args cfg ↔ ¬ (p.port = 0 ∨ p.certFile = [] ∨ p.keyFile = []) := by
  have port : p.port = uint16Cast (number args cfg .port) := applied_port applied .port
  have cert : p.certFile = (lastOption .cert args).getD (getString cfg (bytes "cert") []) := by
    have field := applyOptions_field certTarget applied
    simpa [certTarget, configured] using field
  have key : p.keyFile = (lastOption .key args).getD (getString cfg (bytes "key") []) := by
    have field := applyOptions_field keyTarget applied
    simpa [keyTarget, configured] using field
  rw [port, cert, key, uint16Cast_zero, not_or, not_or]
  constructor
  · exact fun complete => ⟨complete.port, complete.cert, complete.key⟩
  · rintro ⟨vanishes, noCert, noKey⟩
    exact ⟨config, (applyOptions_wellFormed _ args).mpr ⟨p, applied⟩, vanishes, noCert, noKey⟩

theorem startUp_complete {p : Parameters} (started : startUp files args = .ok p) :
    ∃ cfg, Complete files args cfg ∧ applyOptions (configured cfg) args = .ok p := by
  unfold startUp at started
  cases config : configuration files args with
  | error refusal =>
    rw [config] at started
    contradiction
  | ok cfg =>
    cases applied : applyOptions (configured cfg) args with
    | error refusal =>
      simp only [config, applied, bind, Except.bind] at started
      contradiction
    | ok q =>
      simp only [config, applied, bind, Except.bind] at started
      split at started
      · contradiction
      · rename_i fine
        rw [← Except.ok.inj started]
        exact ⟨cfg, (applied_complete applied config).mpr fine, applied⟩

theorem complete_starts (complete : Complete files args cfg) :
    ∃ p, startUp files args = .ok p ∧
      ∀ which : Setting, which.target.field p = uint16Cast (number args cfg which) := by
  obtain ⟨p, applied⟩ := (applyOptions_wellFormed (configured cfg) args).mp complete.options
  refine ⟨p, ?_, applied_port applied⟩
  have fine := (applied_complete applied complete.config).mp complete
  simp only [startUp, complete.config, applied, bind, Except.bind, if_neg fine]

/- Whichever way the text came, it is read as a long and cut to the 32 bits of an int. -/
theorem number_given {which : Setting} {n : Int} (w : Spelling n)
    (given : Given files args which w.text) (config : configuration files args = .ok cfg) :
    number args cfg which = signedCast 32 (clampLong n) := by
  unfold number
  rcases given with last | ⟨none, cfg', config', found⟩
  · rw [last]
    exact atoi_spelling w
  · have same : cfg = cfg' := Except.ok.inj (config.symm.trans config')
    have lower : toLowerAscii which.key = which.key := by cases which <;> decide
    have written : w.text ≠ [] := by
      intro empty
      have read := strtol_spelling w
      rw [empty] at read
      exact absurd read (by simp [strtol])
    have text : getString cfg which.key [] = w.text := by
      rw [getString, lower, same, found]
      rfl
    simp only [none, Option.map_none, Option.getD_none, getInt, text, if_neg written,
      strtol_spelling]

theorem clamp_kept (n : Int) : clampLong n % 65536 = n ↔ 0 ≤ n ∧ n < 65536 := by
  unfold clampLong
  omega

end

/-- The port is the one that was written, or the start is refused, exactly when the number fits in
    16 bits or the start lacks something. -/
theorem port_written_exact (files : Bytes → Option Bytes) (args : List Bytes) (which : Setting)
    (n : Int) (w : Spelling n) (given : Given files args which w.text) :
    Kept files args which n ↔ (0 ≤ n ∧ n < 65536) ∨ ¬ ∃ cfg, Complete files args cfg := by
  have value {p : Parameters} {cfg : Map} (complete : Complete files args cfg)
      (field : which.target.field p = uint16Cast (number args cfg which)) :
      ((which.target.field p).toNat : Int) = clampLong n % 65536 := by
    rw [field, toNat_uint16Cast, number_given w given complete.config, signedCast_low]
  constructor
  · intro kept
    by_cases starts : ∃ cfg, Complete files args cfg
    · obtain ⟨cfg, complete⟩ := starts
      obtain ⟨p, started, fields⟩ := complete_starts complete
      left
      rw [← clamp_kept, ← value complete (fields which)]
      exact kept p started
    · exact Or.inr starts
  · intro condition p started
    obtain ⟨cfg, complete, applied⟩ := startUp_complete started
    rw [value complete (applied_port applied which)]
    rcases condition with fits | lacks
    · exact (clamp_kept n).mpr fits
    · exact absurd ⟨cfg, complete⟩ lacks

def plainSpelling (n : Nat) : Spelling n where
  before := []
  sign := []
  zeros := 0
  behind := []
  before_blank := by simp
  behind_blank := by simp
  signed := Or.inl ⟨Int.natCast_nonneg n, Or.inl rfl⟩

def commandLine (port : Bytes) : List Bytes :=
  [bytes "--port", port, bytes "--cert", bytes "cert.pem", bytes "--key", bytes "key.pem"]

def noFiles (_ : Bytes) : Option Bytes := none

theorem given_commandLine (n : Nat) :
    Given noFiles (commandLine (plainSpelling n).text) .port (plainSpelling n).text := by
  left
  rfl

theorem usual_port : Kept noFiles (commandLine (plainSpelling 8443).text) .port 8443 ↔
    (0 ≤ (8443 : Int) ∧ (8443 : Int) < 65536) ∨
      ¬ ∃ cfg, Complete noFiles (commandLine (plainSpelling 8443).text) cfg :=
  port_written_exact noFiles (commandLine (plainSpelling 8443).text) .port 8443 (plainSpelling 8443)
    (given_commandLine 8443)

/-- A port of 65616 starts the server on port 80. -/
theorem large_port_wraps :
    ¬ ∀ (files : Bytes → Option Bytes) (args : List Bytes) (which : Setting) (n : Int)
        (w : Spelling n), Given files args which w.text → Kept files args which n := by
  intro claimed
  have started :
      ∃ p, startUp noFiles (commandLine (plainSpelling 65616).text) = .ok p ∧ p.port = 80 := by
    refine ⟨_, rfl, ?_⟩
    decide
  obtain ⟨p, started, port⟩ := started
  have kept := claimed noFiles (commandLine (plainSpelling 65616).text) .port 65616
    (plainSpelling 65616) (given_commandLine 65616) p started
  change ((p.port).toNat : Int) = 65616 at kept
  rw [port] at kept
  exact absurd kept (by decide)

end StartUp
