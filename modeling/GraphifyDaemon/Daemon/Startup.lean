import Mathlib.Data.List.Infix
import GraphifyDaemon.ArtifactLifecycle.ColdStart
import GraphifyDaemon.Daemon.ShutdownOnce
import GraphifyDaemon.GraphQueryApi.Transport
import GraphifyDaemon.Library.Statements
import GraphifyDaemon.Vault.Restart

/-! `main()`, statement by statement, to the end of `run_forever`. Any statement may raise, a
signal may arrive between any two, and once the observer runs others publish meanwhile. -/
namespace GraphifyDaemon
open Library Library.Trace

variable {ν γ τ : Type}

/-- What `main()` raises: a `ConfigurationError`, or an exception of Python's own. -/
inductive StartError where
  | configuration (message : String)
  | python (e : PyError)
  deriving DecidableEq

/-- Python's operations on texts. -/
structure PyStrings where
  upper : String → String
  repr : String → String
  parseInt : String → Except PyError Int

/-- What the platform answers to the statements that turn to it: `Path.expanduser`, `Path.cwd`, and
where the log, then the output folder with its database, then the observer are opened. -/
structure Platform where
  expandUser : String → Except PyError String
  cwd : Except PyError String
  openLog : Except PyError Unit
  openOutput : Except PyError Unit
  startObserver : Except PyError Unit

/-- The variables of the environment that are read at the start. -/
structure Environ where
  logFile : Option String
  logLevel : Option String
  logMaxBytes : Option String
  logBackupCount : Option String
  vaultRoot : Option String
  outDir : Option String
  lruSize : Option String
  pendingWarnThreshold : Option String
  host : Option String
  port : Option String
  apiKey : Option String

def DEFAULT_LOG_LEVEL : String := "INFO"
def DEFAULT_LOG_MAX_BYTES : Int := 10485760
def DEFAULT_LOG_BACKUP_COUNT : Int := 5
def DEFAULT_LOG_FILE : String := "logs/daemon.log"
def DEFAULT_OUTPUT_DIR_NAME : String := "out"
def DEFAULT_LRU_SIZE : Int := 512
def DEFAULT_PENDING_WARN_THRESHOLD : Int := 200
def DEFAULT_HOST : String := "127.0.0.1"
def DEFAULT_PORT : Int := 8787
def ALLOWED_HOSTS : List String := ["127.0.0.1", "localhost"]

/-- The levels that `logging.getLevelName` knows by name. -/
def levelOfName : List (String × Int) :=
  [("CRITICAL", 50), ("FATAL", 50), ("ERROR", 40), ("WARN", 30), ("WARNING", 30), ("INFO", 20), ("DEBUG", 10),
    ("NOTSET", 0)]

section Settings
variable (P : PyStrings)

/-- `resolve_log_level` -/
def resolveLogLevel (value : Option String) : Except StartError Int :=
  let name := value.getD DEFAULT_LOG_LEVEL
  match levelOfName.lookup (P.upper name) with
  | some level => .ok level
  | none => .error (.configuration
      ("GRAPHIFY_DAEMON_LOG_LEVEL must be a recognized logging level name, got " ++ P.repr name ++ "."))

/-- `int(value)` of a variable that is set, or the default. -/
def resolveInt (value : Option String) (default : Int) : Except StartError Int :=
  match value with
  | none => .ok default
  | some text => (P.parseInt text).mapError .python

/-- `resolve_rotation_settings` -/
def resolveRotationSettings (maxBytes backupCount : Option String) : Except StartError (Int × Int) :=
  match resolveInt P maxBytes DEFAULT_LOG_MAX_BYTES with
  | .error e => .error e
  | .ok maxBytes => (resolveInt P backupCount DEFAULT_LOG_BACKUP_COUNT).map fun backupCount => (maxBytes, backupCount)

abbrev LoopbackHost := { host : String // host ∈ ALLOWED_HOSTS }

abbrev ApiKey := { apiKey : String // apiKey ≠ "" }

/-- `validate_host` -/
def validateHost (host : String) : Except StartError LoopbackHost :=
  if h : host ∈ ALLOWED_HOSTS then .ok ⟨host, h⟩
  else .error (.configuration ("GRAPHIFY_DAEMON_HOST must be one of ['127.0.0.1', 'localhost'], got " ++ P.repr host ++
    ". This daemon never binds to a non-loopback interface."))

/-- `validate_api_key` -/
def validateApiKey (apiKey : Option String) : Except StartError ApiKey :=
  if h : apiKey.getD "" ≠ "" then .ok ⟨apiKey.getD "", h⟩
  else .error (.configuration
    "GRAPHIFY_DAEMON_API_KEY must be set to a non-empty value. This daemon never starts unauthenticated.")

end Settings

section Paths
variable (O : Platform)

/-- The expanded path of a variable that is set and not empty, or the default in the working folder. -/
def expandOrDefault (value : Option String) (default : String) : Except StartError String :=
  if value.getD "" ≠ "" then (O.expandUser (value.getD "")).mapError .python
  else (O.cwd.map fun folder => folder ++ "/" ++ default).mapError .python

def readLogFile (value : Option String) : Except StartError String := expandOrDefault O value DEFAULT_LOG_FILE

def readOutputDir (value : Option String) : Except StartError String :=
  expandOrDefault O value DEFAULT_OUTPUT_DIR_NAME

/-- `Path(os.environ["GRAPHIFY_DAEMON_VAULT_ROOT"]).expanduser()` -/
def readVaultRoot (value : Option String) : Except StartError String :=
  match value with
  | some root => (O.expandUser root).mapError .python
  | none => .error (.python (.keyError "GRAPHIFY_DAEMON_VAULT_ROOT"))

end Paths

/-- What `health_check` returns. -/
structure HealthStatus where
  alive : Bool
  ready : Bool
  deriving DecidableEq

/-- `health_check` -/
def healthCheck (holder : SnapshotHolder γ τ) : HealthStatus := ⟨true, holder.current.isSome⟩

/-- The server that `transport.run` has built and serves. -/
structure HttpServer where
  host : LoopbackHost
  port : Int
  apiKey : ApiKey
  deriving DecidableEq

inductive HealthResponse where
  | status (status : HealthStatus)
  | refused (messages : List Message)
  deriving DecidableEq

/-- `GET /health`, behind the gate of the API key. -/
def HttpServer.health (server : HttpServer) (scope : Scope) (holder : SnapshotHolder γ τ) : HealthResponse :=
  match apiKeyMiddleware server.apiKey.val scope with
  | .app => .status (healthCheck holder)
  | .answered messages => .refused messages

/-- The statements of `main()`, `run_forever` and `transport.run` in their order. The server is
serving while `serve` is the next one. -/
inductive Statement where
  | readLogFile
  | resolveLogLevel
  | resolveRotationSettings
  | configureLogging
  | readVaultRoot
  | readOutputDir
  | readLruSize
  | readPendingWarnThreshold
  | construct
  | coldStart
  | start
  | buildMcpServer
  | readPort
  | handleSigterm
  | handleSigint
  | enterTry
  | validateHost
  | validateApiKey
  | buildApp
  | serve
  deriving DecidableEq

def beforeTry : List Statement :=
  [.readLogFile, .resolveLogLevel, .resolveRotationSettings, .configureLogging, .readVaultRoot, .readOutputDir,
    .readLruSize, .readPendingWarnThreshold, .construct, .coldStart, .start, .buildMcpServer, .readPort, .handleSigterm,
    .handleSigint]

/-- What `transport.run` does. -/
def tryBody : List Statement := [.validateHost, .validateApiKey, .buildApp, .serve]

def mainStatements : List Statement := beforeTry ++ .enterTry :: tryBody

inductive Signal where
  | sigterm
  | sigint
  deriving DecidableEq

/-- How the process ends where `main()` is left before its `try`. -/
inductive Ending where
  | raised (e : StartError)
  | exited
  | killed
  | keyboardInterrupt
  deriving DecidableEq

/-- What a new process finds: the platform, the environment, the saved cache and the vault. -/
structure Launch (ν : Type) where
  platform : Platform
  environ : Environ
  saved : SavedCache ν
  walk : List (WalkEntry ν)
  startedAt : Nat

/-- The local variables that have a value so far. -/
structure Settings where
  logFile : Option String
  logLevel : Option Int
  rotation : Option (Int × Int)
  vaultRoot : Option String
  outputDir : Option String
  lruSize : Option Int
  pendingWarnThreshold : Option Int
  port : Option Int
  host : Option LoopbackHost
  apiKey : Option ApiKey

/-- What is left of `main()`, and the daemon, its server and its shutdown as far as it has got. -/
structure MainProcess (γ τ : Type) where
  todo : List Statement
  settings : Settings
  holder : SnapshotHolder γ τ
  observing : Bool
  handled : List Signal
  server : Option HttpServer
  answers : List (Scope × HealthResponse)
  calls : ShutdownCalls
  ending : Option Ending

inductive MainEvent (γ : Type) where
  | advance
  | raise (e : PyError)
  | signal (signal : Signal)
  | publish (graph : γ) (communityMap : CommunityMap)
  | health (scope : Scope)
  | shutdown (e : ShutdownEvent)

namespace MainProcess

def initial : MainProcess γ τ where
  todo := mainStatements
  settings := ⟨none, none, none, none, none, none, none, none, none, none⟩
  holder := .initial
  observing := false
  handled := []
  server := none
  answers := []
  calls := .initial
  ending := none

def InTry (s : MainProcess γ τ) : Prop := s.todo ≠ [] ∧ .enterTry ∉ s.todo

instance (s : MainProcess γ τ) : Decidable s.InTry := inferInstanceAs (Decidable (_ ∧ _))

/-- The `finally` of `run_forever`: the main thread calls `shutdown`. -/
def leave (how : LeaveTransport) (s : MainProcess γ τ) : Option (MainProcess γ τ) :=
  (ShutdownCalls.step (.leave how) s.calls).map fun calls => { s with todo := [], calls := calls }

/-- An exception in the main thread. -/
def raise (ending : Ending) (how : LeaveTransport) (s : MainProcess γ τ) : Option (MainProcess γ τ) :=
  if s.InTry then s.leave how else some { s with todo := [], ending := some ending }

/-- A signal while `main()` runs: the handler raises `SystemExit`, and before it is registered
Python's own one raises, or the process is killed. -/
def signal (signal : Signal) (s : MainProcess γ τ) : Option (MainProcess γ τ) :=
  match signal with
  | .sigterm =>
    if .sigterm ∈ s.handled then s.raise .exited .sigterm else some { s with todo := [], ending := some .killed }
  | .sigint => s.raise (if .sigint ∈ s.handled then .exited else .keyboardInterrupt) .sigint

variable (P : PyStrings) (G : Graphify ν γ τ) (nested : List String) (L : Launch ν)

/-- One statement, where nothing else goes wrong. -/
def execute [DecidableEq ν] (statement : Statement) (s : MainProcess γ τ) : Except StartError (MainProcess γ τ) :=
  match statement with
  | .readLogFile => (GraphifyDaemon.readLogFile L.platform L.environ.logFile).map fun path =>
    { s with settings := { s.settings with logFile := some path } }
  | .resolveLogLevel => (GraphifyDaemon.resolveLogLevel P L.environ.logLevel).map fun level =>
    { s with settings := { s.settings with logLevel := some level } }
  | .resolveRotationSettings =>
    (GraphifyDaemon.resolveRotationSettings P L.environ.logMaxBytes L.environ.logBackupCount).map fun rotation =>
      { s with settings := { s.settings with rotation := some rotation } }
  | .configureLogging => (L.platform.openLog.mapError .python).map fun _ => s
  | .readVaultRoot => (GraphifyDaemon.readVaultRoot L.platform L.environ.vaultRoot).map fun root =>
    { s with settings := { s.settings with vaultRoot := some root } }
  | .readOutputDir => (GraphifyDaemon.readOutputDir L.platform L.environ.outDir).map fun path =>
    { s with settings := { s.settings with outputDir := some path } }
  | .readLruSize => (resolveInt P L.environ.lruSize DEFAULT_LRU_SIZE).map fun size =>
    { s with settings := { s.settings with lruSize := some size } }
  | .readPendingWarnThreshold =>
    (resolveInt P L.environ.pendingWarnThreshold DEFAULT_PENDING_WARN_THRESHOLD).map fun threshold =>
      { s with settings := { s.settings with pendingWarnThreshold := some threshold } }
  | .construct => (L.platform.openOutput.mapError .python).map fun _ => s
  | .coldStart => match (Daemon.restarted L.startedAt L.saved).coldStart G nested L.walk with
    | .raised e _ => .error (.python e)
    | .done d => .ok { s with holder := d.holder }
  | .start => (L.platform.startObserver.mapError .python).map fun _ => { s with observing := true }
  | .readPort => (resolveInt P L.environ.port DEFAULT_PORT).map fun port =>
    { s with settings := { s.settings with port := some port } }
  | .handleSigterm => .ok { s with handled := .sigterm :: s.handled }
  | .handleSigint => .ok { s with handled := .sigint :: s.handled }
  | .validateHost => (GraphifyDaemon.validateHost P (L.environ.host.getD DEFAULT_HOST)).map fun host =>
    { s with settings := { s.settings with host := some host } }
  | .validateApiKey => (GraphifyDaemon.validateApiKey L.environ.apiKey).map fun apiKey =>
    { s with settings := { s.settings with apiKey := some apiKey } }
  | .buildApp => match s.settings.host, s.settings.port, s.settings.apiKey with
    | some host, some port, some apiKey => .ok { s with server := some ⟨host, port, apiKey⟩ }
    | _, _, _ => .ok s
  | .buildMcpServer | .enterTry | .serve => .ok s

/-- Main goes on. `transport.run` returns when `serve` is through. -/
def advance [DecidableEq ν] (s : MainProcess γ τ) : Option (MainProcess γ τ) :=
  match s.todo with
  | [] => none
  | .serve :: _ => s.leave .returned
  | statement :: rest => match s.execute P G nested L statement with
    | .error e => s.raise (.raised e) .otherException
    | .ok s' => some { s' with todo := rest }

def step [DecidableEq ν] : MainEvent γ → MainProcess γ τ → Option (MainProcess γ τ)
  | .advance, s => s.advance P G nested L
  | .raise e, s => if s.todo = [] then none else s.raise (.raised (.python e)) .otherException
  | .signal signal, s =>
    if s.ending.isSome then none
    else if s.todo = [] then (ShutdownCalls.step .signal s.calls).map fun calls => { s with calls := calls }
    else s.signal signal
  | .publish graph communityMap, s =>
    if s.observing ∧ s.ending = none then some { s with holder := (s.holder.publish G graph communityMap).store }
    else none
  | .health scope, s => match s.todo, s.server with
    | [.serve], some server => some { s with answers := s.answers ++ [(scope, server.health scope s.holder)] }
    | _, _ => none
  | .shutdown (.leave _), _ | .shutdown .signal, _ => none
  | .shutdown e, s =>
    if s.todo = [] ∧ s.ending = none then (ShutdownCalls.step e s.calls).map fun calls => { s with calls := calls }
    else none

end MainProcess

/-- All that is read at the start can be read, all that is opened can be opened, and the cold start
gets through. -/
structure Startable [DecidableEq ν] (P : PyStrings) (G : Graphify ν γ τ) (nested : List String) (L : Launch ν) :
    Prop where
  logFile : ∃ path, readLogFile L.platform L.environ.logFile = .ok path
  logLevel : ∃ level, resolveLogLevel P L.environ.logLevel = .ok level
  rotation : ∃ rotation, resolveRotationSettings P L.environ.logMaxBytes L.environ.logBackupCount = .ok rotation
  log : L.platform.openLog = .ok ()
  vaultRoot : ∃ root, readVaultRoot L.platform L.environ.vaultRoot = .ok root
  outputDir : ∃ path, readOutputDir L.platform L.environ.outDir = .ok path
  lruSize : ∃ size, resolveInt P L.environ.lruSize DEFAULT_LRU_SIZE = .ok size
  pendingWarnThreshold : ∃ n, resolveInt P L.environ.pendingWarnThreshold DEFAULT_PENDING_WARN_THRESHOLD = .ok n
  output : L.platform.openOutput = .ok ()
  coldStart : ∃ d, (Daemon.restarted L.startedAt L.saved).coldStart G nested L.walk = .done d
  observer : L.platform.startObserver = .ok ()
  port : ∃ port, resolveInt P L.environ.port DEFAULT_PORT = .ok port
  host : ∃ host, validateHost P (L.environ.host.getD DEFAULT_HOST) = .ok host
  apiKey : ∃ apiKey, validateApiKey L.environ.apiKey = .ok apiKey

/-- The server is the one that the environment asks for. -/
structure Configured (P : PyStrings) (L : Launch ν) (server : HttpServer) : Prop where
  host : validateHost P (L.environ.host.getD DEFAULT_HOST) = .ok server.host
  port : resolveInt P L.environ.port DEFAULT_PORT = .ok server.port
  apiKey : validateApiKey L.environ.apiKey = .ok server.apiKey

namespace MainProcess
section Runs
variable [DecidableEq ν] {P : PyStrings} {G : Graphify ν γ τ} {nested : List String} {L : Launch ν}
variable {s s' : MainProcess γ τ}

/-- A value was resolved, and is in its variable. -/
def Resolved {α : Type} (resolve : Except StartError α) (stored : Option α) : Prop :=
  ∃ a, resolve = .ok a ∧ stored = some a

/-- What a statement is executed for. -/
def Established (P : PyStrings) (G : Graphify ν γ τ) (nested : List String) (L : Launch ν) (st : Statement)
    (s : MainProcess γ τ) : Prop :=
  match st with
  | .readLogFile => Resolved (GraphifyDaemon.readLogFile L.platform L.environ.logFile) s.settings.logFile
  | .resolveLogLevel => Resolved (GraphifyDaemon.resolveLogLevel P L.environ.logLevel) s.settings.logLevel
  | .resolveRotationSettings =>
    Resolved (GraphifyDaemon.resolveRotationSettings P L.environ.logMaxBytes L.environ.logBackupCount) s.settings.rotation
  | .configureLogging => L.platform.openLog = .ok ()
  | .readVaultRoot => Resolved (GraphifyDaemon.readVaultRoot L.platform L.environ.vaultRoot) s.settings.vaultRoot
  | .readOutputDir => Resolved (GraphifyDaemon.readOutputDir L.platform L.environ.outDir) s.settings.outputDir
  | .readLruSize => Resolved (resolveInt P L.environ.lruSize DEFAULT_LRU_SIZE) s.settings.lruSize
  | .readPendingWarnThreshold =>
    Resolved (resolveInt P L.environ.pendingWarnThreshold DEFAULT_PENDING_WARN_THRESHOLD) s.settings.pendingWarnThreshold
  | .construct => L.platform.openOutput = .ok ()
  | .coldStart => (∃ d, (Daemon.restarted L.startedAt L.saved).coldStart G nested L.walk = .done d) ∧
      s.holder.current.isSome = true
  | .start => L.platform.startObserver = .ok () ∧ s.observing = true
  | .readPort => Resolved (resolveInt P L.environ.port DEFAULT_PORT) s.settings.port
  | .handleSigterm => .sigterm ∈ s.handled
  | .handleSigint => .sigint ∈ s.handled
  | .validateHost => Resolved (GraphifyDaemon.validateHost P (L.environ.host.getD DEFAULT_HOST)) s.settings.host
  | .validateApiKey => Resolved (GraphifyDaemon.validateApiKey L.environ.apiKey) s.settings.apiKey
  | .buildMcpServer | .enterTry | .buildApp | .serve => True

omit [DecidableEq ν] in
theorem map_eq_ok {α β : Type} {x : Except StartError α} {f : α → β} {b : β} :
    x.map f = .ok b ↔ ∃ a, x = .ok a ∧ f a = b := by
  cases x <;> simp [Except.map]

private theorem mapError_eq_ok {α : Type} {x : Except PyError α} {a : α} :
    x.mapError StartError.python = .ok a ↔ x = .ok a := by
  cases x <;> simp [Except.mapError]

private theorem established_execute {st : Statement} (h : s.execute P G nested L st = .ok s') :
    Established P G nested L st s' ∧ ∀ x, x ≠ st → Established P G nested L x s → Established P G nested L x s' := by
  cases st <;> simp only [execute, map_eq_ok] at h
  case readLogFile | resolveLogLevel | resolveRotationSettings | readVaultRoot | readOutputDir | readLruSize |
      readPendingWarnThreshold | readPort | validateHost | validateApiKey =>
    obtain ⟨a, ha, rfl⟩ := h
    refine ⟨⟨a, ha, rfl⟩, fun x hne hx => ?_⟩
    cases x <;> first | exact hx | exact absurd rfl hne
  case coldStart =>
    split at h <;> cases h
    rename_i d hd
    obtain ⟨current, hcurrent, -⟩ := coldStart_done hd
    refine ⟨⟨⟨d, hd⟩, by simp [hcurrent]⟩, fun x hne hx => ?_⟩
    cases x <;> first | exact hx | exact absurd rfl hne
  case configureLogging | construct =>
    obtain ⟨_, hopened, rfl⟩ := h
    exact ⟨mapError_eq_ok.mp hopened, fun x _ hx => hx⟩
  case start =>
    obtain ⟨_, hstarted, rfl⟩ := h
    refine ⟨⟨mapError_eq_ok.mp hstarted, rfl⟩, fun x hne hx => ?_⟩
    cases x <;> first | exact hx | exact absurd rfl hne
  case handleSigterm | handleSigint =>
    cases h
    refine ⟨by simp [Established], fun x hne hx => ?_⟩
    cases x <;> first | exact hx | exact absurd rfl hne | exact List.mem_cons_of_mem _ hx
  case buildApp =>
    refine ⟨trivial, fun x hne hx => ?_⟩
    split at h <;> cases h <;> cases x <;> exact hx
  case buildMcpServer | enterTry | serve =>
    cases h
    exact ⟨trivial, fun x _ hx => hx⟩

/-- What an answer to a health request says. -/
def Answered (P : PyStrings) (L : Launch ν) (answer : Scope × HealthResponse) : Prop :=
  ∃ server, Configured P L server ∧ (match apiKeyMiddleware server.apiKey.val answer.1 with
    | .app => answer.2 = .status ⟨true, true⟩
    | .answered messages => answer.2 = .refused messages)

/-- What every run keeps. Before the `try` is entered nothing is served and nothing is shut down;
once it is left, the main thread is in `shutdown`. -/
structure Guarded (P : PyStrings) (G : Graphify ν γ τ) (nested : List String) (L : Launch ν) (s : MainProcess γ τ) :
    Prop where
  past : s.todo ≠ [] → Past mainStatements (Established P G nested L) s.todo s
  serving : ∀ server, s.server = some server →
    Startable P G nested L ∧ Configured P L server ∧ s.holder.current.isSome = true
  unserved : .enterTry ∈ s.todo ∨ s.ending.isSome = true → s.server = none ∧ s.answers = []
  answers : ∀ answer ∈ s.answers, Answered P L answer
  calm : s.todo ≠ [] ∨ s.ending.isSome = true → s.calls = .initial
  running : s.todo ≠ [] → s.ending = none
  left : s.todo = [] → s.ending = none → s.calls.calls 0 ≠ .notCalled

theorem guarded_initial : Guarded P G nested L (initial : MainProcess γ τ) where
  past _ := .start
  serving _ h := by cases h
  unserved _ := ⟨rfl, rfl⟩
  answers _ h := by cases h
  calm _ := rfl
  running _ := rfl
  left h := by cases h

private theorem guarded_leave (h : Guarded P G nested L s) (hintry : s.InTry) {how : LeaveTransport}
    (hleave : s.leave how = some s') : Guarded P G nested L s' := by
  obtain ⟨calls, hcalls, rfl⟩ := Option.map_eq_some_iff.mp hleave
  have hnotCalled : s.calls.calls 0 = .notCalled := by
    rw [h.calm (.inl hintry.1)]
    rfl
  simp only [ShutdownCalls.step, if_pos hnotCalled, Option.some.injEq] at hcalls
  subst hcalls
  have hending := h.running hintry.1
  refine ⟨fun hne => absurd rfl hne, h.serving, ?_, h.answers, ?_, fun hne => absurd rfl hne, fun _ _ => ?_⟩
  · simp [hending]
  · simp [hending]
  · simp [ShutdownCalls.goTo_calls]

/-- Main is left before its `try`. -/
theorem guarded_end (h : Guarded P G nested L s) (hrunning : s.todo ≠ []) (hintry : ¬ s.InTry) (ending : Ending) :
    Guarded P G nested L { s with todo := [], ending := some ending } := by
  have henter : .enterTry ∈ s.todo := by
    by_contra hnot
    exact hintry ⟨hrunning, hnot⟩
  exact ⟨fun hne => absurd rfl hne, h.serving, fun _ => h.unserved (.inl henter), h.answers,
    fun _ => h.calm (.inl hrunning), fun hne => absurd rfl hne, fun _ hnone => by cases hnone⟩

theorem guarded_raise (h : Guarded P G nested L s) (hrunning : s.todo ≠ []) {ending : Ending} {how : LeaveTransport}
    (hraise : s.raise ending how = some s') : Guarded P G nested L s' := by
  unfold MainProcess.raise at hraise
  split_ifs at hraise with hintry
  · exact guarded_leave h hintry hraise
  · cases hraise
    exact guarded_end h hrunning hintry ending

/-- Within the `try` both handlers are registered. -/
theorem handled_of_inTry (h : Guarded P G nested L s) (hintry : s.InTry) :
    .sigterm ∈ s.handled ∧ .sigint ∈ s.handled := by
  have hpast := h.past hintry.1
  have hnot : ∀ todo ∈ mainStatements.tails, .enterTry ∉ todo →
      Statement.handleSigterm ∉ todo ∧ Statement.handleSigint ∉ todo := by decide
  obtain ⟨hterm, hint⟩ := hnot s.todo ((List.mem_tails _ _).mpr hpast.suffix) hintry.2
  exact ⟨hpast.post (by decide) hterm, hpast.post (by decide) hint⟩

private theorem guarded_signal (h : Guarded P G nested L s) (hrunning : s.todo ≠ []) {signal : Signal}
    (hsignal : s.signal signal = some s') : Guarded P G nested L s' := by
  cases signal with
  | sigint => exact guarded_raise h hrunning hsignal
  | sigterm =>
    simp only [MainProcess.signal] at hsignal
    split_ifs at hsignal with hhandled
    · exact guarded_raise h hrunning hsignal
    · cases hsignal
      exact guarded_end h hrunning (fun hintry => hhandled (handled_of_inTry h hintry).1) .killed

/-- A statement that is next has the same ones after it in every run. -/
theorem rest_of_past {st : Statement} {rest : List Statement}
    (hpast : Past mainStatements (Established P G nested L) (st :: rest) s) :
    (st = .serve → rest = []) ∧ (st = .buildApp → rest = [.serve]) := by
  have hmain : ∀ todo ∈ mainStatements.tails, (todo.head? = some .serve → todo.tail = []) ∧
      (todo.head? = some .buildApp → todo.tail = [.serve]) := by decide
  simpa using hmain (st :: rest) ((List.mem_tails _ _).mpr hpast.suffix)

/-- Once all is read and validated, the server is the one that was asked for. -/
theorem startable_of_past (hpast : Past mainStatements (Established P G nested L) [.buildApp, .serve] s)
    (hexecute : s.execute P G nested L .buildApp = .ok s') :
    Startable P G nested L ∧ (∃ server, s' = { s with server := some server } ∧ Configured P L server) ∧
      s.holder.current.isSome = true := by
  have hpost : ∀ st ∈ mainStatements, st ∉ [.buildApp, .serve] → Established P G nested L st s :=
    fun st hmem hnot => hpast.post hmem hnot
  obtain ⟨logFile, hlogFile, -⟩ := hpost .readLogFile (by decide) (by decide)
  obtain ⟨level, hlevel, -⟩ := hpost .resolveLogLevel (by decide) (by decide)
  obtain ⟨rotation, hrotation, -⟩ := hpost .resolveRotationSettings (by decide) (by decide)
  obtain ⟨root, hroot, -⟩ := hpost .readVaultRoot (by decide) (by decide)
  obtain ⟨outputDir, houtputDir, -⟩ := hpost .readOutputDir (by decide) (by decide)
  obtain ⟨size, hsize, -⟩ := hpost .readLruSize (by decide) (by decide)
  obtain ⟨threshold, hthreshold, -⟩ := hpost .readPendingWarnThreshold (by decide) (by decide)
  obtain ⟨hcold, hcurrent⟩ := hpost .coldStart (by decide) (by decide)
  obtain ⟨port, hport, hportRead⟩ := hpost .readPort (by decide) (by decide)
  obtain ⟨host, hhost, hhostRead⟩ := hpost .validateHost (by decide) (by decide)
  obtain ⟨apiKey, hapiKey, hapiKeyRead⟩ := hpost .validateApiKey (by decide) (by decide)
  simp only [execute, hportRead, hhostRead, hapiKeyRead, Except.ok.injEq] at hexecute
  refine ⟨⟨⟨logFile, hlogFile⟩, ⟨level, hlevel⟩, ⟨rotation, hrotation⟩, ?_, ⟨root, hroot⟩, ⟨outputDir, houtputDir⟩,
    ⟨size, hsize⟩, ⟨threshold, hthreshold⟩, ?_, hcold, ?_, ⟨port, hport⟩, ⟨host, hhost⟩, ⟨apiKey, hapiKey⟩⟩,
    ⟨_, hexecute.symm, hhost, hport, hapiKey⟩, hcurrent⟩
  · exact hpost .configureLogging (by decide) (by decide)
  · exact hpost .construct (by decide) (by decide)
  · exact (hpost .start (by decide) (by decide)).1

/-- What only `buildApp` touches, and what stays published. -/
theorem execute_frame {st : Statement} (h : s.execute P G nested L st = .ok s') (hne : st ≠ .buildApp) :
    s'.server = s.server ∧ s'.answers = s.answers ∧ s'.calls = s.calls ∧ s'.ending = s.ending ∧
      (s.holder.current.isSome = true → s'.holder.current.isSome = true) := by
  cases st <;> simp only [execute, map_eq_ok] at h
  case buildApp => exact absurd rfl hne
  case readLogFile | resolveLogLevel | resolveRotationSettings | readVaultRoot | readOutputDir | readLruSize |
      readPendingWarnThreshold | readPort | validateHost | validateApiKey =>
    obtain ⟨a, -, rfl⟩ := h
    exact ⟨rfl, rfl, rfl, rfl, id⟩
  case coldStart =>
    split at h <;> cases h
    rename_i d hd
    obtain ⟨current, hcurrent, -⟩ := coldStart_done hd
    exact ⟨rfl, rfl, rfl, rfl, fun _ => by simp [hcurrent]⟩
  case configureLogging | construct | start =>
    obtain ⟨-, -, rfl⟩ := h
    exact ⟨rfl, rfl, rfl, rfl, id⟩
  case handleSigterm | handleSigint | buildMcpServer | enterTry | serve =>
    cases h
    exact ⟨rfl, rfl, rfl, rfl, id⟩

/-- A statement gets through, and main goes on to the next. -/
theorem guarded_execute (h : Guarded P G nested L s) {st : Statement} {rest : List Statement} (htodo : s.todo = st :: rest)
    (hserve : st ≠ .serve) (hexecute : s.execute P G nested L st = .ok s') :
    Guarded P G nested L { s' with todo := rest } := by
  have hne : s.todo ≠ [] := by simp [htodo]
  have hpast := h.past hne
  rw [htodo] at hpast
  obtain ⟨hnew, hkept⟩ := established_execute hexecute
  have hnext : Past mainStatements (Established P G nested L) rest { s' with todo := rest } := by
    refine (hpast.advance hnew hkept).keep fun x hx => ?_
    cases x <;> exact hx
  have hrest : rest ≠ [] := by
    have hmain : ∀ todo ∈ mainStatements.tails, todo ≠ [] → todo.head? ≠ some .serve → todo.tail ≠ [] := by decide
    simpa using hmain (st :: rest) ((List.mem_tails _ _).mpr hpast.suffix) (by simp) (by simpa using hserve)
  have hcalm := h.calm (.inl hne)
  have hending := h.running hne
  by_cases hbuild : st = .buildApp
  · subst hbuild
    obtain rfl : rest = [.serve] := (rest_of_past hpast).2 rfl
    obtain ⟨hstartable, ⟨server, rfl, hconfigured⟩, hcurrent⟩ := startable_of_past hpast hexecute
    refine ⟨fun _ => hnext, ?_, by simp [hending], h.answers, fun _ => hcalm, fun _ => hending, by simp⟩
    rintro _ ⟨⟩
    exact ⟨hstartable, hconfigured, hcurrent⟩
  · obtain ⟨hserver, hanswers, hcalls, hend, hcurrent⟩ := execute_frame hexecute hbuild
    refine ⟨fun _ => hnext, fun server hs => ?_, fun hbefore => ?_, ?_, fun _ => hcalls.trans hcalm,
      fun _ => hend.trans hending, fun hnil => absurd hnil hrest⟩
    · obtain ⟨hstartable, hconfigured, hpublished⟩ := h.serving server (hserver.symm.trans hs)
      exact ⟨hstartable, hconfigured, hcurrent hpublished⟩
    · have hunserved := h.unserved (.inl (by
        rw [htodo]
        exact List.mem_cons_of_mem _ (by simpa [hend, hending] using hbefore)))
      exact ⟨hserver.trans hunserved.1, hanswers.trans hunserved.2⟩
    · simpa [hanswers] using h.answers

theorem guarded_advance (h : Guarded P G nested L s) (hadvance : s.advance P G nested L = some s') :
    Guarded P G nested L s' := by
  unfold advance at hadvance
  split at hadvance
  · cases hadvance
  · rename_i rest htodo
    have hpast := h.past (by simp [htodo])
    rw [htodo] at hpast
    obtain rfl : rest = [] := (rest_of_past hpast).1 rfl
    exact guarded_leave h (by simp [InTry, htodo]) hadvance
  · rename_i st rest hserve htodo
    split at hadvance
    · exact guarded_raise h (by simp [htodo]) hadvance
    · rename_i done hexecute
      cases hadvance
      exact guarded_execute h htodo (fun hst => hserve hst) hexecute

private theorem guarded_publish (h : Guarded P G nested L s) (graph : γ) (communityMap : CommunityMap) :
    Guarded P G nested L { s with holder := (s.holder.publish G graph communityMap).store } := by
  have hkept : s.holder.current.isSome = true → (s.holder.publish G graph communityMap).store.current.isSome = true := by
    intro hsome
    cases hpublish : s.holder.publish G graph communityMap with
    | raised e kept =>
      rw [Outcome.store_raised, publish_raised hpublish]
      exact hsome
    | done next =>
      obtain ⟨index, -, rfl⟩ := publish_eq_done.mp hpublish
      rfl
  refine ⟨fun hne => (h.past hne).keep fun x hx => ?_, fun server hs => ?_, h.unserved, h.answers, h.calm, h.running,
    h.left⟩
  · cases x
    case coldStart => exact ⟨hx.1, hkept hx.2⟩
    all_goals exact hx
  · obtain ⟨hstartable, hconfigured, hpublished⟩ := h.serving server hs
    exact ⟨hstartable, hconfigured, hkept hpublished⟩

private theorem guarded_health (h : Guarded P G nested L s) {server : HttpServer} (hserver : s.server = some server)
    (scope : Scope) :
    Guarded P G nested L { s with answers := s.answers ++ [(scope, server.health scope s.holder)] } := by
  obtain ⟨-, hconfigured, hpublished⟩ := h.serving server hserver
  refine ⟨fun hne => (h.past hne).keep fun x hx => ?_, h.serving, fun hbefore => ?_, fun answer hanswer => ?_, h.calm,
    h.running, h.left⟩
  · cases x <;> exact hx
  · rw [(h.unserved hbefore).1] at hserver
    cases hserver
  · rcases List.mem_append.mp hanswer with hold | hnew
    · exact h.answers answer hold
    · rw [List.mem_singleton.mp hnew]
      refine ⟨server, hconfigured, ?_⟩
      dsimp only [HttpServer.health]
      split <;> simp [*, healthCheck]

omit [DecidableEq ν] in
/-- A call that was made stays made. -/
theorem called_of_step {e : ShutdownEvent} {calls calls' : ShutdownCalls} (h : ShutdownCalls.step e calls = some calls')
    (hcalled : calls.calls 0 ≠ .notCalled) : calls'.calls 0 ≠ .notCalled := by
  have hgoTo : ∀ (i : Nat) {stage : CallStage} (s : ShutdownCalls), stage ≠ .notCalled → s.calls 0 ≠ .notCalled →
      (s.goTo i stage).calls 0 ≠ .notCalled := by
    intro i stage s hstage hs
    rw [ShutdownCalls.goTo_calls]
    split_ifs
    · exact hstage
    · exact hs
  cases e with
  | leave how =>
    simp only [ShutdownCalls.step] at h
    rw [if_neg hcalled] at h
    cases h
  | call i =>
    simp only [ShutdownCalls.step] at h
    split_ifs at h
    cases h
    exact hgoTo i calls (by simp) hcalled
  | advance i pending =>
    obtain ⟨-, -, rfl⟩ | ⟨-, -, rfl⟩ | ⟨-, rfl⟩ | ⟨-, rfl⟩ | ⟨stage, next, -, -, -, rfl⟩ := ShutdownCalls.advance_cases h
    all_goals exact hgoTo i _ (by simp) hcalled
  | fail i =>
    obtain ⟨-, rfl⟩ := ShutdownCalls.fail_cases h
    exact hgoTo i calls (by simp) hcalled
  | signal =>
    rcases ShutdownCalls.signal_cases h with rfl | ⟨-, rfl⟩
    · exact hgoTo 0 calls (by simp) hcalled
    · exact hcalled

private theorem guarded_shutdown (h : Guarded P G nested L s) (htodo : s.todo = []) (hending : s.ending = none)
    {e : ShutdownEvent}
    {calls : ShutdownCalls} (hcalls : ShutdownCalls.step e s.calls = some calls) :
    Guarded P G nested L { s with calls := calls } := by
  refine ⟨fun hne => absurd htodo hne, h.serving, h.unserved, h.answers, ?_, h.running, fun _ _ => ?_⟩
  · simp [htodo, hending]
  · exact called_of_step hcalls (h.left htodo hending)

theorem guarded_step (h : Guarded P G nested L s) {e : MainEvent γ} (hstep : step P G nested L e s = some s') :
    Guarded P G nested L s' := by
  unfold step at hstep
  split at hstep
  · exact guarded_advance h hstep
  · split_ifs at hstep with hrunning
    exact guarded_raise h hrunning hstep
  · split_ifs at hstep with hended hleft
    · obtain ⟨calls, hcalls, rfl⟩ := Option.map_eq_some_iff.mp hstep
      exact guarded_shutdown h hleft (by simpa using hended) hcalls
    · exact guarded_signal h hleft hstep
  · split_ifs at hstep
    cases hstep
    exact guarded_publish h _ _
  · split at hstep <;> cases hstep
    rename_i hserver
    exact guarded_health h hserver _
  · cases hstep
  · cases hstep
  · split_ifs at hstep with hleft
    obtain ⟨calls, hcalls, rfl⟩ := Option.map_eq_some_iff.mp hstep
    exact guarded_shutdown h hleft.1 hleft.2 hcalls

/-- In every run, wherever a statement raises or a signal arrives: the server that is built is the
one that the environment asks for, on a loopback host and with a key, and by then a snapshot is
published, so that whoever has the key is told that the daemon is ready. Main only ends without a
call of `shutdown` where nothing was served. -/
theorem process_guarded {events : List (MainEvent γ)} (hrun : exec (step P G nested L) events initial = some s) :
    (∀ server, s.server = some server → Configured P L server ∧ s.holder.current.isSome = true) ∧
      (∀ answer ∈ s.answers, Answered P L answer) ∧
      (s.ending.isSome = true → s.server = none ∧ s.answers = [] ∧ s.calls = .initial) ∧
      (s.server.isSome = true → s.todo = [] → s.calls.calls 0 ≠ .notCalled) := by
  have h : Guarded P G nested L s :=
    exec_invariant_of_step (Guarded P G nested L) (fun _ _ _ hs hstep => guarded_step hs hstep) guarded_initial hrun
  refine ⟨fun server hs => (h.serving server hs).2, h.answers, fun hended => ?_, fun hserver htodo => h.left htodo ?_⟩
  · obtain ⟨hserver, hanswers⟩ := h.unserved (.inr hended)
    exact ⟨hserver, hanswers, h.calm (.inr hended)⟩
  · cases hending : s.ending with
    | none => rfl
    | some ending => simp [(h.unserved (.inr (by simp [hending]))).1] at hserver

end Runs

/-- Python's texts, of ASCII letters and digits. -/
def plainStrings : PyStrings where
  upper text := String.ofList (text.toList.map Char.toUpper)
  repr text := "'" ++ text ++ "'"
  parseInt text :=
    if text.toList ≠ [] ∧ text.toList.all Char.isDigit then .ok (Nat.ofDigitChars 10 text.toList 0)
    else .error .valueError

/-- Nothing is refused, but a user that is not there. -/
def plainPlatform : Platform where
  expandUser path := if path.toList.head? = some '~' then .error .runtimeError else .ok path
  cwd := .ok "/daemon"
  openLog := .ok ()
  openOutput := .ok ()
  startObserver := .ok ()

/-- A key and an empty vault. -/
def keyedLaunch : Launch Nat where
  platform := plainPlatform
  environ := ⟨none, some "debug", none, none, some "/vault", some "", none, none, some "localhost", none, some "key"⟩
  saved := .absent
  walk := []
  startedAt := 0

/-- Two health requests, of which one has no key, and a signal. -/
def servedUntilSignal : List (MainEvent ReferenceGraph) :=
  List.replicate 19 .advance ++ [.health ⟨"http", some [(ascii "x-api-key", ascii "key")]⟩, .health ⟨"http", none⟩,
    .signal .sigterm, .shutdown (.advance 0 [])]

theorem process_guarded_servedUntilSignal :
    ∃ s, exec (step plainStrings referenceGraphify [] keyedLaunch) servedUntilSignal initial = some s ∧
      s.answers.map (fun answer => decide (answer.2 = .status ⟨true, true⟩)) = [true, false] ∧
      s.calls.calls 0 = .reached .stopping ∧
      (∀ server, s.server = some server → Configured plainStrings keyedLaunch server ∧ s.holder.current.isSome = true) ∧
      (∀ answer ∈ s.answers, Answered plainStrings keyedLaunch answer) ∧
      (s.ending.isSome = true → s.server = none ∧ s.answers = [] ∧ s.calls = .initial) ∧
      (s.server.isSome = true → s.todo = [] → s.calls.calls 0 ≠ .notCalled) := by
  have hend : (exec (step plainStrings referenceGraphify [] keyedLaunch) servedUntilSignal initial).map
      (fun s => (s.answers.map (fun answer => decide (answer.2 = .status ⟨true, true⟩)), s.calls.calls 0)) =
        some ([true, false], .reached .stopping) := by decide +kernel
  obtain ⟨s, hrun, hs⟩ := Option.map_eq_some_iff.mp hend
  simp only [Prod.mk.injEq] at hs
  exact ⟨s, hrun, hs.1, hs.2, process_guarded hrun⟩

section Serving
variable [DecidableEq ν] {P : PyStrings} {G : Graphify ν γ τ} {nested : List String} {L : Launch ν}
variable {s s' : MainProcess γ τ}

private theorem execute_of_startable (h : Startable P G nested L) (st : Statement) (s : MainProcess γ τ) :
    ∃ s', s.execute P G nested L st = .ok s' := by
  have hmap : ∀ {α : Type} {x : Except StartError α} (f : α → MainProcess γ τ), (∃ a, x = .ok a) →
      ∃ s', x.map f = .ok s' := by
    rintro α x f ⟨a, rfl⟩
    exact ⟨f a, rfl⟩
  cases st with
  | readLogFile => exact hmap _ h.logFile
  | resolveLogLevel => exact hmap _ h.logLevel
  | resolveRotationSettings => exact hmap _ h.rotation
  | readVaultRoot => exact hmap _ h.vaultRoot
  | readOutputDir => exact hmap _ h.outputDir
  | readLruSize => exact hmap _ h.lruSize
  | readPendingWarnThreshold => exact hmap _ h.pendingWarnThreshold
  | readPort => exact hmap _ h.port
  | validateHost => exact hmap _ h.host
  | validateApiKey => exact hmap _ h.apiKey
  | coldStart =>
    obtain ⟨d, hd⟩ := h.coldStart
    exact ⟨{ s with holder := d.holder }, by simp only [execute, hd]⟩
  | buildApp =>
    simp only [execute]
    split <;> exact ⟨_, rfl⟩
  | configureLogging => exact hmap _ ⟨(), by rw [h.log]; rfl⟩
  | construct => exact hmap _ ⟨(), by rw [h.output]; rfl⟩
  | start => exact hmap _ ⟨(), by rw [h.observer]; rfl⟩
  | buildMcpServer | handleSigterm | handleSigint | enterTry | serve => exact ⟨_, rfl⟩

private theorem advance_of_execute {st : Statement} {rest : List Statement} (htodo : s.todo = st :: rest)
    (hserve : st ≠ .serve)
    (hexecute : s.execute P G nested L st = .ok s') :
    step P G nested L .advance s = some { s' with todo := rest } := by
  change s.advance P G nested L = _
  unfold advance
  rw [htodo]
  split
  · rename_i hnil
    cases hnil
  · rename_i hnext
    exact absurd (List.cons.inj hnext).1 hserve
  · rename_i hnext
    obtain ⟨rfl, rfl⟩ := List.cons.inj hnext
    rw [hexecute]

/-- Left alone, main goes through its statements. -/
theorem exec_advance (h : Startable P G nested L) (before rest : List Statement) (hserve : .serve ∉ before) :
    ∀ {s : MainProcess γ τ}, s.todo = before ++ rest →
      ∃ s', exec (step P G nested L) (List.replicate before.length .advance) s = some s' ∧ s'.todo = rest := by
  induction before with
  | nil => exact fun {s} htodo => ⟨s, rfl, htodo⟩
  | cons st before ih =>
    intro s htodo
    obtain ⟨s', hexecute⟩ := execute_of_startable h st s
    have hstep := advance_of_execute htodo (fun heq => hserve (by simp [heq])) hexecute
    obtain ⟨last, hrun, hlast⟩ :=
      ih (fun hmem => hserve (List.mem_cons_of_mem _ hmem)) (s := { s' with todo := before ++ rest }) rfl
    refine ⟨last, ?_, hlast⟩
    rw [List.length_cons, List.replicate_succ, exec_cons, hstep]
    exact hrun

/-- Main gets through to `serve` by itself. -/
theorem exists_serving (h : Startable P G nested L) : ∃ (events : List (MainEvent γ)) (s : MainProcess γ τ),
    exec (step P G nested L) events initial = some s ∧ s.todo = [.serve] ∧ s.server.isSome = true := by
  obtain ⟨s, hrun, htodo⟩ := exec_advance h (beforeTry ++ [.enterTry, .validateHost, .validateApiKey])
    [.buildApp, .serve] (by decide) (s := initial) rfl
  have hguarded := exec_invariant_of_step (Guarded P G nested L) (fun _ _ _ hs hstep => guarded_step hs hstep)
    guarded_initial hrun
  have hpast := hguarded.past (by simp [htodo])
  rw [htodo] at hpast
  obtain ⟨s', hexecute⟩ := execute_of_startable h .buildApp s
  obtain ⟨-, ⟨server, rfl, -⟩, -⟩ := startable_of_past hpast hexecute
  have hstep := advance_of_execute htodo (by simp) hexecute
  have hlast : exec (step P G nested L) [.advance] s = some { s with server := some server, todo := [.serve] } :=
    exec_cons_eq_some.mpr ⟨_, hstep, rfl⟩
  exact ⟨_, _, exec_append_of hrun hlast, rfl, rfl⟩

/-- The process gets to serve, in some run, exactly where all its settings are right, the platform
opens what it is asked to, and the cold start gets through. -/
theorem startup_serves_iff :
    (∃ (events : List (MainEvent γ)) (s : MainProcess γ τ), exec (step P G nested L) events initial = some s ∧
      s.server.isSome = true) ↔ Startable P G nested L := by
  constructor
  · rintro ⟨events, s, hrun, hserver⟩
    have h : Guarded P G nested L s :=
      exec_invariant_of_step (Guarded P G nested L) (fun _ _ _ hs hstep => guarded_step hs hstep) guarded_initial hrun
    obtain ⟨server, hs⟩ := Option.isSome_iff_exists.mp hserver
    exact (h.serving server hs).1
  · intro h
    obtain ⟨events, s, hrun, -, hserver⟩ := exists_serving h
    exact ⟨events, s, hrun, hserver⟩

end Serving
end MainProcess
end GraphifyDaemon
