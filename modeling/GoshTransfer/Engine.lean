import GoshTransfer.Security
import GoshTransfer.Discovery

set_option autoImplicit false

-- The engine and its copies of the configuration. An operation has the engine
-- to itself, so it is the list of the updates it makes, one after the other;
-- requests come in between.
namespace GoshTransfer

structure EngineConfig where
  security : SecurityConfig
  port : UInt16
  deviceName : String
  downloadDir : String
  trustedHosts : List String
deriving DecidableEq, Repr

-- What the discovery task announces of its copy.
def EngineConfig.announced (config : EngineConfig) : DiscoveryConfig := ⟨config.deviceName, config.port.toNat⟩

inductive ControlEvent where
  | serverStarted (port : UInt16)
  | serverStopped
  | portChanged (oldPort newPort : UInt16)
deriving DecidableEq, Repr

structure Listener where
  port : UInt16
  tls : Bool
deriving DecidableEq, Repr

-- running stands for the server handle, listenerTls for the flag of the server
-- state, and listener for the socket that is being served.
structure Engine where
  config : EngineConfig
  server : EngineConfig
  discovery : EngineConfig
  running : Bool
  listenerTls : Bool
  listener : Option Listener
  events : List ControlEvent
deriving DecidableEq, Repr

def Engine.new (config : EngineConfig) : Engine := ⟨config, config, config, false, false, none, []⟩

inductive Update where
  | config (config : EngineConfig)
  | server (config : EngineConfig)
  | discovery (config : EngineConfig)
  | running (running : Bool)
  | listenerTls (tls : Bool)
  | listener (listener : Option Listener)
  | event (event : ControlEvent)
deriving DecidableEq, Repr

def Engine.update (engine : Engine) : Update → Engine
  | .config config => { engine with config := config }
  | .server config => { engine with server := config }
  | .discovery config => { engine with discovery := config }
  | .running running => { engine with running := running }
  | .listenerTls tls => { engine with listenerTls := tls }
  | .listener listener => { engine with listener := listener }
  | .event event => { engine with events := engine.events ++ [event] }

def Engine.after (engine : Engine) (updates : List Update) : Engine := updates.foldl Engine.update engine

-- How the operating system deals with a bind. It picks the port for port 0,
-- and a bound socket may still fail to tell its address.
inductive Bind where
  | refused (error : String)
  | lost (error : String)
  | bound (picked : UInt16) (nonzero : picked ≠ 0)
deriving DecidableEq, Repr

-- What one attempt to start the server meets outside of the engine: the files
-- of the identity, the journals of durable.load, and the bind.
structure Attempt where
  files : Except ControlError Unit
  load : Except ControlError Unit
  bind : Bind

def boundPort (port picked : UInt16) : UInt16 := if port = 0 then picked else port

def startServer (urls : UrlParser) (engine : Engine) (attempt : Attempt) :
    List Update × Except ControlError Unit :=
  if engine.running = true then ([], .error .serverAlreadyRunning)
  else
    match engine.server.security.serverTls urls attempt.files with
    | .error error => ([], .error error)
    | .ok tls =>
        match attempt.load with
        | .error error => ([], .error error)
        | .ok () =>
            match attempt.bind with
            | .refused error =>
                ([.listenerTls tls],
                  .error (.network ("Failed to bind port " ++ toString engine.config.port ++ ": " ++ error)))
            | .lost error => ([.listenerTls tls], .error (.fileIo error))
            | .bound picked _ =>
                let port := boundPort engine.config.port picked
                let config := { engine.config with port := port }
                ([.listenerTls tls, .listener (some ⟨port, tls⟩), .event (.serverStarted port),
                  .config config, .server config,
                  .discovery config, .running true], .ok ())

def stopServer (engine : Engine) : List Update :=
  if engine.running = true then [.running false, .listener none, .event .serverStopped] else []

def validatePort (port : UInt16) : Except ControlError Unit :=
  if port = 0 then .error (.invalidConfig "Port 0 (auto-assign) is not supported; specify an explicit port")
    else .ok ()

-- The rollback gives the old port to the engine and to the server, but leaves
-- the discovery copy to start_server.
def rollback (urls : UrlParser) (engine : Engine) (oldPort newPort : UInt16) (error : ControlError)
    (attempt : Attempt) :
    List Update × Except ControlError Unit :=
  let config := { engine.config with port := oldPort }
  let restored := [Update.config config, .server config]
  let restart := startServer urls (engine.after restored) attempt
  match restart.2 with
  | .error restoreError =>
      (restored ++ restart.1,
        .error (.network ("Port change failed and rollback failed: original error: " ++ error.toString ++
        ", rollback error: " ++ restoreError.toString)))
  | .ok () =>
      (restored ++ restart.1,
        .error (.network ("Failed to bind to port " ++ toString newPort ++ ": " ++ error.toString ++
        " (restored to port " ++ toString oldPort ++ ")")))

def changePortWithOptions (urls : UrlParser) (engine : Engine) (newPort : UInt16) (rollbackOnFailure : Bool)
    (first second : Attempt) :
    List Update × Except ControlError Unit :=
  match validatePort newPort with
  | .error error => ([], .error error)
  | .ok () =>
      let oldPort := engine.config.port
      if oldPort = newPort then ([], .ok ())
      else
        let config := { engine.config with port := newPort }
        let moved := stopServer engine ++ [.config config, .server config, .discovery config]
        if engine.running = true then
          let start := startServer urls (engine.after moved) first
          match start.2 with
          | .ok () => (moved ++ start.1 ++ [.event (.portChanged oldPort newPort)], .ok ())
          | .error error =>
              if rollbackOnFailure = true then
                let restore := rollback urls (engine.after (moved ++ start.1)) oldPort newPort error second
                (moved ++ start.1 ++ restore.1, restore.2)
              else (moved ++ start.1, .error error)
        else (moved ++ [.event (.portChanged oldPort newPort)], .ok ())

def changePort (urls : UrlParser) (engine : Engine) (newPort : UInt16) (first second : Attempt) :
    List Update × Except ControlError Unit :=
  changePortWithOptions urls engine newPort true first second

def updateConfig (engine : Engine) (config : EngineConfig) : List Update :=
  let config :=
    if engine.running = true then
      { config with
        port := engine.config.port
        downloadDir := engine.config.downloadDir
        security := { config.security with identity := engine.config.security.identity } }
    else config
  [.config config, .server config, .discovery config]

-- The discovery copy does not hear of the trusted hosts.
def addTrustedHost (engine : Engine) (host : String) : List Update :=
  if host ∈ engine.config.trustedHosts then []
  else
    let config := { engine.config with trustedHosts := engine.config.trustedHosts ++ [host] }
    [.config config, .server config]

def removeTrustedHost (engine : Engine) (host : String) : List Update :=
  let config := { engine.config with trustedHosts := engine.config.trustedHosts.filter (· ≠ host) }
  [.config config, .server config]

inductive EngineOp where
  | startServer (attempt : Attempt)
  | stopServer
  | changePort (newPort : UInt16) (rollbackOnFailure : Bool) (first second : Attempt)
  | updateConfig (config : EngineConfig)
  | addTrustedHost (host : String)
  | removeTrustedHost (host : String)

def EngineOp.perform (urls : UrlParser) (engine : Engine) : EngineOp → List Update × Except ControlError Unit
  | .startServer attempt => GoshTransfer.startServer urls engine attempt
  | .stopServer => (GoshTransfer.stopServer engine, .ok ())
  | .changePort newPort rollbackOnFailure first second =>
      changePortWithOptions urls engine newPort rollbackOnFailure first second
  | .updateConfig config => (GoshTransfer.updateConfig engine config, .ok ())
  | .addTrustedHost host => (GoshTransfer.addTrustedHost engine host, .ok ())
  | .removeTrustedHost host => (GoshTransfer.removeTrustedHost engine host, .ok ())

def Engine.perform (urls : UrlParser) (engine : Engine) (op : EngineOp) : Engine := engine.after
    (op.perform urls engine).1

def Engine.performAll (urls : UrlParser) (engine : Engine) (ops : List EngineOp) : Engine := ops.foldl
    (Engine.perform urls) engine

@[simp] theorem after_nil (engine : Engine) : engine.after [] = engine := rfl

@[simp] theorem after_cons (engine : Engine) (update : Update) (rest : List Update) :
    engine.after (update :: rest) = (engine.update update).after rest := rfl

theorem after_append (engine : Engine) (first second : List Update) : engine.after
    (first ++ second) = (engine.after first).after second :=
  List.foldl_append

-- Whether the outside lets an attempt under this configuration through.
def Attempt.succeeds (urls : UrlParser) (security : SecurityConfig) (attempt : Attempt) : Bool :=
  match security.serverTls urls attempt.files, attempt.load, attempt.bind with
  | .ok _, .ok _, .bound _ _ => true
  | _, _, _ => false

theorem bound_port_nonzero (port picked : UInt16) (nonzero : picked ≠ 0) : boundPort port picked ≠ 0 := by
  by_cases zero : port = 0
  · simpa [boundPort, zero] using nonzero
  · simp [boundPort, zero]

theorem start_success (urls : UrlParser) (engine : Engine) (attempt : Attempt)
    (stopped : engine.running = false) (succeeds : attempt.succeeds urls engine.server.security = true) :
    ∃ tls picked, picked ≠ 0 ∧ (startServer urls engine attempt).2 = .ok () ∧
      (startServer urls engine attempt).1 =
        [.listenerTls tls, .listener (some ⟨boundPort engine.config.port picked, tls⟩),
          .event (.serverStarted (boundPort engine.config.port picked)),
          .config { engine.config with port := boundPort engine.config.port picked },
          .server { engine.config with port := boundPort engine.config.port picked },
          .discovery { engine.config with port := boundPort engine.config.port picked }, .running true] := by
  simp only [Attempt.succeeds] at succeeds
  split at succeeds
  · next tls _ picked nonzero served loaded bound =>
    exact ⟨tls, picked, nonzero, by simp [startServer, stopped, served, loaded, bound],
      by simp [startServer, stopped, served, loaded, bound]⟩
  · simp at succeeds

theorem start_failure (urls : UrlParser) (engine : Engine) (attempt : Attempt)
    (fails : engine.running = true ∨ attempt.succeeds urls engine.server.security = false) :
    ∃ error, (startServer urls engine attempt).2 = .error error ∧
      ((startServer urls engine attempt).1 = [] ∨
        engine.running = false ∧ ∃ tls, (startServer urls engine attempt).1 = [.listenerTls tls]) := by
  by_cases running : engine.running = true
  · exact ⟨.serverAlreadyRunning, by simp [startServer, running], .inl (by simp [startServer, running])⟩
  · have blocked := fails.resolve_left running
    have idle : engine.running = false := by simpa using running
    cases served : engine.server.security.serverTls urls attempt.files with
    | error error =>
        exact ⟨error, by simp [startServer, idle, served], .inl (by simp [startServer, idle, served])⟩
    | ok tls =>
      cases loaded : attempt.load with
      | error error =>
          exact ⟨error, by simp [startServer, idle, served, loaded],
            .inl (by simp [startServer, idle, served, loaded])⟩
      | ok _ =>
        cases bound : attempt.bind with
        | refused error =>
          exact ⟨_, by simp [startServer, idle, served, loaded, bound]; rfl,
            .inr ⟨idle, tls, by simp [startServer, idle, served, loaded, bound]⟩⟩
        | lost error =>
          exact ⟨_, by simp [startServer, idle, served, loaded, bound]; rfl,
            .inr ⟨idle, tls, by simp [startServer, idle, served, loaded, bound]⟩⟩
        | bound picked nonzero => simp [Attempt.succeeds, served, loaded, bound] at blocked

def PortsAgree (engine : Engine) : Prop := engine.server.port = engine.config.port ∧
    engine.discovery.port = engine.config.port

def AllAt (engine : Engine) (port : UInt16) : Prop :=
  engine.config.port = port ∧ engine.server.port = port ∧ engine.discovery.port = port

theorem all_at_agree (engine : Engine) (port : UInt16) (all : AllAt engine port) : PortsAgree engine :=
  ⟨all.2.1.trans all.1.symm, all.2.2.trans all.1.symm⟩

theorem start_ports (urls : UrlParser) (engine : Engine) (attempt : Attempt)
    (stopped : engine.running = false) (succeeds : attempt.succeeds urls engine.server.security = true) :
    (startServer urls engine attempt).2 = .ok () ∧ ∃ port, port ≠ 0 ∧
    (engine.config.port ≠ 0 → port = engine.config.port) ∧
      AllAt (engine.after (startServer urls engine attempt).1) port := by
  obtain ⟨tls, picked, nonzero, result, updates⟩ := start_success urls engine attempt stopped succeeds
  refine ⟨result, boundPort engine.config.port picked, bound_port_nonzero _ _ nonzero, ?_, ?_⟩
  · intro fixed
    simp [boundPort, fixed]
  · rw [updates]
    exact ⟨rfl, rfl, rfl⟩

theorem start_leaves (urls : UrlParser) (engine : Engine) (attempt : Attempt)
    (fails : engine.running = true ∨ attempt.succeeds urls engine.server.security = false) :
    (∃ error, (startServer urls engine attempt).2 = .error error) ∧
      ∃ tls, engine.after (startServer urls engine attempt).1 = { engine with listenerTls := tls } := by
  obtain ⟨error, result, updates⟩ := start_failure urls engine attempt fails
  refine ⟨⟨error, result⟩, ?_⟩
  obtain none | ⟨-, tls, flag⟩ := updates
  · exact ⟨engine.listenerTls, by rw [none]; rfl⟩
  · exact ⟨tls, by rw [flag]; rfl⟩

theorem stop_then (engine : Engine) (config : EngineConfig) :
    ∃ stopped : Engine,
      engine.after (stopServer engine ++ [.config config, .server config, .discovery config]) = stopped ∧
      stopped.config = config ∧ stopped.server = config ∧ stopped.discovery = config ∧
        stopped.running = false := by
  refine ⟨_, rfl, ?_⟩
  by_cases running : engine.running = true
  · simp [stopServer, running, Engine.update]
  · simp [stopServer, running, Engine.update]

theorem rollback_ports (urls : UrlParser) (engine : Engine) (oldPort newPort : UInt16)
    (error : ControlError) (attempt : Attempt) (stopped : engine.running = false) (nonzero : oldPort ≠ 0) :
    (∃ failure, (rollback urls engine oldPort newPort error attempt).2 = .error failure) ∧
      (attempt.succeeds urls engine.config.security = true →
        AllAt (engine.after (rollback urls engine oldPort newPort error attempt).1) oldPort) ∧
      (attempt.succeeds urls engine.config.security = false →
        (engine.after (rollback urls engine oldPort newPort error attempt).1).config.port = oldPort ∧
          (engine.after (rollback urls engine oldPort newPort error attempt).1).discovery = engine.discovery ∧
          (engine.after (rollback urls engine oldPort newPort error attempt).1).running = false) := by
  have updates : (rollback urls engine oldPort newPort error attempt).1 =
      [.config { engine.config with port := oldPort }, .server { engine.config with port := oldPort }] ++
        (startServer urls
        (engine.after [.config { engine.config with port := oldPort },
        .server { engine.config with port := oldPort }]) attempt).1 := by
    simp only [rollback]
    split <;> rfl
  refine ⟨?_, ?_, ?_⟩
  · simp only [rollback]
    split
    · exact ⟨_, rfl⟩
    · exact ⟨_, rfl⟩
  · intro succeeds
    obtain ⟨-, port, -, same, all⟩ := start_ports urls
      (engine.after [.config { engine.config with port := oldPort },
      .server { engine.config with port := oldPort }]) attempt stopped succeeds
    rw [updates, after_append, ← show port = oldPort from same nonzero]
    exact same nonzero ▸ all
  · intro fails
    obtain ⟨-, tls, left⟩ := start_leaves urls
      (engine.after [.config { engine.config with port := oldPort },
      .server { engine.config with port := oldPort }]) attempt (.inr fails)
    rw [updates, after_append, left]
    exact ⟨rfl, rfl, stopped⟩

-- A rollback that cannot bind the old port either.
def strands (urls : UrlParser) (engine : Engine) : EngineOp → Bool
  | .changePort newPort rollbackOnFailure first second =>
      rollbackOnFailure && engine.running && newPort != 0 && newPort != engine.config.port &&
        !first.succeeds urls engine.config.security && !second.succeeds urls engine.config.security
  | _ => false

-- What one operation owes: equal ports, and the old one after a failed change
-- with rollback.
def KeepsPorts (urls : UrlParser) (engine : Engine) (op : EngineOp) : Prop :=
  PortsAgree (engine.perform urls op) ∧
    ∀ newPort first second error, op = .changePort newPort true first second →
      (op.perform urls engine).2 = .error error →
      AllAt (engine.perform urls op) engine.config.port

def PortsSound (engine : Engine) : Prop := PortsAgree engine ∧
    (engine.running = true → engine.config.port ≠ 0)

theorem agree_all_at (engine : Engine) (agree : PortsAgree engine) : AllAt engine engine.config.port :=
    ⟨rfl, agree.1, agree.2⟩

theorem start_sound (urls : UrlParser) (engine : Engine) (attempt : Attempt) (sound : PortsSound engine) :
    PortsSound (engine.after (startServer urls engine attempt).1) := by
  by_cases starts : engine.running = false ∧ attempt.succeeds urls engine.server.security = true
  · obtain ⟨-, port, nonzero, -, all⟩ := start_ports urls engine attempt starts.1 starts.2
    exact ⟨all_at_agree _ port all, fun _ => by rw [all.1]; exact nonzero⟩
  · have fails : engine.running = true ∨ attempt.succeeds urls engine.server.security = false := by
      by_cases running : engine.running = true
      · exact .inl running
      · exact .inr (by simpa [running] using starts)
    obtain ⟨-, tls, left⟩ := start_leaves urls engine attempt fails
    rw [left]
    exact sound

theorem update_config_sound (engine : Engine) (config : EngineConfig) (sound : PortsSound engine) :
    PortsSound (engine.after (updateConfig engine config)) := by
  refine ⟨⟨rfl, rfl⟩, ?_⟩
  intro running
  have before : engine.running = true := running
  simpa [updateConfig, before, Engine.update] using sound.2 before

theorem trusted_host_sound (engine : Engine) (hosts : List String) (sound : PortsSound engine) :
    PortsSound (engine.after [.config { engine.config with trustedHosts := hosts },
      .server { engine.config with trustedHosts := hosts }]) :=
  ⟨⟨rfl, sound.1.2⟩, sound.2⟩

theorem stop_sound (engine : Engine) (sound : PortsSound engine) : PortsSound
    (engine.after (stopServer engine)) := by
  by_cases running : engine.running = true
  · simp only [stopServer, if_pos running]
    exact ⟨sound.1, fun still => absurd still (by simp [Engine.update])⟩
  · simpa [stopServer, running] using sound

theorem change_port_settled (urls : UrlParser) (engine : Engine) (newPort : UInt16) (back : Bool)
    (first second : Attempt) (sound : PortsSound engine)
    (safe : strands urls engine (.changePort newPort back first second) = false) :
    PortsSound (engine.after (changePortWithOptions urls engine newPort back first second).1) ∧
      ∀ error, back = true → (changePortWithOptions urls engine newPort back first second).2 = .error error →
        AllAt (engine.after (changePortWithOptions urls engine newPort back first second).1)
          engine.config.port := by
  have idle : PortsSound (engine.after []) ∧ AllAt (engine.after []) engine.config.port :=
    ⟨sound, agree_all_at engine sound.1⟩
  by_cases zero : newPort = 0
  · simp only [changePortWithOptions, validatePort, if_pos zero]
    exact ⟨idle.1, fun _ _ _ => idle.2⟩
  · by_cases same : engine.config.port = newPort
    · simp only [changePortWithOptions, validatePort, if_neg zero, if_pos same]
      exact ⟨idle.1, fun _ _ _ => idle.2⟩
    · simp only [changePortWithOptions, validatePort, if_neg zero, if_neg same]
      obtain ⟨moved, reached, config, server, discovery, stopped⟩ :=
        stop_then engine { engine.config with port := newPort }
      by_cases running : engine.running = true
      · simp only [if_pos running]
        rw [reached]
        by_cases binds : first.succeeds urls moved.server.security = true
        · obtain ⟨result, port, nonzero, -, all⟩ := start_ports urls moved first stopped binds
          simp only [result, after_append, reached]
          refine ⟨⟨all_at_agree _ port all, fun _ => ?_⟩, by simp⟩
          change (moved.after (startServer urls moved first).1).config.port ≠ 0
          rw [all.1]
          exact nonzero
        · obtain ⟨⟨error, result⟩, tls, left⟩ := start_leaves urls moved first (.inr (by simpa using binds))
          simp only [result]
          cases back with
          | true =>
            simp only [if_true, after_append, reached, left]
            obtain ⟨-, restored, -⟩ :=
              rollback_ports urls { moved with listenerTls := tls } engine.config.port newPort error second
                stopped
              (sound.2 running)
            have second_binds : second.succeeds urls moved.config.security = true := by
              rw [config]
              rw [server] at binds
              simp only [strands, Bool.true_and, Bool.and_eq_false_iff, Bool.not_eq_false',
                bne_eq_false_iff_eq] at safe
              simp only [running, zero, Ne.symm same, Bool.true_eq_false, or_false, false_or] at safe
              exact safe.resolve_left binds
            have all := restored second_binds
            exact ⟨⟨all_at_agree _ _ all, fun _ => by rw [all.1]; exact sound.2 running⟩, fun _ _ _ => all⟩
          | false =>
            simp only [Bool.false_eq_true, if_false, after_append, reached, left]
            exact ⟨⟨⟨by rw [server, config], by rw [discovery, config]⟩, fun still => absurd still
              (by simp [stopped])⟩, by simp⟩
      · simp only [if_neg running, after_append, reached]
        exact ⟨⟨⟨by simp [Engine.update, server, config], by simp [Engine.update, discovery, config]⟩,
          fun still => absurd still (by simp [Engine.update, stopped])⟩, by simp⟩

theorem op_settled (urls : UrlParser) (engine : Engine) (op : EngineOp) (sound : PortsSound engine)
    (safe : strands urls engine op = false) :
    KeepsPorts urls engine op ∧ PortsSound (engine.perform urls op) := by
  have settled : PortsSound (engine.perform urls op) ∧
      ∀ newPort first second error, op = .changePort newPort true first second →
        (op.perform urls engine).2 = .error error →
        AllAt (engine.perform urls op) engine.config.port := by
    cases op with
    | startServer attempt => exact ⟨start_sound urls engine attempt sound, by simp⟩
    | stopServer => exact ⟨stop_sound engine sound, by simp⟩
    | changePort newPort back first second =>
      obtain ⟨after, failed⟩ := change_port_settled urls engine newPort back first second sound safe
      refine ⟨after, ?_⟩
      intro port one two error same result
      cases same
      exact failed error rfl result
    | updateConfig config => exact ⟨update_config_sound engine config sound, by simp⟩
    | addTrustedHost host =>
      refine ⟨?_, by simp⟩
      by_cases known : host ∈ engine.config.trustedHosts
      · simpa [Engine.perform, EngineOp.perform, GoshTransfer.addTrustedHost, known] using sound
      · simp only [Engine.perform, EngineOp.perform, GoshTransfer.addTrustedHost, if_neg known]
        exact trusted_host_sound engine _ sound
    | removeTrustedHost host => exact ⟨trusted_host_sound engine _ sound, by simp⟩
  exact ⟨⟨settled.1.1, settled.2⟩, settled.1⟩

theorem stranded_unsettled (urls : UrlParser) (engine : Engine) (op : EngineOp) (sound : PortsSound engine)
    (stranded : strands urls engine op = true) : ¬ KeepsPorts urls engine op := by
  cases op with
  | changePort newPort back first second =>
    simp only [strands, Bool.and_eq_true, bne_iff_ne, Bool.not_eq_true'] at stranded
    obtain ⟨⟨⟨⟨⟨rfl, running⟩, nonzero⟩, different⟩, unbound⟩, unrestored⟩ := stranded
    intro settled
    obtain ⟨moved, reached, config, server, discovery, stopped⟩ :=
      stop_then engine { engine.config with port := newPort }
    obtain ⟨⟨error, result⟩, tls, left⟩ :=
      start_leaves urls moved first (.inr (by rw [server]; exact unbound))
    obtain ⟨-, -, lost⟩ :=
      rollback_ports urls { moved with listenerTls := tls } engine.config.port newPort error second stopped
      (sound.2 running)
    have final := lost (by rw [config]; exact unrestored)
    have updates : engine.perform urls (.changePort newPort true first second) =
        Engine.after { moved with listenerTls := tls }
        (rollback urls { moved with listenerTls := tls } engine.config.port newPort error second).1 := by
      simp only [Engine.perform, EngineOp.perform, changePortWithOptions, validatePort, if_neg nonzero,
        if_neg (Ne.symm different),
        if_pos running, reached, result, if_true, after_append, left]
    have agree := settled.1.2
    rw [updates, final.1, final.2.1] at agree
    exact different (by rw [← agree]; exact (congrArg EngineConfig.port discovery).symm)
  | _ => simp [strands] at stranded

theorem new_engine_sound (config : EngineConfig) : PortsSound (Engine.new config) :=
    ⟨⟨rfl, rfl⟩, by simp [Engine.new]⟩

theorem settled_not_stranded (urls : UrlParser) (engine : Engine) (op : EngineOp) (sound : PortsSound engine)
    (settled : KeepsPorts urls engine op) : strands urls engine op = false := by
  by_contra stranded
  exact stranded_unsettled urls engine op sound (by simpa using stranded) settled

theorem perform_all_sound (urls : UrlParser) (engine : Engine) (ops : List EngineOp)
    (sound : PortsSound engine) (safe : ∀ done op rest, ops = done ++ op :: rest →
      PortsSound (engine.performAll urls done) →
      strands urls (engine.performAll urls done) op = false) :
    ∀ done rest, ops = done ++ rest → PortsSound (engine.performAll urls done) := by
  intro done
  induction done using List.reverseRecOn with
  | nil =>
    intro rest split
    exact sound
  | append_singleton done op ih =>
    intro rest split
    have whole : ops = done ++ op :: rest := by simpa using split
    have before := ih (op :: rest) whole
    have step := op_settled urls (engine.performAll urls done) op before (safe done op rest whole before)
    simpa [Engine.performAll, List.foldl_append] using step.2

-- An operation sequence is told by its fronts: the first rollback that finds
-- no port at all is the first to leave the copies apart.
theorem ports_agree_iff (urls : UrlParser) (config : EngineConfig) (ops : List EngineOp) :
    (∀ done op rest, ops = done ++ op :: rest →
      KeepsPorts urls ((Engine.new config).performAll urls done) op) ↔
      ∀ done op rest, ops = done ++ op :: rest →
        strands urls ((Engine.new config).performAll urls done) op = false := by
  constructor
  · intro settled done op rest split
    have fronts := perform_all_sound urls (Engine.new config) ops (new_engine_sound config)
      fun done op rest split sound => settled_not_stranded urls _ op sound (settled done op rest split)
    exact settled_not_stranded urls _ op (fronts done (op :: rest) split) (settled done op rest split)
  · intro safe done op rest split
    have fronts :=
      perform_all_sound urls (Engine.new config) ops (new_engine_sound config) fun done op rest split _ =>
        safe done op rest split
    exact (op_settled urls _ op (fronts done (op :: rest) split) (safe done op rest split)).1

def plainConfig : EngineConfig := ⟨⟨none, none, []⟩, 53317, "Device", "/tmp", []⟩

def bindsAttempt (bind : Bind) : Attempt := ⟨.ok (), .ok (), bind⟩

-- Started on 53317; then neither 53318 nor 53317 can be bound.
theorem failed_rollback_leaves_discovery_behind :
    ¬ ∀ urls config ops done op rest, ops = done ++ op :: rest →
      KeepsPorts urls ((Engine.new config).performAll urls done) op := by
  intro claim
  have settled := claim (fun _ => none) plainConfig
    [.startServer (bindsAttempt (.bound 53317 (by decide))),
      .changePort 53318 true (bindsAttempt (.refused "Address already in use"))
      (bindsAttempt (.refused "Address already in use"))]
    [.startServer (bindsAttempt (.bound 53317 (by decide)))] _ [] rfl
  exact absurd settled.1.2 (by decide)

end GoshTransfer
