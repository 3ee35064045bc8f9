import GoshTransfer.Engine
import GoshTransfer.Lib.Transition
import GoshTransfer.Publication

set_option autoImplicit false

-- Requests in between the updates of the engine's operations.
namespace GoshTransfer

open InodeStore

-- authorize reads the live configuration first and the listener's flag after
-- it, and may be overtaken by the engine in between.
inductive Flight where
  | arrived (request : HttpRequest)
  | read (request : HttpRequest) (security : SecurityConfig)
  | answered (response : HttpResponse)
  | passed (principal : Option String)

-- A request that went on to its endpoint, the configuration that was read for
-- it, and the listener at that moment.
structure Passage where
  request : HttpRequest
  security : SecurityConfig
  listener : Listener

structure Traffic where
  engine : Engine
  pending : List Update
  flights : List Flight
  passages : List Passage

def Traffic.new (config : EngineConfig) : Traffic := ⟨Engine.new config, [], [], []⟩

inductive TrafficLabel where
  | call (op : EngineOp)
  | advance
  | arrive (request : HttpRequest)
  | proceed (o : Nat)

def Flight.next (urls : UrlParser) (sha256 : Bytes → String) (engine : Engine) (listener : Listener) :
    Flight → Option (Flight × List Passage)
  | .arrived request => some (.read request engine.server.security, [])
  | .read request security =>
      match authorize urls sha256 security engine.listenerTls request with
      | .answer response => some (.answered response, [])
      | .next principal => some (.passed principal, [⟨request, security, listener⟩])
  | .answered _ => none
  | .passed _ => none

def Traffic.step (urls : UrlParser) (sha256 : Bytes → String) (traffic : Traffic) : TrafficLabel →
    Option Traffic
  | .call op =>
      if traffic.pending.isEmpty then some { traffic with pending := (op.perform urls traffic.engine).1 }
        else none
  | .advance =>
      match traffic.pending with
      | [] => none
      | update :: rest => some { traffic with engine := traffic.engine.update update, pending := rest }
  | .arrive request =>
      if traffic.engine.listener.isSome then
        some { traffic with flights := traffic.flights ++ [.arrived request] } else none
  | .proceed o =>
      match traffic.engine.listener, traffic.flights[o]? with
      | some listener, some flight =>
          (flight.next urls sha256 traffic.engine listener).map fun (flight, passed) =>
            { traffic with flights := traffic.flights.set o flight, passages := traffic.passages ++ passed }
      | _, _ => none

-- The flag tells the truth about the listener there is.
def FlagTrue (engine : Engine) : Prop := ∀ listener, engine.listener = some listener →
    engine.listenerTls = listener.tls

def Along (good : Engine → Prop) : Engine → List Update → Prop
  | engine, [] => good engine
  | engine, update :: rest => good engine ∧ Along good (engine.update update) rest

theorem along_append (good : Engine → Prop) (engine : Engine) (first second : List Update)
    (front : Along good engine first) (back : Along good (engine.after first) second) :
    Along good engine (first ++ second) := by
  induction first generalizing engine with
  | nil => exact back
  | cons update first ih => exact ⟨front.1, ih (engine.update update) front.2 back⟩

-- Between two operations a server that is not running has no listener.
structure Rested (engine : Engine) : Prop where
  flagTrue : FlagTrue engine
  closed : engine.running = false → engine.listener = none

def Orderly (engine : Engine) (updates : List Update) : Prop := Along FlagTrue engine updates ∧ Rested
    (engine.after updates)

theorem orderly_nil (engine : Engine) (rested : Rested engine) : Orderly engine [] :=
    ⟨rested.flagTrue, rested⟩

theorem orderly_append (engine : Engine) (first second : List Update) (front : Orderly engine first)
    (back : Orderly (engine.after first) second) : Orderly engine (first ++ second) :=
  ⟨along_append FlagTrue engine first second front.1 back.1, by rw [after_append]; exact back.2⟩

def Update.quiet : Update → Bool
  | .config _ | .server _ | .discovery _ | .event _ => true
  | .running _ | .listenerTls _ | .listener _ => false

theorem quiet_rested (engine : Engine) (update : Update) (quiet : update.quiet = true)
    (rested : Rested engine) :
    Rested (engine.update update) := by
  cases update with
  | config config => exact ⟨rested.flagTrue, rested.closed⟩
  | server config => exact ⟨rested.flagTrue, rested.closed⟩
  | discovery config => exact ⟨rested.flagTrue, rested.closed⟩
  | event event => exact ⟨rested.flagTrue, rested.closed⟩
  | running running => simp [Update.quiet] at quiet
  | listenerTls tls => simp [Update.quiet] at quiet
  | listener listener => simp [Update.quiet] at quiet

theorem quiet_orderly (engine : Engine) (updates : List Update)
    (quiet : ∀ update ∈ updates, update.quiet = true) (rested : Rested engine) :
    Orderly engine updates := by
  induction updates generalizing engine with
  | nil => exact orderly_nil engine rested
  | cons update rest ih =>
    obtain ⟨first, others⟩ := List.forall_mem_cons.mp quiet
    obtain ⟨along, final⟩ := ih (engine.update update) others (quiet_rested engine update first rested)
    exact ⟨⟨rested.flagTrue, along⟩, final⟩

theorem closed_flag_true (engine : Engine) (closed : engine.listener = none) : FlagTrue engine := by
  intro listener there
  simp [closed] at there

theorem start_orderly (urls : UrlParser) (engine : Engine) (attempt : Attempt) (rested : Rested engine) :
    Orderly engine (startServer urls engine attempt).1 := by
  by_cases starts : engine.running = false ∧ attempt.succeeds urls engine.server.security = true
  · obtain ⟨tls, picked, -, -, updates⟩ := start_success urls engine attempt starts.1 starts.2
    have closed := rested.closed starts.1
    have opened : ∀ listener : Listener, some (⟨boundPort engine.config.port picked, tls⟩ : Listener) =
      some listener → tls = listener.tls := by
      rintro listener ⟨⟩
      rfl
    rw [updates]
    refine ⟨⟨rested.flagTrue, closed_flag_true _ closed, opened, opened, opened, opened, opened, opened⟩,
      opened, ?_⟩
    intro stopped
    simp [Engine.update] at stopped
  · have fails : engine.running = true ∨ attempt.succeeds urls engine.server.security = false := by
      by_cases running : engine.running = true
      · exact .inl running
      · exact .inr (by simpa [running] using starts)
    obtain ⟨error, -, none | ⟨stopped, tls, flag⟩⟩ := start_failure urls engine attempt fails
    · rw [none]
      exact orderly_nil engine rested
    · rw [flag]
      have closed := rested.closed stopped
      exact ⟨⟨rested.flagTrue, closed_flag_true _ closed⟩, closed_flag_true _ closed, fun _ => closed⟩

theorem stop_orderly (engine : Engine) (rested : Rested engine) : Orderly engine (stopServer engine) := by
  by_cases running : engine.running = true
  · simp only [stopServer, if_pos running]
    exact ⟨⟨rested.flagTrue, rested.flagTrue, closed_flag_true _ rfl, closed_flag_true _ rfl⟩,
      closed_flag_true _ rfl, fun _ => rfl⟩
  · simp only [stopServer, if_neg running]
    exact orderly_nil engine rested

theorem rollback_orderly (urls : UrlParser) (engine : Engine) (oldPort newPort : UInt16)
    (error : ControlError) (attempt : Attempt) (rested : Rested engine) :
    Orderly engine (rollback urls engine oldPort newPort error attempt).1 := by
  have restored :=
    quiet_orderly engine [.config { engine.config with port := oldPort },
      .server { engine.config with port := oldPort }]
    (by simp [Update.quiet]) rested
  have restart := orderly_append engine _ _ restored (start_orderly urls _ attempt restored.2)
  simp only [rollback]
  split
  · exact restart
  · exact restart

theorem change_port_orderly (urls : UrlParser) (engine : Engine) (newPort : UInt16) (back : Bool)
    (first second : Attempt) (rested : Rested engine) :
    Orderly engine (changePortWithOptions urls engine newPort back first second).1 := by
  simp only [changePortWithOptions]
  split
  · exact orderly_nil engine rested
  · split
    · exact orderly_nil engine rested
    · have stopped := stop_orderly engine rested
      have moved :=
        orderly_append engine _ [.config { engine.config with port := newPort },
          .server { engine.config with port := newPort },
        .discovery { engine.config with port := newPort }] stopped
          (quiet_orderly _ _ (by simp [Update.quiet]) stopped.2)
      split
      · have started := orderly_append engine _ _ moved (start_orderly urls _ first moved.2)
        split
        · exact orderly_append engine _ _ started (quiet_orderly _ _ (by simp [Update.quiet]) started.2)
        · split
          · exact orderly_append engine _ _ started (rollback_orderly urls _ _ _ _ second started.2)
          · exact started
      · exact orderly_append engine _ _ moved (quiet_orderly _ _ (by simp [Update.quiet]) moved.2)

theorem op_orderly (urls : UrlParser) (engine : Engine) (op : EngineOp) (rested : Rested engine) :
    Orderly engine (op.perform urls engine).1 := by
  cases op with
  | startServer attempt => exact start_orderly urls engine attempt rested
  | stopServer => exact stop_orderly engine rested
  | changePort newPort back first second =>
      exact change_port_orderly urls engine newPort back first second rested
  | updateConfig config =>
      exact quiet_orderly engine _ (by simp [EngineOp.perform, GoshTransfer.updateConfig, Update.quiet])
        rested
  | addTrustedHost host =>
    by_cases known : host ∈ engine.config.trustedHosts
    · exact quiet_orderly engine _ (by simp [EngineOp.perform, GoshTransfer.addTrustedHost, known]) rested
    · exact quiet_orderly engine _
        (by simp [EngineOp.perform, GoshTransfer.addTrustedHost, known, Update.quiet]) rested
  | removeTrustedHost host =>
      exact quiet_orderly engine _
        (by simp [EngineOp.perform, GoshTransfer.removeTrustedHost, Update.quiet]) rested

structure Watched (urls : UrlParser) (traffic : Traffic) : Prop where
  orderly : Orderly traffic.engine traffic.pending
  authentic : ∀ passage ∈ traffic.passages, Authentic urls passage.security passage.listener.tls
    passage.request

theorem orderly_flag_true (engine : Engine) (updates : List Update) (orderly : Orderly engine updates) :
    FlagTrue engine := by
  cases updates with
  | nil => exact orderly.1
  | cons update rest => exact orderly.1.1

theorem flight_next_authentic (urls : UrlParser) (sha256 : Bytes → String)
    (collisionFree : ∀ a b, sha256 a = sha256 b → a = b) (engine : Engine) (listener : Listener)
    (flagTrue : engine.listenerTls = listener.tls) (flight flight' : Flight) (passed : List Passage)
    (moved : flight.next urls sha256 engine listener = some (flight', passed)) :
    ∀ passage ∈ passed, Authentic urls passage.security passage.listener.tls passage.request := by
  cases flight with
  | arrived request =>
    obtain ⟨-, rfl⟩ : _ ∧ [] = passed := by simpa [Flight.next] using moved
    simp
  | read request security =>
    cases gate : authorize urls sha256 security engine.listenerTls request with
    | answer response =>
      obtain ⟨-, rfl⟩ : _ ∧ [] = passed := by simpa [Flight.next, gate] using moved
      simp
    | next principal =>
      obtain ⟨-, rfl⟩ : _ ∧
        [(⟨request, security, listener⟩ : Passage)] = passed := by simpa [Flight.next, gate] using moved
      intro passage only
      obtain rfl := List.mem_singleton.mp only
      rw [flagTrue] at gate
      exact passed_authentic urls sha256 collisionFree security listener.tls request principal gate
  | answered response => simp [Flight.next] at moved
  | passed principal => simp [Flight.next] at moved

theorem watched_step (urls : UrlParser) (sha256 : Bytes → String)
    (collisionFree : ∀ a b, sha256 a = sha256 b → a = b) (traffic : Traffic) (label : TrafficLabel)
    (next : Traffic) (watched : Watched urls traffic)
    (stepped : traffic.step urls sha256 label = some next) : Watched urls next := by
  cases label with
  | call op =>
    by_cases free : traffic.pending = []
    · obtain rfl : _ = next := by simpa [Traffic.step, free] using stepped
      have rested : Rested traffic.engine := by simpa [free] using watched.orderly.2
      exact ⟨op_orderly urls traffic.engine op rested, watched.authentic⟩
    · simp [Traffic.step, free] at stepped
  | advance =>
    cases listed : traffic.pending with
    | nil => simp [Traffic.step, listed] at stepped
    | cons update rest =>
      obtain rfl : _ = next := by simpa [Traffic.step, listed] using stepped
      have orderly := watched.orderly
      rw [listed] at orderly
      exact ⟨⟨orderly.1.2, orderly.2⟩, watched.authentic⟩
  | arrive request =>
    by_cases serving : traffic.engine.listener.isSome = true
    · obtain rfl : _ = next := by simpa [Traffic.step, serving] using stepped
      exact ⟨watched.orderly, watched.authentic⟩
    · simp [Traffic.step, serving] at stepped
  | proceed o =>
    cases serving : traffic.engine.listener with
    | none => simp [Traffic.step, serving] at stepped
    | some listener =>
      cases here : traffic.flights[o]? with
      | none => simp [Traffic.step, serving, here] at stepped
      | some flight =>
        simp only [Traffic.step, serving, here, Option.map_eq_some_iff, Prod.exists] at stepped
        obtain ⟨flight', passed, moved, rfl⟩ := stepped
        have flagTrue := orderly_flag_true _ _ watched.orderly listener serving
        have fresh :=
          flight_next_authentic urls sha256 collisionFree traffic.engine listener flagTrue flight flight'
            passed moved
        exact ⟨watched.orderly, List.forall_mem_append.mpr ⟨watched.authentic, fresh⟩⟩

theorem new_traffic_watched (urls : UrlParser) (config : EngineConfig) : Watched urls
    (Traffic.new config) := by
  have closed : FlagTrue (Engine.new config) := closed_flag_true _ rfl
  exact ⟨⟨closed, closed, fun _ => rfl⟩, by simp [Traffic.new]⟩

theorem no_request_passes_unauthenticated (urls : UrlParser) (sha256 : Bytes → String)
    (collisionFree : ∀ a b, sha256 a = sha256 b → a = b) (config : EngineConfig) (traffic : Traffic)
    (run : Transition.Run (Traffic.step urls sha256) (fun _ _ => True) (Traffic.new config) traffic) :
    ∀ passage ∈ traffic.passages, Authentic urls passage.security passage.listener.tls passage.request := by
  have watched : Watched urls traffic :=
    Transition.run_invariant _ _ (Watched urls) (fun traffic label next good _ stepped =>
      watched_step urls sha256 collisionFree traffic label next good stepped) _ _ run
        (new_traffic_watched urls config)
  exact watched.authentic

def pairingToken : String := "0123456789abcdef0123456789abcdef"

-- Right on this token.
def pairingHash : Bytes → String :=
  markedHash (asBytes pairingToken) "3eb1bd439947eb762998e566ccc2e099c791118b2f40579cc4f7da2b5061b7f9"

def browserUrls (text : String) : Option Url :=
    if text = "https://app.example" then some ⟨"https", "https://app.example"⟩ else none

def pairedConfig : EngineConfig :=
  ⟨⟨some ⟨"cert.pem", "key.pem"⟩, some pairingToken, ["https://app.example"]⟩, 53317, "Device", "/tmp", []⟩

def browserRequest : HttpRequest :=
  ⟨"POST", [("origin", .text "https://app.example"), ("authorization", .text ("Bearer " ++ pairingToken))]⟩

-- The token is changed while the request is between its two reads.
def browserRun : List TrafficLabel :=
  [.call (.startServer (bindsAttempt (.bound 53317 (by decide)))), .advance, .advance,
    .arrive browserRequest, .proceed 0, .advance, .advance,
    .advance, .advance, .advance, .call (.updateConfig plainConfig), .advance, .advance, .proceed 0]

theorem browser_request_passes : ∃ traffic,
    Transition.Run (Traffic.step browserUrls pairingHash) (fun _ _ => True)
    (Traffic.new pairedConfig) traffic ∧
      traffic.passages.map Passage.request = [browserRequest] ∧
      ∀ passage ∈ traffic.passages, Authentic browserUrls passage.security passage.listener.tls
        passage.request := by
  have collisionFree : ∀ a b, pairingHash a = pairingHash b → a = b :=
    marked_hash_injective (asBytes pairingToken) _ (by decide)
  obtain ⟨traffic, run, passed⟩ := Transition.replay_reaches (Traffic.step browserUrls pairingHash)
    (fun _ _ => True) browserRun (Traffic.new pairedConfig)
    (fun traffic => traffic.passages.map Passage.request == [browserRequest]) (by decide +kernel)
  exact ⟨traffic, run, by simpa using passed, no_request_passes_unauthenticated browserUrls pairingHash
    collisionFree pairedConfig traffic run⟩

end GoshTransfer
