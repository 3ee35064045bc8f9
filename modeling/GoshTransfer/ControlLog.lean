import GoshTransfer.Engine

set_option autoImplicit false

namespace GoshTransfer

-- What a reader of the events takes the listener to be: none stands for an
-- event that cannot come now.
def ControlEvent.follow (seen : Option UInt16) : ControlEvent → Option (Option UInt16)
  | .serverStarted port => if seen = none ∧ port ≠ 0 then some (some port) else none
  | .serverStopped => if seen = none then none else some none
  | .portChanged oldPort newPort => if oldPort ≠ newPort ∧
      (seen = none ∨ seen = some newPort) then some seen else none

def followAll (events : List ControlEvent) : Option (Option UInt16) := events.foldlM ControlEvent.follow none

-- The events tell the listener, and the listener is what every copy of the
-- configuration says.
structure InLine (engine : Engine) : Prop where
  told : followAll engine.events = some (engine.listener.map Listener.port)
  serving : engine.running = engine.listener.isSome
  copied : engine.server = engine.config
  listening : ∀ listener, engine.listener = some listener → listener.port ≠ 0 ∧
    engine.config.port = listener.port ∧
    engine.discovery.port = listener.port ∧ engine.config.security.identity.isSome = listener.tls ∧
      engine.listenerTls = listener.tls

theorem follow_all_append (events : List ControlEvent) (event : ControlEvent) (seen : Option UInt16)
    (told : followAll events = some seen) :
    followAll (events ++ [event]) = event.follow seen := by
  simp only [followAll] at told
  simp [followAll, List.foldlM_append, told]

theorem stopped_silent (engine : Engine) (inLine : InLine engine) (stopped : engine.running = false) :
    engine.listener = none := by
  have serving := inLine.serving
  rw [stopped] at serving
  simpa using serving.symm

theorem server_tls_identity (urls : UrlParser) (security : SecurityConfig)
    (files : Except ControlError Unit) (tls : Bool) (served : security.serverTls urls files = .ok tls) :
    security.identity.isSome = tls := by
  unfold SecurityConfig.serverTls at served
  split at served
  · cases served
  · split at served
    · next plain =>
      cases served
      simp [plain]
    · next identity =>
      split at served <;> cases served
      simp [identity]

theorem start_cases (urls : UrlParser) (engine : Engine) (attempt : Attempt) :
    (∃ flag error, (startServer urls engine attempt).2 = .error error ∧
      engine.after (startServer urls engine attempt).1 = { engine with listenerTls := flag } ∧
      (engine.running = true → flag = engine.listenerTls)) ∨
    (engine.running = false ∧ (startServer urls engine attempt).2 = .ok () ∧ ∃ port tls, port ≠ 0 ∧
      (engine.config.port ≠ 0 → port = engine.config.port) ∧ engine.server.security.identity.isSome = tls ∧
      engine.after (startServer urls engine attempt).1 =
        { config := { engine.config with port := port }, server := { engine.config with port := port },
          discovery := { engine.config with port := port }, running := true, listenerTls := tls, listener :=
            some ⟨port, tls⟩,
          events := engine.events ++ [.serverStarted port] }) := by
  by_cases starts : engine.running = false ∧ attempt.succeeds urls engine.server.security = true
  · obtain ⟨idle, succeeds⟩ := starts
    simp only [Attempt.succeeds] at succeeds
    split at succeeds
    · next tls _ picked nonzero served loaded bound =>
      refine .inr ⟨idle, by simp [startServer, idle, served, loaded, bound],
        boundPort engine.config.port picked, tls,
        bound_port_nonzero _ _ nonzero,
        fun fixed => by simp [boundPort, fixed], server_tls_identity urls _ _ tls served, ?_⟩
      simp [startServer, idle, served, loaded, bound, Engine.update]
    · cases succeeds
  · have fails : engine.running = true ∨ attempt.succeeds urls engine.server.security = false := by
      by_cases running : engine.running = true
      · exact .inl running
      · exact .inr (by simpa [running] using starts)
    obtain ⟨error, result, updates⟩ := start_failure urls engine attempt fails
    rcases updates with none_ | ⟨idle, flag, only⟩
    · exact .inl ⟨engine.listenerTls, error, result, by rw [none_]; rfl, fun _ => rfl⟩
    · exact .inl ⟨flag, error, result, by rw [only]; rfl, fun running => absurd (idle.symm.trans running)
        (by simp)⟩

theorem start_in_line (urls : UrlParser) (engine : Engine) (attempt : Attempt) (inLine : InLine engine) :
    InLine (engine.after (startServer urls engine attempt).1) := by
  rcases start_cases urls engine attempt with ⟨flag, _, -, left, kept⟩ |
    ⟨idle, -, port, tls, nonzero, -, identity, started⟩
  · rw [left]
    refine ⟨inLine.told, inLine.serving, inLine.copied, ?_⟩
    intro listener here
    obtain ⟨nonzero, port, announced, identity, same⟩ := inLine.listening listener here
    have running : engine.running = true := by rw [inLine.serving, here]; rfl
    exact ⟨nonzero, port, announced, identity, (kept running).trans same⟩
  · rw [started]
    refine ⟨?_, rfl, rfl, ?_⟩
    · have before := inLine.told
      rw [stopped_silent engine inLine idle] at before
      rw [follow_all_append _ _ _ before]
      simp [ControlEvent.follow, nonzero]
    · intro listener here
      cases here
      exact ⟨nonzero, rfl, rfl, by rw [← identity, inLine.copied], rfl⟩

theorem stop_in_line (engine : Engine) (inLine : InLine engine) :
    InLine (engine.after (stopServer engine)) ∧ (engine.after (stopServer engine)).running = false := by
  by_cases running : engine.running = true
  · have serving := inLine.serving
    rw [running] at serving
    obtain ⟨listener, here⟩ := Option.isSome_iff_exists.mp serving.symm
    simp only [stopServer, if_pos running, after_cons, after_nil, Engine.update]
    refine ⟨⟨?_, rfl, inLine.copied, by simp⟩, trivial⟩
    have before := inLine.told
    rw [here] at before
    exact (follow_all_append _ _ _ before).trans (by simp [ControlEvent.follow])
  · simp only [stopServer, if_neg running, after_nil]
    exact ⟨inLine, by simpa using running⟩

theorem idle_in_line (engine : Engine) (config discovery : EngineConfig) (inLine : InLine engine)
    (stopped : engine.running = false) :
    InLine { engine with config := config, server := config, discovery := discovery } := by
  have silent := stopped_silent engine inLine stopped
  exact ⟨inLine.told, inLine.serving, rfl, fun listener here => absurd (silent.symm.trans here) (by simp)⟩

theorem changed_in_line (engine : Engine) (oldPort newPort : UInt16) (inLine : InLine engine)
    (different : oldPort ≠ newPort) (there : engine.running = true → engine.config.port = newPort) :
    InLine (engine.after [.event (.portChanged oldPort newPort)]) := by
  refine ⟨?_, inLine.serving, inLine.copied, inLine.listening⟩
  simp only [after_cons, after_nil, Engine.update]
  rw [follow_all_append _ _ _ inLine.told]
  have seen : engine.listener.map Listener.port = none ∨
    engine.listener.map Listener.port = some newPort := by
    cases here : engine.listener with
    | none => exact .inl rfl
    | some listener =>
      have running : engine.running = true := by rw [inLine.serving, here]; rfl
      exact .inr (congrArg some ((inLine.listening listener here).2.1.symm.trans (there running)))
  exact if_pos ⟨different, seen⟩

theorem rollback_in_line (urls : UrlParser) (engine : Engine) (oldPort newPort : UInt16)
    (error : ControlError) (attempt : Attempt) (inLine : InLine engine) (stopped : engine.running = false) :
    InLine (engine.after (rollback urls engine oldPort newPort error attempt).1) := by
  have updates : (rollback urls engine oldPort newPort error attempt).1 =
      [.config { engine.config with port := oldPort }, .server { engine.config with port := oldPort }] ++
        (startServer urls
        (engine.after [.config { engine.config with port := oldPort },
        .server { engine.config with port := oldPort }]) attempt).1 := by
    simp only [rollback]
    split <;> rfl
  rw [updates, after_append]
  exact start_in_line urls _ attempt
    (idle_in_line engine { engine.config with port := oldPort } engine.discovery inLine stopped)

theorem change_port_in_line (urls : UrlParser) (engine : Engine) (newPort : UInt16) (back : Bool)
    (first second : Attempt) (inLine : InLine engine) :
    InLine (engine.after (changePortWithOptions urls engine newPort back first second).1) := by
  by_cases zero : newPort = 0
  · simpa [changePortWithOptions, validatePort, zero] using inLine
  · by_cases same : engine.config.port = newPort
    · simpa [changePortWithOptions, validatePort, zero, same] using inLine
    · simp only [changePortWithOptions, validatePort, if_neg zero, if_neg same]
      obtain ⟨stopped, idle⟩ := stop_in_line engine inLine
      have moved :=
        idle_in_line _ { engine.config with port := newPort } { engine.config with port := newPort } stopped
          idle
      generalize reached : engine.after (stopServer engine ++
        [.config { engine.config with port := newPort }, .server { engine.config with port := newPort },
          .discovery { engine.config with port := newPort }]) = halfway
      have here : InLine halfway := by
        rw [← reached, after_append]
        exact moved
      have quiet : halfway.running = false := by
        rw [← reached, after_append]
        exact idle
      have port : halfway.config.port = newPort := by
        rw [← reached, after_append]
        rfl
      have started := start_in_line urls halfway first here
      by_cases running : engine.running = true
      · simp only [if_pos running]
        rcases start_cases urls halfway first with ⟨flag, error, result, left, -⟩ |
          ⟨-, result, bound, tls, -, fixed, -, after⟩
        · simp only [result]
          cases back with
          | true =>
            simp only [if_true, after_append, reached]
            exact rollback_in_line urls _ engine.config.port newPort error second started
              (by rw [left]; exact quiet)
          | false => simpa only [Bool.false_eq_true, if_false, after_append, reached] using started
        · simp only [result, after_append, reached]
          refine changed_in_line _ _ _ started same ?_
          intro _
          rw [after]
          exact (fixed (by rw [port]; exact zero)).trans port
      · simp only [if_neg running, after_append, reached]
        exact changed_in_line _ _ _ here same fun _ => port

theorem update_config_in_line (engine : Engine) (config : EngineConfig) (inLine : InLine engine) :
    InLine (engine.after (updateConfig engine config)) := by
  by_cases running : engine.running = true
  · simp only [updateConfig, if_pos running, after_cons, after_nil, Engine.update]
    refine ⟨inLine.told, inLine.serving, rfl, ?_⟩
    intro listener here
    obtain ⟨nonzero, port, -, identity, flag⟩ := inLine.listening listener here
    exact ⟨nonzero, port, port, identity, flag⟩
  · simp only [updateConfig, if_neg running, after_cons, after_nil, Engine.update]
    exact idle_in_line engine config config inLine (by simpa using running)

theorem trusted_in_line (engine : Engine) (hosts : List String) (inLine : InLine engine) :
    InLine (engine.after [.config { engine.config with trustedHosts := hosts },
      .server { engine.config with trustedHosts := hosts }]) :=
  ⟨inLine.told, inLine.serving, rfl, inLine.listening⟩

theorem op_in_line (urls : UrlParser) (engine : Engine) (op : EngineOp) (inLine : InLine engine) : InLine
    (engine.perform urls op) := by
  cases op with
  | startServer attempt => exact start_in_line urls engine attempt inLine
  | stopServer => exact (stop_in_line engine inLine).1
  | changePort newPort back first second =>
      exact change_port_in_line urls engine newPort back first second inLine
  | updateConfig config => exact update_config_in_line engine config inLine
  | addTrustedHost host =>
    by_cases known : host ∈ engine.config.trustedHosts
    · simpa [Engine.perform, EngineOp.perform, GoshTransfer.addTrustedHost, known] using inLine
    · simp only [Engine.perform, EngineOp.perform, GoshTransfer.addTrustedHost, if_neg known]
      exact trusted_in_line engine _ inLine
  | removeTrustedHost host => exact trusted_in_line engine _ inLine

theorem events_tell_the_listener (urls : UrlParser) (config : EngineConfig) (ops : List EngineOp) :
    InLine ((Engine.new config).performAll urls ops) := by
  induction ops using List.reverseRecOn with
  | nil => exact ⟨rfl, rfl, rfl, by simp [Engine.performAll, Engine.new]⟩
  | append_singleton ops op ih =>
    rw [Engine.performAll, List.foldl_append]
    exact op_in_line urls _ op ih

end GoshTransfer
