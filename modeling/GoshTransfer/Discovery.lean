import GoshTransfer.Sandbox
import GoshTransfer.Lib.Transition

set_option autoImplicit false

namespace GoshTransfer

def appId : String := "gosh-lan-transfer"

def maxDeviceNameLen : Nat := 64

structure DiscoveryAnnouncement where
  app : String
  version : String
  fingerprint : String
  deviceName : String
  port : Nat
  announce : Bool
deriving DecidableEq

structure DiscoveredPeer where
  fingerprint : String
  deviceName : String
  address : String
  port : Nat
  version : String
  lastSeen : Int
deriving DecidableEq

inductive DiscoveryEvent where
  | peerDiscovered (peer : DiscoveredPeer)
  | peerLost (fingerprint deviceName : String)
deriving DecidableEq

-- What our_announcement reads of the configuration.
structure DiscoveryConfig where
  deviceName : String
  port : Nat

structure DiscoveryState where
  peers : HashMap String DiscoveredPeer
  fingerprint : String
  config : DiscoveryConfig
  events : List DiscoveryEvent

def sanitizeDeviceName (name : String) : String :=
  let cleaned := (name.toList.filter (!isControl ·)).take maxDeviceNameLen
  let trimmed := trim cleaned
  if trimmed.isEmpty then "Unknown Device" else .ofList trimmed

def DiscoveryState.ourAnnouncement (state : DiscoveryState) (announce : Bool) : DiscoveryAnnouncement :=
  ⟨appId, "0.5.0", state.fingerprint, state.config.deviceName, state.config.port, announce⟩

-- serde_json, which is not part of the repository.
structure Json where
  fromSlice : List UInt8 → Option DiscoveryAnnouncement
  toVec : DiscoveryAnnouncement → Option (List UInt8)

-- peers.insert(..) and the event for a peer that is new or has changed.
def DiscoveryState.insertPeer (state : DiscoveryState) (key : String) (peer : DiscoveredPeer) :
    DiscoveryState :=
  let previous := state.peers.lookup key
  let identityChanged := previous.any fun old =>
    old.deviceName ≠ peer.deviceName || old.address ≠ peer.address || old.port ≠ peer.port
  { state with
    peers := state.peers.insert key peer
    events := if previous.isNone || identityChanged then state.events ++ [.peerDiscovered peer]
      else state.events }

def DiscoveryState.handlePacket (json : Json) (state : DiscoveryState) (data : List UInt8)
    (address : String) (now : Int) :
    DiscoveryState × Option (List UInt8) :=
  match json.fromSlice data with
  | none => (state, none)
  | some msg =>
      if msg.app ≠ appId ∨ msg.fingerprint = state.fingerprint ∨ msg.port = 0 then (state, none)
      else
        let next := state.insertPeer msg.fingerprint
          ⟨msg.fingerprint, sanitizeDeviceName msg.deviceName, address, msg.port, msg.version, now⟩
        (next, if msg.announce then json.toVec (next.ourAnnouncement false) else none)

-- chrono::Duration::from_std in milliseconds, with the default of the caller.
def chronoDuration (timeout : Nat) : Int := if timeout < 2 ^ 63 then timeout else 15000

-- stale.iter().filter_map(|k| peers.remove(k))
def removePeers : HashMap String DiscoveredPeer → List String →
    HashMap String DiscoveredPeer × List DiscoveredPeer
  | peers, [] => (peers, [])
  | peers, key :: rest =>
      let (left, lost) := removePeers (peers.erase key) rest
      (left, (peers.lookup key).toList ++ lost)

-- The order is that of the iteration over the table.
def DiscoveryState.expireStalePeers (state : DiscoveryState) (timeout : Nat) (now : Int)
    (order : List String) : DiscoveryState :=
  let cutoff := now - chronoDuration timeout
  let stale := order.filter fun key => (state.peers.lookup key).any fun peer => peer.lastSeen < cutoff
  let (left, lost) := removePeers state.peers stale
  { state with
    peers := left
    events := state.events ++ lost.map fun peer => .peerLost peer.fingerprint peer.deviceName }

inductive DiscoveryLabel where
  | packet (data : List UInt8) (address : String) (now : Int)
  | expire (timeout : Nat) (now : Int) (order : List String)
  | updateConfig (config : DiscoveryConfig)

def discoveryStep (json : Json) (state : DiscoveryState) : DiscoveryLabel → Option DiscoveryState
  | .packet data address now => some (state.handlePacket json data address now).1
  | .expire timeout now order =>
      if order.Nodup ∧
        order.toFinset = state.peers.keys then some (state.expireStalePeers timeout now order) else none
  | .updateConfig config => some { state with config := config }

-- What the receiver of the events knows about a peer.
def DiscoveredPeer.identity (peer : DiscoveredPeer) : String × String × Nat :=
    (peer.deviceName, peer.address, peer.port)

def replayEvent (table : HashMap String (String × String × Nat)) : DiscoveryEvent → HashMap String
    (String × String × Nat)
  | .peerDiscovered peer => table.insert peer.fingerprint peer.identity
  | .peerLost fingerprint _ => table.erase fingerprint

def replayEvents (events : List DiscoveryEvent) : HashMap String (String × String × Nat) :=
    events.foldl replayEvent ∅

structure PlainName (name : String) : Prop where
  nonempty : name ≠ ""
  short : name.toList.length ≤ maxDeviceNameLen
  printable : ∀ c ∈ name.toList, isControl c = false
  leading : ∀ c, name.toList.head? = some c → isWhitespace c = false
  trailing : ∀ c, name.toList.getLast? = some c → isWhitespace c = false

structure PeerTable (state : DiscoveryState) : Prop where
  replayed : ∀ key, (replayEvents state.events).lookup key = (state.peers.lookup key).map
    DiscoveredPeer.identity
  keyed : ∀ key peer, state.peers.lookup key = some peer → key = peer.fingerprint ∧
    key ≠ state.fingerprint ∧ peer.port ≠ 0
  named : ∀ key peer, state.peers.lookup key = some peer → PlainName peer.deviceName

theorem trim_end_starts (p : Char → Bool) (cs : List Char) : trimEndMatches p cs <+: cs := by
  have suffix := List.dropWhile_suffix p (l := cs.reverse)
  rw [← List.reverse_prefix, List.reverse_reverse] at suffix
  exact suffix

theorem trim_leading (cs : List Char) (c : Char) (head : (trim cs).head? = some c) :
    isWhitespace c = false := by
  obtain ⟨rest, whole⟩ := trim_end_starts isWhitespace (cs.dropWhile isWhitespace)
  have first : (cs.dropWhile isWhitespace).head? = some c := by
    rw [← whole]
    change (trim cs ++ rest).head? = some c
    rw [List.head?_append, head]
    rfl
  have dropped := List.head?_dropWhile_not isWhitespace cs
  rw [first] at dropped
  exact dropped

theorem device_name_plain (name : String) : PlainName (sanitizeDeviceName name) := by
  have kept : ∀ c ∈ trim ((name.toList.filter (!isControl ·)).take maxDeviceNameLen),
    isControl c = false := by
    intro c member
    have filtered := List.mem_of_mem_take (trim_subset _ member)
    simpa using (List.mem_filter.mp filtered).2
  have short : (trim ((name.toList.filter (!isControl ·)).take maxDeviceNameLen)).length ≤
    maxDeviceNameLen := by
    have front := (trim_end_starts isWhitespace _).length_le.trans
      (List.dropWhile_suffix isWhitespace (l :=
      (name.toList.filter (!isControl ·)).take maxDeviceNameLen)).length_le
    exact front.trans (List.length_take_le _ _)
  unfold sanitizeDeviceName
  dsimp only
  split
  · refine ⟨by decide, by decide, ?_, ?_, ?_⟩
    · intro c member
      have plain : "Unknown Device".toList.all (!isControl ·) = true := by decide
      simpa using List.all_eq_true.mp plain c member
    · rintro c ⟨⟩
      decide
    · rintro c ⟨⟩
      decide
  · rename_i nonempty
    refine ⟨?_, ?_, ?_, ?_, ?_⟩
    · intro same
      exact nonempty (by simpa using congrArg String.toList same)
    · rw [String.toList_ofList]
      exact short
    · rw [String.toList_ofList]
      exact kept
    · rw [String.toList_ofList]
      exact trim_leading _
    · rw [String.toList_ofList]
      exact trim_end_last isWhitespace _

theorem replay_append (events more : List DiscoveryEvent) : replayEvents
    (events ++ more) = more.foldl replayEvent (replayEvents events) := by
  unfold replayEvents
  exact List.foldl_append

theorem insert_replayed (state : DiscoveryState) (peer : DiscoveredPeer)
    (agree : ∀ key, (replayEvents state.events).lookup key = (state.peers.lookup key).map
      DiscoveredPeer.identity) (key : String) :
    (replayEvents (state.insertPeer peer.fingerprint peer).events).lookup key =
      ((state.insertPeer peer.fingerprint peer).peers.lookup key).map DiscoveredPeer.identity := by
  simp only [DiscoveryState.insertPeer]
  by_cases same : key = peer.fingerprint
  · subst same
    rw [Finmap.lookup_insert, Option.map_some]
    split
    · rw [replay_append]
      exact Finmap.lookup_insert _
    · rename_i quiet
      rw [agree]
      cases found : state.peers.lookup peer.fingerprint with
      | none => simp [found] at quiet
      | some old =>
          simp only [found, Option.isNone_some, Option.any_some, Bool.false_or, Bool.or_eq_true,
            decide_eq_true_eq, not_or, not_not] at quiet
          obtain ⟨⟨name, from_⟩, port⟩ := quiet
          simp [DiscoveredPeer.identity, name, from_, port]
  · rw [Finmap.lookup_insert_of_ne _ same, ← agree]
    split
    · rw [replay_append]
      exact Finmap.lookup_insert_of_ne _ same
    · rfl

theorem packet_table (json : Json) (state : DiscoveryState) (data : List UInt8) (address : String)
    (now : Int) (table : PeerTable state) :
    PeerTable (state.handlePacket json data address now).1 := by
  unfold DiscoveryState.handlePacket
  split
  · exact table
  · rename_i msg _
    split
    · exact table
    · rename_i accepted
      simp only [not_or] at accepted
      obtain ⟨_, foreign, port⟩ := accepted
      refine ⟨insert_replayed state ⟨msg.fingerprint, _, _, _, _, _⟩ table.replayed, ?_, ?_⟩
      · intro key found present
        by_cases same : key = msg.fingerprint
        · subst same
          obtain rfl := Option.some.inj ((Finmap.lookup_insert _).symm.trans present)
          exact ⟨rfl, foreign, port⟩
        · exact table.keyed key found ((Finmap.lookup_insert_of_ne _ same).symm.trans present)
      · intro key found present
        by_cases same : key = msg.fingerprint
        · subst same
          obtain rfl := Option.some.inj ((Finmap.lookup_insert _).symm.trans present)
          exact device_name_plain msg.deviceName
        · exact table.named key found ((Finmap.lookup_insert_of_ne _ same).symm.trans present)

theorem erase_lookup (peers : HashMap String DiscoveredPeer) (gone key : String) :
    (peers.erase gone).lookup key = if key = gone then none else peers.lookup key := by
  by_cases same : key = gone
  · subst same
    rw [if_pos rfl]
    exact Finmap.lookup_erase _ _
  · rw [if_neg same]
    exact Finmap.lookup_erase_ne same

theorem removed_left (keys : List String) (peers : HashMap String DiscoveredPeer) (key : String)
    (peer : DiscoveredPeer) (present : (removePeers peers keys).1.lookup key = some peer) :
    peers.lookup key = some peer := by
  induction keys generalizing peers with
  | nil => exact present
  | cons gone rest ih =>
      have before := ih (peers.erase gone) present
      rw [erase_lookup] at before
      split at before
      · cases before
      · exact before

theorem removed_replayed (keys : List String) (peers : HashMap String DiscoveredPeer)
    (table : HashMap String (String × String × Nat)) (keyed : ∀ key peer, peers.lookup key = some peer →
      key = peer.fingerprint)
    (agree : ∀ key, table.lookup key = (peers.lookup key).map DiscoveredPeer.identity) (key : String) :
    (((removePeers peers keys).2.map fun peer => DiscoveryEvent.peerLost peer.fingerprint
      peer.deviceName).foldl replayEvent table).lookup key =
      ((removePeers peers keys).1.lookup key).map DiscoveredPeer.identity := by
  induction keys generalizing peers table with
  | nil => exact agree key
  | cons gone rest ih =>
      have later : ∀ key peer, (peers.erase gone).lookup key = some peer → key = peer.fingerprint := by
        intro key peer present
        rw [erase_lookup] at present
        split at present
        · cases present
        · exact keyed key peer present
      simp only [removePeers]
      cases found : peers.lookup gone with
      | none =>
          refine ih (peers.erase gone) table later ?_
          intro key
          rw [agree, erase_lookup]
          by_cases same : key = gone
          · rw [if_pos same, same, found]
          · rw [if_neg same]
      | some peer =>
          have named := keyed gone peer found
          refine ih (peers.erase gone) (table.erase peer.fingerprint) later ?_
          intro key
          rw [erase_lookup, ← named]
          by_cases same : key = gone
          · rw [if_pos same, same]
            exact Finmap.lookup_erase _ _
          · rw [if_neg same, ← agree]
            exact Finmap.lookup_erase_ne same

theorem expire_table (state : DiscoveryState) (timeout : Nat) (now : Int) (order : List String)
    (table : PeerTable state) :
    PeerTable (state.expireStalePeers timeout now order) := by
  have keyed : ∀ key peer, state.peers.lookup key = some peer → key = peer.fingerprint :=
    fun key peer present => (table.keyed key peer present).1
  refine ⟨?_, ?_, ?_⟩
  · intro key
    simp only [DiscoveryState.expireStalePeers]
    rw [replay_append]
    exact removed_replayed _ state.peers _ keyed table.replayed key
  · intro key peer present
    exact table.keyed key peer (removed_left _ state.peers key peer present)
  · intro key peer present
    exact table.named key peer (removed_left _ state.peers key peer present)

theorem discovery_step_table (json : Json) (state next : DiscoveryState) (label : DiscoveryLabel)
    (table : PeerTable state) (stepped : discoveryStep json state label = some next) : PeerTable next := by
  cases label with
  | packet data address now =>
      obtain rfl := Option.some.inj stepped
      exact packet_table json state data address now table
  | expire timeout now order =>
      simp only [discoveryStep] at stepped
      split at stepped
      · obtain rfl := Option.some.inj stepped
        exact expire_table state timeout now order table
      · cases stepped
  | updateConfig config =>
      obtain rfl := Option.some.inj stepped
      exact ⟨table.replayed, table.keyed, table.named⟩

def DiscoveryState.new (fingerprint : String) (config : DiscoveryConfig) : DiscoveryState :=
    ⟨∅, fingerprint, config, []⟩

theorem discovery_events_reconstruct_peers (json : Json) (fingerprint : String) (config : DiscoveryConfig)
    (state : DiscoveryState)
    (run : Transition.Run (discoveryStep json) (fun _ _ => True) (.new fingerprint config) state) :
    PeerTable state := by
  refine Transition.run_invariant (discoveryStep json) _ PeerTable ?_ _ state run ⟨fun _ => rfl, ?_, ?_⟩
  · intro state label next table _ stepped
    exact discovery_step_table json state next label table stepped
  · intro key peer present
    cases present
  · intro key peer present
    cases present

-- One datagram and what serde_json makes of it.
def sampleDatagram : List UInt8 :=
  "\x7b\"app\":\"gosh-lan-transfer\",\"version\":\"0.3.0\",\"fingerprint\":\"peer-1\",\"deviceName\":\" Sender\",\"port\":53317,\"announce\":false\x7d".toUTF8.toList

def sampleJson : Json where
  fromSlice data := if data = sampleDatagram then some ⟨appId, "0.3.0", "peer-1", " Sender", 53317, false⟩
    else none
  toVec _ := none

def sampleStart : DiscoveryState := .new "self" ⟨"Receiver", 53317⟩

def sampleState : DiscoveryState := (sampleStart.handlePacket sampleJson sampleDatagram "192.168.1.50" 0).1

theorem announced_peer_is_reconstructed : ∃ state,
    Transition.Run (discoveryStep sampleJson) (fun _ _ => True) (.new "self" ⟨"Receiver", 53317⟩) state ∧
      state.peers.lookup "peer-1" = some ⟨"peer-1", "Sender", "192.168.1.50", 53317, "0.3.0", 0⟩ ∧
      (replayEvents state.events).lookup "peer-1" = some ("Sender", "192.168.1.50", 53317) := by
  have run : Transition.Run (discoveryStep sampleJson) (fun _ _ => True) sampleStart sampleState :=
    .tail sampleStart sampleState (.packet sampleDatagram "192.168.1.50" 0) .refl trivial rfl
  have decoded : sampleJson.fromSlice sampleDatagram = some ⟨appId, "0.3.0", "peer-1", " Sender", 53317,
    false⟩ := if_pos rfl
  have present : sampleState.peers.lookup "peer-1" = some ⟨"peer-1", "Sender", "192.168.1.50", 53317,
    "0.3.0", 0⟩ := by
    have name : sanitizeDeviceName " Sender" = "Sender" := by decide +kernel
    simp only [sampleState, sampleStart, DiscoveryState.handlePacket, decoded, DiscoveryState.new]
    rw [if_neg (by decide)]
    simp only [DiscoveryState.insertPeer, name]
    exact Finmap.lookup_insert _
  have replayed :=
    (discovery_events_reconstruct_peers sampleJson "self" ⟨"Receiver", 53317⟩ sampleState run).replayed
      "peer-1"
  rw [present] at replayed
  exact ⟨sampleState, run, present, replayed⟩

end GoshTransfer
