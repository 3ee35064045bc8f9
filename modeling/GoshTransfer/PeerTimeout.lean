import GoshTransfer.Discovery

set_option autoImplicit false

namespace GoshTransfer

-- Times in nanoseconds since 1970, between the first instant of the year -262143
-- and the last one of the year 262142.
def minUtc : Int := -8334601228800 * 10 ^ 9

def maxUtc : Int := 8210266876799 * 10 ^ 9 + 999999999

structure DateTime where
  nanos : Int
  least : minUtc ≤ nanos
  greatest : nanos ≤ maxUtc

def DateTime.checkedSub (time : DateTime) (duration : Int) : Option DateTime :=
  if valid : minUtc ≤ time.nanos - duration ∧
    time.nanos - duration ≤ maxUtc then some ⟨time.nanos - duration, valid.1, valid.2⟩ else none

-- chrono::Duration::from_std(Duration::from_secs(..)): at most i64::MAX milliseconds.
def fromStd (secs : UInt64) : Option Int := if secs.toNat * 1000 < 2 ^ 63 then some (secs.toNat * 10 ^ 9)
    else none

-- chrono::Duration::seconds(15)
def fallbackTimeout : Int := 15 * 10 ^ 9

theorem converted_exact (timeout : UInt64) (fits : timeout.toNat * 1000 < 2 ^ 63) :
    (fromStd timeout).getD fallbackTimeout = timeout.toNat * 10 ^ 9 := by
  rw [fromStd, if_pos fits, Option.getD_some]

theorem converted_fallback (timeout : UInt64) (large : ¬ timeout.toNat * 1000 < 2 ^ 63) :
    (fromStd timeout).getD fallbackTimeout = (15 : Nat) * 10 ^ 9 := by
  rw [fromStd, if_neg large, Option.getD_none]
  rfl

-- The part of expire_stale_peers after the cutoff, in any unit of time.
def DiscoveryState.expireBefore (state : DiscoveryState) (cutoff : Int) (order : List String) :
    DiscoveryState :=
  let stale := order.filter fun key => (state.peers.lookup key).any fun peer => peer.lastSeen < cutoff
  let (left, lost) := removePeers state.peers stale
  { state with
    peers := left
    events := state.events ++ lost.map fun peer => .peerLost peer.fingerprint peer.deviceName }

-- An order in which an iteration visits the entries of a table.
structure Iteration (peers : HashMap String DiscoveredPeer) where
  keys : List String
  nodup : keys.Nodup
  complete : keys.toFinset = peers.keys

-- With the clock of the program and a timeout in whole seconds; none is a panic.
def DiscoveryState.expireStalePeersAt (state : DiscoveryState) (timeout : UInt64) (now : DateTime)
    (order : Iteration state.peers) :
    Option DiscoveryState :=
  (now.checkedSub ((fromStd timeout).getD fallbackTimeout)).map fun cutoff => state.expireBefore
    cutoff.nanos order.keys

def DiscoveredPeer.lost (peer : DiscoveredPeer) : DiscoveryEvent := .peerLost peer.fingerprint peer.deviceName

-- Exactly the stale entries are gone, each of them is reported once, and the
-- rest is as it was.
structure Removes (state next : DiscoveryState) (stale : DiscoveredPeer → Bool) : Prop where
  left : ∀ key, next.peers.lookup key = (state.peers.lookup key).filter fun peer => !stale peer
  reported : ∃ keys : List String, keys.Nodup ∧
    (∀ key, key ∈ keys ↔ (state.peers.lookup key).any stale = true) ∧
    next.events = state.events ++ keys.filterMap fun key => (state.peers.lookup key).map DiscoveredPeer.lost
  fingerprint : next.fingerprint = state.fingerprint
  config : next.config = state.config

-- Last seen more than so many seconds ago.
def DiscoveredPeer.silent (peer : DiscoveredPeer) (seconds : Nat) (now : DateTime) : Bool :=
  decide (seconds * 10 ^ 9 < now.nanos - peer.lastSeen)

def HonoursTimeout (state : DiscoveryState) (timeout : UInt64) (now : DateTime)
    (order : Iteration state.peers) : Prop :=
  ∃ next, state.expireStalePeersAt timeout now order = some next ∧
    Removes state next fun peer => peer.silent timeout.toNat now

theorem removed_lookup (keys : List String) (peers : HashMap String DiscoveredPeer) (key : String) :
    (removePeers peers keys).1.lookup key = if key ∈ keys then none else peers.lookup key := by
  induction keys generalizing peers with
  | nil => rfl
  | cons gone rest ih =>
      simp only [removePeers]
      rw [ih, erase_lookup]
      by_cases later : key ∈ rest
      · simp [later]
      · simp [later]

theorem removed_peers (keys : List String) (peers : HashMap String DiscoveredPeer) (distinct : keys.Nodup) :
    (removePeers peers keys).2 = keys.filterMap fun key => peers.lookup key := by
  induction keys generalizing peers with
  | nil => rfl
  | cons gone rest ih =>
      obtain ⟨fresh, others⟩ := List.nodup_cons.mp distinct
      have same : (rest.filterMap fun key => (peers.erase gone).lookup key) = rest.filterMap fun key =>
        peers.lookup key := by
        refine List.filterMap_congr ?_
        intro key member
        rw [erase_lookup, if_neg]
        rintro rfl
        exact fresh member
      simp only [removePeers, ih (peers.erase gone) others, same]
      cases found : peers.lookup gone with
      | none => simp [found]
      | some peer => simp [found]

theorem swept (state : DiscoveryState) (cutoff : Int) (order : Iteration state.peers) :
    Removes state (state.expireBefore cutoff order.keys) fun peer => decide (peer.lastSeen < cutoff) := by
  have listed : ∀ key, key ∈ (order.keys.filter fun key => (state.peers.lookup key).any fun peer =>
    peer.lastSeen < cutoff) ↔
      ((state.peers.lookup key).any fun peer => peer.lastSeen < cutoff) = true := by
    intro key
    rw [List.mem_filter, ← List.mem_toFinset, order.complete]
    refine and_iff_right_of_imp ?_
    intro stale
    cases found : state.peers.lookup key with
    | none => simp [found] at stale
    | some peer => exact Finmap.mem_of_lookup_eq_some found
  have distinct :=
    order.nodup.filter fun key => (state.peers.lookup key).any fun peer => decide (peer.lastSeen < cutoff)
  refine ⟨?_, ⟨_, distinct, listed, ?_⟩, rfl, rfl⟩
  · intro key
    change (removePeers state.peers _).1.lookup key = _
    rw [removed_lookup]
    simp only [listed]
    cases found : state.peers.lookup key with
    | none => simp
    | some peer =>
        by_cases stale : peer.lastSeen < cutoff
        · simp [Option.filter, stale]
        · simp [Option.filter, stale]
  · change state.events ++ (removePeers state.peers _).2.map DiscoveredPeer.lost = _
    rw [removed_peers _ _ distinct, List.map_filterMap]

theorem removes_unique (state next : DiscoveryState) (stale other : DiscoveredPeer → Bool)
    (first : Removes state next stale) :
    Removes state next other ↔ ∀ key peer, state.peers.lookup key = some peer → stale peer = other peer := by
  constructor
  · intro second key peer found
    have one := first.left key
    rw [second.left key, found] at one
    cases old : stale peer with
    | true =>
        cases late : other peer with
        | true => rfl
        | false => simp [Option.filter, old, late] at one
    | false =>
        cases late : other peer with
        | true => simp [Option.filter, old, late] at one
        | false => rfl
  · intro same
    obtain ⟨keys, distinct, listed, reported⟩ := first.reported
    refine ⟨?_, ⟨keys, distinct, ?_, reported⟩, first.fingerprint, first.config⟩
    · intro key
      rw [first.left]
      cases found : state.peers.lookup key with
      | none => rfl
      | some peer => simp [Option.filter, same key peer found]
    · intro key
      rw [listed]
      cases found : state.peers.lookup key with
      | none => rfl
      | some peer => simp [same key peer found]

-- The timeout fits both a TimeDelta and the calendar; or it fits no TimeDelta, and
-- the fifteen seconds that replace it make no difference to any peer.
inductive TimeoutFits (state : DiscoveryState) (timeout : UInt64) (now : DateTime) : Prop where
  | exact (fits : timeout.toNat * 1000 < 2 ^ 63) (calendar : minUtc ≤ now.nanos - timeout.toNat * 10 ^ 9) :
      TimeoutFits state timeout now
  | fallback (large : 2 ^ 63 ≤ timeout.toNat * 1000) (calendar : minUtc ≤ now.nanos - 15 * 10 ^ 9)
      (none : ∀ key peer, state.peers.lookup key = some peer → peer.silent 15 now = true →
        peer.silent timeout.toNat now = true) :
      TimeoutFits state timeout now

theorem earlier (now : DateTime) (seconds : Nat) (calendar : minUtc ≤ now.nanos - seconds * 10 ^ 9) :
    ∃ cutoff, now.checkedSub (seconds * 10 ^ 9) = some cutoff ∧
      cutoff.nanos = now.nanos - seconds * 10 ^ 9 := by
  have below := now.greatest
  have valid : minUtc ≤ now.nanos - seconds * 10 ^ 9 ∧ now.nanos - seconds * 10 ^ 9 ≤ maxUtc :=
    ⟨calendar, by omega⟩
  exact ⟨_, dif_pos valid, rfl⟩

theorem before_calendar (now : DateTime) (seconds : Nat) (early : ¬ minUtc ≤ now.nanos - seconds * 10 ^ 9) :
    now.checkedSub (seconds * 10 ^ 9) = none :=
  dif_neg fun valid => early valid.1

theorem expires_at (state : DiscoveryState) (timeout : UInt64) (now : DateTime)
    (order : Iteration state.peers) (seconds : Nat)
    (converted : (fromStd timeout).getD fallbackTimeout = seconds * 10 ^ 9) :
    HonoursTimeout state timeout now order ↔ minUtc ≤ now.nanos - seconds * 10 ^ 9 ∧
      ∀ key peer, state.peers.lookup key = some peer →
        peer.silent seconds now = peer.silent timeout.toNat now := by
  unfold HonoursTimeout DiscoveryState.expireStalePeersAt
  rw [converted]
  by_cases calendar : minUtc ≤ now.nanos - seconds * 10 ^ 9
  · obtain ⟨cutoff, computed, back⟩ := earlier now seconds calendar
    have stale : (fun peer : DiscoveredPeer => decide (peer.lastSeen < cutoff.nanos)) = fun peer =>
      peer.silent seconds now := by
      funext peer
      exact decide_eq_decide.mpr (by omega)
    have removed := swept state cutoff.nanos order
    rw [stale] at removed
    rw [computed, and_iff_right calendar, ← removes_unique state _ _ _ removed]
    simp only [Option.map_some, Option.some.injEq, exists_eq_left']
  · rw [before_calendar now seconds calendar]
    simp only [Option.map_none, reduceCtorEq, false_and, exists_false, calendar]

theorem timeout_honoured_iff (state : DiscoveryState) (timeout : UInt64) (now : DateTime)
    (order : Iteration state.peers) :
    HonoursTimeout state timeout now order ↔ TimeoutFits state timeout now := by
  by_cases fits : timeout.toNat * 1000 < 2 ^ 63
  · rw [expires_at state timeout now order timeout.toNat (converted_exact timeout fits)]
    constructor
    · intro honoured
      exact .exact fits honoured.1
    · intro condition
      cases condition with
      | exact _ calendar => exact ⟨calendar, fun _ _ _ => rfl⟩
      | fallback large => omega
  · rw [expires_at state timeout now order 15 (converted_fallback timeout fits)]
    constructor
    · rintro ⟨calendar, same⟩
      refine .fallback (by omega) calendar ?_
      intro key peer found silent
      rw [← same key peer found]
      exact silent
    · intro condition
      cases condition with
      | exact small => exact absurd small fits
      | fallback _ calendar none =>
          refine ⟨calendar, ?_⟩
          intro key peer found
          have kept := none key peer found
          simp only [DiscoveredPeer.silent, decide_eq_true_eq, decide_eq_decide] at kept ⊢
          refine ⟨kept, ?_⟩
          intro silent
          omega

-- In April 2026: a peer last seen sixteen seconds ago.
def april : DateTime := ⟨1775000000 * 10 ^ 9, by decide, by decide⟩

def quietPeer : DiscoveredPeer := ⟨"peer-1", "Sender", "192.168.1.50", 53317, "0.3.0", 1774999984 * 10 ^ 9⟩

def quietState : DiscoveryState := ⟨Finmap.singleton "peer-1" quietPeer, "self", ⟨"Receiver", 53317⟩, []⟩

def quietOrder : Iteration quietState.peers := ⟨["peer-1"], by decide, by decide⟩

-- The first timeout leads out of the calendar, the second one becomes fifteen
-- seconds, and a minute keeps the peer.
theorem long_timeouts_fail : quietState.expireStalePeersAt 8336376228801 april quietOrder = none ∧
    ¬ HonoursTimeout quietState 8336376228801 april quietOrder ∧
      ¬ HonoursTimeout quietState 9223372036854775808 april quietOrder ∧
    HonoursTimeout quietState 60 april quietOrder := by
  have panics : quietState.expireStalePeersAt 8336376228801 april quietOrder = none := by
    have early := before_calendar april (8336376228801 : UInt64).toNat (by decide)
    rw [DiscoveryState.expireStalePeersAt, converted_exact 8336376228801 (by decide), early, Option.map_none]
  have here : quietState.peers.lookup "peer-1" = some quietPeer := Finmap.lookup_singleton_eq
  refine ⟨panics, ?_, ?_, ?_⟩
  · intro honoured
    obtain ⟨next, expired, _⟩ := honoured
    rw [panics] at expired
    cases expired
  · intro honoured
    have sweep := expires_at quietState 9223372036854775808 april quietOrder 15
      (converted_fallback _ (by decide))
    have same := (sweep.mp honoured).2 "peer-1" quietPeer here
    revert same
    decide
  · have sweep := expires_at quietState 60 april quietOrder (60 : UInt64).toNat
      (converted_exact 60 (by decide))
    exact sweep.mpr ⟨by decide, fun _ _ _ => rfl⟩

end GoshTransfer
