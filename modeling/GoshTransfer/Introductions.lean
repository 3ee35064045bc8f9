import GoshTransfer.Neighbourhood

set_option autoImplicit false

-- What the engines of a network learn about each other.
namespace GoshTransfer

-- One engine on each host, and no fingerprint twice.
structure Lan.Distinct (lan : Lan) : Prop where
  addresses : ∀ (i j : Nat) (me other : Neighbour), lan.neighbours[i]? = some me →
    lan.neighbours[j]? = some other →
    me.address = other.address → i = j
  fingerprints : ∀ (i j : Nat) (me other : Neighbour), lan.neighbours[i]? = some me →
    lan.neighbours[j]? = some other →
    me.state.fingerprint = other.state.fingerprint → i = j

theorem move_back (json : Json) (lan next : Lan) (label : LanLabel) (move : LanMove json lan label next)
    (j : Nat) (after : Neighbour) (there : next.neighbours[j]? = some after) :
    ∃ me, lan.neighbours[j]? = some me ∧ after.address = me.address ∧
      after.state.fingerprint = me.state.fingerprint := by
  have same := move_place json lan next label move j
  rw [there, Option.map_some] at same
  obtain ⟨me, here, placed⟩ := Option.map_eq_some_iff.mp same.symm
  simp only [Neighbour.place, Prod.mk.injEq] at placed
  exact ⟨me, here, placed.1.symm, placed.2.symm⟩

theorem move_distinct (json : Json) (lan next : Lan) (label : LanLabel) (distinct : lan.Distinct)
    (move : LanMove json lan label next) :
    next.Distinct := by
  constructor
  · intro i j me other here there same
    obtain ⟨_, before, address, _⟩ := move_back json lan next label move i me here
    obtain ⟨_, before', address', _⟩ := move_back json lan next label move j other there
    exact distinct.addresses i j _ _ before before' (address.symm.trans (same.trans address'))
  · intro i j me other here there same
    obtain ⟨_, before, _, fingerprint⟩ := move_back json lan next label move i me here
    obtain ⟨_, before', _, fingerprint'⟩ := move_back json lan next label move j other there
    exact distinct.fingerprints i j _ _ before before' (fingerprint.symm.trans (same.trans fingerprint'))

-- No engine announces port 0, which nobody enters.
def Lan.Ported (lan : Lan) : Prop := ∀ (i : Nat) (me : Neighbour), lan.neighbours[i]? = some me →
    me.state.config.port ≠ 0

def LanLabel.ported : LanLabel → Bool
  | .updateConfig _ config => config.port != 0
  | _ => true

theorem move_ported (json : Json) (lan next : Lan) (label : LanLabel) (ported : lan.Ported)
    (allowed : label.ported = true) (move : LanMove json lan label next) : next.Ported := by
  have put : ∀ (i : Nat) (me : Neighbour) (state : DiscoveryState), state.config.port ≠ 0 →
    (lan.put i me state).Ported := by
    intro i me state port j other there
    rcases Transition.set_cases lan.neighbours i j _ other there with ⟨_, rfl⟩ | ⟨_, old⟩
    · exact port
    · exact ported j other old
  cases move with
  | announce => exact ported
  | receive datagram now route me replies flies here =>
      refine put _ me _ ?_
      rw [(packet_identity json me.state (datagram.data.take recvBufSize) datagram.source now).2]
      exact ported _ me here
  | expire i timeout now order me here => exact put i me _ (ported i me here)
  | updateConfig i config me here => exact put i me _ (by simpa [LanLabel.ported] using allowed)
  | lose => exact ported
  | duplicate => exact ported
  | forge => exact ported

def Neighbour.announcement (me : Neighbour) (config : DiscoveryConfig) (announce : Bool) :
    DiscoveryAnnouncement :=
  { me.state with config := config }.ourAnnouncement announce

-- A datagram that carries such an announcement whole.
def Lan.Spoken (json : Json) (lan : Lan) (j : Nat) (config : DiscoveryConfig) (announce : Bool)
    (datagram : Datagram) : Prop :=
  ∃ me, lan.neighbours[j]? = some me ∧ datagram.source = me.address ∧
    json.toVec (me.announcement config announce) = some datagram.data ∧ datagram.data.length ≤ recvBufSize

theorem spoken_moved (json : Json) (lan next : Lan) (label : LanLabel) (move : LanMove json lan label next)
    (j : Nat) (config : DiscoveryConfig) (announce : Bool) (datagram : Datagram)
    (spoken : lan.Spoken json j config announce datagram) :
    next.Spoken json j config announce datagram := by
  obtain ⟨me, here, source, encoded, short⟩ := spoken
  obtain ⟨after, there, address, fingerprint⟩ := move_seat json lan next label move j me here
  refine ⟨after, there, source.trans address.symm, ?_, short⟩
  simpa only [Neighbour.announcement, DiscoveryState.ourAnnouncement, fingerprint] using encoded

theorem announced_spoken (json : Json) (size : Nat) (lan : Lan) (sized : Sized json size lan) (j : Nat)
    (me : Neighbour) (here : lan.neighbours[j]? = some me) (announce : Bool) (data : List UInt8)
    (target : Nat) (encoded : json.toVec (me.state.ourAnnouncement announce) = some data) :
    lan.Spoken json j me.state.config announce ⟨me.address, target, data⟩ := by
  obtain ⟨data', encoded', short⟩ := announceable_data json me.state (sized.fits j me here) announce
  obtain rfl := Option.some.inj (encoded.symm.trans encoded')
  exact ⟨me, here, rfl, encoded, short⟩

theorem spoken_received (json : Json) (faithful : json.Faithful) (lan : Lan) (j : Nat)
    (config : DiscoveryConfig) (announce : Bool) (datagram : Datagram)
    (spoken : lan.Spoken json j config announce datagram) (me other : Neighbour)
    (there : lan.neighbours[j]? = some other) (foreign : other.state.fingerprint ≠ me.state.fingerprint)
    (port : config.port ≠ 0) (now : Int) :
    me.state.handlePacket json (datagram.data.take recvBufSize) datagram.source now =
      (me.state.insertPeer other.state.fingerprint
        ⟨other.state.fingerprint, sanitizeDeviceName config.deviceName, other.address, config.port, "0.5.0",
          now⟩,
        if announce then json.toVec (me.state.ourAnnouncement false) else none) := by
  obtain ⟨speaker, here, source, encoded, short⟩ := spoken
  obtain rfl := Option.some.inj (here.symm.trans there)
  have read := faithful _ _ encoded
  rw [List.take_of_length_le short, source]
  unfold DiscoveryState.handlePacket
  simp only [read]
  have accepted : ¬ ((speaker.announcement config announce).app ≠ appId ∨
      (speaker.announcement config announce).fingerprint = me.state.fingerprint ∨
        (speaker.announcement config announce).port = 0) := by
    simp only [Neighbour.announcement, DiscoveryState.ourAnnouncement, not_or, not_not]
    exact ⟨trivial, foreign, port⟩
  rw [if_neg accepted]
  rfl

def Lan.Knows (lan : Lan) (i j : Nat) : Prop :=
  ∃ me other, lan.neighbours[i]? = some me ∧ lan.neighbours[j]? = some other ∧
    ∃ peer, me.state.peers.lookup other.state.fingerprint = some peer

def LanLabel.gentle : LanLabel → Bool
  | .lose _ | .expire .. => false
  | _ => true

theorem inserted_stays (state : DiscoveryState) (key other : String) (peer : DiscoveredPeer)
    (there : ∃ known, state.peers.lookup other = some known) :
    ∃ known, (state.insertPeer key peer).peers.lookup other = some known := by
  by_cases same : other = key
  · subst same
    exact ⟨peer, Finmap.lookup_insert _⟩
  · obtain ⟨known, found⟩ := there
    exact ⟨known, (Finmap.lookup_insert_of_ne _ same).trans found⟩

theorem packet_stays (json : Json) (state : DiscoveryState) (data : List UInt8) (address : String)
    (now : Int) (key : String) (there : ∃ known, state.peers.lookup key = some known) :
    ∃ known, (state.handlePacket json data address now).1.peers.lookup key = some known := by
  rcases packet_cases json state data address now with ignored | ⟨msg, _, _, _, _, handled⟩
  · rw [ignored]
    exact there
  · rw [handled]
    exact inserted_stays state _ key _ there

theorem knows_put (lan : Lan) (i j target : Nat) (me : Neighbour) (state : DiscoveryState)
    (flying : List Datagram) (here : lan.neighbours[target]? = some me)
    (same : state.fingerprint = me.state.fingerprint)
    (stays : ∀ key, (∃ known, me.state.peers.lookup key = some known) →
      ∃ known, state.peers.lookup key = some known) (known : lan.Knows i j) :
      Lan.Knows { lan.put target me state with flying := flying } i j := by
  obtain ⟨one, other, first, second, peer, found⟩ := known
  have place : ∀ (k : Nat) (seat : Neighbour), lan.neighbours[k]? = some seat →
      ∃ after, (lan.put target me state).neighbours[k]? = some after ∧
        after.state.fingerprint = seat.state.fingerprint ∧
        ∀ key, (∃ known, seat.state.peers.lookup key = some known) →
          ∃ known, after.state.peers.lookup key = some known := by
    intro k seat there
    by_cases meant : target = k
    · subst meant
      obtain rfl := Option.some.inj (here.symm.trans there)
      exact ⟨{ me with state := state }, put_self lan target me state here, same, stays⟩
    · exact ⟨seat, (put_other lan target k me state meant).trans there, rfl, fun _ there => there⟩
  obtain ⟨one', first', _, more⟩ := place i one first
  obtain ⟨other', second', fingerprint, _⟩ := place j other second
  refine ⟨one', other', first', second', ?_⟩
  rw [fingerprint]
  exact more _ ⟨peer, found⟩

theorem move_knows (json : Json) (lan next : Lan) (label : LanLabel) (move : LanMove json lan label next) (gentle : label.gentle = true)
    (i j : Nat) (known : lan.Knows i j) : next.Knows i j := by
  cases move with
  | announce => exact known
  | receive datagram now route me replies flies here =>
      exact knows_put lan i j _ me _ _ here (packet_identity json _ _ _ _).1 (packet_stays json _ _ _ _) known
  | expire => cases gentle
  | updateConfig k config me here => exact knows_put lan i j k me _ lan.flying here rfl (fun _ there => there) known
  | lose => cases gentle
  | duplicate => exact known
  | forge => exact known

-- An announcement or an answer of engine i that is on its way to engine j and
-- names a port.
def Lan.OnItsWay (json : Json) (lan : Lan) (i j : Nat) (announce : Bool) : Prop :=
  ∃ datagram ∈ lan.flying, datagram.target = j ∧ ∃ config, config.port ≠ 0 ∧
    lan.Spoken json i config announce datagram

-- The announcement of i is still under way to j, or j knows i and its answer is
-- under way, or both know each other.
def Lan.Introducing (json : Json) (lan : Lan) (i j : Nat) : Prop :=
  lan.OnItsWay json i j true ∨ (lan.Knows j i ∧ (lan.OnItsWay json j i false ∨ lan.Knows i j))

theorem waits_or_received (json : Json) (lan next : Lan) (label : LanLabel)
    (move : LanMove json lan label next) (gentle : label.gentle = true) (i j : Nat) (announce : Bool)
    (coming : lan.OnItsWay json i j announce) :
    next.OnItsWay json i j announce ∨
      ∃ datagram now route config, label = .receive datagram now route ∧ datagram.target = j ∧
        config.port ≠ 0 ∧
        lan.Spoken json i config announce datagram := by
  obtain ⟨datagram, flies, target, config, port, spoken⟩ := coming
  have stays : datagram ∈ next.flying → next.OnItsWay json i j announce :=
    fun flies => ⟨datagram, flies, target, config, port, spoken_moved json lan next label move i config
      announce datagram spoken⟩
  cases move with
  | announce => exact .inl (stays (List.mem_append_left _ flies))
  | receive received now route me replies _ here =>
      by_cases same : datagram = received
      · subst same
        exact .inr ⟨datagram, now, route, config, rfl, target, port, spoken⟩
      · exact .inl (stays (List.mem_append_left _ ((List.mem_erase_of_ne same).mpr flies)))
  | expire => cases gentle
  | updateConfig => exact .inl (stays flies)
  | lose => cases gentle
  | duplicate => exact .inl (stays (List.mem_append_left _ flies))
  | forge => exact .inl (stays (List.mem_append_left _ flies))

theorem received_knows (json : Json) (faithful : json.Faithful) (lan next : Lan) (datagram : Datagram)
    (now : Int) (route : Nat) (move : LanMove json lan (.receive datagram now route) next)
    (distinct : lan.Distinct) (i j : Nat) (different : i ≠ j) (target : datagram.target = j)
    (config : DiscoveryConfig) (port : config.port ≠ 0) (announce : Bool)
    (spoken : lan.Spoken json i config announce datagram) : next.Knows j i := by
  obtain ⟨other, there, _⟩ := id spoken
  cases move with
  | receive _ _ _ me replies flies here =>
      subst target
      have foreign : other.state.fingerprint ≠ me.state.fingerprint :=
        fun same => different (distinct.fingerprints i _ other me there here same)
      rw [spoken_received json faithful lan i config announce datagram spoken me other there foreign port now]
      exact ⟨_, other, put_self lan _ me _ here, (put_other lan _ i me _ different.symm).trans there, _,
        Finmap.lookup_insert _⟩

theorem received_answers (json : Json) (faithful : json.Faithful) (size : Nat) (lan next : Lan)
    (datagram : Datagram) (now : Int) (route : Nat)
    (move : LanMove json lan (.receive datagram now route) next) (sized : Sized json size lan)
    (ported : lan.Ported) (distinct : lan.Distinct) (i j : Nat) (different : i ≠ j)
    (target : datagram.target = j) (config : DiscoveryConfig) (port : config.port ≠ 0)
    (spoken : lan.Spoken json i config true datagram) :
    next.OnItsWay json j i false := by
  have carried := fun datagram' config' => spoken_moved json lan next _ move j config' false datagram'
  obtain ⟨other, there, source, _⟩ := id spoken
  cases move with
  | receive _ _ _ me replies flies here answers single routed =>
      subst target
      have foreign : other.state.fingerprint ≠ me.state.fingerprint :=
        fun same => different (distinct.fingerprints i _ other me there here same)
      obtain ⟨data, encoded, _⟩ := announceable_data json me.state (sized.fits _ me here) false
      have unique : ∀ (host : Neighbour) (k : Nat), lan.neighbours[k]? = some host →
        host.address = datagram.source → k = i :=
        fun host k found named => distinct.addresses k i host other found there (named.trans source)
      have answered : (me.state.handlePacket json (datagram.data.take recvBufSize) datagram.source now).2 =
        some data := by
        rw [spoken_received json faithful lan i config true datagram spoken me other there foreign port now]
        exact encoded
      obtain rfl := routed other i there source.symm unique data answered
      exact ⟨⟨me.address, i, data⟩, List.mem_append_right _ (by simp), rfl, me.state.config,
        ported _ me here, carried _ _
        (announced_spoken json size lan sized datagram.target me here false data i encoded)⟩

theorem introducing_step (json : Json) (faithful : json.Faithful) (size : Nat) (lan next : Lan)
    (label : LanLabel) (move : LanMove json lan label next) (gentle : label.gentle = true)
    (sized : Sized json size lan) (ported : lan.Ported) (distinct : lan.Distinct) (i j : Nat)
    (different : i ≠ j) (introducing : lan.Introducing json i j) : next.Introducing json i j := by
  rcases introducing with asked | ⟨known, answered | both⟩
  · rcases waits_or_received json lan next label move gentle i j true asked with
      waits | ⟨datagram, now, route, config, rfl, target, port, spoken⟩
    · exact .inl waits
    · exact .inr ⟨received_knows json faithful lan next datagram now route move distinct i j different
        target config port true spoken,
        .inl (received_answers json faithful size lan next datagram now route move sized ported distinct i j
        different target config port
          spoken)⟩
  · have kept := move_knows json lan next label move gentle j i known
    rcases waits_or_received json lan next label move gentle j i false answered with
      waits | ⟨datagram, now, route, config, rfl, target, port, spoken⟩
    · exact .inr ⟨kept, .inl waits⟩
    · exact .inr ⟨kept, .inr (received_knows json faithful lan next datagram now route move distinct j i
        different.symm target config port false spoken)⟩
  · exact .inr ⟨move_knows json lan next label move gentle j i known,
      .inr (move_knows json lan next label move gentle i j both)⟩

theorem announced_on_its_way (json : Json) (size : Nat) (lan next : Lan) (sized : Sized json size lan)
    (ported : lan.Ported) (i j : Nat) (announced : lanStep json lan (.announce i) = some next)
    (inside : j < lan.neighbours.length) : next.OnItsWay json i j true := by
  obtain ⟨me, here, rfl⟩ := Option.map_eq_some_iff.mp announced
  obtain ⟨data, encoded, _⟩ := announceable_data json me.state (sized.fits i me here) true
  obtain ⟨speaker, seat, rest⟩ := announced_spoken json size lan sized i me here true data j encoded
  refine ⟨⟨me.address, j, data⟩, List.mem_append_right _ ?_, rfl, me.state.config, ported i me here,
    speaker, seat, rest⟩
  simp only [encoded, Option.toList_some, List.flatMap_cons, List.flatMap_nil, List.append_nil,
    Lan.multicast, List.mem_map, List.mem_range]
  exact ⟨j, inside, rfl⟩

-- One announcement introduces its sender and everybody else on the network to
-- each other, in whatever order the datagrams arrive, and whatever else is
-- announced, reconfigured, duplicated or forged meanwhile.
theorem one_announcement_introduces (json : Json) (faithful : json.Faithful) (size : Nat)
    (start spoken lan : Lan) (i j : Nat) (sized : Sized json size start) (ported : start.Ported)
    (distinct : start.Distinct) (announced : lanStep json start (.announce i) = some spoken)
    (run : Transition.Run (lanStep json) (fun lan label => label.sized json lan = true ∧
      label.ported = true ∧ label.gentle = true) spoken lan)
    (arrived : lan.flying = []) (other : i ≠ j) (inside : j < start.neighbours.length) :
    lan.Knows i j ∧ lan.Knows j i := by
  have first := lan_step_moves json start spoken _ announced
  have carried := Transition.run_invariant (lanStep json) _
    (fun lan => Sized json size lan ∧ lan.Ported ∧ lan.Distinct ∧ lan.Introducing json i j)
    (by
      rintro state label next ⟨sized, ported, distinct, introducing⟩ ⟨allowed, named, gentle⟩ stepped
      have move := lan_step_moves json state next label stepped
      exact ⟨move_sized json size state next label sized allowed move,
        move_ported json state next label ported named move,
        move_distinct json state next label distinct move,
        introducing_step json faithful size state next label move gentle sized ported distinct i j other
        introducing⟩)
    spoken lan run ⟨move_sized json size start spoken _ sized rfl first,
      move_ported json start spoken _ ported rfl first,
      move_distinct json start spoken _ distinct first,
      .inl (announced_on_its_way json size start spoken sized ported i j announced inside)⟩
  rcases carried.2.2.2 with ⟨datagram, flies, _⟩ | ⟨known, ⟨datagram, flies, _⟩ | both⟩
  · simp [arrived] at flies
  · simp [arrived] at flies
  · exact ⟨both, known⟩

theorem home_distinct : homeLan.Distinct := by
  have addresses : ("192.168.1.2" : String) ≠ "192.168.1.3" := by decide
  have fingerprints : ("7f3a" : String) ≠ "b21c" := by decide
  constructor
  · intro i j me other here there same
    rcases home_seats i me here with ⟨rfl, rfl⟩ | ⟨rfl, rfl⟩ <;> rcases home_seats j other there with
      ⟨rfl, rfl⟩ | ⟨rfl, rfl⟩
    · rfl
    · exact absurd same addresses
    · exact absurd same.symm addresses
    · rfl
  · intro i j me other here there same
    rcases home_seats i me here with ⟨rfl, rfl⟩ | ⟨rfl, rfl⟩ <;> rcases home_seats j other there with
      ⟨rfl, rfl⟩ | ⟨rfl, rfl⟩
    · rfl
    · exact absurd same fingerprints
    · exact absurd same.symm fingerprints
    · rfl

theorem home_ported : homeLan.Ported := by
  intro i me here
  rcases home_seats i me here with ⟨_, rfl⟩ | ⟨_, rfl⟩ <;> decide

theorem home_introduced : ∃ spoken lan : Lan, lanStep homeJson homeLan (.announce 0) = some spoken ∧
    Transition.Run (lanStep homeJson) (fun lan label => label.sized homeJson lan = true ∧
      label.ported = true ∧ label.gentle = true) spoken lan ∧
      lan.Knows 0 1 ∧ lan.Knows 1 0 := by
  have made : (lanStep homeJson homeLan (.announce 0)).isSome = true := by decide +kernel
  obtain ⟨spoken, announced⟩ := Option.isSome_iff_exists.mp made
  have checked : ((lanStep homeJson homeLan (.announce 0)).bind fun spoken => Transition.replay
    (lanStep homeJson)
      (fun lan label => label.sized homeJson lan = true ∧ label.ported = true ∧
        label.gentle = true) spoken homeTalk).any (·.flying.isEmpty) = true := by
    decide +kernel
  rw [announced] at checked
  obtain ⟨lan, run, silent⟩ := Transition.replay_reaches (lanStep homeJson)
    (fun lan label => label.sized homeJson lan = true ∧ label.ported = true ∧
      label.gentle = true) homeTalk spoken (·.flying.isEmpty) checked
  have both := one_announcement_introduces homeJson home_faithful 2 homeLan spoken lan 0 1 home_sized
    home_ported home_distinct announced run (List.isEmpty_iff.mp silent) (by decide) (by decide)
  exact ⟨spoken, lan, announced, run, both⟩

def HadConfig (json : Json) (allow : Lan → LanLabel → Prop) (start lan : Lan) (j : Nat)
    (config : DiscoveryConfig) : Prop :=
  ∃ earlier me, Transition.Run (lanStep json) allow start earlier ∧
    Transition.Run (lanStep json) allow earlier lan ∧
    earlier.neighbours[j]? = some me ∧ me.state.config = config

-- What a table holds about an engine, and what flies, has been announced by it.
def Lan.Announced (lan : Lan) (had : Nat → DiscoveryConfig → Prop) (i : Nat) (key : String)
    (peer : DiscoveredPeer) : Prop :=
  ∃ j other config, j ≠ i ∧ lan.neighbours[j]? = some other ∧ key = other.state.fingerprint ∧ had j config ∧
    peer.fingerprint = key ∧
    peer.address = other.address ∧ peer.deviceName = sanitizeDeviceName config.deviceName ∧
      peer.port = config.port ∧ peer.version = "0.5.0"

structure Honest (json : Json) (had : Nat → DiscoveryConfig → Prop) (lan : Lan) : Prop where
  flights : ∀ datagram ∈ lan.flying, ∃ j config announce, lan.Spoken json j config announce datagram ∧
    had j config
  entries : ∀ (i : Nat) (me : Neighbour) (key : String) (peer : DiscoveredPeer),
    lan.neighbours[i]? = some me →
    me.state.peers.lookup key = some peer → lan.Announced had i key peer

def LanLabel.genuine : LanLabel → Bool
  | .forge _ => false
  | _ => true

theorem announced_moved (json : Json) (had : Nat → DiscoveryConfig → Prop) (lan next : Lan) (label : LanLabel)
    (move : LanMove json lan label next) (i : Nat) (key : String) (peer : DiscoveredPeer)
    (announced : lan.Announced had i key peer) :
    next.Announced had i key peer := by
  obtain ⟨j, other, config, different, there, named, rest, identity, address, more⟩ := announced
  obtain ⟨after, later, place, fingerprint⟩ := move_seat json lan next label move j other there
  exact ⟨j, after, config, different, later, named.trans fingerprint.symm, rest, identity,
    address.trans place.symm, more⟩

theorem entries_put (had : Nat → DiscoveryConfig → Prop) (lan : Lan) (target : Nat) (me : Neighbour)
    (state : DiscoveryState)
    (entries : ∀ (i : Nat) (me : Neighbour) (key : String) (peer : DiscoveredPeer),
      lan.neighbours[i]? = some me →
      me.state.peers.lookup key = some peer → lan.Announced had i key peer)
    (new : ∀ key peer, state.peers.lookup key = some peer → lan.Announced had target key peer) (i : Nat)
    (seat : Neighbour) (key : String) (peer : DiscoveredPeer)
    (there : (lan.put target me state).neighbours[i]? = some seat)
    (found : seat.state.peers.lookup key = some peer) :
    lan.Announced had i key peer := by
  rcases Transition.set_cases lan.neighbours target i _ seat there with ⟨rfl, rfl⟩ | ⟨_, old⟩
  · exact new key peer found
  · exact entries i seat key peer old found

theorem received_entry (json : Json) (faithful : json.Faithful) (had : Nat → DiscoveryConfig → Prop)
    (lan : Lan) (honest : Honest json had lan) (datagram : Datagram) (flies : datagram ∈ lan.flying)
    (me : Neighbour) (here : lan.neighbours[datagram.target]? = some me) (now : Int) (key : String)
    (peer : DiscoveredPeer)
    (found : (me.state.handlePacket json (datagram.data.take recvBufSize) datagram.source
      now).1.peers.lookup key = some peer) :
    lan.Announced had datagram.target key peer := by
  rcases packet_cases json me.state (datagram.data.take recvBufSize) datagram.source now with ignored |
    ⟨msg, read, _, foreign, _, handled⟩
  · rw [ignored] at found
    exact honest.entries _ me key peer here found
  · rw [handled] at found
    by_cases same : key = msg.fingerprint
    · subst same
      obtain rfl := Option.some.inj ((Finmap.lookup_insert _).symm.trans found)
      obtain ⟨j, config, announce, ⟨other, there, source, encoded, short⟩, used⟩ :=
        honest.flights datagram flies
      rw [List.take_of_length_le short] at read
      obtain rfl := Option.some.inj ((faithful _ _ encoded).symm.trans read)
      refine ⟨j, other, config, ?_, there, rfl, used, rfl, source, rfl, rfl, rfl⟩
      rintro rfl
      obtain rfl := Option.some.inj (here.symm.trans there)
      exact foreign rfl
    · exact honest.entries _ me key peer here ((Finmap.lookup_insert_of_ne _ same).symm.trans found)

theorem honest_step (json : Json) (faithful : json.Faithful) (size : Nat)
    (had : Nat → DiscoveryConfig → Prop) (lan next : Lan) (label : LanLabel) (sized : Sized json size lan)
    (genuine : label.genuine = true) (move : LanMove json lan label next)
    (current : ∀ (j : Nat) (me : Neighbour), lan.neighbours[j]? = some me → had j me.state.config)
    (honest : Honest json had lan) :
    Honest json had next := by
  have flights : ∀ datagram, (∃ j config announce, lan.Spoken json j config announce datagram ∧
    had j config) →
      ∃ j config announce, next.Spoken json j config announce datagram ∧ had j config := by
    rintro datagram ⟨j, config, announce, spoken, used⟩
    exact ⟨j, config, announce, spoken_moved json lan next label move j config announce datagram spoken, used⟩
  have moved := announced_moved json had lan next label move
  cases move with
  | announce i me here =>
      refine ⟨?_, fun i me key peer here found => honest.entries i me key peer here found⟩
      intro datagram member
      rcases List.mem_append.mp member with old | new
      · exact flights datagram (honest.flights datagram old)
      · obtain ⟨data, encoded, copied⟩ := List.mem_flatMap.mp new
        obtain ⟨target, _, rfl⟩ := List.mem_map.mp copied
        exact ⟨i, _, true, announced_spoken json size lan sized i me here true data target
          (by simpa using encoded), current i me here⟩
  | receive datagram now route me replies flies here answers =>
      refine ⟨?_, ?_⟩
      · intro other member
        rcases List.mem_append.mp member with old | new
        · exact flights other (honest.flights other (List.mem_of_mem_erase old))
        · obtain ⟨source, target, answered⟩ := answers other new
          obtain ⟨encoded, _⟩ := packet_reply json _ _ _ _ _ answered
          have spoken :=
            announced_spoken json size lan sized datagram.target me here false other.data other.target encoded
          rw [← source] at spoken
          exact flights other ⟨datagram.target, _, false, spoken, current _ me here⟩
      · intro i seat key peer there found
        exact moved i key peer (entries_put had lan datagram.target me _ honest.entries
          (received_entry json faithful had lan honest datagram flies me here now) i seat key peer there
          found)
  | expire target timeout now order me here =>
      refine ⟨fun datagram flies => flights datagram (honest.flights datagram flies), ?_⟩
      intro i seat key peer there found
      refine moved i key peer (entries_put had lan target me _ honest.entries ?_ i seat key peer there found)
      intro key peer kept
      exact honest.entries target me key peer here (removed_left _ me.state.peers key peer kept)
  | updateConfig target config me here =>
      refine ⟨fun datagram flies => flights datagram (honest.flights datagram flies), ?_⟩
      intro i seat key peer there found
      exact moved i key peer (entries_put had lan target me { me.state with config := config } honest.entries
        (fun key peer kept => honest.entries target me key peer here kept) i seat key peer there found)
  | lose datagram flies =>
      exact ⟨fun other member => flights other (honest.flights other (List.mem_of_mem_erase member)),
        honest.entries⟩
  | duplicate datagram flies =>
      refine ⟨?_, honest.entries⟩
      intro other member
      rcases List.mem_append.mp member with old | new
      · exact flights other (honest.flights other old)
      · obtain rfl := List.mem_singleton.mp new
        exact flights other (honest.flights other flies)
  | forge => cases genuine

theorem honest_mono (json : Json) (had later : Nat → DiscoveryConfig → Prop) (lan : Lan)
    (implied : ∀ j config, had j config → later j config) (honest : Honest json had lan) :
    Honest json later lan := by
  constructor
  · intro datagram flies
    obtain ⟨j, config, announce, spoken, used⟩ := honest.flights datagram flies
    exact ⟨j, config, announce, spoken, implied j config used⟩
  · intro i me key peer here found
    obtain ⟨j, other, config, different, there, named, used, rest⟩ := honest.entries i me key peer here found
    exact ⟨j, other, config, different, there, named, implied j config used, rest⟩

-- As long as nobody forges a datagram, everything in the table of an engine is
-- another engine of the network, at its address, with a name and a port that
-- this engine has been configured with at some time.
theorem tables_hold_neighbours (json : Json) (faithful : json.Faithful) (size : Nat) (start lan : Lan)
    (sized : Sized json size start) (quiet : start.flying = [])
    (fresh : ∀ (i : Nat) (me : Neighbour), start.neighbours[i]? = some me → me.state.peers = ∅)
    (run : Transition.Run (lanStep json) (fun lan label => label.sized json lan = true ∧
      label.genuine = true) start lan)
    (i : Nat) (me : Neighbour) (key : String) (peer : DiscoveredPeer)
    (here : lan.neighbours[i]? = some me) (found : me.state.peers.lookup key = some peer) :
    lan.Announced
      (HadConfig json (fun lan label => label.sized json lan = true ∧ label.genuine = true) start lan)
      i key peer := by
  have carried : Sized json size lan ∧
      Honest json (HadConfig json (fun lan label => label.sized json lan = true ∧
        label.genuine = true) start lan) lan := by
    clear here found
    induction run with
    | refl =>
        refine ⟨sized, by simp [quiet], ?_⟩
        intro i me key peer here found
        rw [fresh i me here] at found
        cases found
    | tail middle final label before allowed stepped ih =>
        obtain ⟨sized, honest⟩ := ih
        have move := lan_step_moves json middle final label stepped
        refine ⟨move_sized json size middle final label sized allowed.1 move, ?_⟩
        refine honest_step json faithful size _ middle final label sized allowed.2 move ?_
          (honest_mono json _ _ middle ?_ honest)
        · intro j me here
          exact ⟨middle, me, before, .tail middle final label .refl allowed stepped, here, rfl⟩
        · rintro j config ⟨earlier, me, first, second, there, same⟩
          exact ⟨earlier, me, first, .tail middle final label second allowed stepped, there, same⟩
  exact carried.2.entries i me key peer here found

theorem home_tables : ∃ (lan : Lan) (me : Neighbour) (peer : DiscoveredPeer), lan.neighbours[0]? = some me ∧
    me.state.peers.lookup "b21c" = some peer ∧
      lan.Announced
      (HadConfig homeJson (fun lan label => label.sized homeJson lan = true ∧
        label.genuine = true) homeLan lan) 0 "b21c" peer := by
  obtain ⟨lan, run, known⟩ := Transition.replay_reaches (lanStep homeJson)
    (fun lan label => label.sized homeJson lan = true ∧ label.genuine = true)
    (.announce 0 :: homeTalk) homeLan
    (fun lan => (lan.neighbours[0]?).any fun me => (me.state.peers.lookup "b21c").isSome) (by decide +kernel)
  obtain ⟨me, here, entered⟩ := (Option.any_eq_true _ _).mp known
  obtain ⟨peer, found⟩ := Option.isSome_iff_exists.mp entered
  have fresh : ∀ (i : Nat) (me : Neighbour), homeLan.neighbours[i]? = some me → me.state.peers = ∅ := by
    intro i me here
    rcases home_seats i me here with ⟨_, rfl⟩ | ⟨_, rfl⟩ <;> rfl
  exact ⟨lan, me, peer, here, found,
    tables_hold_neighbours homeJson home_faithful 2 homeLan lan home_sized rfl fresh run 0 me "b21c" peer
    here found⟩

end GoshTransfer
