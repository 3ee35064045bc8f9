import GoshTransfer.Discovery
import GoshTransfer.Lib.Waiting

set_option autoImplicit false

-- Several engines on one network whose discovery runs: datagrams are delivered
-- in any order, lost, duplicated and forged.
namespace GoshTransfer

def recvBufSize : Nat := 2048

structure Neighbour where
  address : String
  state : DiscoveryState

structure Datagram where
  source : String
  target : Nat
  data : List UInt8
deriving DecidableEq

structure Lan where
  neighbours : List Neighbour
  flying : List Datagram

inductive LanLabel where
  | announce (i : Nat)
  | receive (datagram : Datagram) (now : Int) (route : Nat)
  | expire (i timeout : Nat) (now : Int) (order : List String)
  | updateConfig (i : Nat) (config : DiscoveryConfig)
  | lose (datagram : Datagram)
  | duplicate (datagram : Datagram)
  | forge (datagram : Datagram)

-- The group loops a datagram back to its sender.
def Lan.multicast (lan : Lan) (source : String) (data : List UInt8) : List Datagram :=
  (List.range lan.neighbours.length).map fun target => ⟨source, target, data⟩

def Lan.put (lan : Lan) (i : Nat) (me : Neighbour) (state : DiscoveryState) : Lan :=
  { lan with neighbours := lan.neighbours.set i { me with state := state } }

-- An answer goes to an engine on the host that the datagram came from.
def Lan.unicast (lan : Lan) (source from_ : String) (route : Nat) : Option (List UInt8) → Option
    (List Datagram)
  | none => some []
  | some data =>
      if (lan.neighbours[route]?).any (·.address = source) then some [⟨from_, route, data⟩]
      else if lan.neighbours.any (·.address = source) then none
      else some []

-- The arms of the loop of start_discovery at one engine, and what the network does.
def lanStep (json : Json) (lan : Lan) : LanLabel → Option Lan
  | .announce i => (lan.neighbours[i]?).map fun me =>
      { lan with flying := lan.flying ++ (json.toVec (me.state.ourAnnouncement true)).toList.flatMap (lan.multicast me.address) }
  | .receive datagram now route =>
      if datagram ∈ lan.flying then
        (lan.neighbours[datagram.target]?).bind fun me =>
          let (state, reply) :=
            me.state.handlePacket json (datagram.data.take recvBufSize) datagram.source now
          (lan.unicast datagram.source me.address route reply).map fun replies =>
            { lan.put datagram.target me state with flying := lan.flying.erase datagram ++ replies }
      else none
  | .expire i timeout now order => (lan.neighbours[i]?).bind fun me =>
      (discoveryStep json me.state (.expire timeout now order)).map (lan.put i me)
  | .updateConfig i config => (lan.neighbours[i]?).bind fun me =>
      (discoveryStep json me.state (.updateConfig config)).map (lan.put i me)
  | .lose datagram => if datagram ∈ lan.flying then some { lan with flying := lan.flying.erase datagram }
      else none
  | .duplicate datagram =>
      if datagram ∈ lan.flying then some { lan with flying := lan.flying ++ [datagram] } else none
  | .forge datagram => some { lan with flying := lan.flying ++ [datagram] }

-- What serde_json does for the announcements of this program.
def Json.Faithful (json : Json) : Prop := ∀ announcement data, json.toVec announcement = some data →
    json.fromSlice data = some announcement

-- Both announcements of an engine fit the buffer of whoever receives them.
def DiscoveryState.announceable (json : Json) (state : DiscoveryState) : Bool :=
  [false, true].all fun announce => (json.toVec (state.ourAnnouncement announce)).any fun data =>
    data.length ≤ recvBufSize

def LanLabel.sized (json : Json) (lan : Lan) : LanLabel → Bool
  | .updateConfig i config => (lan.neighbours[i]?).all fun me =>
      { me.state with config := config }.announceable json
  | _ => true

theorem announceable_data (json : Json) (state : DiscoveryState) (fits : state.announceable json = true) :
    ∀ announce, ∃ data, json.toVec (state.ourAnnouncement announce) = some data ∧
      data.length ≤ recvBufSize := by
  intro announce
  have either : announce ∈ [false, true] := by cases announce <;> simp
  obtain ⟨data, encoded, short⟩ := (Option.any_eq_true _ _).mp (List.all_eq_true.mp fits announce either)
  exact ⟨data, encoded, by simpa using short⟩

theorem packet_cases (json : Json) (state : DiscoveryState) (data : List UInt8) (address : String)
    (now : Int) :
    state.handlePacket json data address now = (state, none) ∨
    ∃ msg, json.fromSlice data = some msg ∧ msg.app = appId ∧ msg.fingerprint ≠ state.fingerprint ∧
      msg.port ≠ 0 ∧
      state.handlePacket json data address now =
        (state.insertPeer msg.fingerprint ⟨msg.fingerprint, sanitizeDeviceName msg.deviceName, address,
          msg.port, msg.version, now⟩,
          if msg.announce then json.toVec (state.ourAnnouncement false) else none) := by
  cases read : json.fromSlice data with
  | none => exact .inl (by simp [DiscoveryState.handlePacket, read])
  | some msg =>
      by_cases refused : msg.app ≠ appId ∨ msg.fingerprint = state.fingerprint ∨ msg.port = 0
      · exact .inl (by simp only [DiscoveryState.handlePacket, read, if_pos refused])
      · have kept := refused
        simp only [not_or, not_not] at kept
        exact .inr ⟨msg, rfl, kept.1, kept.2.1, kept.2.2,
          by simp only [DiscoveryState.handlePacket, read, if_neg refused]; rfl⟩

theorem packet_reply (json : Json) (state : DiscoveryState) (data reply : List UInt8) (address : String)
    (now : Int) (answered : (state.handlePacket json data address now).2 = some reply) :
    json.toVec (state.ourAnnouncement false) = some reply ∧
      (json.fromSlice data).any (·.announce) = true := by
  rcases packet_cases json state data address now with ignored | ⟨msg, read, _, _, _, handled⟩
  · rw [ignored] at answered
    cases answered
  · rw [handled] at answered
    dsimp only at answered
    split at answered
    · rename_i asked
      exact ⟨answered, by simpa [read] using asked⟩
    · cases answered

theorem packet_identity (json : Json) (state : DiscoveryState) (data : List UInt8) (address : String)
    (now : Int) :
    (state.handlePacket json data address now).1.fingerprint = state.fingerprint ∧
      (state.handlePacket json data address now).1.config = state.config := by
  rcases packet_cases json state data address now with ignored | ⟨msg, _, _, _, _, handled⟩
  · rw [ignored]
    exact ⟨rfl, rfl⟩
  · rw [handled]
    exact ⟨rfl, rfl⟩

-- What one step of the network can do.
inductive LanMove (json : Json) (lan : Lan) : LanLabel → Lan → Prop where
  | announce (i : Nat) (me : Neighbour) (here : lan.neighbours[i]? = some me) : LanMove json lan (.announce i)
      { lan with flying := lan.flying ++ (json.toVec (me.state.ourAnnouncement true)).toList.flatMap (lan.multicast me.address) }
  | receive (datagram : Datagram) (now : Int) (route : Nat) (me : Neighbour) (replies : List Datagram)
      (flies : datagram ∈ lan.flying) (here : lan.neighbours[datagram.target]? = some me)
      (answers : ∀ answer ∈ replies, answer.source = me.address ∧ answer.target = route ∧
        (me.state.handlePacket json (datagram.data.take recvBufSize) datagram.source now).2 =
        some answer.data)
      (single : replies.length ≤ 1)
      (routed : ∀ host j, lan.neighbours[j]? = some host → host.address = datagram.source →
        (∀ other k, lan.neighbours[k]? = some other → other.address = datagram.source → k = j) →
        ∀ data, (me.state.handlePacket json (datagram.data.take recvBufSize) datagram.source now).2 =
        some data →
          replies = [⟨me.address, j, data⟩]) :
      LanMove json lan (.receive datagram now route)
        { lan.put datagram.target me (me.state.handlePacket json (datagram.data.take recvBufSize) datagram.source now).1 with
          flying := lan.flying.erase datagram ++ replies }
  | expire (i timeout : Nat) (now : Int) (order : List String) (me : Neighbour)
      (here : lan.neighbours[i]? = some me) :
      LanMove json lan (.expire i timeout now order)
      (lan.put i me (me.state.expireStalePeers timeout now order))
  | updateConfig (i : Nat) (config : DiscoveryConfig) (me : Neighbour) (here : lan.neighbours[i]? = some me) :
      LanMove json lan (.updateConfig i config) (lan.put i me { me.state with config := config })
  | lose (datagram : Datagram) (flies : datagram ∈ lan.flying) :
      LanMove json lan (.lose datagram) { lan with flying := lan.flying.erase datagram }
  | duplicate (datagram : Datagram) (flies : datagram ∈ lan.flying) :
      LanMove json lan (.duplicate datagram) { lan with flying := lan.flying ++ [datagram] }
  | forge (datagram : Datagram) : LanMove json lan (.forge datagram)
      { lan with flying := lan.flying ++ [datagram] }

theorem unicast_cases (lan : Lan) (source from_ : String) (route : Nat) (reply : Option (List UInt8))
    (replies : List Datagram) (sent : lan.unicast source from_ route reply = some replies) :
    (∀ answer ∈ replies, answer.source = from_ ∧ answer.target = route ∧ reply = some answer.data) ∧
      replies.length ≤ 1 ∧
      ∀ host j, lan.neighbours[j]? = some host → host.address = source →
        (∀ other k, lan.neighbours[k]? = some other → other.address = source → k = j) →
        ∀ data, reply = some data → replies = [⟨from_, j, data⟩] := by
  cases reply with
  | none =>
      obtain rfl := Option.some.inj sent
      exact ⟨by simp, by simp, by simp⟩
  | some data =>
      simp only [Lan.unicast] at sent
      split at sent
      · rename_i found
        obtain ⟨host, there, named⟩ := (Option.any_eq_true _ _).mp found
        obtain rfl := Option.some.inj sent
        refine ⟨by simp, by simp, ?_⟩
        intro other j _ _ unique data' same
        obtain rfl := Option.some.inj same
        rw [unique host route there (by simpa using named)]
      · split at sent
        · cases sent
        · rename_i nobody
          obtain rfl := Option.some.inj sent
          refine ⟨by simp, by simp, ?_⟩
          intro host j there named _ _ _
          exact absurd (List.any_eq_true.mpr ⟨host, List.mem_of_getElem? there, by simpa using named⟩) nobody

theorem lan_step_moves (json : Json) (lan next : Lan) (label : LanLabel)
    (stepped : lanStep json lan label = some next) :
    LanMove json lan label next := by
  cases label with
  | announce i =>
      obtain ⟨me, here, rfl⟩ := Option.map_eq_some_iff.mp stepped
      exact .announce i me here
  | receive datagram now route =>
      simp only [lanStep] at stepped
      split at stepped
      · rename_i flies
        obtain ⟨me, here, sent⟩ := Option.bind_eq_some_iff.mp stepped
        obtain ⟨replies, routed, rfl⟩ := Option.map_eq_some_iff.mp sent
        obtain ⟨answers, single, meant⟩ := unicast_cases lan datagram.source me.address route _ replies routed
        exact .receive datagram now route me replies flies here answers single meant
      · cases stepped
  | expire i timeout now order =>
      obtain ⟨me, here, made⟩ := Option.bind_eq_some_iff.mp stepped
      obtain ⟨state, expired, rfl⟩ := Option.map_eq_some_iff.mp made
      simp only [discoveryStep] at expired
      split at expired
      · obtain rfl := Option.some.inj expired
        exact .expire i timeout now order me here
      · cases expired
  | updateConfig i config =>
      obtain ⟨me, here, made⟩ := Option.bind_eq_some_iff.mp stepped
      obtain ⟨state, updated, rfl⟩ := Option.map_eq_some_iff.mp made
      obtain rfl := Option.some.inj updated
      exact .updateConfig i config me here
  | lose datagram =>
      simp only [lanStep] at stepped
      split at stepped
      · obtain rfl := Option.some.inj stepped
        exact .lose datagram ‹_›
      · cases stepped
  | duplicate datagram =>
      simp only [lanStep] at stepped
      split at stepped
      · obtain rfl := Option.some.inj stepped
        exact .duplicate datagram ‹_›
      · cases stepped
  | forge datagram =>
      obtain rfl := Option.some.inj stepped
      exact .forge datagram

-- What no step changes: who sits where.
def Neighbour.place (neighbour : Neighbour) : String × String :=
    (neighbour.address, neighbour.state.fingerprint)

theorem put_self (lan : Lan) (i : Nat) (me : Neighbour) (state : DiscoveryState)
    (here : lan.neighbours[i]? = some me) :
    (lan.put i me state).neighbours[i]? = some { me with state := state } := by
  have within := (List.getElem?_eq_some_iff.mp here).1
  simp [Lan.put, within]

theorem put_other (lan : Lan) (i j : Nat) (me : Neighbour) (state : DiscoveryState) (other : i ≠ j) :
    (lan.put i me state).neighbours[j]? = lan.neighbours[j]? := by
  simp [Lan.put, other]

theorem put_place (lan : Lan) (i j : Nat) (me : Neighbour) (state : DiscoveryState)
    (here : lan.neighbours[i]? = some me) (same : state.fingerprint = me.state.fingerprint) :
    ((lan.put i me state).neighbours[j]?).map Neighbour.place = (lan.neighbours[j]?).map Neighbour.place := by
  by_cases meant : i = j
  · subst meant
    rw [here, put_self lan i me state here]
    simp [Neighbour.place, same]
  · rw [put_other lan i j me state meant]

theorem move_place (json : Json) (lan next : Lan) (label : LanLabel) (move : LanMove json lan label next)
    (j : Nat) :
    (next.neighbours[j]?).map Neighbour.place = (lan.neighbours[j]?).map Neighbour.place := by
  cases move with
  | announce => rfl
  | receive datagram now route me replies flies here =>
      exact put_place lan _ j me _ here (packet_identity json _ _ _ _).1
  | expire i timeout now order me here => exact put_place lan i j me _ here rfl
  | updateConfig i config me here => exact put_place lan i j me _ here rfl
  | lose => rfl
  | duplicate => rfl
  | forge => rfl

theorem move_seat (json : Json) (lan next : Lan) (label : LanLabel) (move : LanMove json lan label next)
    (j : Nat) (me : Neighbour) (here : lan.neighbours[j]? = some me) :
    ∃ after, next.neighbours[j]? = some after ∧ after.address = me.address ∧
      after.state.fingerprint = me.state.fingerprint := by
  have same := move_place json lan next label move j
  rw [here, Option.map_some] at same
  obtain ⟨after, there, placed⟩ := Option.map_eq_some_iff.mp same
  simp only [Neighbour.place, Prod.mk.injEq] at placed
  exact ⟨after, there, placed.1, placed.2⟩

structure Sized (json : Json) (size : Nat) (lan : Lan) : Prop where
  count : lan.neighbours.length = size
  fits : ∀ (i : Nat) (me : Neighbour), lan.neighbours[i]? = some me → me.state.announceable json = true

theorem announceable_same (json : Json) (a b : DiscoveryState) (fingerprint : a.fingerprint = b.fingerprint)
    (config : a.config = b.config) :
    a.announceable json = b.announceable json := by
  simp only [DiscoveryState.announceable, DiscoveryState.ourAnnouncement, fingerprint, config]

theorem sized_put (json : Json) (size : Nat) (lan : Lan) (i : Nat) (me : Neighbour) (state : DiscoveryState)
    (sized : Sized json size lan) (fits : state.announceable json = true) (flying : List Datagram) :
    Sized json size { lan.put i me state with flying := flying } := by
  refine ⟨by simpa [Lan.put] using sized.count, ?_⟩
  intro j other there
  rcases Transition.set_cases lan.neighbours i j _ other there with ⟨_, rfl⟩ | ⟨_, old⟩
  · exact fits
  · exact sized.fits j other old

theorem move_sized (json : Json) (size : Nat) (lan next : Lan) (label : LanLabel)
    (sized : Sized json size lan) (allowed : label.sized json lan = true)
    (move : LanMove json lan label next) : Sized json size next := by
  cases move with
  | announce => exact ⟨sized.count, sized.fits⟩
  | receive datagram now route me replies flies here =>
      obtain ⟨fingerprint, config⟩ :=
        packet_identity json me.state (datagram.data.take recvBufSize) datagram.source now
      refine sized_put json size lan _ me _ sized ?_ _
      rw [announceable_same json _ _ fingerprint config]
      exact sized.fits _ me here
  | expire i timeout now order me here =>
      refine sized_put json size lan i me _ sized ?_ lan.flying
      rw [announceable_same json (me.state.expireStalePeers timeout now order) me.state rfl rfl]
      exact sized.fits i me here
  | updateConfig i config me here =>
      refine sized_put json size lan i me _ sized ?_ lan.flying
      simp only [LanLabel.sized, here, Option.all_some] at allowed
      exact allowed
  | lose => exact ⟨sized.count, sized.fits⟩
  | duplicate => exact ⟨sized.count, sized.fits⟩
  | forge => exact ⟨sized.count, sized.fits⟩

-- A question weighs as much as itself and its answer.
def Datagram.asks (json : Json) (datagram : Datagram) : Bool :=
    (json.fromSlice (datagram.data.take recvBufSize)).any (·.announce)

def Datagram.weight (json : Json) (datagram : Datagram) : Nat := if datagram.asks json then 2 else 1

def Lan.load (json : Json) (lan : Lan) : Nat := (lan.flying.map (·.weight json)).sum

def LanLabel.handled : LanLabel → Nat
  | .receive .. | .lose _ => 1
  | _ => 0

def LanLabel.brings (size : Nat) : LanLabel → Nat
  | .announce _ => 2 * size
  | .duplicate _ | .forge _ => 2
  | _ => 0

theorem weight_bounds (json : Json) (datagram : Datagram) : 1 ≤ datagram.weight json ∧
    datagram.weight json ≤ 2 := by
  unfold Datagram.weight
  split <;> omega

theorem load_bounds (json : Json) (flying : List Datagram) :
    flying.length ≤ (flying.map (·.weight json)).sum ∧
    (flying.map (·.weight json)).sum ≤ 2 * flying.length := by
  induction flying with
  | nil => simp
  | cons datagram rest ih =>
      have own := weight_bounds json datagram
      simp only [List.length_cons, List.map_cons, List.sum_cons]
      omega

theorem reply_weight (json : Json) (faithful : json.Faithful) (state : DiscoveryState)
    (fits : state.announceable json = true) (answer : Datagram) (data : List UInt8) (address : String)
    (now : Int) (answered : (state.handlePacket json data address now).2 = some answer.data) :
    answer.weight json = 1 := by
  obtain ⟨encoded, _⟩ := packet_reply json state data answer.data address now answered
  obtain ⟨data', encoded', short⟩ := announceable_data json state fits false
  obtain rfl := Option.some.inj (encoded.symm.trans encoded')
  have read := faithful _ _ encoded
  simp [Datagram.weight, Datagram.asks, List.take_of_length_le short, read, DiscoveryState.ourAnnouncement]

theorem multicast_length (json : Json) (lan : Lan) (me : Neighbour) :
    ((json.toVec (me.state.ourAnnouncement true)).toList.flatMap (lan.multicast me.address)).length ≤
      lan.neighbours.length := by
  cases json.toVec (me.state.ourAnnouncement true) <;> simp [Lan.multicast]

-- An answer is paid by the question that it replaces.
theorem move_paid (json : Json) (faithful : json.Faithful) (size : Nat) (lan next : Lan) (label : LanLabel)
    (sized : Sized json size lan) (move : LanMove json lan label next) :
    next.load json + label.handled ≤ lan.load json + label.brings size := by
  have removed : ∀ datagram ∈ lan.flying,
      datagram.weight json + ((lan.flying.erase datagram).map (·.weight json)).sum =
      (lan.flying.map (·.weight json)).sum :=
    fun datagram flies => List.sum_map_erase _ flies
  cases move with
  | announce i me here =>
      have copies :=
        (load_bounds json ((json.toVec (me.state.ourAnnouncement true)).toList.flatMap
          (lan.multicast me.address))).2
      have few := multicast_length json lan me
      have count := sized.count
      simp only [Lan.load, LanLabel.handled, LanLabel.brings, List.map_append, List.sum_append]
      omega
  | receive datagram now route me replies flies here answers single =>
      have before := removed datagram flies
      have own := weight_bounds json datagram
      have paid : (replies.map (·.weight json)).sum + 1 ≤ datagram.weight json := by
        cases replies with
        | nil => simpa using own.1
        | cons answer rest =>
            obtain ⟨_, _, answered⟩ := answers answer (by simp)
            have light := reply_weight json faithful me.state (sized.fits _ me here) answer _ _ _ answered
            have asked : datagram.asks json = true := (packet_reply json _ _ _ _ _ answered).2
            obtain rfl : rest = [] := List.eq_nil_of_length_eq_zero (by simpa using single)
            have heavy : datagram.weight json = 2 := by simp [Datagram.weight, asked]
            simp [light, heavy]
      simp only [Lan.load, LanLabel.handled, LanLabel.brings, List.map_append, List.sum_append]
      omega
  | expire => exact Nat.le_refl _
  | updateConfig => exact Nat.le_refl _
  | lose datagram flies =>
      have before := removed datagram flies
      have own := weight_bounds json datagram
      simp only [Lan.load, LanLabel.handled, LanLabel.brings]
      omega
  | duplicate datagram flies =>
      have own := weight_bounds json datagram
      simp only [Lan.load, LanLabel.handled, LanLabel.brings, List.map_append, List.sum_append,
        List.map_cons, List.map_nil, List.sum_cons,
        List.sum_nil]
      omega
  | forge datagram =>
      have own := weight_bounds json datagram
      simp only [Lan.load, LanLabel.handled, LanLabel.brings, List.map_append, List.sum_append,
        List.map_cons, List.map_nil, List.sum_cons,
        List.sum_nil]
      omega

-- Two engines, and what serde_json makes of their announcements.
def deskState : DiscoveryState := .new "7f3a" ⟨"Desk", 53317⟩

def laptopState : DiscoveryState := .new "b21c" ⟨"Laptop", 53317⟩

def homeLan : Lan := ⟨[⟨"192.168.1.2", deskState⟩, ⟨"192.168.1.3", laptopState⟩], []⟩

def homeText (fingerprint deviceName announce : String) : List UInt8 :=
  ("\x7b\"app\":\"gosh-lan-transfer\",\"version\":\"0.5.0\",\"fingerprint\":\"" ++ fingerprint ++
    "\",\"deviceName\":\"" ++ deviceName ++ "\",\"port\":53317,\"announce\":" ++ announce ++
    "\x7d").toUTF8.toList

def deskAsks : List UInt8 := homeText "7f3a" "Desk" "true"

def laptopAnswers : List UInt8 := homeText "b21c" "Laptop" "false"

def homeTexts : List (DiscoveryAnnouncement × List UInt8) :=
  [(deskState.ourAnnouncement true, deskAsks),
    (deskState.ourAnnouncement false, homeText "7f3a" "Desk" "false"),
    (laptopState.ourAnnouncement true, homeText "b21c" "Laptop" "true"),
    (laptopState.ourAnnouncement false, laptopAnswers)]

def homeJson : Json where
  fromSlice data := (homeTexts.find? fun pair => pair.2 = data).map Prod.fst
  toVec announcement := (homeTexts.find? fun pair => pair.1 = announcement).map Prod.snd

theorem home_faithful : homeJson.Faithful := by
  intro announcement data encoded
  obtain ⟨pair, found, rfl⟩ := Option.map_eq_some_iff.mp encoded
  have same : pair.1 = announcement := by simpa using List.find?_some found
  have member := List.mem_of_find?_eq_some found
  have back : homeTexts.all (fun pair => homeJson.fromSlice pair.2 == some pair.1) = true := by decide +kernel
  rw [← same]
  simpa using List.all_eq_true.mp back pair member

theorem home_seats (i : Nat) (me : Neighbour) (here : homeLan.neighbours[i]? = some me) :
    (i = 0 ∧ me = ⟨"192.168.1.2", deskState⟩) ∨ (i = 1 ∧ me = ⟨"192.168.1.3", laptopState⟩) := by
  cases i with
  | zero => exact .inl ⟨rfl, (Option.some.inj here).symm⟩
  | succ i =>
      cases i with
      | zero => exact .inr ⟨rfl, (Option.some.inj here).symm⟩
      | succ i => simp [homeLan] at here

theorem home_sized : Sized homeJson 2 homeLan := by
  refine ⟨rfl, ?_⟩
  intro i me here
  rcases home_seats i me here with ⟨_, rfl⟩ | ⟨_, rfl⟩ <;> decide +kernel

-- The laptop's copy of the announcement, its answer, and the copy that loops back.
def homeTalk : List LanLabel :=
  [.receive ⟨"192.168.1.2", 1, deskAsks⟩ 1000 0, .receive ⟨"192.168.1.3", 0, laptopAnswers⟩ 1001 1,
    .receive ⟨"192.168.1.2", 0, deskAsks⟩ 1002 0]

-- There are no storms of answers: an announcement among size engines is good
-- for at most twice as many datagrams, and whatever the network adds for two.
theorem discovery_traffic_bounded (json : Json) (faithful : json.Faithful) (size : Nat) (start lan : Lan)
    (sized : Sized json size start) (labels : List LanLabel)
    (replayed : Transition.replay (lanStep json) (fun lan label => label.sized json lan = true) start
      labels = some lan) :
    lan.flying.length + (labels.map LanLabel.handled).sum ≤
      2 * start.flying.length + (labels.map (LanLabel.brings size)).sum := by
  obtain ⟨_, paid⟩ :=
    Waiting.replay_paid (lanStep json) _ (Sized json size) (Lan.load json) LanLabel.handled
      (LanLabel.brings size)
    (by
      intro state label next good allowed stepped
      have move := lan_step_moves json state next label stepped
      exact ⟨move_sized json size state next label good allowed move,
        move_paid json faithful size state next label good move⟩)
    labels start lan sized replayed
  have least := (load_bounds json lan.flying).1
  have most := (load_bounds json start.flying).2
  simp only [Lan.load] at paid
  omega

theorem home_traffic : ∃ lan : Lan,
    Transition.replay (lanStep homeJson) (fun lan label => label.sized homeJson lan = true) homeLan
    (.announce 0 :: homeTalk) = some lan ∧
      lan.flying.length + 3 ≤ 4 := by
  have checked :
    (Transition.replay (lanStep homeJson) (fun lan label => label.sized homeJson lan = true) homeLan
      (.announce 0 :: homeTalk)).isSome = true := by decide +kernel
  obtain ⟨lan, replayed⟩ := Option.isSome_iff_exists.mp checked
  have bounded := discovery_traffic_bounded homeJson home_faithful 2 homeLan lan home_sized
    (.announce 0 :: homeTalk) replayed
  exact ⟨lan, replayed, bounded⟩

end GoshTransfer
