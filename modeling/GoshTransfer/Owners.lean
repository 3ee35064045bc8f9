import GoshTransfer.Isolation
import GoshTransfer.Lib.Renumbering

set_option autoImplicit false

namespace GoshTransfer

open InodeStore

-- Two sessions under one id that an owner cannot tell apart. What the lock is
-- held by may differ, and of a foreign session everything but the owner.
structure SessionAlike (caller : String) (a b : Session) : Prop where
  named : a.id = b.id
  owned : a.owner = b.owner
  free : a.lock = none ↔ b.lock = none
  own : a.owner = caller → a.record = b.record ∧ a.finished = b.finished ∧ a.cancel = b.cancel

def Store.ownerOf (store : Store) (id : String) : Option String :=
  (store.sessions.lookup id).bind fun s => (store.heap[s]?).map Session.owner

-- The journal and the partials of the sessions of other owners.
def Store.hides (store : Store) (caller : String) (path : Path) : Prop :=
  ∃ id who, store.ownerOf id = some who ∧ who ≠ caller ∧
    (path = journalPath id ∨ ∃ file, path = partPath id file)

structure StoreAlike (caller : String) (pair : Nat → Nat → Prop) (left right : Store) : Prop where
  registration : left.registration = none ↔ right.registration = none
  ids : ∀ id, left.sessions.lookup id = none ↔ right.sessions.lookup id = none
  sessions : ∀ id s t, left.sessions.lookup id = some s → right.sessions.lookup id = some t →
    ∃ a b, left.heap[s]? = some a ∧ right.heap[t]? = some b ∧ SessionAlike caller a b
  disk : Matching (fun path => ¬ left.hides caller path) pair left.disk right.disk

-- The same session ids and owners, the same locks, and the same records,
-- partials and journals but for those of foreign sessions.
structure Alike (caller : String) (left right : State) : Prop where
  running : left.running = right.running
  store : ∃ pair, StoreAlike caller pair left.store right.store

-- The two sides act alike on their objects s and t.
inductive ActAlike (pair : Nat → Nat → Prop) (s t : Nat) : Act → Act → Prop where
  | tau : ActAlike pair s t .tau .tau
  | enroll : ActAlike pair s t .enroll .enroll
  | retire : ActAlike pair s t .retire .retire
  | acquire : ActAlike pair s t (.acquire s) (.acquire t)
  | release : ActAlike pair s t (.release s) (.release t)
  | trip : ActAlike pair s t (.trip s) (.trip t)
  | finish : ActAlike pair s t (.finish s) (.finish t)
  | assign (record : Record) : ActAlike pair s t (.assign s record) (.assign t record)
  | persist (record : Record) (saved : Bool) : ActAlike pair s t (.persist s record saved)
      (.persist t record saved)
  | openPart (path : Path) : ActAlike pair s t (.openPart path) (.openPart path)
  | append (i j : Nat) (bytes : Bytes) (paired : pair i j) : ActAlike pair s t (.append i bytes)
      (.append j bytes)
  | remove (path : Path) : ActAlike pair s t (.remove path) (.remove path)
  | mkdirs (paths : List Path) : ActAlike pair s t (.mkdirs paths) (.mkdirs paths)
  | link (i j : Nat) (path : Path) (paired : pair i j) : ActAlike pair s t (.link i path) (.link j path)

def Act.pairs (pair : Nat → Nat → Prop) (left right : Store) : Act → Nat → Nat → Prop
  | .openPart _ => extended pair left.disk right.disk
  | _ => pair

-- One id stands for s on the left and for t on the right.
structure Bound (id : String) (s t : Nat) (left right : Store) : Prop where
  left : left.sessions.lookup id = some s
  right : right.sessions.lookup id = some t

-- s and t are one session or none.
def Together (s t : Nat) (left right : Store) : Prop := ∀ id s' t', Bound id s' t' left right →
    (s' = s ↔ t' = t)

theorem on_owner (act : Act) (op s : Nat) (session : Session) :
    (act.on op s session).owner = session.owner := by
  cases act <;> simp only [Act.on] <;> split <;> rfl

theorem hides_same (caller : String) (before after : Store) (path : Path)
    (same : ∀ id, after.ownerOf id = before.ownerOf id) :
    after.hides caller path ↔ before.hides caller path := by
  unfold Store.hides
  simp only [same]

theorem owner_of_apply (store : Store) (o : Nat) (act : Act) (noInsert : ∀ record, act ≠ .insert record)
    (noEvict : ∀ id, act ≠ .evict id) (id : String) : (store.apply o act).ownerOf id = store.ownerOf id := by
  unfold Store.ownerOf
  rw [apply_sessions store o act noInsert noEvict]
  cases store.sessions.lookup id with
  | none => rfl
  | some s =>
      cases here : store.heap[s]? with
      | some session => simp [apply_heap store o act s session here, on_owner, here]
      | none =>
          have short := List.getElem?_eq_none_iff.mp here
          have absent : (store.apply o act).heap[s]? = none :=
            List.getElem?_eq_none_iff.mpr (by rwa [apply_length store o act noInsert])
          simp [absent, here]

theorem bound_together (left right : State) (baseLeft : Base left) (baseRight : Base right) (id : String)
    (s t : Nat) (bond : Bound id s t left.store right.store) : Together s t left.store right.store := by
  intro id' s' t' bond'
  obtain ⟨a, atS, named⟩ := baseLeft.mapped id s bond.left
  obtain ⟨b, atT, named'⟩ := baseRight.mapped id t bond.right
  constructor
  · rintro rfl
    obtain ⟨other, there, otherNamed⟩ := baseLeft.mapped id' s' bond'.left
    obtain rfl := Option.some.inj (atS.symm.trans there)
    obtain rfl : id' = id := otherNamed.symm.trans named
    exact Option.some.inj (bond'.right.symm.trans bond.right)
  · rintro rfl
    obtain ⟨other, there, otherNamed⟩ := baseRight.mapped id' t' bond'.right
    obtain rfl := Option.some.inj (atT.symm.trans there)
    obtain rfl : id' = id := otherNamed.symm.trans named'
    exact Option.some.inj (bond'.left.symm.trans bond.left)

theorem unbound_together (caller : String) (pair : Nat → Nat → Prop) (left right : Store)
    (alike : StoreAlike caller pair left right) :
    Together left.heap.length right.heap.length left right := by
  intro id s t bond
  obtain ⟨a, b, atS, atT, _⟩ := alike.sessions id s t bond.left bond.right
  have within := (List.getElem?_eq_some_iff.mp atS).1
  have within' := (List.getElem?_eq_some_iff.mp atT).1
  omega

theorem part_seen (caller : String) (state : State) (base : Base state) (id file : String)
    (sized : id.toList.length = 36) (mine : ∀ who, state.store.ownerOf id = some who → who = caller) :
    ¬ state.store.hides caller (partPath id file) := by
  rintro ⟨id', who, owned, foreign, same | ⟨file', same⟩⟩
  · exact part_ne_journal id id' file same
  · obtain ⟨s, present, _⟩ := Option.bind_eq_some_iff.mp owned
    obtain ⟨session, here, named⟩ := base.mapped id' s present
    have sized' := named ▸ session_id_length state base s session here
    obtain ⟨rfl, _⟩ := part_path_inj id id' file file' (sized.trans sized'.symm) same
    exact foreign (mine who owned)

theorem outside_seen (caller : String) (store : Store) (path : Path) (outside : Outside path) :
    ¬ store.hides caller path := by
  rintro ⟨id, who, _, _, rfl | ⟨file, rfl⟩⟩
  · exact journal_inside id outside
  · exact part_inside id file outside

section Acts

variable (caller : String) (pair : Nat → Nat → Prop) (s t : Nat) (act act' : Act)
    (acts : ActAlike pair s t act act')
include acts

theorem act_alike_map : (∀ record, act ≠ .insert record) ∧ (∀ id, act ≠ .evict id) ∧
    (∀ record, act' ≠ .insert record) ∧ (∀ id, act' ≠ .evict id) := by
  cases acts <;> simp

theorem on_alike (o p s' t' : Nat) (a b : Session) (same : s' = s ↔ t' = t)
    (alike : SessionAlike caller a b) :
    SessionAlike caller (act.on o s' a) (act'.on p t' b) := by
  obtain ⟨named, owned, free, own⟩ := alike
  by_cases hit : s' = s
  · have hit' := same.mp hit
    cases acts with
    | acquire =>
        simp only [Act.on, if_pos hit, if_pos hit']
        exact ⟨named, owned, by simp, own⟩
    | release =>
        simp only [Act.on, if_pos hit, if_pos hit']
        exact ⟨named, owned, by simp, own⟩
    | trip =>
        simp only [Act.on, if_pos hit, if_pos hit']
        exact ⟨named, owned, free, fun mine => ⟨(own mine).1, (own mine).2.1, rfl⟩⟩
    | finish =>
        simp only [Act.on, if_pos hit, if_pos hit']
        exact ⟨named, owned, free, fun mine => ⟨(own mine).1, congrArg Record.complete (own mine).1,
          (own mine).2.2⟩⟩
    | assign record =>
        simp only [Act.on, if_pos hit, if_pos hit']
        exact ⟨named, owned, free, fun mine => ⟨rfl, (own mine).2⟩⟩
    | persist record saved =>
        simp only [Act.on, if_pos hit, if_pos hit']
        exact ⟨named, owned, free, fun mine => ⟨rfl, (own mine).2⟩⟩
    | _ => exact ⟨named, owned, free, own⟩
  · have miss' : t' ≠ t := fun hit' => hit (same.mpr hit')
    cases acts <;> simp only [Act.on, if_neg hit, if_neg miss'] <;> exact ⟨named, owned, free, own⟩

theorem disk_alike (visible : Path → Prop) (left right : Store) (o p : Nat)
    (same : Matching visible pair left.disk right.disk) :
    Matching visible (act.pairs pair left right) (left.apply o act).disk (right.apply p act').disk := by
  cases acts with
  | persist record saved =>
      cases saved with
      | false => exact same
      | true => exact matching_save visible pair _ _ same _ record
  | openPart path => exact matching_create visible pair _ _ same path
  | append i j bytes paired => exact matching_append visible pair _ _ same i j bytes paired
  | remove path => exact matching_remove visible pair _ _ same path
  | mkdirs paths => exact matching_mkdirs visible pair _ _ same paths
  | link i j path paired => exact matching_link visible pair _ _ same i j path paired
  | _ => exact same

theorem registration_alike (left right : Store) (o p : Nat)
    (same : left.registration = none ↔ right.registration = none) :
    (left.apply o act).registration = none ↔ (right.apply p act').registration = none := by
  cases acts with
  | enroll => simp [Store.apply]
  | retire => simp [Store.apply]
  | _ => rwa [apply_registration left o _ (by simp) (by simp), apply_registration right p _ (by simp)
      (by simp)]

theorem store_alike (left right : Store) (o p : Nat) (together : Together s t left right)
    (alike : StoreAlike caller pair left right) :
    StoreAlike caller (act.pairs pair left right) (left.apply o act) (right.apply p act') := by
  obtain ⟨noInsert, noEvict, noInsert', noEvict'⟩ := act_alike_map pair s t act act' acts
  have sessions := apply_sessions left o act noInsert noEvict
  have sessions' := apply_sessions right p act' noInsert' noEvict'
  refine ⟨registration_alike pair s t act act' acts _ _ o p alike.registration, ?_, ?_, ?_⟩
  · intro id
    rw [sessions, sessions']
    exact alike.ids id
  · intro id s' t' here there
    rw [sessions] at here
    rw [sessions'] at there
    obtain ⟨a, b, atS, atT, twins⟩ := alike.sessions id s' t' here there
    exact ⟨_, _, apply_heap _ o act s' a atS, apply_heap _ p act' t' b atT,
      on_alike caller pair s t act act' acts o p s' t' a b (together id s' t' ⟨here, there⟩) twins⟩
  · refine matching_narrow _ _ _ _ (disk_alike pair s t act act' acts _ left right o p alike.disk) _ ?_
    intro path seen hidden
    exact seen ((hides_same caller _ _ path (owner_of_apply left o act noInsert noEvict)).mpr hidden)

end Acts

end GoshTransfer
