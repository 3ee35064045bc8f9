import GoshTransfer.Conclusions
import GoshTransfer.LegacyFiles

set_option autoImplicit false

namespace GoshTransfer

open InodeStore

-- An upload handler is dropped when its peer hangs up or stop_server has waited
-- for a second. Its guards and its strong reference go; it removes no file and
-- rolls no bytes back. The answer stands for the one that is not sent.
def ChunkPhase.isDone : ChunkPhase → Bool
  | .done _ => true
  | _ => false

def Legacy.letGo (legacy : Legacy) (o : Nat) (phase : ChunkPhase) : Legacy :=
  { legacy with
    decisions := if phase.holds then none else legacy.decisions
    seats :=
      match phase.owned with
      | some k => legacy.seats.modify k fun seat =>
          ⟨seat.owners.erase o, if phase.locked then none else seat.holder⟩
      | none => legacy.seats }

def goneUpload (params : ChunkRequest) : LegacyOp := .chunk params
    (.done ⟨499, .error "Client closed request"⟩)

def LegacyState.dropped (state : LegacyState) (o : Nat) (params : ChunkRequest) (phase : ChunkPhase) :
    LegacyState :=
  { state with legacy := state.legacy.letGo o phase, ops := state.ops.set o (goneUpload params) }

def LegacyState.letGo (state : LegacyState) (o : Nat) : Option LegacyState :=
  match state.ops[o]? with
  | some (.chunk params phase) => if phase.isDone then none else some (state.dropped o params phase)
  | _ => none

inductive LegacyHostLabel where
  | label (label : LegacyLabel)
  | abandon (o : Nat)

def legacyHostStep (state : LegacyState) : LegacyHostLabel → Option LegacyState
  | .label label => legacyStep state label
  | .abandon o => state.letGo o

theorem legacy_let_go_cases (state next : LegacyState) (o : Nat) (dropped : state.letGo o = some next) :
    ∃ params phase, state.ops[o]? = some (.chunk params phase) ∧ next = state.dropped o params phase := by
  unfold LegacyState.letGo at dropped
  split at dropped
  · rename_i params phase here
    split at dropped
    · cases dropped
    · cases dropped
      exact ⟨params, phase, here, rfl⟩
  · cases dropped

section Dropped

variable (state : LegacyState) (o : Nat) (params : ChunkRequest) (phase : ChunkPhase)
    (here : state.ops[o]? = some (.chunk params phase))

theorem dropped_op (p : Nat) (q : LegacyOp) (there : (state.dropped o params phase).ops[p]? = some q) :
    (p = o ∧ q = goneUpload params) ∨ (p ≠ o ∧ state.ops[p]? = some q) :=
      Transition.set_cases state.ops o p _ q there

theorem dropped_chunk (p : Nat) (params' : ChunkRequest) (phase' : ChunkPhase)
    (there : (state.dropped o params phase).ops[p]? = some (.chunk params' phase')) :
    (∃ reply, phase' = .done reply) ∨ state.ops[p]? = some (.chunk params' phase') := by
  rcases dropped_op state o params phase p _ there with ⟨_, same⟩ | ⟨_, before⟩
  · cases same
    exact .inl ⟨_, rfl⟩
  · exact .inr before

theorem dropped_seat (k : Nat) (seat : Seat) (at_ : state.legacy.seats[k]? = some seat) :
    (state.dropped o params phase).legacy.seats[k]? =
      some (if phase.owned = some k then ⟨seat.owners.erase o, if phase.locked then none else seat.holder⟩
        else seat) := by
  unfold LegacyState.dropped Legacy.letGo
  cases phase.owned with
  | none => simpa using at_
  | some j =>
      simp only [List.getElem?_modify, at_, Option.some.injEq]
      by_cases same : j = k <;> simp [same]

include here

theorem locked_dropped (locked : Locked state) : Locked (state.dropped o params phase) := by
  have released : ∀ p, p ≠ o → state.legacy.decisions = some p →
    (state.dropped o params phase).legacy.decisions = some p := by
    intro p other decisions
    have free : phase.holds = false := by
      by_contra holds
      have mine := locked.held o _ here (by simpa [LegacyOp.holds] using holds)
      exact other (Option.some.inj (decisions.symm.trans mine))
    simpa [LegacyState.dropped, Legacy.letGo, free] using decisions
  refine ⟨?_, ?_, ?_, ?_⟩
  · intro p q there holds
    rcases dropped_op state o params phase p q there with ⟨_, rfl⟩ | ⟨other, before⟩
    · cases holds
    · exact released p other (locked.held p q before holds)
  · intro p decisions
    by_cases held : phase.holds = true
    · simp [LegacyState.dropped, Legacy.letGo, held] at decisions
    · obtain ⟨q, there, holds⟩ :=
        locked.holder p (by simpa [LegacyState.dropped, Legacy.letGo, held] using decisions)
      have other : o ≠ p := by
        rintro rfl
        cases here.symm.trans there
        exact held holds
      exact ⟨q, (List.getElem?_set_ne other).trans there, holds⟩
  · intro p q id k there owns
    rcases dropped_op state o params phase p q there with ⟨_, rfl⟩ | ⟨other, before⟩
    · cases owns
    · obtain ⟨lock, seat, at_, owner⟩ := locked.owned p q id k before owns
      refine ⟨lock, _, dropped_seat state o params phase k seat at_, ?_⟩
      split
      · exact Finset.mem_erase.mpr ⟨other, owner⟩
      · exact owner
  · intro p q id k seat' there owns inside at'
    rcases dropped_op state o params phase p q there with ⟨_, rfl⟩ | ⟨other, before⟩
    · cases owns
    · obtain ⟨lock, seat, at_, _⟩ := locked.owned p q id k before owns
      have holder := locked.sole p q id k seat before owns inside at_
      obtain rfl := Option.some.inj (at'.symm.trans (dropped_seat state o params phase k seat at_))
      split
      · rename_i mine
        have waiting : phase.locked = false := by
          by_contra past
          have own : (LegacyOp.chunk params phase).owned = some (params.transferId, k) := by
            simp [LegacyOp.owned, mine]
          have holder' := locked.sole o _ _ k seat here own (by simpa [LegacyOp.locked] using past) at_
          exact other (Option.some.inj (holder.symm.trans holder'))
        simpa [waiting] using holder
      · exact holder

theorem settled_dropped (locked : Locked state) : (state.dropped o params phase).settled = state.settled := by
  unfold LegacyState.settled
  by_cases held : phase.holds = true
  · have decisions := locked.held o _ here held
    simp [LegacyState.dropped, Legacy.letGo, held, decisions, here, LegacyOp.todo, Ledger.settle]
  · have same : (state.dropped o params phase).legacy.decisions = state.legacy.decisions := by
      simp [LegacyState.dropped, Legacy.letGo, held]
    rw [same]
    cases decisions : state.legacy.decisions with
    | none => rfl
    | some p =>
        obtain ⟨q, there, holds⟩ := locked.holder p decisions
        have other : o ≠ p := by
          rintro rfl
          cases here.symm.trans there
          exact held holds
        simp [LegacyState.dropped, List.getElem?_set_ne other, Legacy.letGo]

theorem base_dropped (base : LegacyBase state) : LegacyBase (state.dropped o params phase) := by
  refine ⟨locked_dropped state o params phase here base.locked, ?_, ?_, ?_⟩
  · intro p q there
    rcases dropped_op state o params phase p q there with ⟨_, rfl⟩ | ⟨_, before⟩
    · trivial
    · exact base.checked p q before
  · intro p q there
    rcases dropped_op state o params phase p q there with ⟨_, rfl⟩ | ⟨_, before⟩
    · intro entry member
      cases member
    · exact base.drafted p q before
  · rw [settled_dropped state o params phase here base.locked]
    exact base.lives

theorem issued_dropped (base : LegacyBase state) (issued : Issued state) : Issued
    (state.dropped o params phase) := by
  have settled := settled_dropped state o params phase here base.locked
  have known : ∀ id token, Known (state.dropped o params phase) id token ↔ Known state id token := by
    intro id token
    unfold Known
    rw [settled]
    rfl
  refine ⟨issued.record, ?_, ?_, ?_, ?_⟩
  · rw [settled]
    exact issued.settledRecord
  · intro id token token' left right
    exact issued.one id token token' ((known id token).mp left) ((known id token').mp right)
  · intro id token transfer pending unapproved
    rw [settled] at pending unapproved
    rw [known]
    exact issued.fresh id token transfer pending unapproved
  · intro p q there
    rw [settled]
    rcases dropped_op state o params phase p q there with ⟨_, rfl⟩ | ⟨_, before⟩
    · exact idle_planned _ _ rfl
    · exact issued.planned p q before

theorem fate_dropped (base : LegacyBase state) (fate : TokenFate state) : TokenFate
    (state.dropped o params phase) := by
  intro id token approved
  rw [settled_dropped state o params phase here base.locked]
  rcases fate id token approved with kept | cancelled | ⟨p, q, report, there, pruning, planned⟩
  · exact .inl kept
  · exact .inr (.inl cancelled)
  · have other : o ≠ p := by
      rintro rfl
      cases here.symm.trans there
      cases pruning
    exact .inr (.inr ⟨p, q, report, (List.getElem?_set_ne other).trans there, pruning, planned⟩)

theorem spared_dropped (key : String) (spared : Spared key state) : Spared key
    (state.dropped o params phase) := by
  have base := spared.approvals.base
  have settled := settled_dropped state o params phase here base.locked
  refine ⟨⟨base_dropped state o params phase here base, issued_dropped state o params phase here base
    spared.approvals.issued⟩,
    fate_dropped state o params phase here base spared.fate, ?_, ?_, ?_⟩
  · intro p r params' phase' q there mine active there'
    rcases dropped_chunk state o params phase p params' phase' there with ⟨_, rfl⟩ | before
    · cases active
    · rcases dropped_op state o params phase r q there' with ⟨_, rfl⟩ | ⟨_, before'⟩
      · simp [goneUpload, LegacyOp.pruning]
      · exact spared.apart p r params' phase' q before mine active before'
  · intro p params' phase' there mine active
    rw [settled]
    rcases dropped_chunk state o params phase p params' phase' there with ⟨_, rfl⟩ | before
    · cases active
    · exact spared.alive p params' phase' before mine active
  · intro p params' phase' transfer there mine has
    rw [settled]
    rcases dropped_chunk state o params phase p params' phase' there with ⟨_, rfl⟩ | before
    · cases has
    · exact spared.read p params' phase' transfer before mine has

theorem tallied_dropped (key : String) (tallied : Tallied key state) : Tallied key
    (state.dropped o params phase) := by
  refine ⟨spared_dropped state o params phase here key tallied.spared, ?_, ?_, ?_, ?_⟩
  · intro p params' phase' transfer file there listing
    rcases dropped_chunk state o params phase p params' phase' there with ⟨_, rfl⟩ | before
    · cases listing
    · exact tallied.listed p params' phase' transfer file before listing
  · intro p params' phase' there pending
    rcases dropped_chunk state o params phase p params' phase' there with ⟨_, rfl⟩ | before
    · cases pending
    · exact tallied.fresh p params' phase' before pending
  · intro p params' phase' there mine
    rcases dropped_chunk state o params phase p params' phase' there with ⟨_, rfl⟩ | before
    · trivial
    · exact tallied.tested p params' phase' before mine
  · rw [settled_dropped state o params phase here tallied.spared.approvals.base.locked]
    exact tallied.sound

theorem concluded_dropped (id : String) (concluded : Concluded id state) : Concluded id
    (state.dropped o params phase) := by
  have settled := settled_dropped state o params phase here concluded.tallied.spared.approvals.base.locked
  refine ⟨tallied_dropped state o params phase here id concluded.tallied, ?_, ?_, concluded.once, ?_, ?_,
    concluded.single, concluded.whole,
    ?_, ?_, concluded.closed⟩
  · rw [settled]
    exact concluded.received
  · rw [settled]
    exact concluded.counted
  · rw [settled]
    exact concluded.completed
  · intro p params' k x transfer there mine
    rcases dropped_chunk state o params phase p params' _ there with ⟨_, same⟩ | before
    · cases same
    · exact concluded.announcing p params' k x transfer before mine
  · intro p q there revokes
    rw [settled]
    rcases dropped_op state o params phase p q there with ⟨_, rfl⟩ | ⟨_, before⟩
    · obtain ⟨entry, member, _⟩ := revokes
      cases member
    · exact concluded.revoking p q before revokes
  · rw [settled]
    exact concluded.revoked

omit here in
theorem filed_dropped (filed : Filed state) : Filed (state.dropped o params phase) := by
  have kept : ∀ (p : Nat) (q : LegacyOp) (path : Path) (inode : Nat),
    (state.dropped o params phase).ops[p]? = some q →
      q.dest = some (path, inode) → state.ops[p]? = some q := by
    intro p q path inode there dest
    rcases dropped_op state o params phase p q there with ⟨_, rfl⟩ | ⟨_, before⟩
    · cases dest
    · exact before
  refine ⟨⟨filed.placed.allocated, ?_, ?_⟩, ?_, ?_⟩
  · exact fun p q path inode there dest => filed.placed.named p q path inode
      (kept p q path inode there dest) dest
  · exact fun p r q q' path path' inode there there' dest dest' =>
      filed.placed.apart p r q q' path path' inode (kept p q path inode there dest)
        (kept r q' path' inode there' dest') dest dest'
  · exact fun p q path inode n there dest filled => filed.sized p q path inode n
      (kept p q path inode there dest) dest filled
  · intro id file path inode told
    obtain ⟨named, sole, unowned⟩ := filed.stored id file path inode told
    exact ⟨named, sole, fun p q path' there dest => unowned p q path' (kept p q path' inode there dest) dest⟩

end Dropped

end GoshTransfer
