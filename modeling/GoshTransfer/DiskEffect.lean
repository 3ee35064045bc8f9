import GoshTransfer.Base

set_option autoImplicit false

namespace GoshTransfer

open InodeStore

-- What an act makes of one name and of the inodes.
def Act.node (act : Act) (disk : ReceiverDisk) (path : Path) : Option (Node Record) :=
  match act with
  | .persist _ record true | .journal record true =>
      if path = journalPath record.pending.id then some (.doc record) else disk.node path
  | .openPart part => if path = part then some (.file disk.inodes.length) else disk.node path
  | .remove gone => if path = gone then none else disk.node path
  | .link inode target => if path = target then some (.file inode) else disk.node path
  | .mkdirs paths => if path ∈ paths then some ((disk.node path).getD .dir) else disk.node path
  | _ => disk.node path

def Act.inodes (act : Act) (disk : ReceiverDisk) : List Bytes :=
  match act with
  | .openPart _ => disk.inodes ++ [[]]
  | .append inode bytes => disk.inodes.modify inode (· ++ bytes)
  | _ => disk.inodes

theorem apply_node (store : Store) (op : Nat) (act : Act) (path : Path) :
    (store.apply op act).disk.node path = act.node store.disk path := by
  cases act with
  | persist s record saved =>
      cases saved with
      | false => rfl
      | true => exact node_save _ _ _ _
  | journal record saved =>
      cases saved with
      | false => rfl
      | true => exact node_save _ _ _ _
  | openPart part => exact node_create _ _ _
  | remove gone => exact node_remove _ _ _
  | link inode target => exact node_link _ _ _ _
  | mkdirs paths =>
      refine (mkdirs_node paths store.disk path).trans ?_
      by_cases member : path ∈ paths <;> simp [Act.node, member]
  | _ => rfl

theorem apply_inodes (store : Store) (op : Nat) (act : Act) :
    (store.apply op act).disk.inodes = act.inodes store.disk := by
  cases act with
  | persist s record saved => cases saved <;> rfl
  | journal record saved => cases saved <;> rfl
  | mkdirs paths => exact mkdirs_inodes paths store.disk
  | _ => rfl

theorem parent_dirs_outside (file : TransferFile) (parent : Path) (allowed : Publishable file)
    (start : parent <+: (receiveTarget file).1) (dir : Path) (member : dir ∈ parentDirs parent) :
    Outside dir := by
  intro reserved
  have listed : dir ∈ parent.inits := List.mem_of_mem_drop member
  have shorter : dir <+: (receiveTarget file).1 := ((List.mem_inits _ _).mp listed).trans start
  obtain ⟨rest, whole⟩ := shorter
  cases dir with
  | nil => cases reserved
  | cons first tail =>
      obtain rfl : first = stateDir := by simpa using reserved
      have head : reservedTarget ((receiveTarget file).1 ++ [(receiveTarget file).2]) = true := by
        rw [← whole]
        simp [reservedTarget, state_dir_reserved]
      rw [allowed] at head
      cases head

theorem doc_of_node (disk other : ReceiverDisk) (path : Path) (same : disk.node path = other.node path) :
    disk.doc path = other.doc path := by
  simp [Disk.doc, same]

theorem journal_id (record : Record) (session : Session) (named : session.id = session.record.pending.id)
    (forward : session.record.Forward record) : record.pending.id = session.id := by
  rw [named, forward.same.2.1]

theorem session_id_length (state : State) (base : Base state) (s : Nat) (session : Session)
    (here : state.store.heap[s]? = some session) : session.id.toList.length = 36 := by
  have sound := base.sound s session here
  rw [sound.named, sound.record.identity]
  exact valid_id_length _ sound.record.valid

section Names

variable (sha256 : Bytes → String) (state : State) (base : Base state) (o : Nat) (fault : Option Fault)
    (op op' : Op) (act : Act)
variable (log : List Entry) (here : state.ops[o]? = some op)
    (moved : OpMove sha256 state.store fault op act log op')
include base here moved

theorem link_outside (inode : Nat) (target : Path) (linked : act = .link inode target) : Outside target := by
  subst linked
  cases op_effect sha256 state.store fault op op' _ log moved with
  | quiet _ _ _ silent => cases silent
  | link request s session x index _ _ there source free =>
      obtain ⟨_, _, _, planned⟩ := base.facts o _ here s session rfl there
      exact (base.sound s session there).record.targets _ _ planned

omit base here in
theorem mkdirs_outside (paths : List Path) (made : act = .mkdirs paths) (dir : Path)
    (member : dir ∈ paths) : Outside dir := by
  subst made
  generalize same : Act.mkdirs paths = act at moved
  cases op_effect sha256 state.store fault op op' act log moved with
  | mkdirs _ _ parent file allowed start =>
      cases same
      exact parent_dirs_outside file parent allowed start dir member
  | quiet _ _ _ silent =>
      subst same
      cases silent
  | _ => cases same

theorem inside_node (path : Path) (inside : ¬ Outside path) : (state.store.apply o act).disk.node path =
    match act with
    | .persist _ record true | .journal record true =>
        if path = journalPath record.pending.id then some (.doc record) else state.store.disk.node path
    | .openPart part => if path = part then some (.file state.store.disk.inodes.length)
        else state.store.disk.node path
    | .remove gone => if path = gone then none else state.store.disk.node path
    | _ => state.store.disk.node path := by
  rw [apply_node]
  cases act with
  | link inode target =>
      have outside := link_outside sha256 state base o fault op op' _ log here moved inode target rfl
      have different : path ≠ target := fun same => inside (same ▸ outside)
      simp [Act.node, different]
  | mkdirs paths =>
      have absent : path ∉ paths :=
        fun member => inside (mkdirs_outside sha256 state fault op op' _ log moved paths rfl path member)
      simp [Act.node, absent]
  | persist s record saved => cases saved <;> rfl
  | journal record saved => cases saved <;> rfl
  | _ => rfl

theorem journal_cases (id : String) :
    (state.store.apply o act).disk.doc (journalPath id) = state.store.disk.doc (journalPath id) ∨
    (∃ s session record, act = .persist s record true ∧ op.holds = some s ∧
      state.store.heap[s]? = some session ∧ session.id = id ∧
      session.record.Forward record ∧ (state.store.apply o act).disk.doc (journalPath id) = some record) ∨
    (∃ request, op = .register request .create ∧ act = .journal request.record true ∧ request.id = id ∧
      (state.store.apply o act).disk.doc (journalPath id) = some request.record) ∨
    (∃ s, op = .forget id (.discard s []) ∧ act = .remove (journalPath id) ∧ op' = .forget id (.evict s) ∧
      (state.store.apply o act).disk.doc (journalPath id) = none) := by
  have node := inside_node sha256 state base o fault op op' act log here moved (journalPath id)
    (journal_inside id)
  have unchanged : (state.store.apply o act).disk.node (journalPath id) = state.store.disk.node
    (journalPath id) →
      (state.store.apply o act).disk.doc (journalPath id) = state.store.disk.doc (journalPath id) :=
      doc_of_node _ _ _
  cases op_effect sha256 state.store fault op op' act log moved with
  | quiet _ _ _ silent =>
      refine .inl (unchanged ?_)
      cases act <;> first | exact node | cases silent
  | insert request => exact .inl (unchanged node)
  | evict _ s => exact .inl (unchanged node)
  | journal request saved =>
      cases saved with
      | false => exact .inl (unchanged node)
      | true =>
          dsimp only at node
          split at node
          · rename_i same
            exact .inr (.inr
              (.inl ⟨request, rfl, rfl, (journal_path_inj _ _ same).symm, (doc_node _ _ _).mpr node⟩))
          · exact .inl (unchanged node)
  | persist _ _ s session record saved held there =>
      cases saved with
      | false => exact .inl (unchanged node)
      | true =>
          dsimp only at node
          split at node
          · rename_i same
            have forward :=
              (moved_session sha256 state base o fault op op' _ log here moved s session there).2
            have onRecord : ((Act.persist s record true).on o s session).record = record := by simp [Act.on]
            rw [onRecord] at forward
            have owned := journal_id record session (base.sound s session there).named forward
            exact .inr (.inl ⟨s, session, record, rfl, held, there, owned.symm.trans
              (journal_path_inj _ _ same).symm, forward,
              (doc_node _ _ _).mpr node⟩)
          · exact .inl (unchanged node)
  | openPart request s session file baseline current there absent =>
      refine .inl (unchanged (node.trans (if_neg ?_)))
      exact fun same => part_ne_journal _ _ _ same.symm
  | append request s x chunk rest bytes op' start fits => exact .inl (unchanged node)
  | removePart _ _ s session file held there =>
      refine .inl (unchanged (node.trans (if_neg ?_)))
      exact fun same => part_ne_journal _ _ _ same.symm
  | removeJournal forgotten s =>
      dsimp only at node
      split at node
      · rename_i same
        obtain rfl := journal_path_inj _ _ same
        exact .inr (.inr (.inr ⟨s, rfl, rfl, rfl, by simp [Disk.doc, node]⟩))
      · exact .inl (unchanged node)
  | mkdirs _ _ parent file allowed start => exact .inl (unchanged node)
  | link request s session x index target inode there source free => exact .inl (unchanged node)

theorem journal_untouched (id : String) (noPersist : ∀ s record, act ≠ .persist s record true)
    (noJournal : ∀ record, act ≠ .journal record true) (noErase : act ≠ .remove (journalPath id)) :
    (state.store.apply o act).disk.doc (journalPath id) = state.store.disk.doc (journalPath id) := by
  rcases journal_cases sha256 state base o fault op op' act log here moved id with
    same | ⟨t, _, record, saved, _, _, _, _, _⟩ | ⟨request, _, written, _, _⟩ | ⟨t, _, erased, _, _⟩
  · exact same
  · exact absurd saved (noPersist t record)
  · exact absurd written (noJournal _)
  · exact absurd erased noErase

theorem persisted_journal (s : Nat) (session : Session) (record : Record)
    (saved : act = .persist s record true) (at_ : state.store.heap[s]? = some session) :
    (state.store.apply o act).disk.doc (journalPath session.id) = some record := by
  subst saved
  have forward := (moved_session sha256 state base o fault op op' _ log here moved s session at_).2
  have onRecord : ((Act.persist s record true).on o s session).record = record := by simp [Act.on]
  rw [onRecord] at forward
  have named := journal_id record session (base.sound s session at_).named forward
  rw [← named]
  exact (doc_node _ _ _).mpr ((node_save _ _ _ _).trans (if_pos rfl))

theorem part_cases (id file : String) (canonical : id.toList.length = 36) :
    (state.store.apply o act).disk.node (partPath id file) = state.store.disk.node (partPath id file) ∨
    (∃ request s session declared baseline current, op = .upload request
      (.openPart s declared baseline current) ∧
      state.store.heap[s]? = some session ∧
        session.id = id ∧ declared.id = file ∧ act = .openPart (partPath id file) ∧
      op' = .upload request
      (.receive s (opened declared state.store.disk.inodes.length baseline current) request.chunks) ∧
      state.store.disk.node (partPath id file) = none ∧
      (state.store.apply o act).disk.node (partPath id file) = some (.file state.store.disk.inodes.length)) ∨
    (∃ s session, op.holds = some s ∧ state.store.heap[s]? = some session ∧ session.id = id ∧
      act = .remove (partPath id file) ∧
      (state.store.apply o act).disk.node (partPath id file) = none) := by
  have node := inside_node sha256 state base o fault op op' act log here moved (partPath id file)
    (part_inside id file)
  cases op_effect sha256 state.store fault op op' act log moved with
  | quiet _ _ _ silent =>
      refine .inl ?_
      cases act <;> first | exact node | cases silent
  | insert request => exact .inl node
  | evict _ s => exact .inl node
  | journal request saved =>
      refine .inl ?_
      cases saved with
      | false => exact node
      | true => exact node.trans (if_neg (part_ne_journal _ _ _))
  | persist _ _ s session record saved held there =>
      refine .inl ?_
      cases saved with
      | false => exact node
      | true => exact node.trans (if_neg (part_ne_journal _ _ _))
  | openPart request s session declared baseline current there absent =>
      dsimp only at node
      split at node
      · rename_i same
        have sized := session_id_length state base s session there
        obtain ⟨rfl, rfl⟩ := part_path_inj _ _ _ _ (canonical.trans sized.symm) same
        exact .inr (.inl ⟨request, s, session, declared, baseline, current, rfl, there, rfl, rfl, rfl, rfl,
          absent, node⟩)
      · exact .inl node
  | append request s x chunk rest bytes op' start fits => exact .inl node
  | removePart _ _ s session other held there =>
      dsimp only at node
      split at node
      · rename_i same
        have sized := session_id_length state base s session there
        obtain ⟨rfl, rfl⟩ := part_path_inj _ _ _ _ (canonical.trans sized.symm) same
        exact .inr (.inr ⟨s, session, held, there, rfl, rfl, node⟩)
      · exact .inl node
  | removeJournal forgotten s => exact .inl (node.trans (if_neg (part_ne_journal _ _ _)))
  | mkdirs _ _ parent file allowed start => exact .inl node
  | link request s session x index target inode there source free => exact .inl node

end Names

end GoshTransfer
