import GoshTransfer.DiskEffect

set_option autoImplicit false

namespace GoshTransfer

open InodeStore

-- Partials are regular files of their own, whatever fails and whatever is
-- interleaved. A destination may share the bytes of one, a second partial never.
structure Parted (disk : ReceiverDisk) : Prop where
  allocated : disk.Allocated
  plain : ∀ (id file : String) (node : Node Record), id.toList.length = 36 →
    disk.node (partPath id file) = some node → ∃ inode, node = .file inode
  separate : ∀ (id file id' file' : String) (inode : Nat), id.toList.length = 36 → id'.toList.length = 36 →
    disk.node (partPath id file) = some (.file inode) →
      disk.node (partPath id' file') = some (.file inode) → id = id' ∧ file = file'

theorem inode_kept (store : Store) (o : Nat) (act : Act) (inode : Nat) (content : Bytes)
    (here : store.disk.inodes[inode]? = some content)
    (noAppend : ∀ bytes, act = .append inode bytes → bytes = []) :
    (store.apply o act).disk.inodes[inode]? = some content := by
  rw [apply_inodes]
  cases act with
  | openPart path => exact (List.getElem?_append_left (List.getElem?_eq_some_iff.mp here).1).trans here
  | append fd bytes =>
      refine (inode_append store.disk fd inode bytes content here).trans ?_
      by_cases same : inode = fd
      · subst same
        simp [noAppend bytes rfl]
      · simp [same]
  | _ => exact here

theorem held_origin (sha256 : Bytes → String) (store : Store) (o : Nat) (fault : Option Fault) (op op' : Op)
    (act : Act) (log : List Entry) (moved : OpMove sha256 store fault op act log op') (s : Nat)
    (session' : Session) (held : op'.holds = some s) (after : (store.apply o act).heap[s]? = some session') :
    ∃ session, store.heap[s]? = some session ∧ session' = act.on o s session := by
  rcases apply_heap_origin store o act s session' after with origin | ⟨record, rfl, _, _⟩
  · exact origin
  · cases op_effect sha256 store fault op op' _ log moved with
    | quiet _ _ _ silent => cases silent
    | insert request => cases held

section Advance

variable (sha256 : Bytes → String) (state : State) (base : Base state) (o : Nat) (fault : Option Fault)
    (op op' : Op) (act : Act)
variable (log : List Entry) (here : state.ops[o]? = some op)
    (moved : OpMove sha256 state.store fault op act log op')
include base here moved

omit base here in
theorem parted_allocated (parted : Parted state.store.disk) : (state.store.apply o act).disk.Allocated := by
  intro path inode present
  have longer : state.store.disk.inodes.length ≤ (state.store.apply o act).disk.inodes.length := by
    rw [apply_inodes]
    cases act <;> simp [Act.inodes]
  have old : state.store.disk.node path = some (.file inode) →
    inode < (state.store.apply o act).disk.inodes.length :=
    fun before => Nat.lt_of_lt_of_le (parted.allocated path inode before) longer
  rw [apply_node] at present
  cases op_effect sha256 state.store fault op op' act log moved with
  | quiet _ _ _ silent => cases act <;> first | exact old present | cases silent
  | insert request => exact old present
  | evict _ s => exact old present
  | journal request saved =>
      cases saved with
      | false => exact old present
      | true =>
          simp only [Act.node] at present
          split at present
          · cases present
          · exact old present
  | persist _ _ s session record saved held there =>
      cases saved with
      | false => exact old present
      | true =>
          simp only [Act.node] at present
          split at present
          · cases present
          · exact old present
  | openPart request s session file baseline current there absent =>
      simp only [Act.node] at present
      split at present
      · obtain rfl : state.store.disk.inodes.length = inode := by simpa using present
        rw [apply_inodes]
        simp [Act.inodes]
      · exact old present
  | append request s x chunk rest bytes _ start fits => exact old present
  | removePart _ _ s session file held there =>
      simp only [Act.node] at present
      split at present
      · cases present
      · exact old present
  | removeJournal _ s =>
      simp only [Act.node] at present
      split at present
      · cases present
      · exact old present
  | mkdirs _ _ parent file allowed start =>
      simp only [Act.node] at present
      split at present
      · cases before : state.store.disk.node path with
        | none => simp [before] at present
        | some node =>
            rw [before] at present
            exact old (before.trans present)
      · exact old present
  | link request s session x index target linked there source free =>
      simp only [Act.node] at present
      split at present
      · obtain rfl : linked = inode := by simpa using present
        exact Nat.lt_of_lt_of_le (parted.allocated _ _ source) longer
      · exact old present

theorem parted_plain (parted : Parted state.store.disk) :
    ∀ (id file : String) (node : Node Record), id.toList.length = 36 →
    (state.store.apply o act).disk.node (partPath id file) = some node → ∃ inode, node = .file inode := by
  intro id file node canonical present
  rcases part_cases sha256 state base o fault op op' act log here moved id file canonical with
    same | ⟨_, _, _, _, _, _, _, _, _, _, _, _, _, now⟩ | ⟨_, _, _, _, _, _, now⟩
  · exact parted.plain id file node canonical (same.symm.trans present)
  · exact ⟨_, (Option.some.inj (now.symm.trans present)).symm⟩
  · rw [now] at present
    cases present

theorem part_origin (id file : String) (inode : Nat) (canonical : id.toList.length = 36)
    (present : (state.store.apply o act).disk.node (partPath id file) = some (.file inode)) :
    state.store.disk.node (partPath id file) = some (.file inode) ∨
      (act = .openPart (partPath id file) ∧ inode = state.store.disk.inodes.length) := by
  rcases part_cases sha256 state base o fault op op' act log here moved id file canonical with
    same | ⟨_, _, _, _, _, _, _, _, _, _, opens, _, _, now⟩ | ⟨_, _, _, _, _, _, now⟩
  · exact .inl (same.symm.trans present)
  · exact .inr ⟨opens, by simpa using (now.symm.trans present).symm⟩
  · rw [now] at present
    cases present

theorem parted_separate (parted : Parted state.store.disk) :
    ∀ (id file id' file' : String) (inode : Nat), id.toList.length = 36 → id'.toList.length = 36 →
    (state.store.apply o act).disk.node (partPath id file) = some (.file inode) →
      (state.store.apply o act).disk.node (partPath id' file') = some (.file inode) → id = id' ∧
        file = file' := by
  intro id file id' file' inode canonical canonical' present present'
  rcases part_origin sha256 state base o fault op op' act log here moved id file inode canonical present with
    before | ⟨opens, new⟩ <;>
    rcases part_origin sha256 state base o fault op op' act log here moved id' file' inode canonical'
      present' with
      before' | ⟨opens', new'⟩
  · exact parted.separate id file id' file' inode canonical canonical' before before'
  · exact absurd (parted.allocated _ _ before) (by omega)
  · exact absurd (parted.allocated _ _ before') (by omega)
  · exact part_path_inj id id' file file' (canonical.trans canonical'.symm)
      (Act.openPart.inj (opens.symm.trans opens'))

theorem parted_advance (parted : Parted state.store.disk) : Parted (state.store.apply o act).disk where
  allocated := parted_allocated sha256 state o fault op op' act log moved parted
  plain := parted_plain sha256 state base o fault op op' act log here moved parted
  separate := parted_separate sha256 state base o fault op op' act log here moved parted

end Advance

theorem parted_step (sha256 : Bytes → String) (state next : State) (label : Label) (base : Base state)
    (parted : Parted state.store.disk) (stepped : step sha256 state label = some next) :
    Parted next.store.disk := by
  rcases step_cases sha256 state next label stepped with ⟨call, _, _, rfl⟩ |
    ⟨o, fault, op, act, log, op', _, here, moved, rfl⟩ |
    ⟨_, _, rfl⟩ | ⟨store, _, _, loaded, rfl⟩
  · exact parted
  · exact parted_advance sha256 state base o fault op op' act log here moved parted
  · exact parted
  · exact (load_loaded state.store.disk store loaded).same ▸ parted

theorem initial_parted (state : State) (initial : Initial state) : Parted state.store.disk := by
  have none_ : ∀ id file, state.store.disk.node (partPath id file) = none :=
    fun id file => initial.noState _ (part_inside id file)
  refine ⟨initial.allocated, ?_, ?_⟩
  · intro id file node _ present
    rw [none_] at present
    cases present
  · intro id file id' file' inode _ _ present
    rw [none_] at present
    cases present

end GoshTransfer
