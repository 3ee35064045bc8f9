import Mathlib.Data.List.AList

set_option autoImplicit false

-- A directory tree flattened to full paths: names point to inodes, so that two
-- names may share the bytes of one file. Documents are files that are replaced
-- atomically as a whole and are kept as values rather than as bytes.
namespace InodeStore

variable {Path Doc : Type} [DecidableEq Path]

abbrev Bytes := List UInt8

inductive Node (Doc : Type) where
  | file (inode : Nat)
  | doc (value : Doc)
  | dir
  | symlink
deriving DecidableEq, Repr

structure Disk (Path Doc : Type) where
  names : AList (fun _ : Path => Node Doc)
  inodes : List Bytes

def Disk.node (disk : Disk Path Doc) (path : Path) : Option (Node Doc) := disk.names.lookup path

def Disk.read (disk : Disk Path Doc) (path : Path) : Option Bytes :=
  match disk.node path with
  | some (.file inode) => disk.inodes[inode]?
  | _ => none

def Disk.doc (disk : Disk Path Doc) (path : Path) : Option Doc :=
  match disk.node path with
  | some (.doc value) => some value
  | _ => none

-- O_CREAT on an absent name allocates an empty inode.
def Disk.create (disk : Disk Path Doc) (path : Path) : Disk Path Doc :=
  ⟨disk.names.insert path (.file disk.inodes.length), disk.inodes ++ [[]]⟩

def Disk.append (disk : Disk Path Doc) (inode : Nat) (bytes : Bytes) : Disk Path Doc :=
  ⟨disk.names, disk.inodes.modify inode (· ++ bytes)⟩

def Disk.remove (disk : Disk Path Doc) (path : Path) : Disk Path Doc := ⟨disk.names.erase path, disk.inodes⟩

def Disk.save (disk : Disk Path Doc) (path : Path) (value : Doc) : Disk Path Doc :=
  ⟨disk.names.insert path (.doc value), disk.inodes⟩

-- hard_link gives the inode a second name; the caller checks that it is free.
def Disk.link (disk : Disk Path Doc) (inode : Nat) (path : Path) : Disk Path Doc :=
  ⟨disk.names.insert path (.file inode), disk.inodes⟩

-- create_dir leaves an existing entry alone.
def Disk.mkdir (disk : Disk Path Doc) (path : Path) : Disk Path Doc :=
  if (disk.node path).isSome then disk else ⟨disk.names.insert path .dir, disk.inodes⟩

-- Every name refers to an allocated inode.
def Disk.Allocated (disk : Disk Path Doc) : Prop :=
  ∀ path inode, disk.node path = some (.file inode) → inode < disk.inodes.length

theorem node_create (disk : Disk Path Doc) (path other : Path) :
    (disk.create path).node other = if other = path then some (.file disk.inodes.length)
      else disk.node other := by
  by_cases same : other = path
  · subst other
    simp [Disk.create, Disk.node]
  · simp [Disk.create, Disk.node, AList.lookup_insert_ne same, same]

@[simp] theorem node_append (disk : Disk Path Doc) (inode : Nat) (bytes : Bytes) (path : Path) :
    (disk.append inode bytes).node path = disk.node path := rfl

theorem node_remove (disk : Disk Path Doc) (path other : Path) :
    (disk.remove path).node other = if other = path then none else disk.node other := by
  by_cases same : other = path
  · subst other
    simp [Disk.remove, Disk.node]
  · simp [Disk.remove, Disk.node, AList.lookup_erase_ne same, same]

theorem node_save (disk : Disk Path Doc) (path other : Path) (value : Doc) :
    (disk.save path value).node other = if other = path then some (.doc value) else disk.node other := by
  by_cases same : other = path
  · subst other
    simp [Disk.save, Disk.node]
  · simp [Disk.save, Disk.node, AList.lookup_insert_ne same, same]

theorem node_link (disk : Disk Path Doc) (inode : Nat) (path other : Path) :
    (disk.link inode path).node other = if other = path then some (.file inode) else disk.node other := by
  by_cases same : other = path
  · subst other
    simp [Disk.link, Disk.node]
  · simp [Disk.link, Disk.node, AList.lookup_insert_ne same, same]

theorem node_mkdir (disk : Disk Path Doc) (path other : Path) :
    (disk.mkdir path).node other = if other = path then some ((disk.node path).getD .dir)
      else disk.node other := by
  by_cases present : (disk.node path).isSome
  · obtain ⟨node, found⟩ := Option.isSome_iff_exists.mp present
    by_cases same : other = path <;> simp [Disk.mkdir, found, same]
  · have absent : disk.node path = none := by simpa using present
    by_cases same : other = path
    · subst other
      simp only [Disk.mkdir, absent]
      simp [Disk.node]
    · simp only [Disk.mkdir, if_neg present, if_neg same]
      exact AList.lookup_insert_ne same

@[simp] theorem inodes_create (disk : Disk Path Doc) (path : Path) :
    (disk.create path).inodes = disk.inodes ++ [[]] := rfl

omit [DecidableEq Path] in
@[simp] theorem inodes_append (disk : Disk Path Doc) (inode : Nat) (bytes : Bytes) :
    (disk.append inode bytes).inodes = disk.inodes.modify inode (· ++ bytes) := rfl

@[simp] theorem inodes_remove (disk : Disk Path Doc) (path : Path) :
    (disk.remove path).inodes = disk.inodes := rfl

@[simp] theorem inodes_save (disk : Disk Path Doc) (path : Path) (value : Doc) :
    (disk.save path value).inodes = disk.inodes := rfl

@[simp] theorem inodes_link (disk : Disk Path Doc) (inode : Nat) (path : Path) :
    (disk.link inode path).inodes = disk.inodes := rfl

@[simp] theorem inodes_mkdir (disk : Disk Path Doc) (path : Path) :
    (disk.mkdir path).inodes = disk.inodes := by
  by_cases present : (disk.node path).isSome <;> simp [Disk.mkdir, present]

theorem mkdirs_node (paths : List Path) (disk : Disk Path Doc) (path : Path) :
    (paths.foldl Disk.mkdir disk).node path = if path ∈ paths then some ((disk.node path).getD .dir)
      else disk.node path := by
  induction paths generalizing disk with
  | nil => simp
  | cons dir rest ih =>
      rw [List.foldl_cons, ih, node_mkdir]
      by_cases first : path = dir
      · subst first
        by_cases again : path ∈ rest <;> simp [again]
      · simp [first]

theorem mkdirs_inodes (paths : List Path) (disk : Disk Path Doc) :
    (paths.foldl Disk.mkdir disk).inodes = disk.inodes := by
  induction paths generalizing disk with
  | nil => rfl
  | cons dir rest ih => rw [List.foldl_cons, ih, inodes_mkdir]

theorem read_eq_some (disk : Disk Path Doc) (path : Path) (bytes : Bytes) :
    disk.read path = some bytes ↔ ∃ inode, disk.node path = some (.file inode) ∧
      disk.inodes[inode]? = some bytes := by
  unfold Disk.read
  split
  · rename_i inode found
    simp [found]
  · rename_i other
    refine ⟨by simp, ?_⟩
    rintro ⟨inode, found, _⟩
    exact absurd found (other inode)

theorem read_remove (disk : Disk Path Doc) (path other : Path) (bytes : Bytes)
    (read : (disk.remove path).read other = some bytes) :
    disk.read other = some bytes := by
  obtain ⟨inode, present, stored⟩ := (read_eq_some _ _ _).mp read
  rw [node_remove] at present
  split at present
  · cases present
  · exact (read_eq_some _ _ _).mpr ⟨inode, present, stored⟩

omit [DecidableEq Path] in
theorem append_nothing (disk : Disk Path Doc) (inode : Nat) : disk.append inode [] = disk := by
  have same : disk.inodes.modify inode (· ++ []) = disk.inodes := by
    refine List.ext_getElem? fun other => ?_
    by_cases here : inode = other <;> simp [List.getElem?_modify, here]
  show ({ disk with inodes := disk.inodes.modify inode (· ++ []) } : Disk Path Doc) = disk
  rw [same]

omit [DecidableEq Path] in
theorem inode_append (disk : Disk Path Doc) (inode other : Nat) (bytes content : Bytes)
    (here : disk.inodes[other]? = some content) :
    (disk.append inode bytes).inodes[other]? = some (if other = inode then content ++ bytes
      else content) := by
  by_cases same : other = inode
  · subst same
    simp [here]
  · have different : inode ≠ other := fun equal => same equal.symm
    simp [different, same, here]

end InodeStore
