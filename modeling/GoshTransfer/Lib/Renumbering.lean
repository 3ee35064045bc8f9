import GoshTransfer.Lib.InodeStore

set_option autoImplicit false

-- Two disks that show the same on some paths, up to the numbers of the inodes.
-- pair relates the inodes that can be reached on the two sides.
namespace InodeStore

variable {Path Doc : Type} [DecidableEq Path]

inductive NodeMatch (pair : Nat → Nat → Prop) : Option (Node Doc) → Option (Node Doc) → Prop where
  | absent : NodeMatch pair none none
  | file (i j : Nat) (paired : pair i j) : NodeMatch pair (some (.file i)) (some (.file j))
  | doc (value : Doc) : NodeMatch pair (some (.doc value)) (some (.doc value))
  | dir : NodeMatch pair (some .dir) (some .dir)
  | symlink : NodeMatch pair (some .symlink) (some .symlink)

structure Matching (visible : Path → Prop) (pair : Nat → Nat → Prop) (left right : Disk Path Doc) : Prop where
  names : ∀ path, visible path → NodeMatch pair (left.node path) (right.node path)
  contents : ∀ i j, pair i j → ∃ bytes, left.inodes[i]? = some bytes ∧ right.inodes[j]? = some bytes
  functional : ∀ i j k, pair i j → pair i k → j = k
  injective : ∀ i j k, pair i k → pair j k → i = j

def extended (pair : Nat → Nat → Prop) (left right : Disk Path Doc) (i j : Nat) : Prop :=
  pair i j ∨ (i = left.inodes.length ∧ j = right.inodes.length)

theorem node_match_mono (pair wider : Nat → Nat → Prop) (left right : Option (Node Doc))
    (grown : ∀ i j, pair i j → wider i j) (same : NodeMatch pair left right) :
    NodeMatch wider left right := by
  cases same with
  | absent => exact .absent
  | file i j paired => exact .file i j (grown i j paired)
  | doc value => exact .doc value
  | dir => exact .dir
  | symlink => exact .symlink

theorem node_match_or_dir (pair : Nat → Nat → Prop) (left right : Option (Node Doc))
    (same : NodeMatch pair left right) :
    NodeMatch pair (some (left.getD .dir)) (some (right.getD .dir)) := by
  cases same with
  | absent => exact .dir
  | file i j paired => exact .file i j paired
  | doc value => exact .doc value
  | dir => exact .dir
  | symlink => exact .symlink

section Operations

variable (visible : Path → Prop) (pair : Nat → Nat → Prop) (left right : Disk Path Doc)
variable (same : Matching visible pair left right)
include same

theorem matching_narrow (narrower : Path → Prop) (implied : ∀ path, narrower path → visible path) :
    Matching narrower pair left right :=
  ⟨fun path seen => same.names path (implied path seen), same.contents, same.functional, same.injective⟩

theorem matching_read (path : Path) (seen : visible path) : left.read path = right.read path := by
  have named := same.names path seen
  unfold Disk.read
  generalize left.node path = a at named
  generalize right.node path = b at named
  cases named with
  | file i j paired =>
      obtain ⟨bytes, here, there⟩ := same.contents i j paired
      exact here.trans there.symm
  | _ => rfl

theorem matching_names (left' right' : Disk Path Doc) (here : left'.inodes = left.inodes)
    (there : right'.inodes = right.inodes)
    (names : ∀ path, visible path → NodeMatch pair (left'.node path) (right'.node path)) :
    Matching visible pair left' right' := by
  refine ⟨names, ?_, same.functional, same.injective⟩
  intro i j paired
  rw [here, there]
  exact same.contents i j paired

theorem matching_remove (gone : Path) : Matching visible pair (left.remove gone) (right.remove gone) := by
  refine matching_names visible pair left right same _ _ rfl rfl ?_
  intro path seen
  rw [node_remove, node_remove]
  by_cases hit : path = gone
  · rw [if_pos hit, if_pos hit]
    exact .absent
  · rw [if_neg hit, if_neg hit]
    exact same.names path seen

theorem matching_save (written : Path) (value : Doc) : Matching visible pair (left.save written value)
    (right.save written value) := by
  refine matching_names visible pair left right same _ _ rfl rfl ?_
  intro path seen
  rw [node_save, node_save]
  by_cases hit : path = written
  · rw [if_pos hit, if_pos hit]
    exact .doc value
  · rw [if_neg hit, if_neg hit]
    exact same.names path seen

theorem matching_link (i j : Nat) (target : Path) (paired : pair i j) : Matching visible pair
    (left.link i target) (right.link j target) := by
  refine matching_names visible pair left right same _ _ rfl rfl ?_
  intro path seen
  rw [node_link, node_link]
  by_cases hit : path = target
  · rw [if_pos hit, if_pos hit]
    exact .file i j paired
  · rw [if_neg hit, if_neg hit]
    exact same.names path seen

theorem matching_mkdirs (paths : List Path) : Matching visible pair (paths.foldl Disk.mkdir left)
    (paths.foldl Disk.mkdir right) := by
  refine matching_names visible pair left right same _ _ (mkdirs_inodes paths left)
    (mkdirs_inodes paths right) ?_
  intro path seen
  rw [mkdirs_node, mkdirs_node]
  by_cases hit : path ∈ paths
  · rw [if_pos hit, if_pos hit]
    exact node_match_or_dir pair _ _ (same.names path seen)
  · rw [if_neg hit, if_neg hit]
    exact same.names path seen

theorem matching_append (i j : Nat) (bytes : Bytes) (paired : pair i j) : Matching visible pair
    (left.append i bytes) (right.append j bytes) := by
  refine ⟨same.names, ?_, same.functional, same.injective⟩
  intro k l linked
  obtain ⟨content, here, there⟩ := same.contents k l linked
  refine ⟨if k = i then content ++ bytes else content, inode_append left i k bytes content here, ?_⟩
  -- The same inode is written on both sides, or another one on both.
  have hit : l = j ↔ k = i := by
    constructor
    · rintro rfl
      exact same.injective k i l linked paired
    · rintro rfl
      exact same.functional k l j linked paired
  rw [inode_append right j l bytes content there]
  by_cases mine : k = i
  · rw [if_pos mine, if_pos (hit.mpr mine)]
  · rw [if_neg mine, if_neg fun equal => mine (hit.mp equal)]

theorem matching_create (path : Path) : Matching visible (extended pair left right) (left.create path)
    (right.create path) := by
  have older : ∀ i j, pair i j → i < left.inodes.length ∧ j < right.inodes.length := by
    intro i j paired
    obtain ⟨_, here, there⟩ := same.contents i j paired
    exact ⟨(List.getElem?_eq_some_iff.mp here).1, (List.getElem?_eq_some_iff.mp there).1⟩
  refine ⟨?_, ?_, ?_, ?_⟩
  · intro other seen
    rw [node_create, node_create]
    by_cases hit : other = path
    · rw [if_pos hit, if_pos hit]
      exact .file _ _ (.inr ⟨rfl, rfl⟩)
    · rw [if_neg hit, if_neg hit]
      exact node_match_mono pair _ _ _ (fun _ _ => .inl) (same.names other seen)
  · rintro i j (paired | ⟨rfl, rfl⟩)
    · obtain ⟨bytes, here, there⟩ := same.contents i j paired
      refine ⟨bytes, ?_, ?_⟩
      · exact (List.getElem?_append_left (older i j paired).1).trans here
      · exact (List.getElem?_append_left (older i j paired).2).trans there
    · exact ⟨[], by simp, by simp⟩
  · rintro i j k (first | ⟨rfl, rfl⟩) (second | ⟨fresh, rfl⟩)
    · exact same.functional i j k first second
    · exact absurd (older i j first).1 (by omega)
    · exact absurd (older _ k second).1 (Nat.lt_irrefl _)
    · rfl
  · rintro i j k (first | ⟨rfl, rfl⟩) (second | ⟨rfl, fresh⟩)
    · exact same.injective i j k first second
    · exact absurd (older i k first).2 (by omega)
    · exact absurd (older j _ second).2 (Nat.lt_irrefl _)
    · rfl

end Operations

end InodeStore
