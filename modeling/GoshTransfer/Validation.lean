import GoshTransfer.Delivery

set_option autoImplicit false

namespace GoshTransfer

def LowerHex (length : Nat) (cs : List Char) : Prop := cs.length = length ∧ ∀ c ∈ cs, lowerHex c = true

-- Five groups of lowercase hexadecimal digits joined by hyphens.
def Hyphenated (s : String) : Prop :=
  ∃ a b c d e, s.toList = a ++ '-' :: (b ++ '-' :: (c ++ '-' :: (d ++ '-' :: e))) ∧
    LowerHex 8 a ∧ LowerHex 4 b ∧ LowerHex 4 c ∧ LowerHex 4 d ∧ LowerHex 12 e

def uuidPlace (place : Char × Nat) : Bool :=
  if place.2 == 8 || place.2 == 13 || place.2 == 18 || place.2 == 23 then place.1 == '-' else lowerHex place.1

theorem canonical_uuid_places (s : String) :
    canonicalUuid s = true ↔ s.toList.length = 36 ∧ s.toList.zipIdx.all uuidPlace = true := by
  simp only [canonicalUuid, Bool.and_eq_true, beq_iff_eq]
  exact Iff.rfl

theorem group_places (start : Nat) (cs : List Char)
    (plain : ∀ i, start ≤ i → i < start + cs.length → i ≠ 8 ∧ i ≠ 13 ∧ i ≠ 18 ∧ i ≠ 23) :
    (cs.zipIdx start).all uuidPlace = cs.all lowerHex := by
  induction cs generalizing start with
  | nil => rfl
  | cons c rest ih =>
      have here := plain start (Nat.le_refl _) (by simp)
      have later :=
        ih (start + 1) fun i low high => plain i (by omega) (by simp only [List.length_cons]; omega)
      simp [List.zipIdx_cons, uuidPlace, here, later]

theorem split_group (n : Nat) (cs : List Char) (long : n < cs.length) :
    ∃ a x rest, cs = a ++ x :: rest ∧ a.length = n ∧ rest.length = cs.length - n - 1 := by
  refine ⟨cs.take n, cs[n], cs.drop (n + 1), ?_, ?_, ?_⟩
  · rw [List.getElem_cons_drop]
    exact (List.take_append_drop n cs).symm
  · rw [List.length_take]
    omega
  · rw [List.length_drop]
    omega

theorem canonical_uuid_hyphenated (s : String) : canonicalUuid s = true ↔ Hyphenated s := by
  have groups : ∀ a b c d e : List Char, ∀ w x y z : Char, a.length = 8 → b.length = 4 → c.length = 4 →
    d.length = 4 → e.length = 12 →
      ((a ++ w :: (b ++ x :: (c ++ y :: (d ++ z :: e)))).zipIdx.all uuidPlace = true ↔
        a.all lowerHex = true ∧ w = '-' ∧ b.all lowerHex = true ∧ x = '-' ∧ c.all lowerHex = true ∧ y = '-' ∧
          d.all lowerHex = true ∧ z = '-' ∧ e.all lowerHex = true) := by
    intro a b c d e w x y z la lb lc ld le
    simp only [List.zipIdx_append, List.zipIdx_cons, List.all_append, List.all_cons, Bool.and_eq_true, la,
      lb, lc, ld]
    rw [group_places 0 a (by omega), group_places 9 b (by omega), group_places 14 c (by omega),
      group_places 19 d (by omega),
      group_places 24 e (by omega)]
    simp [uuidPlace]
  constructor
  · intro canonical
    obtain ⟨long, places⟩ := (canonical_uuid_places s).mp canonical
    obtain ⟨a, w, rest, whole, la, restLong⟩ := split_group 8 s.toList (by omega)
    obtain ⟨b, x, rest', whole', lb, restLong'⟩ := split_group 4 rest (by omega)
    obtain ⟨c, y, rest'', whole'', lc, restLong''⟩ := split_group 4 rest' (by omega)
    obtain ⟨d, z, e, whole''', ld, le⟩ := split_group 4 rest'' (by omega)
    rw [whole, whole', whole'', whole'''] at places
    obtain ⟨ha, rfl, hb, rfl, hc, rfl, hd, rfl, he⟩ :=
      (groups a b c d e w x y z la lb lc ld (by omega)).mp places
    exact ⟨a, b, c, d, e, by rw [whole, whole', whole'', whole'''], ⟨la, List.all_eq_true.mp ha⟩,
      ⟨lb, List.all_eq_true.mp hb⟩, ⟨lc, List.all_eq_true.mp hc⟩,
      ⟨ld, List.all_eq_true.mp hd⟩, by omega, List.all_eq_true.mp he⟩
  · intro hyphenated
    obtain ⟨a, b, c, d, e, whole, ⟨la, ha⟩, ⟨lb, hb⟩, ⟨lc, hc⟩, ⟨ld, hd⟩, le, he⟩ := hyphenated
    refine (canonical_uuid_places s).mpr ⟨by simp [whole, la, lb, lc, ld, le], ?_⟩
    rw [whole]
    exact (groups a b c d e '-' '-' '-' '-' la lb lc ld le).mpr ⟨List.all_eq_true.mpr ha, rfl,
      List.all_eq_true.mpr hb, rfl,
      List.all_eq_true.mpr hc, rfl, List.all_eq_true.mpr hd, rfl, List.all_eq_true.mpr he⟩

theorem sha256_hex_iff (hash : String) : sha256Hex hash = true ↔ LowerHex 64 hash.toList := by
  simp [sha256Hex, LowerHex]

-- What a manifest has to be, without the order in which it is checked.
structure TransferManifest.WellFormed (manifest : TransferManifest) : Prop where
  id : Hyphenated manifest.request.transferId
  nonempty : 1 ≤ manifest.request.files.length
  few : manifest.request.files.length ≤ 10000
  ids : ∀ f ∈ manifest.request.files, Hyphenated f.id
  distinct : manifest.fileIds.Nodup
  keys : ∀ id, id ∈ manifest.sha256 ↔ id ∈ manifest.fileIds
  hashes : ∀ id hash, manifest.sha256.lookup id = some hash → LowerHex 64 hash.toList
  bounded : (manifest.request.files.map TransferFile.size).sum < 2 ^ 64
  total : (manifest.request.files.map TransferFile.size).sum = manifest.request.totalSize

theorem total_size_eq (files : List TransferFile) (n : Nat) (small : n < 2 ^ 64) :
    totalSize n files = if n +
    (files.map TransferFile.size).sum < 2 ^ 64 then some (n + (files.map TransferFile.size).sum)
    else none := by
  induction files generalizing n with
  | nil => simpa [totalSize] using small
  | cons f rest ih =>
      simp only [totalSize, checkedAdd, List.map_cons, List.sum_cons, ← Nat.add_assoc]
      by_cases fits : n + f.size < 2 ^ 64
      · rw [if_pos fits]
        exact ih _ fits
      · have exceeds : ¬ n + f.size + (rest.map TransferFile.size).sum < 2 ^ 64 := by omega
        rw [if_neg fits, if_neg exceeds]
        rfl

theorem total_size_some (files : List TransferFile) (total : Nat) :
    totalSize 0 files = some total ↔ (files.map TransferFile.size).sum < 2 ^ 64 ∧
    (files.map TransferFile.size).sum = total := by
  rw [total_size_eq files 0 (by decide), Nat.zero_add]
  by_cases fits : (files.map TransferFile.size).sum < 2 ^ 64
  · rw [if_pos fits, Option.some_inj]
    exact (and_iff_right fits).symm
  · rw [if_neg fits]
    constructor
    · intro same
      cases same
    · intro both
      exact absurd both.1 fits

theorem check_files_complete (sha256 : HashMap String String) (files : List TransferFile) (ids : List String)
    (distinct : (files.map TransferFile.id).Nodup) (apart : ∀ f ∈ files, f.id ∉ ids)
    (hashed : ∀ f ∈ files, canonicalUuid f.id = true ∧ ∃ hash, sha256.lookup f.id = some hash ∧
      sha256Hex hash = true) :
    checkFiles sha256 ids files = true := by
  induction files generalizing ids with
  | nil => rfl
  | cons f rest ih =>
      obtain ⟨unseen, distinct⟩ := List.nodup_cons.mp distinct
      obtain ⟨canonical, hash, found, hex⟩ := hashed f List.mem_cons_self
      have fresh : f.id ∉ ids := apart f List.mem_cons_self
      have later : checkFiles sha256 (f.id :: ids) rest = true := by
        refine ih (f.id :: ids) distinct ?_ fun g member => hashed g (List.mem_cons_of_mem _ member)
        intro g member seen
        rcases List.mem_cons.mp seen with same | old
        · exact unseen (same ▸ List.mem_map_of_mem member)
        · exact apart g (List.mem_cons_of_mem _ member) old
      simp [checkFiles, canonical, fresh, found, hex, later]

theorem validate_ok_iff (manifest : TransferManifest) : manifest.validate = .ok () ↔
    canonicalUuid manifest.request.transferId = true ∧ manifest.request.files ≠ [] ∧
      manifest.request.files.length ≤ 10000 ∧
      checkFiles manifest.sha256 [] manifest.request.files = true ∧
      manifest.sha256.keys.card = manifest.request.files.length ∧
      totalSize 0 manifest.request.files = some manifest.request.totalSize := by
  have lengths : manifest.request.files.isEmpty = true ↔ manifest.request.files = [] := List.isEmpty_iff
  unfold TransferManifest.validate
  split
  · grind
  · split
    · grind
    · split
      · grind
      · split
        · grind
        · grind

theorem keys_eq_ids (manifest : TransferManifest) (distinct : manifest.fileIds.Nodup)
    (covered : ∀ id ∈ manifest.fileIds, id ∈ manifest.sha256) :
    manifest.sha256.keys.card = manifest.request.files.length ↔ ∀ id, id ∈ manifest.sha256 ↔
      id ∈ manifest.fileIds := by
  have inside : manifest.fileIds.toFinset ⊆ manifest.sha256.keys := by
    intro id member
    exact Finmap.mem_keys.mpr (covered id (List.mem_toFinset.mp member))
  have count : manifest.fileIds.toFinset.card = manifest.request.files.length := by
    rw [List.toFinset_card_of_nodup distinct]
    exact List.length_map _
  constructor
  · intro same id
    have equal := Finset.eq_of_subset_of_card_le inside (by omega)
    rw [← Finmap.mem_keys, ← equal, List.mem_toFinset]
  · intro all
    have equal : manifest.fileIds.toFinset = manifest.sha256.keys := by
      ext id
      rw [List.mem_toFinset, Finmap.mem_keys, all]
    rw [← equal, count]

theorem validate_well_formed (manifest : TransferManifest) : manifest.validate = .ok
    () ↔ manifest.WellFormed := by
  rw [validate_ok_iff]
  constructor
  · intro accepted
    obtain ⟨canonical, nonempty, few, checked, count, total⟩ := accepted
    obtain ⟨distinct, _, hashed⟩ := check_files_sound manifest.sha256 _ [] checked
    obtain ⟨bounded, total⟩ := (total_size_some _ _).mp total
    have covered : ∀ id ∈ manifest.fileIds, id ∈ manifest.sha256 := by
      intro id member
      obtain ⟨f, inFiles, rfl⟩ := List.mem_map.mp member
      obtain ⟨hash, found, _⟩ := (hashed f inFiles).2
      exact Finmap.lookup_isSome.mp (by simp [found])
    have keys := (keys_eq_ids manifest distinct covered).mp count
    refine ⟨(canonical_uuid_hyphenated _).mp canonical, List.length_pos_iff.mpr nonempty, few,
      fun f member => (canonical_uuid_hyphenated _).mp (hashed f member).1, distinct, keys, ?_, bounded,
      total⟩
    intro id hash found
    have member : id ∈ manifest.fileIds := (keys id).mp (Finmap.lookup_isSome.mp (by simp [found]))
    obtain ⟨f, inFiles, rfl⟩ := List.mem_map.mp member
    obtain ⟨hash', found', hex⟩ := (hashed f inFiles).2
    obtain rfl := Option.some.inj (found.symm.trans found')
    exact (sha256_hex_iff hash).mp hex
  · intro formed
    have hashed : ∀ f ∈ manifest.request.files,
        canonicalUuid f.id = true ∧ ∃ hash, manifest.sha256.lookup f.id = some hash ∧
          sha256Hex hash = true := by
      intro f member
      refine ⟨(canonical_uuid_hyphenated _).mpr (formed.ids f member), ?_⟩
      have present : f.id ∈ manifest.sha256 := (formed.keys f.id).mpr (List.mem_map_of_mem member)
      obtain ⟨hash, found⟩ := Option.isSome_iff_exists.mp (Finmap.lookup_isSome.mpr present)
      exact ⟨hash, found, (sha256_hex_iff hash).mpr (formed.hashes f.id hash found)⟩
    refine ⟨(canonical_uuid_hyphenated _).mpr formed.id, List.length_pos_iff.mp formed.nonempty, formed.few,
      check_files_complete _ _ [] formed.distinct (by simp) hashed,
      (keys_eq_ids manifest formed.distinct fun id member => (formed.keys id).mpr member).mpr formed.keys,
      (total_size_some _ _).mpr ⟨formed.bounded, formed.total⟩⟩

-- What prepare gives a plan: ids and digests of the right form, each id once.
structure PreparedTransfer.WellFormed (plan : PreparedTransfer) : Prop where
  id : Hyphenated plan.transferId
  nonempty : 1 ≤ plan.files.length
  few : plan.files.length ≤ 10000
  ids : ∀ f ∈ plan.files, Hyphenated f.info.id
  distinct : (plan.files.map fun f => f.info.id).Nodup
  hashes : ∀ f ∈ plan.files, LowerHex 64 f.sha256.toList
  bounded : (plan.files.map fun f => f.info.size).sum < 2 ^ 64

theorem digests_keys (files : List PreparedFile) (id : String) :
    id ∈ digests files ∅ ↔ id ∈ files.map fun f => f.info.id := by
  have all : ∀ map, id ∈ digests files map ↔ id ∈ map ∨ id ∈ files.map fun f => f.info.id := by
    induction files with
    | nil => simp [digests]
    | cons f rest ih =>
        intro map
        rw [digests, ih, Finmap.mem_insert, List.map_cons, List.mem_cons]
        tauto
  rw [all ∅]
  exact or_iff_right Finmap.notMem_empty

theorem plan_manifest_well_formed (plan : PreparedTransfer) (formed : plan.WellFormed) :
    ∃ manifest, plan.manifest = .ok manifest ∧ manifest.WellFormed := by
  have sizes : (plan.files.map PreparedFile.info).map TransferFile.size = plan.files.map fun f =>
    f.info.size := List.map_map
  have names : (plan.files.map PreparedFile.info).map TransferFile.id = plan.files.map fun f => f.info.id :=
    List.map_map
  have total : totalSize 0 (plan.files.map PreparedFile.info) =
    some (plan.files.map fun f => f.info.size).sum :=
    (total_size_some _ _).mpr (by rw [sizes]; exact ⟨formed.bounded, rfl⟩)
  have built : plan.manifest = .ok ⟨⟨plan.transferId, plan.senderName, plan.files.map PreparedFile.info,
      (plan.files.map fun f => f.info.size).sum⟩, digests plan.files ∅⟩ := by
    rw [PreparedTransfer.manifest, total]
  refine ⟨_, built, ⟨formed.id, by simpa using formed.nonempty, by simpa using formed.few, ?_, ?_, ?_, ?_,
    ?_, ?_⟩⟩
  · intro f member
    obtain ⟨file, inFiles, rfl⟩ := List.mem_map.mp member
    exact formed.ids file inFiles
  · rw [TransferManifest.fileIds, names]
    exact formed.distinct
  · intro id
    rw [TransferManifest.fileIds, names]
    exact digests_keys plan.files id
  · intro id hash found
    have member : id ∈ plan.files.map fun f => f.info.id :=
      (digests_keys plan.files id).mp (Finmap.lookup_isSome.mp (by simp [found]))
    obtain ⟨file, inFiles, rfl⟩ := List.mem_map.mp member
    rw [digests_lookup plan.files ∅ formed.distinct file inFiles] at found
    exact Option.some.inj found ▸ formed.hashes file inFiles
  · rw [sizes]
    exact formed.bounded
  · rw [sizes]

theorem validation_accepts_exactly_the_well_formed :
    (∀ manifest : TransferManifest, manifest.validate = .ok () ↔ manifest.WellFormed) ∧
    ∀ plan : PreparedTransfer, plan.WellFormed → ∃ manifest, plan.manifest = .ok manifest ∧
      manifest.validate = .ok () := by
  refine ⟨validate_well_formed, ?_⟩
  intro plan formed
  obtain ⟨manifest, built, shaped⟩ := plan_manifest_well_formed plan formed
  exact ⟨manifest, built, (validate_well_formed manifest).mpr shaped⟩

theorem pair_plan_well_formed : pairPlan.WellFormed := by
  refine ⟨(canonical_uuid_hyphenated _).mp (by decide), by decide, by decide, ?_, by decide, ?_, by decide⟩
  · intro f member
    rcases List.mem_pair.mp member with rfl | rfl <;> exact (canonical_uuid_hyphenated _).mp (by decide)
  · intro f member
    rcases List.mem_pair.mp member with rfl | rfl <;> exact (sha256_hex_iff _).mp (by decide)

theorem pair_plan_validates : pairPlan.WellFormed ∧ ∃ manifest, pairPlan.manifest = .ok manifest ∧
    manifest.validate = .ok () :=
  ⟨pair_plan_well_formed, validation_accepts_exactly_the_well_formed.2 pairPlan pair_plan_well_formed⟩

end GoshTransfer
