import GoshTransfer.Protocol

set_option autoImplicit false

namespace GoshTransfer

structure TransferManifest where
  request : TransferRequest
  sha256 : HashMap String String
deriving DecidableEq

def lowerHex (c : Char) : Bool := ('0' ≤ c && c ≤ '9') || ('a' ≤ c && c ≤ 'f')

-- uuid::Uuid::parse_str(s).to_string() == s, that is 8-4-4-4-12 lowercase
-- hexadecimal digits with hyphens.
def canonicalUuid (s : String) : Bool :=
  s.toList.length == 36 &&
    s.toList.zipIdx.all fun (c, i) => if i == 8 || i == 13 || i == 18 || i == 23 then c == '-' else lowerHex c

def sha256Hex (s : String) : Bool := s.toList.length == 64 && s.toList.all lowerHex

def checkedAdd (a b : Nat) : Option Nat := if a + b < 2 ^ 64 then some (a + b) else none

def totalSize : Nat → List TransferFile → Option Nat
  | n, [] => some n
  | n, f :: rest => (checkedAdd n f.size).bind fun total => totalSize total rest

-- The loop over the files, with the set of ids seen so far.
def checkFiles (sha256 : HashMap String String) : List String → List TransferFile → Bool
  | _, [] => true
  | ids, f :: rest =>
      canonicalUuid f.id && !ids.contains f.id &&
        (match sha256.lookup f.id with
          | none => false
          | some hash => sha256Hex hash) &&
        checkFiles sha256 (f.id :: ids) rest

def invalidManifest : EngineError := .invalidConfig
  "Invalid resumable manifest: require UUID IDs, unique files, sizes and SHA-256 checksums"

def TransferManifest.fileIds (manifest : TransferManifest) : List String :=
    manifest.request.files.map TransferFile.id

def TransferManifest.validate (manifest : TransferManifest) : Except EngineError Unit :=
  if !canonicalUuid manifest.request.transferId then .error invalidManifest
  else if manifest.request.files.isEmpty || manifest.request.files.length > 10000 then .error invalidManifest
  else if !checkFiles manifest.sha256 [] manifest.request.files then .error invalidManifest
  else if manifest.sha256.keys.card != manifest.request.files.length ||
      totalSize 0 manifest.request.files != some manifest.request.totalSize then .error invalidManifest
  else .ok ()

def TransferManifest.Valid (manifest : TransferManifest) : Prop := manifest.validate = .ok ()

theorem check_files_sound (sha256 : HashMap String String) (files : List TransferFile) (ids : List String)
    (checked : checkFiles sha256 ids files = true) :
    (files.map TransferFile.id).Nodup ∧ (∀ f ∈ files, f.id ∉ ids) ∧
      (∀ f ∈ files, canonicalUuid f.id = true ∧ ∃ hash, sha256.lookup f.id = some hash ∧
        sha256Hex hash = true) := by
  induction files generalizing ids with
  | nil => simp
  | cons f rest ih =>
      simp only [checkFiles, Bool.and_eq_true, Bool.not_eq_true'] at checked
      obtain ⟨⟨⟨canonical, fresh⟩, hashed⟩, later⟩ := checked
      obtain ⟨distinct, apart, hashes⟩ := ih (f.id :: ids) later
      have head : ∃ hash, sha256.lookup f.id = some hash ∧ sha256Hex hash = true := by
        cases found : sha256.lookup f.id with
        | none => simp [found] at hashed
        | some hash => exact ⟨hash, rfl, by simpa [found] using hashed⟩
      refine ⟨?_, ?_, ?_⟩
      · refine List.nodup_cons.mpr ⟨?_, distinct⟩
        intro member
        obtain ⟨g, inRest, same⟩ := List.mem_map.mp member
        exact apart g inRest (by simp [same])
      · intro g member
        rcases List.mem_cons.mp member with rfl | later
        · simpa using fresh
        · intro inIds
          exact apart g later (List.mem_cons_of_mem _ inIds)
      · intro g member
        rcases List.mem_cons.mp member with rfl | later
        · exact ⟨canonical, head⟩
        · exact hashes g later

section Valid

variable (manifest : TransferManifest) (valid : manifest.Valid)
include valid

theorem valid_parts : canonicalUuid manifest.request.transferId = true ∧
    checkFiles manifest.sha256 [] manifest.request.files = true := by
  unfold TransferManifest.Valid TransferManifest.validate at valid
  split at valid
  · cases valid
  · rename_i canonical
    split at valid
    · cases valid
    · split at valid
      · cases valid
      · rename_i checked
        exact ⟨by simpa using canonical, by simpa using checked⟩

theorem valid_id_length : manifest.request.transferId.toList.length = 36 := by
  have canonical := (valid_parts manifest valid).1
  simp only [canonicalUuid, Bool.and_eq_true, beq_iff_eq] at canonical
  exact canonical.1

theorem valid_ids_nodup : manifest.fileIds.Nodup :=
  (check_files_sound manifest.sha256 _ [] (valid_parts manifest valid).2).1

theorem valid_file_unique (f g : TransferFile) (inF : f ∈ manifest.request.files)
    (inG : g ∈ manifest.request.files) (same : f.id = g.id) : f = g :=
  List.inj_on_of_nodup_map (valid_ids_nodup manifest valid) inF inG same

end Valid

end GoshTransfer
