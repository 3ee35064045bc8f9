import GoshTransfer.Validation
import GoshTransfer.Checkpoints
import GoshTransfer.DirectoryTree
import GoshTransfer.Security

set_option autoImplicit false

-- Plans: how they are made of source files, saved, loaded and begun.
namespace GoshTransfer

open InodeStore UnixPath

-- What opening and reading a file comes to.
inductive SourceRead where
  | unopened (cause : String)
  | irregular
  | unread (cause : String)
  | content (bytes : Bytes)

def SourceRead.answer : SourceRead → Except String Bytes
  | .unopened cause => .error cause
  | .irregular => .error "Not a regular file"
  | .unread cause => .error cause
  | .content bytes => .ok bytes

structure SourceDisk where
  canonicalize : Components → Except String String
  read : String → SourceRead

-- hash_file
def hashFile (sha256 : Bytes → String) (source : SourceRead) : Except EngineError (String × Nat) :=
  match source.answer with
  | .error cause => .error (.fileIo cause)
  | .ok bytes => .ok (sha256 bytes, bytes.length)

-- mimeType and the ids come from mime_guess and uuid, which are not part of the
-- repository.
structure Preparing where
  sha256 : Bytes → String
  mimeType : String → Option String
  uuid : Nat → String
  disk : SourceDisk

def prepareFile (setting : Preparing) (k : Nat) (source : Components × Option String) :
    Except EngineError PreparedFile :=
  match setting.disk.canonicalize source.1 with
  | .error cause => .error (.fileIo cause)
  | .ok path =>
    match hashFile setting.sha256 (setting.disk.read path) with
    | .error error => .error error
    | .ok (sha256, size) =>
      match fileName (parse path) with
      | none => .error (.fileIo "Invalid filename")
      | some name => .ok ⟨path, ⟨name, size, setting.mimeType path, setting.uuid k, source.2⟩, sha256⟩

def prepareEach (setting : Preparing) : Nat → List (Components × Option String) → Except EngineError
    (List PreparedFile)
  | _, [] => .ok []
  | k, source :: rest =>
    match prepareFile setting k source with
    | .error error => .error error
    | .ok file =>
      match prepareEach setting (k + 1) rest with
      | .error error => .error error
      | .ok files => .ok (file :: files)

def preparePaths (setting : Preparing) (address : String) (port : Nat)
    (sources : List (Components × Option String)) (senderName : Option String) :
    Except EngineError PreparedTransfer :=
  if sources.isEmpty then .error (.invalidConfig "No files to send")
  else
    match prepareEach setting 0 sources with
    | .error error => .error error
    | .ok files => .ok ⟨address, port, setting.uuid sources.length, senderName, files⟩

def prepareFiles (setting : Preparing) (address : String) (port : Nat) (paths : List String)
    (senderName : Option String) :
    Except EngineError PreparedTransfer :=
  preparePaths setting address port (paths.map fun path => (parse path, none)) senderName

def prepareDirectory (setting : Preparing) (address : String) (port : Nat) (base : Components)
    (listing : Listing) (senderName : Option String) :
    Except EngineError PreparedTransfer :=
  match collectDirectoryFiles base base listing [] with
  | .error error => .error error
  | .ok files => preparePaths setting address port (files.map fun file => (file.1, some file.2)) senderName

-- serde_json, which is not part of the repository.
structure PlanCodec where
  encode : PreparedTransfer → Bytes
  decode : Bytes → Except String PreparedTransfer

inductive PlanError where
  | engine (error : EngineError)
  | serialization (message : String)

def PreparedTransfer.check (plan : PreparedTransfer) : Except EngineError Unit :=
  match plan.manifest with
  | .error error => .error error
  | .ok manifest => manifest.validate

-- save, up to the bytes that are written.
def savePlan (codec : PlanCodec) (plan : PreparedTransfer) : Except EngineError Bytes :=
  match plan.check with
  | .error error => .error error
  | .ok _ => .ok (codec.encode plan)

-- load, from what reading the file comes to.
def loadPlan (codec : PlanCodec) : Except String Bytes → Except PlanError PreparedTransfer
  | .error cause => .error (.engine (.fileIo cause))
  | .ok bytes =>
    match codec.decode bytes with
    | .error message => .error (.serialization message)
    | .ok plan =>
      match plan.check with
      | .error error => .error (.engine error)
      | .ok _ => .ok plan

-- The file of a plan and the source it was made of.
structure PreparedFrom (setting : Preparing) (source : Components × Option String) (file : PreparedFile) :
    Prop where
  located : setting.disk.canonicalize source.1 = .ok file.path
  content : ∃ bytes, setting.disk.read file.path = .content bytes ∧ file.info.size = bytes.length ∧
    file.sha256 = setting.sha256 bytes
  named : fileName (parse file.path) = some file.info.name
  relative : file.info.relativePath = source.2

theorem source_answer_content (source : SourceRead) (bytes : Bytes) (read : source.answer = .ok bytes) :
    source = .content bytes := by
  cases source <;> cases read
  rfl

theorem prepare_file_from (setting : Preparing) (k : Nat) (source : Components × Option String)
    (file : PreparedFile) (prepared : prepareFile setting k source = .ok file) :
    PreparedFrom setting source file ∧ file.info.id = setting.uuid k := by
  unfold prepareFile at prepared
  split at prepared
  · cases prepared
  · next path located =>
    split at prepared
    · cases prepared
    · next sha256 size hashed =>
      split at prepared
      · cases prepared
      · next name named =>
        cases prepared
        unfold hashFile at hashed
        split at hashed
        · cases hashed
        · next bytes read =>
          cases hashed
          exact ⟨⟨located, ⟨bytes, source_answer_content _ bytes read, rfl, rfl⟩, named, rfl⟩, rfl⟩

-- Induction on the sources: the files come in their order, and the ids are drawn
-- one after the other.
theorem prepare_each_from (setting : Preparing) (k : Nat) (sources : List (Components × Option String))
    (files : List PreparedFile) (prepared : prepareEach setting k sources = .ok files) :
    List.Forall₂ (PreparedFrom setting) sources files ∧
      files.map (fun file => file.info.id) = (List.range' k sources.length).map setting.uuid := by
  induction sources generalizing k files with
  | nil =>
    cases prepared
    exact ⟨.nil, rfl⟩
  | cons source rest ih =>
    rw [prepareEach] at prepared
    split at prepared
    · cases prepared
    · next file first =>
      split at prepared
      · cases prepared
      · next more later =>
        cases prepared
        obtain ⟨made, drawn⟩ := prepare_file_from setting k source file first
        obtain ⟨others, ids⟩ := ih (k + 1) more later
        exact ⟨.cons made others, by simp [List.range'_succ, drawn, ids]⟩

theorem prepared_plan (setting : Preparing) (address : String) (port : Nat)
    (sources : List (Components × Option String)) (senderName : Option String) (plan : PreparedTransfer)
    (prepared : preparePaths setting address port sources senderName = .ok plan) :
    sources ≠ [] ∧
      plan.transferId = setting.uuid sources.length ∧ List.Forall₂ (PreparedFrom setting) sources plan.files ∧
      plan.files.map (fun file => file.info.id) = (List.range sources.length).map setting.uuid := by
  unfold preparePaths at prepared
  split at prepared
  · cases prepared
  · next some_ =>
    split at prepared
    · cases prepared
    · next files each =>
      cases prepared
      obtain ⟨made, ids⟩ := prepare_each_from setting 0 sources files each
      exact ⟨by simpa using some_, rfl, made, by rw [ids, List.range_eq_range']⟩

-- What uuid promises of this many ids, and sha2 of its digests.
structure Preparing.Lawful (setting : Preparing) (count : Nat) : Prop where
  canonical : ∀ k ≤ count, Hyphenated (setting.uuid k)
  distinct : ((List.range count).map setting.uuid).Nodup
  hex : ∀ bytes, LowerHex 64 (setting.sha256 bytes).toList

theorem files_hashed (setting : Preparing) (count : Nat) (lawful : setting.Lawful count)
    (sources : List (Components × Option String)) (files : List PreparedFile)
    (made : List.Forall₂ (PreparedFrom setting) sources files) : ∀ file ∈ files,
    LowerHex 64 file.sha256.toList := by
  induction made with
  | nil => simp
  | cons made _ ih =>
    intro file member
    rcases List.mem_cons.mp member with rfl | later
    · obtain ⟨bytes, -, -, hashed⟩ := made.content
      exact hashed ▸ lawful.hex bytes
    · exact ih file later

theorem prepared_well_formed (setting : Preparing) (address : String) (port : Nat)
    (sources : List (Components × Option String)) (lawful : setting.Lawful sources.length)
    (senderName : Option String) (plan : PreparedTransfer)
    (prepared : preparePaths setting address port sources senderName = .ok plan)
    (few : sources.length ≤ 10000) (bounded : (plan.files.map fun file => file.info.size).sum < 2 ^ 64) :
      plan.WellFormed := by
  obtain ⟨some_, id, made, ids⟩ := prepared_plan setting address port sources senderName plan prepared
  have length := made.length_eq
  refine ⟨id ▸ lawful.canonical _ le_rfl, ?_, length ▸ few, ?_, ?_,
    files_hashed setting _ lawful sources plan.files made, bounded⟩
  · exact length ▸ List.length_pos_iff.mpr some_
  · intro file member
    have drawn : file.info.id ∈ (List.range sources.length).map setting.uuid :=
      ids ▸ List.mem_map_of_mem member
    obtain ⟨k, inside, equal⟩ := List.mem_map.mp drawn
    exact equal ▸ lawful.canonical k (List.mem_range.mp inside).le
  · exact ids ▸ lawful.distinct

theorem prepared_check_iff (setting : Preparing) (address : String) (port : Nat)
    (sources : List (Components × Option String)) (lawful : setting.Lawful sources.length)
    (senderName : Option String) (plan : PreparedTransfer)
    (prepared : preparePaths setting address port sources senderName = .ok plan) :
    plan.check = .ok () ↔ sources.length ≤ 10000 ∧
    (plan.files.map fun file => file.info.size).sum < 2 ^ 64 := by
  constructor
  · intro checked
    unfold PreparedTransfer.check at checked
    split at checked
    · cases checked
    · next manifest built =>
      have formed := (validate_well_formed manifest).mp checked
      unfold PreparedTransfer.manifest at built
      split at built
      · cases built
      · cases built
        have few : (plan.files.map PreparedFile.info).length ≤ 10000 := formed.few
        have bounded : ((plan.files.map PreparedFile.info).map TransferFile.size).sum < 2 ^ 64 :=
          formed.bounded
        rw [List.map_map] at bounded
        rw [List.length_map,
          ← (prepared_plan setting address port sources senderName plan prepared).2.2.1.length_eq] at few
        exact ⟨few, bounded⟩
  · rintro ⟨few, bounded⟩
    obtain ⟨manifest, built, formed⟩ := plan_manifest_well_formed plan
      (prepared_well_formed setting address port sources lawful senderName plan prepared few bounded)
    unfold PreparedTransfer.check
    rw [built]
    exact (validate_well_formed manifest).mpr formed

section Send

variable (sha256 : Bytes → String) (client : TransferClient) (plan : PreparedTransfer)

-- A run of send_plan with everything it sends.
def sendAll : Sender → List Input → Option (Sender × List Request)
  | sender, [] => some (sender, [])
  | sender, input :: rest =>
    match sender.next sha256 client plan input with
    | none => none
    | some (next, requests) => (sendAll next rest).map fun (last, more) => (last, requests ++ more)

-- The content is the one the plan was made of.
def PreparedFile.unchanged (file : PreparedFile) (content : Bytes) : Prop := sha256 content = file.sha256 ∧
    content.length = file.info.size

def sourceInput (content : Bytes) : Input := .source (.ok content)

theorem send_all_cons (sender last : Sender) (input : Input) (rest : List Input) (requests : List Request)
    (run : sendAll sha256 client plan sender (input :: rest) = some (last, requests)) :
    ∃ next sent later, sender.next sha256 client plan input = some (next, sent) ∧
      sendAll sha256 client plan next rest = some (last, later) ∧
      requests = sent ++ later := by
  rw [sendAll] at run
  split at run
  · cases run
  · next next sent stepped =>
    obtain ⟨⟨final, later⟩, after, same⟩ := Option.map_eq_some_iff.mp run
    cases same
    exact ⟨next, sent, later, stepped, after, rfl⟩

theorem begin_cases (sender : Sender) :
    (∃ error, beginStep client plan sender = sender.fail error) ∨
      ∃ manifest, plan.manifest = .ok manifest ∧
        beginStep client plan sender = sender.move (.running manifest (.hash plan.files)) := by
  unfold beginStep
  split
  · exact .inl ⟨_, rfl⟩
  · split
    · exact .inl ⟨_, rfl⟩
    · next manifest built =>
      split
      · exact .inl ⟨_, rfl⟩
      · exact .inr ⟨manifest, built, rfl⟩

theorem returned_silent (sender last : Sender) (result : Except EngineError Unit) (inputs : List Input)
    (requests : List Request) (returned : sender.phase = .returned result)
    (run : sendAll sha256 client plan sender inputs = some (last, requests)) : requests = [] := by
  cases inputs with
  | nil =>
    cases run
    rfl
  | cons input rest =>
    obtain ⟨next, sent, later, stepped, -⟩ :=
      send_all_cons sha256 client plan sender last input rest requests run
    simp [Sender.next, returned] at stepped

-- Induction on the files whose sources have not been read again.
theorem sent_after_hashing (manifest : TransferManifest) (left : List PreparedFile) (sender last : Sender) (inputs : List Input)
    (requests : List Request) (hashing : sender.phase = .running manifest (.hash left))
    (run : sendAll sha256 client plan sender inputs = some (last, requests)) (sent : requests ≠ []) :
    ∃ contents rest, inputs = contents.map sourceInput ++ .go :: rest ∧
      List.Forall₂ (PreparedFile.unchanged sha256) left contents := by
  induction left generalizing sender inputs requests with
  | nil =>
    cases inputs with
    | nil =>
      cases run
      exact absurd rfl sent
    | cons input rest =>
      obtain ⟨next, _, _, stepped, _⟩ := send_all_cons sha256 client plan sender last input rest requests run
      simp only [Sender.next, hashing] at stepped
      cases input <;> cases stepped
      exact ⟨[], rest, rfl, .nil⟩
  | cons file left ih =>
    cases inputs with
    | nil =>
      cases run
      exact absurd rfl sent
    | cons input rest =>
      obtain ⟨next, now, later, stepped, after, rfl⟩ := send_all_cons sha256 client plan sender last input rest requests run
      simp only [Sender.next, hashing] at stepped
      cases input with
      | source content =>
        cases stepped
        cases content with
        | error message => exact absurd (returned_silent sha256 client plan _ last _ rest later rfl after) sent
        | ok bytes =>
          simp only [hashSource] at after
          split at after
          · exact absurd (returned_silent sha256 client plan _ last _ rest later rfl after) sent
          · next same =>
            obtain ⟨contents, tail, rfl, unchanged⟩ := ih _ rest later rfl after sent
            exact ⟨bytes :: contents, tail, rfl, .cons (by simpa [PreparedFile.unchanged, not_or] using same) unchanged⟩
      | _ => cases stepped

-- What a run of send_plan has sent, it has sent after reading every source again
-- and finding it unchanged.
theorem nothing_is_sent_before_verification (last : Sender) (inputs : List Input) (requests : List Request)
    (run : sendAll sha256 client plan freshSender inputs = some (last, requests)) (sent : requests ≠ []) :
    ∃ contents rest, inputs = .go :: contents.map sourceInput ++ .go :: rest ∧
      List.Forall₂ (PreparedFile.unchanged sha256) plan.files contents := by
  cases inputs with
  | nil =>
    cases run
    exact absurd rfl sent
  | cons input rest =>
    obtain ⟨next, now, later, stepped, after, rfl⟩ :=
      send_all_cons sha256 client plan freshSender last input rest requests run
    cases input <;> cases stepped
    rcases begin_cases client plan freshSender with ⟨error, failed⟩ | ⟨manifest, -, began⟩
    · rw [failed] at after
      exact absurd (returned_silent sha256 client plan _ last (.error error) rest later rfl after) sent
    · rw [began] at after
      obtain ⟨contents, tail, rfl, unchanged⟩ :=
        sent_after_hashing sha256 client plan manifest plan.files _ last rest later rfl after sent
      exact ⟨contents, tail, rfl, unchanged⟩

theorem unchanged_registers (manifest : TransferManifest) (ready : client.configError = none)
    (left : List PreparedFile) (contents : List Bytes)
    (unchanged : List.Forall₂ (PreparedFile.unchanged sha256) left contents) (sender : Sender)
    (hashing : sender.phase = .running manifest (.hash left)) :
    ∃ last, sendAll sha256 client plan sender
    (contents.map sourceInput ++ [.go, .go]) = some (last, [.transfer manifest]) ∧
      last.phase = .running manifest (.registering 0) := by
  induction unchanged generalizing sender with
  | nil =>
    refine ⟨(sender.move (.running manifest (.register 0))).move (.running manifest (.registering 0)), ?_,
      rfl⟩
    simp [sendAll, Sender.next, hashing, pointStep, Sender.move, send, ready]
  | cons same _ ih =>
    obtain ⟨last, run, phase⟩ := ih (sender.move (.running manifest (.hash _))) rfl
    refine ⟨last, ?_, phase⟩
    simp only [List.map_cons, List.cons_append, sendAll, Sender.next, hashing, sourceInput, pointStep,
      hashSource]
    rw [if_neg (by simpa [PreparedFile.unchanged, not_or] using same)]
    simp [run]

theorem begun_registers (manifest : TransferManifest) (sending : client.receiveOnly = false)
    (ready : client.configError = none) (built : plan.manifest = .ok manifest)
    (valid : manifest.validate = .ok ()) (contents : List Bytes)
    (unchanged : List.Forall₂ (PreparedFile.unchanged sha256) plan.files contents) :
    ∃ last, sendAll sha256 client plan freshSender
    (.go :: contents.map sourceInput ++ [.go, .go]) = some (last, [.transfer manifest]) ∧
      last.phase = .running manifest (.registering 0) := by
  obtain ⟨last, run, phase⟩ :=
    unchanged_registers sha256 client plan manifest ready plan.files contents unchanged
    (freshSender.move (.running manifest (.hash plan.files))) rfl
  have began : freshSender.next sha256 client plan .go =
    some (freshSender.move (.running manifest (.hash plan.files)), []) := by
    simp [Sender.next, freshSender, beginStep, sending, built, valid]
  refine ⟨last, ?_, phase⟩
  rw [List.cons_append, sendAll, began]
  simp [run]

end Send

theorem pair_plan_is_verified : ∃ contents rest,
    [Input.go, .source (.ok []), .source (.ok pairSource), .go, .go] = .go :: contents.map sourceInput ++
      .go :: rest ∧
      List.Forall₂ (PreparedFile.unchanged pairPlanHash) pairPlan.files contents := by
  obtain ⟨manifest, built, formed⟩ := plan_manifest_well_formed pairPlan pair_plan_well_formed
  obtain ⟨last, run, -⟩ := begun_registers pairPlanHash retryingClient pairPlan manifest rfl rfl built
    ((validate_well_formed manifest).mpr formed) [[], pairSource] (.cons ⟨rfl, rfl⟩ (.cons ⟨rfl, rfl⟩ .nil))
  exact nothing_is_sent_before_verification pairPlanHash retryingClient pairPlan last _ _ run
    (List.cons_ne_nil _ _)

theorem unchanged_sources (setting : Preparing) (later : SourceDisk)
    (sources : List (Components × Option String)) (files : List PreparedFile)
    (made : List.Forall₂ (PreparedFrom setting) sources files)
    (kept : ∀ file ∈ files, later.read file.path = setting.disk.read file.path) :
    ∃ contents,
      files.map (fun file => Input.source (later.read file.path).answer) = contents.map sourceInput ∧
      List.Forall₂ (PreparedFile.unchanged setting.sha256) files contents := by
  induction made with
  | nil => exact ⟨[], rfl, .nil⟩
  | @cons source file _ _ made _ ih =>
    obtain ⟨contents, inputs, unchanged⟩ := ih fun file member => kept file (List.mem_cons_of_mem _ member)
    obtain ⟨bytes, read, size, hash⟩ := made.content
    refine ⟨bytes :: contents, ?_, .cons ⟨hash.symm, size.symm⟩ unchanged⟩
    rw [List.map_cons, List.map_cons, inputs, kept file List.mem_cons_self, read]
    rfl

-- A plan can be saved unless it has too many files or bytes, it is loaded as it
-- was, and while the sources stay what they were it is registered.
theorem prepared_plans_resume (setting : Preparing) (codec : PlanCodec) (address : String) (port : Nat)
    (sources : List (Components × Option String)) (lawful : setting.Lawful sources.length)
    (senderName : Option String) (plan : PreparedTransfer)
    (prepared : preparePaths setting address port sources senderName = .ok plan)
    (lossless : codec.decode (codec.encode plan) = .ok plan) :
    ((∃ bytes, savePlan codec plan = .ok bytes) ↔ sources.length ≤ 10000 ∧
      (plan.files.map fun file => file.info.size).sum < 2 ^ 64) ∧
    ∀ bytes, savePlan codec plan = .ok bytes → loadPlan codec (.ok bytes) = .ok plan ∧
      ∀ (client : TransferClient) (later : SourceDisk), client.receiveOnly = false →
        client.configError = none →
        (∀ file ∈ plan.files, later.read file.path = setting.disk.read file.path) →
        ∃ manifest last, plan.manifest = .ok manifest ∧
          sendAll setting.sha256 client plan freshSender
            (.go :: plan.files.map (fun file => .source (later.read file.path).answer) ++ [.go, .go]) =
              some (last, [.transfer manifest]) ∧
          last.phase = .running manifest (.registering 0) := by
  have saved (bytes : Bytes) (saved : savePlan codec plan = .ok bytes) : plan.check = .ok () ∧
    bytes = codec.encode plan := by
    unfold savePlan at saved
    split at saved
    · cases saved
    · next checked =>
      cases saved
      exact ⟨checked, rfl⟩
  refine ⟨?_, ?_⟩
  · rw [← prepared_check_iff setting address port sources lawful senderName plan prepared]
    constructor
    · rintro ⟨bytes, written⟩
      exact (saved bytes written).1
    · intro checked
      exact ⟨codec.encode plan, by simp [savePlan, checked]⟩
  · intro bytes written
    obtain ⟨checked, rfl⟩ := saved bytes written
    refine ⟨by simp [loadPlan, lossless, checked], ?_⟩
    intro client later sending ready kept
    obtain ⟨-, -, made, -⟩ := prepared_plan setting address port sources senderName plan prepared
    obtain ⟨contents, inputs, unchanged⟩ := unchanged_sources setting later sources plan.files made kept
    unfold PreparedTransfer.check at checked
    split at checked
    · cases checked
    · next manifest built =>
      obtain ⟨last, run, phase⟩ :=
        begun_registers setting.sha256 client plan manifest sending ready built checked contents unchanged
      exact ⟨manifest, last, built, by rw [inputs]; exact run, phase⟩

-- The two files on the disk, and the plan as serde_json writes it.
def pairSetting : Preparing where
  sha256 := pairPlanHash
  mimeType _ := none
  uuid k := if k = 0 then planFile.info.id else if k = 1 then pairPlanFile.info.id else pairPlan.transferId
  disk := ⟨fun path => .ok (if path = parse "/home/a" then planFile.path else pairPlanFile.path),
    fun path => .content (if path = planFile.path then [] else pairSource)⟩

def fileText (file : PreparedFile) (size : String) : String :=
  "\x7b\"path\":\"" ++ file.path ++ "\",\"info\":\x7b\"name\":\"" ++ file.info.name ++ "\",\"size\":" ++
    size ++ ",\"mimeType\":null,\"id\":\"" ++ file.info.id ++ "\"\x7d,\"sha256\":\"" ++ file.sha256 ++
    "\"\x7d"

def planText : Bytes := asBytes
    ("\x7b\"address\":\"10.0.0.1\",\"port\":53317,\"transferId\":\"" ++ pairPlan.transferId ++
  "\",\"senderName\":null,\"files\":[" ++ fileText planFile "0" ++ "," ++ fileText pairPlanFile "2" ++
    "]\x7d")

def pairCodec : PlanCodec where
  encode _ := planText
  decode bytes := if bytes = planText then .ok pairPlan else .error "expected value at line 1 column 1"

theorem pair_setting_lawful : pairSetting.Lawful 2 := by
  refine ⟨?_, by decide, ?_⟩
  · intro k inside
    refine (canonical_uuid_hyphenated _).mp ?_
    obtain rfl | rfl | rfl : k = 0 ∨ k = 1 ∨ k = 2 := by omega
    all_goals decide
  · intro bytes
    refine (sha256_hex_iff _).mp ?_
    by_cases same : bytes = pairSource
    · rw [show pairSetting.sha256 bytes = pairDigest from if_pos same]
      decide
    · rw [show pairSetting.sha256 bytes = emptyDigest from if_neg same]
      decide

theorem pair_plan_resumes : ∃ bytes, savePlan pairCodec pairPlan = .ok bytes ∧ loadPlan pairCodec
    (.ok bytes) = .ok pairPlan := by
  obtain ⟨fits, resumes⟩ := prepared_plans_resume pairSetting pairCodec "10.0.0.1" 53317
    [(parse "/home/a", none), (parse "/home/b", none)] pair_setting_lawful none pairPlan rfl
    (by simp [pairCodec])
  obtain ⟨bytes, written⟩ := fits.mpr ⟨by decide, by decide⟩
  exact ⟨bytes, written, (resumes bytes written).1⟩

theorem prepared_tree (setting : Preparing) (address : String) (port : Nat) (base : Components)
    (tree : SourceTree) (senderName : Option String) (plan : PreparedTransfer)
    (prepared : prepareDirectory setting address port base tree.root senderName = .ok plan) :
    List.Forall₂ (fun names file => (∃ front last, names = front ++ [last] ∧
      ∀ name ∈ front ++ [last], CleanName name) ∧
      PreparedFrom setting
      (base ++ names.map .normal, some (wirePath '/' names)) file) tree.root.paths plan.files := by
  have collected : collectDirectoryFiles base base tree.root [] = .ok
    (tree.root.paths.map (sourceFile base)) := by
    simpa using collect_paths base tree.root tree.tidy [] []
  unfold prepareDirectory at prepared
  rw [collected] at prepared
  obtain ⟨-, -, made, -⟩ := prepared_plan setting address port _ senderName plan prepared
  rw [List.map_map, List.forall₂_map_left_iff] at made
  refine List.forall₂_iff_get.mpr ⟨made.length_eq, ?_⟩
  intro k inside inside'
  have from_ := (List.forall₂_iff_get.mp made).2 k inside inside'
  obtain ⟨nonempty, cleaned⟩ := paths_clean tree.root tree.tidy _ (List.getElem_mem inside)
  have split := List.dropLast_append_getLast nonempty
  refine ⟨⟨_, _, split.symm, split.symm ▸ cleaned⟩, ?_⟩
  simpa [Function.comp_apply, sourceFile, slashed_wire] using from_

theorem prepared_target (setting : Preparing) (base download : Components) (front : List String)
    (last : String) (file : PreparedFile) (cleaned : ∀ name ∈ front ++ [last], CleanName name)
    (made : PreparedFrom setting (base ++ (front ++ [last]).map .normal,
      some (wirePath '/' (front ++ [last]))) file) :
    receiveTargetIn download file.info = (download ++ front.map .normal, last) := by
  have relative : file.info.relativePath = some (wirePath '/' (front ++ [last])) := made.relative
  rw [← wire_target download file.info '/' (by decide) front last cleaned, ← relative]

-- Every file of a directory is in the plan in its place, with the size and the
-- digest of what is there, and is received in that place again.
theorem prepared_directory_carries_the_tree (setting : Preparing) (address : String) (port : Nat)
    (base download : Components) (tree : SourceTree) (senderName : Option String) (plan : PreparedTransfer)
    (prepared : prepareDirectory setting address port base tree.root senderName = .ok plan) :
    List.Forall₂ (fun names file =>
      (∃ bytes, setting.disk.canonicalize (base ++ names.map .normal) = .ok file.path ∧
        setting.disk.read file.path = .content bytes ∧
        file.info.size = bytes.length ∧ file.sha256 = setting.sha256 bytes) ∧
      ∃ front last, names = front ++ [last] ∧
        receiveTargetIn download file.info = (download ++ front.map .normal, last))
      tree.root.paths plan.files := by
  refine (prepared_tree setting address port base tree senderName plan prepared).imp ?_
  rintro names file ⟨⟨front, last, rfl, cleaned⟩, made⟩
  obtain ⟨bytes, read, size, hash⟩ := made.content
  exact ⟨⟨bytes, made.located, read, size, hash⟩, front, last, rfl,
    prepared_target setting base download front last file cleaned made⟩

def smallSetting : Preparing where
  sha256 _ := emptyDigest
  mimeType _ := none
  uuid k := if k = 0 then planFile.info.id else smallPlan.transferId
  disk := ⟨fun _ => .ok planFile.path, fun _ => .content []⟩

def smallTree : SourceTree where
  root := .file "a" .nil
  tidy := by
    have name : clean "a".toList = some "a".toList := by decide +kernel
    refine ⟨?_, by simp [Listing.names], trivial⟩
    intro fallback
    simp only [sanitizeFileName, name, String.ofList_toList]

def smallTreePlan : PreparedTransfer :=
  { smallPlan with files := [{ planFile with info := { planFile.info with relativePath := some "a" } }] }

theorem small_tree_is_prepared : ∃ file ∈ smallTreePlan.files, file.sha256 = emptyDigest ∧
    ∃ (front : List String) (last : String),
      receiveTargetIn (parse "/srv") file.info = (parse "/srv" ++ front.map .normal, last) := by
  have prepared : prepareDirectory smallSetting "10.0.0.1" 53317 (parse "/home") smallTree.root none =
    .ok smallTreePlan := rfl
  have carried := prepared_directory_carries_the_tree smallSetting "10.0.0.1" 53317 (parse "/home")
    (parse "/srv") smallTree none smallTreePlan prepared
  obtain ⟨⟨bytes, -, -, -, hash⟩, front, last, -, target⟩ :=
    (List.forall₂_iff_get.mp carried).2 0 (by decide) (by decide)
  exact ⟨_, List.mem_singleton_self _, hash, front, last, target⟩

end GoshTransfer
