import GoshTransfer.Delivery
import Mathlib.Algebra.Order.BigOperators.Group.List
import Mathlib.Algebra.Order.Group.Nat
import Mathlib.Data.List.Perm.Subperm

set_option autoImplicit false

namespace GoshTransfer

open InodeStore

def PreparedTransfer.fileIds (plan : PreparedTransfer) : List String := plan.files.map fun f => f.info.id

-- What send_plan relies on in an accepted answer.
structure SoundStatus (plan : PreparedTransfer) (manifest : TransferManifest) (status : ResumeStatus) :
    Prop where
  distinct : (status.files.map FileCheckpoint.fileId).Nodup
  paired : (status.files.map FileCheckpoint.fileId).Perm plan.fileIds
  found : ∀ file ∈ plan.files, ∃ point, status.files.find? (·.fileId == file.info.id) = some point ∧
    point.fileId = file.info.id ∧
    point.offset ≤ file.info.size ∧ (status.complete = true → point.complete = true ∧
      point.offset = file.info.size)
  sum : offsetSum status.files ≤ manifest.request.totalSize
  bounded : manifest.request.totalSize < 2 ^ 64

theorem total_size_sum (files : List TransferFile) (n total : Nat)
    (checked : totalSize n files = some total) :
    total = n + (files.map TransferFile.size).sum ∧ (n < 2 ^ 64 → total < 2 ^ 64) := by
  induction files generalizing n with
  | nil =>
      obtain rfl : n = total := by simpa [totalSize] using checked
      exact ⟨by simp, id⟩
  | cons f rest ih =>
      obtain ⟨next, added, later⟩ := Option.bind_eq_some_iff.mp checked
      unfold checkedAdd at added
      split at added
      · rename_i fits
        obtain rfl := Option.some.inj added
        obtain ⟨sum, bounded⟩ := ih _ later
        refine ⟨?_, fun _ => bounded fits⟩
        rw [sum, List.map_cons, List.sum_cons]
        omega
      · cases added

theorem bad_points_sound (plan : PreparedTransfer) (points : List FileCheckpoint) (ids : List String)
    (good : badPoints plan ids points = false) :
    (points.map FileCheckpoint.fileId).Nodup ∧ (∀ point ∈ points, point.fileId ∉ ids) ∧
      ∀ point ∈ points, plan.allows point = true := by
  induction points generalizing ids with
  | nil => simp
  | cons point rest ih =>
      simp only [badPoints, Bool.or_eq_false_iff, Bool.not_eq_false'] at good
      obtain ⟨⟨fresh, allowed⟩, later⟩ := good
      obtain ⟨distinct, apart, each⟩ := ih _ later
      refine ⟨?_, ?_, ?_⟩
      · refine List.nodup_cons.mpr ⟨?_, distinct⟩
        intro member
        obtain ⟨other, inRest, same⟩ := List.mem_map.mp member
        exact apart other inRest (by simp [same])
      · intro other member
        rcases List.mem_cons.mp member with rfl | inRest
        · simpa using fresh
        · exact fun seen => apart other inRest (List.mem_cons_of_mem _ seen)
      · intro other member
        rcases List.mem_cons.mp member with rfl | inRest
        · exact allowed
        · exact each other inRest

theorem allowed_file (plan : PreparedTransfer) (point : FileCheckpoint) (allowed : plan.allows point = true) :
    ∃ file ∈ plan.files, file.info.id = point.fileId ∧ point.offset ≤ file.info.size ∧
    (point.complete = true → point.offset = file.info.size) := by
  obtain ⟨file, member, checked⟩ := List.any_eq_true.mp allowed
  simp only [Bool.and_eq_true, beq_iff_eq, decide_eq_true_eq, Bool.or_eq_true, Bool.not_eq_true'] at checked
  obtain ⟨⟨same, below⟩, whole⟩ := checked
  refine ⟨file, member, same, below, ?_⟩
  intro complete
  rcases whole with open_ | equal
  · rw [complete] at open_
    cases open_
  · exact equal

theorem checkpoint_accepted (plan : PreparedTransfer) (response : Response) (whole : Bool)
    (status : ResumeStatus) (accepted : checkpointStatus plan response whole = .ok status) :
    (status.complete = true → ∀ point ∈ status.files, point.complete = true) ∧
      status.files.length = plan.files.length ∧
      badPoints plan [] status.files = false := by
  obtain ⟨code, body⟩ := response
  cases body with
  | status reported =>
      cases whole with
      | true =>
          simp only [checkpointStatus] at accepted
          split at accepted
          · cases accepted
          · rename_i passed
            cases accepted
            simp only [Bool.or_eq_true, not_or, Bool.not_eq_true, bne_eq_false_iff_eq] at passed
            obtain ⟨⟨complete, lengths⟩, good⟩ := passed
            refine ⟨?_, lengths, good⟩
            intro told point member
            simp only [told, Bool.true_and, List.any_eq_false, Bool.not_eq_true',
              Bool.not_eq_false] at complete
            exact complete point member
      | false => cases accepted
  | _ => cases whole <;> cases accepted

section Plan

variable (plan : PreparedTransfer) (manifest : TransferManifest) (planned : plan.manifest = .ok manifest)
    (valid : manifest.Valid)
include planned

theorem planned_request : manifest.request.files = plan.files.map PreparedFile.info ∧
    totalSize 0 (plan.files.map PreparedFile.info) = some manifest.request.totalSize := by
  unfold PreparedTransfer.manifest at planned
  split at planned
  · cases planned
  · rename_i total summed
    cases planned
    exact ⟨rfl, summed⟩

include valid

theorem planned_ids_nodup : plan.fileIds.Nodup := by
  have distinct := valid_ids_nodup manifest valid
  rw [TransferManifest.fileIds, (planned_request plan manifest planned).1, List.map_map] at distinct
  exact distinct

theorem planned_file_unique (f g : PreparedFile) (inF : f ∈ plan.files) (inG : g ∈ plan.files)
    (same : f.info.id = g.info.id) : f = g :=
  List.inj_on_of_nodup_map (planned_ids_nodup plan manifest planned valid) inF inG same

omit planned valid in
-- Counting: as many distinct reported ids as files, each of them an id of the plan.
theorem accepted_paired (status : ResumeStatus) (lengths : status.files.length = plan.files.length)
    (good : badPoints plan [] status.files = false) :
    (status.files.map FileCheckpoint.fileId).Perm plan.fileIds := by
  obtain ⟨distinct, _, each⟩ := bad_points_sound plan status.files [] good
  have within : status.files.map FileCheckpoint.fileId ⊆ plan.fileIds := by
    intro id member
    obtain ⟨point, reported, rfl⟩ := List.mem_map.mp member
    obtain ⟨file, inPlan, same, _⟩ := allowed_file plan point (each point reported)
    exact List.mem_map.mpr ⟨file, inPlan, same⟩
  refine (List.subperm_of_subset distinct within).perm_of_length_le ?_
  simp [PreparedTransfer.fileIds, lengths]

def PreparedTransfer.sizeOf (plan : PreparedTransfer) (id : String) : Nat :=
  ((plan.files.find? fun f => f.info.id == id).map fun f => f.info.size).getD 0

theorem planned_size (file : PreparedFile) (member : file ∈ plan.files) :
    plan.sizeOf file.info.id = file.info.size := by
  cases found : plan.files.find? fun f => f.info.id == file.info.id with
  | none => exact absurd (List.find?_eq_none.mp found file member) (by simp)
  | some other =>
      have same : other.info.id = file.info.id := by simpa using List.find?_some found
      rw [planned_file_unique plan manifest planned valid other file (List.mem_of_find?_eq_some found)
        member same] at found
      simp [PreparedTransfer.sizeOf, found]

theorem accepted_sum (status : ResumeStatus) (lengths : status.files.length = plan.files.length)
    (good : badPoints plan [] status.files = false) :
    offsetSum status.files ≤ manifest.request.totalSize := by
  obtain ⟨_, _, each⟩ := bad_points_sound plan status.files [] good
  have below : ∀ point ∈ status.files, point.offset ≤ plan.sizeOf point.fileId := by
    intro point member
    obtain ⟨file, inPlan, same, fits, _⟩ := allowed_file plan point (each point member)
    rw [← same, planned_size plan manifest planned valid file inPlan]
    exact fits
  have sizes : plan.files.map (fun f => plan.sizeOf f.info.id) = plan.files.map (fun f => f.info.size) :=
    List.map_congr_left fun file member => planned_size plan manifest planned valid file member
  have total := (total_size_sum _ _ _ (planned_request plan manifest planned).2).1
  calc offsetSum status.files
      ≤ (status.files.map fun point => plan.sizeOf point.fileId).sum := List.sum_le_sum below
    _ = ((status.files.map FileCheckpoint.fileId).map plan.sizeOf).sum := by rw [List.map_map]; rfl
    _ = (plan.fileIds.map plan.sizeOf).sum := ((accepted_paired plan status lengths good).map _).sum_eq
    _ = (plan.files.map fun f => f.info.size).sum := by
      rw [← sizes, PreparedTransfer.fileIds, List.map_map]; rfl
    _ = manifest.request.totalSize := by rw [total, Nat.zero_add, List.map_map]; rfl

theorem accepted_sound (response : Response) (whole : Bool) (status : ResumeStatus)
    (accepted : checkpointStatus plan response whole = .ok status) :
    SoundStatus plan manifest status := by
  obtain ⟨complete, lengths, good⟩ := checkpoint_accepted plan response whole status accepted
  obtain ⟨distinct, _, each⟩ := bad_points_sound plan status.files [] good
  have paired := accepted_paired plan status lengths good
  refine ⟨distinct, paired, ?_, accepted_sum plan manifest planned valid status lengths good, ?_⟩
  · intro file member
    have reported : file.info.id ∈ status.files.map FileCheckpoint.fileId :=
      paired.mem_iff.mpr (List.mem_map.mpr ⟨file, member, rfl⟩)
    cases found : status.files.find? (·.fileId == file.info.id) with
    | none =>
        obtain ⟨point, listed, same⟩ := List.mem_map.mp reported
        exact absurd (List.find?_eq_none.mp found point listed) (by simp [same])
    | some point =>
        have listed := List.mem_of_find?_eq_some found
        have same : point.fileId = file.info.id := by simpa using List.find?_some found
        obtain ⟨other, inPlan, named, fits, equal⟩ := allowed_file plan point (each point listed)
        obtain rfl := planned_file_unique plan manifest planned valid other file inPlan member
          (named.trans same)
        exact ⟨point, rfl, same, fits, fun told => ⟨complete told point listed,
          equal (complete told point listed)⟩⟩
  · exact (total_size_sum _ _ _ (planned_request plan manifest planned).2).2 (by decide)

end Plan

def senderStep (sha256 : Bytes → String) (client : TransferClient) (plan : PreparedTransfer)
    (sender : Sender) (input : Input) : Option Sender :=
  (sender.next sha256 client plan input).map Prod.fst

def freshSender : Sender := ⟨.begin, 0, []⟩

-- The files that are still to be sent are files of the plan, and an upload starts
-- inside its file.
def Stage.Fits (plan : PreparedTransfer) : Stage → Prop
  | .file _ first rest _ => ∀ f ∈ first :: rest, f ∈ plan.files
  | _ => True

def SendPoint.Fits (plan : PreparedTransfer) : SendPoint → Prop
  | .query stage _ | .querying stage _ => stage.Fits plan
  | .openSource _ file rest _ offset | .posting _ file rest _ offset _ _ _ =>
      (∀ f ∈ file :: rest, f ∈ plan.files) ∧ offset ≤ file.info.size
  | _ => True

def SendPhase.Fits (plan : PreparedTransfer) : SendPhase → Prop
  | .running manifest point => plan.manifest = .ok manifest ∧ manifest.Valid ∧ point.Fits plan
  | _ => True

def Confirms (plan : PreparedTransfer) (input : Input) : Prop :=
  ∃ response whole status, input = .outcome (.response response whole) ∧
    checkpointStatus plan response whole = .ok status ∧ status.complete = true

-- Where a step that was made on an input leads.
def SendPhase.Follows (plan : PreparedTransfer) (input : Input) : SendPhase → Prop
  | .returned (.ok _) => Confirms plan input ∧ ∃ manifest, plan.manifest = .ok manifest ∧ manifest.Valid
  | phase => phase.Fits plan

section Step

variable (sha256 : Bytes → String) (client : TransferClient) (plan : PreparedTransfer) (sender : Sender)
    (input : Input)
variable (manifest : TransferManifest) (planned : plan.manifest = .ok manifest) (valid : manifest.Valid)
include planned valid

theorem moves_on (sender : Sender) (point : SendPoint) (fits : point.Fits plan) :
    (sender.move (.running manifest point)).phase.Follows plan input := ⟨planned, valid, fits⟩

omit planned valid in
theorem next_file_fits (token : String) (files : List PreparedFile) (inPlan : ∀ f ∈ files, f ∈ plan.files) :
    (nextFile token files).Fits plan := by
  cases files with
  | nil => trivial
  | cons file rest => exact inPlan

theorem send_follows (request : Request) (point : SendPoint) (fits : point.Fits plan) (sender' : Sender)
    (requests : List Request)
    (moved : send client sender request (.running manifest point) = (sender', requests)) :
    sender'.phase.Follows plan input := by
  unfold send at moved
  split at moved
  · cases moved
    trivial
  · cases moved
    exact moves_on plan input manifest planned valid sender point fits

theorem checkpoint_follows (status : ResumeStatus) (told : status.complete = true → Confirms plan input)
    (stage : Stage) (fits : stage.Fits plan) :
    (checkpointStep plan sender manifest status stage).phase.Follows plan input := by
  have done : status.complete = true → (finish sender manifest).phase.Follows plan input :=
    fun complete => ⟨told complete, manifest, planned, valid⟩
  have going := moves_on plan input manifest planned valid
  have next := next_file_fits plan
  cases stage with
  | approval =>
      simp only [checkpointStep, approvalStep]
      split
      · trivial
      · split
        · split
          · rename_i complete
            exact done complete
          · split
            · trivial
            · exact going sender _ (next _ _ fun f member => member)
        · trivial
        · trivial
        · exact going sender _ trivial
  | file token file rest n =>
      simp only [checkpointStep, fileStep]
      split
      · trivial
      · split
        · trivial
        · split
          · exact going sender _ (next _ _ fun f member => fits f (List.mem_cons_of_mem _ member))
          · split
            · trivial
            · rename_i inside
              exact going sender _ ⟨fits, by omega⟩
  | completion =>
      simp only [checkpointStep, completionStep]
      split
      · trivial
      · rename_i complete
        exact done (by simpa using complete)

theorem point_follows (point : SendPoint) (fits : point.Fits plan) (sender' : Sender)
    (requests : List Request)
    (moved : pointStep sha256 client plan sender manifest point input = some (sender', requests)) :
    sender'.phase.Follows plan input := by
  have going := moves_on plan input manifest planned valid
  have next := next_file_fits plan
  have sent := send_follows client plan sender input manifest planned valid
  unfold pointStep at moved
  split at moved
  · rename_i file rest content
    cases moved
    cases content with
    | error message => trivial
    | ok bytes =>
        simp only [hashSource]
        split
        · trivial
        · exact going sender _ trivial
  · cases moved
    exact going sender _ trivial
  · refine sent _ _ ?_ sender' requests (Option.some.inj moved)
    trivial
  · split at moved
    · cases moved
      exact going sender _ trivial
    · cases moved
      exact going sender _ trivial
    · cases moved
      trivial
  · refine sent _ _ ?_ sender' requests (Option.some.inj moved)
    exact fits
  · rename_i stage attempt outcome
    split at moved
    · rename_i response whole judged
      obtain ⟨rfl, success⟩ := judge_success _ _ _ _ _ _ judged
      split at moved
      · cases moved
        trivial
      · rename_i status accepted
        cases moved
        exact checkpoint_follows plan sender _ manifest planned valid status
          (fun complete => ⟨response, whole, status, rfl, accepted, complete⟩) stage fits
    · cases moved
      exact going sender _ fits
    · cases moved
      trivial
  · cases moved
    trivial
  · cases moved
    trivial
  · cases moved
    trivial
  · refine sent _ _ ?_ sender' requests (Option.some.inj moved)
    exact fits
  · split at moved
    · cases moved
    · cases moved
      exact going sender _ fits
  · split at moved
    · cases moved
      exact going sender _ (next _ _ fun f member => fits.1 f (List.mem_cons_of_mem _ member))
    · cases moved
      exact going sender _ fits.1
    · cases moved
      trivial
  · cases moved

end Step

theorem sender_follows (sha256 : Bytes → String) (client : TransferClient) (plan : PreparedTransfer)
    (sender sender' : Sender) (input : Input) (before : sender.phase.Fits plan)
    (stepped : senderStep sha256 client plan sender input = some sender') :
    sender'.phase.Follows plan input := by
  obtain ⟨⟨_, requests⟩, moved, rfl⟩ := Option.map_eq_some_iff.mp stepped
  unfold Sender.next at moved
  split at moved
  · cases moved
    unfold beginStep
    split
    · trivial
    · split
      · trivial
      · rename_i manifest planned
        split
        · trivial
        · rename_i checked
          exact ⟨planned, checked, trivial⟩
  · rename_i manifest point running
    rw [running] at before
    obtain ⟨planned, valid, fits⟩ := before
    exact point_follows sha256 client plan sender _ manifest planned valid point fits _ requests moved
  · cases moved

theorem follows_fits (plan : PreparedTransfer) (input : Input) (phase : SendPhase)
    (follows : phase.Follows plan input) : phase.Fits plan := by
  cases phase with
  | returned result => trivial
  | _ => exact follows

-- What holds wherever send_plan stands, whatever it was told.
structure SenderSafe (sha256 : Bytes → String) (client : TransferClient) (plan : PreparedTransfer)
    (sender : Sender) : Prop where
  lookup : ∀ manifest token file rest attempt n, sender.phase = .running manifest
    (.querying (.file token file rest attempt) n) →
    ∀ response whole status, checkpointStatus plan response whole = .ok status →
      ∃ point, status.files.find? (·.fileId == file.info.id) = some point ∧ point.offset ≤ file.info.size
  offset : ∀ manifest token file rest attempt offset, sender.phase = .running manifest
    (.openSource token file rest attempt offset) →
    offset ≤ file.info.size
  success : sender.phase = .returned (.ok ()) → ∃ before response whole status manifest,
    Transition.Run (senderStep sha256 client plan) (fun _ _ => True) freshSender before ∧
      senderStep sha256 client plan before (.outcome (.response response whole)) = some sender ∧
      checkpointStatus plan response whole = .ok status ∧ status.complete = true ∧
      plan.manifest = .ok manifest ∧ SoundStatus plan manifest status

theorem sender_survives_any_answer (sha256 : Bytes → String) (client : TransferClient)
    (plan : PreparedTransfer) (manifest : TransferManifest) (planned : plan.manifest = .ok manifest)
    (valid : manifest.Valid) :
    (∀ response whole status, checkpointStatus plan response whole = .ok status →
      SoundStatus plan manifest status) ∧
    (∀ sender, Transition.Run (senderStep sha256 client plan) (fun _ _ => True) freshSender sender →
      SenderSafe sha256 client plan sender) := by
  have sound := accepted_sound plan manifest planned valid
  have fits : ∀ sender, Transition.Run (senderStep sha256 client plan) (fun _ _ => True) freshSender sender →
      sender.phase.Fits plan := by
    intro sender run
    refine Transition.run_invariant (senderStep sha256 client plan) _ (fun sender => sender.phase.Fits plan) ?_
      freshSender sender run trivial
    intro sender input next before _ stepped
    exact follows_fits plan input _ (sender_follows sha256 client plan sender next input before stepped)
  refine ⟨sound, ?_⟩
  intro sender run
  have here := fits sender run
  refine ⟨?_, ?_, ?_⟩
  · intro _ token file rest attempt n at_ response whole status accepted
    rw [at_] at here
    obtain ⟨point, found, _, inside, _⟩ := (sound response whole status accepted).found file (here.2.2 file List.mem_cons_self)
    exact ⟨point, found, inside⟩
  · intro _ token file rest attempt offset at_
    rw [at_] at here
    exact here.2.2.2
  · intro returned
    cases run with
    | refl => cases returned
    | tail before _ input earlier _ stepped =>
        have follows := sender_follows sha256 client plan before sender input (fits before earlier) stepped
        rw [returned] at follows
        obtain ⟨⟨response, whole, status, rfl, accepted, complete⟩, _⟩ := follows
        exact ⟨before, response, whole, status, manifest, earlier, stepped, accepted, complete, planned,
          sound response whole status accepted⟩

-- An answer that names one file whole and one byte of the other.
def pairStatus : ResumeStatus :=
    ⟨.accepted, some "t", false, false, [⟨planFile.info.id, 0, true⟩, ⟨pairPlanFile.info.id, 1, false⟩]⟩

theorem pair_plan_survives_any_answer : pairPlan.manifest = .ok pairPlanManifest ∧ pairPlanManifest.Valid ∧
    checkpointStatus pairPlan (pairReply true 1 false) true = .ok pairStatus ∧
      SoundStatus pairPlan pairPlanManifest pairStatus := by
  have planned : pairPlan.manifest = .ok pairPlanManifest := by rfl
  have valid : pairPlanManifest.Valid := by unfold TransferManifest.Valid; decide +kernel
  have accepted : checkpointStatus pairPlan (pairReply true 1 false) true = .ok pairStatus := by rfl
  exact ⟨planned, valid, accepted,
    (sender_survives_any_answer pairPlanHash retryingClient pairPlan pairPlanManifest planned valid).1 _ _ _
    accepted⟩

end GoshTransfer
