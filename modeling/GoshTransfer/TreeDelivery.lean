import GoshTransfer.Delivery
import GoshTransfer.Placement
import GoshTransfer.Preparation

set_option autoImplicit false

-- A directory from the sender's disk to the receiver's: prepare_directory,
-- send_plan and the receiver in one run.
namespace GoshTransfer

open InodeStore UnixPath

theorem world_receiver (sha256 : Bytes → String) (client : TransferClient) (plan : PreparedTransfer)
    (world next : World) (label : WorldLabel)
    (stepped : worldStep sha256 client plan world label = some next) :
    next.receiver = world.receiver ∨ ∃ label, step sha256 world.receiver label = some next.receiver := by
  cases label with
  | receiver label =>
      obtain ⟨receiver, moved, rfl⟩ := Option.map_eq_some_iff.mp stepped
      exact .inr ⟨label, moved⟩
  | deliver request arrival =>
      simp only [worldStep, Option.ite_none_right_eq_some] at stepped
      obtain ⟨_, stepped⟩ := stepped
      obtain ⟨receiver, moved, rfl⟩ := Option.map_eq_some_iff.mp stepped
      exact .inr ⟨_, moved⟩
  | reply o =>
      obtain ⟨request, _, stepped⟩ := Option.bind_eq_some_iff.mp stepped
      obtain ⟨response, _, rfl⟩ := Option.map_eq_some_iff.mp stepped
      exact .inl rfl
  | sender input =>
      simp only [worldStep, Option.ite_none_right_eq_some] at stepped
      obtain ⟨_, stepped⟩ := stepped
      obtain ⟨⟨sender, requests⟩, _, rfl⟩ := Option.map_eq_some_iff.mp stepped
      exact .inl rfl

theorem world_placed (sha256 : Bytes → String) (client : TransferClient) (plan : PreparedTransfer)
    (start final : World) (initial : start.Initial)
    (run : Transition.Run (worldStep sha256 client plan)
      (fun world label => careful plan world label = true) start final) :
    Sure sha256 plan final ∧ ∀ record, Listed final.receiver.store record → record.Placed := by
  refine Transition.run_invariant (worldStep sha256 client plan) _
    (fun world => Sure sha256 plan world ∧ ∀ record, Listed world.receiver.store record →
      record.Placed) ?_ start final run
    ⟨initial_sure sha256 plan start initial, fun record listed => absurd listed
      (initial_unlisted start.receiver initial.receiver record)⟩
  rintro world label next ⟨sure, placed⟩ allowed stepped
  refine ⟨sure_step sha256 client plan world next label sure allowed stepped, ?_⟩
  rcases world_receiver sha256 client plan world next label stepped with same | ⟨label, moved⟩
  · rw [same]
    exact placed
  · exact records_step _ (fun request _ => request_placed request) change_placed sha256 world.receiver
      next.receiver label sure.kempt.base placed moved

-- When the send of a prepared directory has succeeded, every file of it lies at its
-- place below the download directory with the bytes it had when it was prepared;
-- its name may carry a number.
theorem sent_directories_arrive (setting : Preparing)
    (collisionFree : ∀ a b, setting.sha256 a = setting.sha256 b → a = b) (address : String) (port : Nat)
    (base : Components) (tree : SourceTree) (senderName : Option String) (plan : PreparedTransfer)
    (prepared : prepareDirectory setting address port base tree.root senderName = .ok plan)
    (client : TransferClient) (start final : World) (initial : start.Initial)
    (run : Transition.Run (worldStep setting.sha256 client plan)
      (fun world label => careful plan world label = true) start final)
    (success : final.sender.phase = .returned (.ok ())) :
    ∃ journal, final.receiver.store.disk.doc (journalPath plan.transferId) = some journal ∧
      journal.complete = true ∧
      List.Forall₂ (fun names file => ∃ front last index source bytes, names = front ++ [last] ∧
        setting.disk.canonicalize (base ++ names.map .normal) = .ok source ∧
          setting.disk.read source = .content bytes ∧
          journal.published.lookup file.info.id = some (front ++ [candidateName last index]) ∧
            final.receiver.store.disk.read (front ++ [candidateName last index]) = some bytes)
        tree.root.paths plan.files := by
  obtain ⟨sure, placed⟩ := world_placed setting.sha256 client plan start final initial run
  have certain := sure.sender
  rw [success] at certain
  obtain ⟨completed, manifest, planned, registered⟩ := certain
  obtain ⟨journal, written, complete⟩ := completed.journal
  obtain ⟨_, written', own⟩ := registered.journal
  obtain rfl := Option.some.inj (written.symm.trans written')
  obtain rfl : journal.manifest = manifest := own
  have listed : Listed final.receiver.store journal := .inr ⟨_, written⟩
  obtain ⟨_, holds⟩ :=
    complete_holds setting.sha256 plan final.receiver sure.kempt.base sure.intact journal listed planned
      complete
  refine ⟨journal, written, complete, List.forall₂_iff_get.mpr ⟨?_, ?_⟩⟩
  · exact (prepared_tree setting address port base tree senderName plan prepared).length_eq
  · intro k inside inside'
    obtain ⟨⟨front, last, split, cleaned⟩, made⟩ :=
      (List.forall₂_iff_get.mp (prepared_tree setting address port base tree senderName plan prepared)).2 k
        inside inside'
    obtain ⟨source, read, _, hash⟩ := made.content
    obtain ⟨path, bytes, receipt, arrived, _, digest⟩ := holds _ (List.getElem_mem inside')
    obtain rfl : bytes = source := collisionFree bytes source (digest.trans hash)
    have member : (plan.files.get ⟨k, inside'⟩).info ∈ journal.manifest.request.files := by
      rw [manifest_files plan journal.manifest planned]
      exact List.mem_map_of_mem (List.getElem_mem inside')
    obtain ⟨index, rfl⟩ := placed journal listed _ member path (.inr receipt)
    have target := prepared_target setting base [] front last _ cleaned (by rw [← split]; exact made)
    rw [receive_target_in, Prod.mk.injEq, List.nil_append, List.nil_append] at target
    have parent := List.map_injective_iff.mpr (fun _ _ equal => Component.normal.inj equal) target.1
    rw [candidatePath, parent, target.2] at receipt arrived
    exact ⟨front, last, index, _, bytes, split, made.located, read, receipt, arrived⟩

def treeSetting : Preparing := { smallSetting with sha256 := plainHash }

def treeManifest : TransferManifest :=
    { planManifest with request := { planManifest.request with files := smallTreePlan.files.map PreparedFile.info } }

-- The receiver crashes before it is asked whether it has everything.
def treeRun : List WorldLabel :=
  .receiver .start :: .sender .go :: .sender (.source (.ok [])) :: .sender .go :: .sender .go ::
    exchange 0 7 (.transfer treeManifest) (statusReply false) ++ .sender .go ::
    exchange 1 4 (.status smallPlan.transferId) (statusReply false) ++
    .sender .go :: .sender (.outcome (.response (statusReply false) true)) :: .sender (.source (.ok [])) ::
    exchange 2 18 (.chunk smallPlan.transferId planFile.info.id 0 "t" []) (.plain 200) ++
    .receiver .crash :: .receiver .start :: confirmingRun 0

theorem small_tree_arrives : ∃ (final : World) (journal : Record), final.sender.phase = .returned (.ok ()) ∧
    final.receiver.store.disk.doc (journalPath smallTreePlan.transferId) = some journal ∧
      journal.complete = true ∧
      ∃ index, final.receiver.store.disk.read [candidateName "a" index] = some [] := by
  obtain ⟨final, run, checked⟩ := Transition.replay_reaches (worldStep plainHash smallClient smallTreePlan)
    (fun world label => careful smallTreePlan world label = true) treeRun smallWorld succeeded
    (by decide +kernel)
  have success := succeeded_sound final checked
  obtain ⟨journal, written, complete, arrived⟩ :=
    sent_directories_arrive treeSetting plain_hash_injective "10.0.0.1" 53317 (parse "/home")
    smallTree none smallTreePlan rfl smallClient smallWorld final small_world_initial run success
  refine ⟨final, journal, success, written, complete, ?_⟩
  obtain ⟨front, last, index, source, bytes, split, _, content, _, read⟩ :=
    (List.forall₂_iff_get.mp arrived).2 0 (by decide) (by decide)
  obtain rfl : ([] : Bytes) = bytes := SourceRead.content.inj content
  obtain ⟨rfl, rfl⟩ : front = [] ∧ last = "a" := by
    have whole : [] ++ ["a"] = front ++ [last] := split
    obtain ⟨none_, one⟩ := List.append_inj' whole rfl
    exact ⟨none_.symm, (List.singleton_inj.mp one).symm⟩
  exact ⟨index, read⟩

end GoshTransfer
