import GoshTransfer.Base

set_option autoImplicit false

namespace GoshTransfer

open InodeStore

-- Entries that tell of an outcome: history records and TransferComplete.
def Entry.reports : Entry → Bool
  | .history _ _ | .event _ (.transferComplete _) => true
  | _ => false

-- Where outcomes are reported: by the three announcing phases and nowhere else.
inductive Report (store : Store) : Op → Act → List Entry → Op → Prop where
  | silent (op op' : Op) (act : Act) (log : List Entry) (nothing : ∀ entry ∈ log, entry.reports = false) :
      Report store op act log op'
  | completed (request : UploadRequest) (s : Nat) (session : Session) (x : Incoming)
      (here : store.heap[s]? = some session) :
      Report store (.upload request (.announce s x)) .tau (completionLog s request session.record x)
        (.upload request (.leave s (.plain 200)))
  | cancelled (caller : Option Peer) (id : String) (s : Nat) (session : Session) (bytes : Nat)
      (here : store.heap[s]? = some session) :
      Report store (.cancel caller id (.discard s [] bytes)) .tau
        [.event s (.transferFailed id "Transfer cancelled"),
          .history s ⟨session.record.pending, .failed, bytes, some "Transfer cancelled"⟩]
        (.cancel caller id (.leave s (.ok ())))
  | rejected (id : String) (s : Nat) (session : Session) (here : store.heap[s]? = some session) :
      Report store (.reject id (.announce s)) .tau
      [.history s ⟨session.record.pending, .rejected, 0, some "Rejected by user"⟩]
        (.reject id (.leave s (.ok ())))

theorem progress_log_silent (s : Nat) (request : UploadRequest) (record : Record) (x : Incoming) :
    ∀ entry ∈ progressLog s request record x, entry.reports = false := by
  intro entry member
  unfold progressLog at member
  split at member
  · obtain rfl : entry = _ := by simpa using member
    rfl
  · simp at member

theorem op_report (sha256 : Bytes → String) (store : Store) (fault : Option Fault) (op op' : Op) (act : Act)
    (log : List Entry) (moved : OpMove sha256 store fault op act log op') : Report store op act log op' := by
  cases moved with
  | accept id phase next _ _ moved => cases moved <;> exact .silent _ _ _ _ (by simp)
  | reject id phase next _ _ moved =>
      cases moved with
      | announced s session here => exact .rejected id s session here
      | _ => exact .silent _ _ _ _ (by simp)
  | cancel caller id phase next _ _ moved =>
      cases moved with
      | announced s session bytes here => exact .cancelled caller id s session bytes here
      | _ => exact .silent _ _ _ _ (by simp)
  | forget id phase next _ _ moved => cases moved <;> exact .silent _ _ _ _ (by simp)
  | register request phase next _ _ moved =>
      cases moved with
      | inserted =>
          refine .silent _ _ _ _ ?_
          intro entry member
          split at member
          · simp at member
          · obtain rfl : entry = _ := by simpa using member
            rfl
      | _ => exact .silent _ _ _ _ (by simp)
  | status peer id phase next _ _ moved => cases moved <;> exact .silent _ _ _ _ (by simp)
  | upload request phase next _ _ moved =>
      cases moved with
      | announced s session x here => exact .completed request s session x here
      | appended s session x chunk rest here fits clear =>
          exact .silent _ _ _ _ (progress_log_silent s request session.record _)
      | unseen s session x chunk rest written here fits clear short failed last =>
          exact .silent _ _ _ _ (progress_log_silent s request session.record _)
      | linked s session x index target inode here source free =>
          exact .silent _ _ _ _ (by simp [Entry.reports])
      | mismatch s session x bytes here read different => exact .silent _ _ _ _ (by simp [Entry.reports])
      | _ => exact .silent _ _ _ _ (by simp)

end GoshTransfer
