import GoshTransfer.LegacySender

set_option autoImplicit false

namespace GoshTransfer

def sizeSum (files : List TransferFile) : Nat := (files.map TransferFile.size).sum

-- The size at opening is the declared one, and no more than the file is streamed.
def SendAttempt.Within (size : Nat) : SendAttempt → Prop
  | .unopened _ => True
  | .opened fileSize chunks _ => fileSize = size ∧ chunks.sum ≤ size

def SenderAct.Accounted (files : List TransferFile) : SenderAct → Prop
  | .start k counter => counter = sizeSum (files.take k)
  | .subtract newTotal last => last ≤ newTotal
  | .event (.transferProgress progress) => progress.bytesTransferred ≤ progress.totalBytes
  | _ => True

structure SendAccounted (files : List TransferFile)
    (outcome : LegacySender × Option (Except SendError Unit)) : Prop where
  acts : ∀ act ∈ outcome.1.trace, act.Accounted files
  total : outcome.2 = some (.ok ()) → outcome.1.bytesSentSoFar = totalTransferSize files

theorem wrap_small (n : Nat) (small : n < 2 ^ 64) : wrap n = n := Nat.mod_eq_of_lt small

theorem wrapped_total (files : List TransferFile) (n : Nat) :
    files.foldl (fun n f => wrap (n + f.size)) (wrap n) = wrap (n + sizeSum files) := by
  induction files generalizing n with
  | nil => rfl
  | cons file rest ih =>
      have step : wrap (wrap n + file.size) = wrap (n + file.size) := Nat.mod_add_mod n (2 ^ 64) file.size
      rw [List.foldl_cons, step, ih, sizeSum, sizeSum, List.map_cons, List.sum_cons, Nat.add_assoc]

theorem total_wraps (files : List TransferFile) : totalTransferSize files = wrap (sizeSum files) := by
  have total := wrapped_total files 0
  rwa [Nat.zero_add] at total

theorem size_sum_append (first second : List TransferFile) : sizeSum
    (first ++ second) = sizeSum first + sizeSum second := by
  simp [sizeSum]

theorem size_sum_cons (file : TransferFile) (rest : List TransferFile) : sizeSum
    (file :: rest) = file.size + sizeSum rest := by
  simp [sizeSum]

def LegacySender.Clean (files : List TransferFile) (sender : LegacySender) : Prop :=
    ∀ act ∈ sender.trace, act.Accounted files

theorem act_clean (files : List TransferFile) (sender : LegacySender) (act : SenderAct)
    (clean : sender.Clean files) (accounted : act.Accounted files) : (sender.act act).Clean files := by
  intro other member
  rcases List.mem_append.mp member with old | new
  · exact clean other old
  · obtain rfl := List.mem_singleton.mp new
    exact accounted

section Sound

variable (client : TransferClient) (call : LegacySend) (fits : sizeSum call.files < 2 ^ 64)

include fits

theorem total_exact : totalTransferSize call.files = sizeSum call.files := by
  rw [total_wraps, wrap_small _ fits]

theorem progress_accounted (file : TransferFile) (bytes : Nat) (within : bytes ≤ sizeSum call.files) :
    (call.progress file bytes).Accounted call.files := by
  change bytes ≤ totalTransferSize call.files
  rw [total_exact call fits]
  exact within

-- The counter has passed the last reported value and stays within the total.
structure Streaming (sender : LegacySender) (last : Nat) : Prop where
  clean : sender.Clean call.files
  passed : last ≤ sender.bytesSentSoFar

theorem chunk_streams (file : TransferFile) (sender : LegacySender) (last len : Nat)
    (streaming : Streaming call sender last) (within : sender.bytesSentSoFar + len ≤ sizeSum call.files) :
    Streaming call (inspectChunk call file sender last len).1 (inspectChunk call file sender last len).2 ∧
      (inspectChunk call file sender last len).1.bytesSentSoFar = sender.bytesSentSoFar + len := by
  have counted := wrap_small (sender.bytesSentSoFar + len) (by omega)
  have passed : last ≤ sender.bytesSentSoFar + len := streaming.passed.trans (Nat.le_add_right _ _)
  have subtracted :
    ((sender.store (sender.bytesSentSoFar + len)).act (.subtract (sender.bytesSentSoFar + len) last)).Clean
    call.files :=
    act_clean _ _ _ streaming.clean passed
  simp only [inspectChunk, counted]
  split
  · refine ⟨⟨?_, Nat.le_refl _⟩, rfl⟩
    exact act_clean _ _ _ subtracted (progress_accounted call fits file _ within)
  · exact ⟨⟨subtracted, passed⟩, rfl⟩

theorem chunks_stream (file : TransferFile) (chunks : List Nat) (sender : LegacySender) (last : Nat)
    (streaming : Streaming call sender last)
    (within : sender.bytesSentSoFar + chunks.sum ≤ sizeSum call.files) :
    (chunks.foldl (fun state len => inspectChunk call file state.1 state.2 len) (sender, last)).1.Clean
      call.files := by
  induction chunks generalizing sender last with
  | nil => exact streaming.clean
  | cons len rest ih =>
      rw [List.sum_cons] at within
      obtain ⟨next, counted⟩ := chunk_streams call fits file sender last len streaming (by omega)
      simp only [List.foldl_cons]
      generalize inspectChunk call file sender last len = inspected at next counted ⊢
      obtain ⟨after, reported⟩ := inspected
      refine ih after reported next ?_
      change after.bytesSentSoFar = _ at counted
      omega

theorem file_sound (file : TransferFile) (attempt : SendAttempt) (sender : LegacySender)
    (clean : sender.Clean call.files) (within : sender.bytesSentSoFar + file.size ≤ sizeSum call.files)
    (part : attempt.Within file.size) :
    (sendFile client call file attempt sender).1.Clean call.files ∧
      ((sendFile client call file attempt sender).2 = .ok () →
        (sendFile client call file attempt sender).1.bytesSentSoFar = sender.bytesSentSoFar + file.size) := by
  cases attempt with
  | unopened message => exact ⟨clean, fun done => by cases done⟩
  | opened fileSize chunks ending =>
      obtain ⟨rfl, streamed⟩ := part
      have sent : (streamChunks call file chunks sender).Clean call.files :=
        chunks_stream call fits file chunks sender 0 ⟨clean, Nat.zero_le _⟩ (by omega)
      unfold sendFile
      cases client.configError with
      | some message => exact ⟨clean, fun done => by cases done⟩
      | none =>
          cases ending with
          | failed message => exact ⟨sent, fun done => by cases done⟩
          | answered code status text =>
              dsimp only
              split
              · exact ⟨sent, fun done => by cases done⟩
              · rw [wrap_small _ (by omega)]
                refine ⟨?_, fun _ => rfl⟩
                exact act_clean _ _ _ sent (progress_accounted call fits file _ within)

-- Every attempt starts at the baseline. The attempts that are left keep the loop
-- from its end.
theorem retry_sound (file : TransferFile) (tries : Nat → SendAttempt) (baseline left attempt : Nat)
    (sender : LegacySender) (clean : sender.Clean call.files)
    (within : baseline + file.size ≤ sizeSum call.files) (part : ∀ a, (tries a).Within file.size)
    (enough : client.maxRetries < left + attempt) (positive : 0 < left) :
    (retryLoop client call file tries baseline left attempt sender).1.Clean call.files ∧
      (retryLoop client call file tries baseline left attempt sender).2 ≠ none ∧
      ((retryLoop client call file tries baseline left attempt sender).2 = some (.ok ()) →
        (retryLoop client call file tries baseline left attempt sender).1.bytesSentSoFar =
          baseline + file.size) := by
  induction left generalizing attempt sender with
  | zero => omega
  | succ left ih =>
      obtain ⟨sent, counted⟩ :=
        file_sound client call fits file (tries attempt) (sender.store baseline) clean within (part attempt)
      unfold retryLoop
      generalize sendFile client call file (tries attempt) (sender.store baseline) = result at sent counted
      obtain ⟨after, result⟩ := result
      cases result with
      | ok _ => exact ⟨sent, by simp, fun _ => counted rfl⟩
      | error error =>
          dsimp only
          split
          · rename_i again
            rw [Bool.and_eq_true, decide_eq_true_eq] at again
            exact ih _ _ (act_clean _ _ _ sent trivial) (by omega) (by omega)
          · exact ⟨sent, by simp, fun done => by cases done⟩

theorem file_loop_sound (tries : Nat → Nat → SendAttempt) (before files : List TransferFile)
    (sender : LegacySender) (whole : call.files = before ++ files) (clean : sender.Clean call.files)
    (counted : sender.bytesSentSoFar = sizeSum before)
    (part : ∀ k file, call.files[k]? = some file → ∀ a, (tries k a).Within file.size) :
    (fileLoop client call tries before.length files sender).1.Clean call.files ∧
      (fileLoop client call tries before.length files sender).2 ≠ none ∧
      ((fileLoop client call tries before.length files sender).2 = some (.ok ()) →
        (fileLoop client call tries before.length files sender).1.bytesSentSoFar = sizeSum call.files) := by
  induction files generalizing before sender with
  | nil =>
      rw [List.append_nil] at whole
      exact ⟨clean, by simp [fileLoop], fun _ => by rw [whole]; exact counted⟩
  | cons file rest ih =>
      have here : call.files[before.length]? = some file := by rw [whole]; simp
      have within : sender.bytesSentSoFar + file.size ≤ sizeSum call.files := by
        rw [whole, size_sum_append, size_sum_cons, counted]
        omega
      have started : (sender.act (.start before.length sender.bytesSentSoFar)).Clean call.files := by
        refine act_clean _ _ _ clean ?_
        change sender.bytesSentSoFar = sizeSum (call.files.take before.length)
        rw [whole, List.take_left, counted]
      obtain ⟨sent, returned, added⟩ :=
        retry_sound client call fits file (tries before.length) sender.bytesSentSoFar
        (client.maxRetries + 1) 0 _ started within (part before.length file here) (by omega) (by omega)
      have position : (before ++ [file]).length = before.length + 1 := by simp
      have sum : sizeSum (before ++ [file]) = sizeSum before + file.size := by simp [sizeSum]
      unfold fileLoop sendFileWithRetry
      generalize attempted : retryLoop client call file (tries before.length)
        (sender.act (.start before.length sender.bytesSentSoFar)).bytesSentSoFar (client.maxRetries + 1) 0
        (sender.act (.start before.length sender.bytesSentSoFar)) = result
      change retryLoop client call file (tries before.length) sender.bytesSentSoFar (client.maxRetries + 1) 0
        (sender.act (.start before.length sender.bytesSentSoFar)) = result at attempted
      rw [attempted] at sent returned added
      obtain ⟨after, reply⟩ := result
      cases reply with
      | none => exact absurd rfl returned
      | some reply =>
          cases reply with
          | error error => exact ⟨sent, by simp, fun done => by cases done⟩
          | ok _ =>
              have reached : after.bytesSentSoFar = sizeSum (before ++ [file]) := by
                rw [sum, ← counted]
                exact added rfl
              have next := ih (before ++ [file]) after (by rw [whole, List.append_assoc]; rfl) sent reached
              rw [position] at next
              exact next

omit fits in
theorem record_clean (sender : LegacySender) (status : TransferStatus) (bytes : Nat) (error : Option String)
    (clean : sender.Clean call.files) :
    (call.record sender status bytes error).Clean call.files ∧
      (call.record sender status bytes error).bytesSentSoFar = sender.bytesSentSoFar := by
  unfold LegacySend.record
  split
  · exact ⟨act_clean _ _ _ clean trivial, rfl⟩
  · exact ⟨clean, rfl⟩

omit fits in
theorem fail_sound (sender : LegacySender) (status : TransferStatus) (bytes : Nat) (error : SendError)
    (clean : sender.Clean call.files) :
    SendAccounted call.files (call.fail sender status bytes error) :=
  ⟨act_clean _ _ _ (record_clean call sender status bytes _ clean).1 trivial, fun done => by cases done⟩

theorem send_sound (empty : SendError) (tries : Nat → Nat → SendAttempt)
    (part : ∀ k file, call.files[k]? = some file → ∀ a, (tries k a).Within file.size) :
    SendAccounted call.files (sendListed client call empty tries) := by
  have fresh : (⟨0, []⟩ : LegacySender).Clean call.files := fun act member => by cases member
  have sound := file_loop_sound client call fits tries [] call.files ⟨0, []⟩ rfl fresh rfl part
  rw [List.length_nil] at sound
  unfold sendListed
  dsimp only
  split
  · exact ⟨fresh, fun done => by cases done⟩
  · split
    · exact fail_sound call _ _ _ _ fresh
    · generalize fileLoop client call tries 0 call.files ⟨0, []⟩ = result at sound ⊢
      obtain ⟨after, reply⟩ := result
      obtain ⟨sent, returned, counted⟩ := sound
      cases reply with
      | none => exact absurd rfl returned
      | some reply =>
          cases reply with
          | error error => exact fail_sound call _ _ _ _ sent
          | ok done =>
              cases done
              obtain ⟨recorded, same⟩ :=
                record_clean call after .completed (totalTransferSize call.files) none sent
              refine ⟨act_clean _ _ _ recorded trivial, fun _ => ?_⟩
              exact (same.trans (counted rfl)).trans (total_exact call fits).symm

end Sound

-- Every file is sent at once, without a byte of it having passed the inspection.
def prompt (files : List TransferFile) (k _attempt : Nat) : SendAttempt :=
  .opened ((files[k]?.map TransferFile.size).getD 0) [] (.answered 200 "200 OK" "")

def promptClient : TransferClient := ⟨false, 0, none⟩

theorem prompt_within (files : List TransferFile) (k : Nat) (file : TransferFile)
    (here : files[k]? = some file) (a : Nat) :
    (prompt files k a).Within file.size := by
  simp [prompt, SendAttempt.Within, here]

section Prompt

variable (call : LegacySend)

theorem prompt_sent (file : TransferFile) (k : Nat) (sender : LegacySender)
    (here : call.files[k]? = some file) :
    sendFileWithRetry promptClient call file (prompt call.files k) sender =
      ((sender.store (wrap (sender.bytesSentSoFar + file.size))).act
        (call.progress file (wrap (sender.bytesSentSoFar + file.size))),
        some (.ok ())) := by
  simp [sendFileWithRetry, promptClient, retryLoop, sendFile, prompt, here, streamChunks, isSuccess,
    LegacySender.store, LegacySender.act]

-- The values of the counter at the starts and in the reports wrap around.
structure PromptRun (before files : List TransferFile) (sender : LegacySender)
    (outcome : LegacySender × Option (Except SendError Unit)) : Prop where
  kept : ∀ act ∈ sender.trace, act ∈ outcome.1.trace
  started : ∀ front file rest, files = front ++ file :: rest →
    .start (before.length + front.length) (wrap (sizeSum before + sizeSum front)) ∈ outcome.1.trace
  reported : ∀ front file rest, files = front ++ file :: rest →
    call.progress file (wrap (sizeSum before + sizeSum front + file.size)) ∈ outcome.1.trace
  returned : outcome.2 = some (.ok ())

theorem prompt_runs (before files : List TransferFile) (sender : LegacySender)
    (whole : call.files = before ++ files) (counted : sender.bytesSentSoFar = wrap (sizeSum before)) :
    PromptRun call before files sender
    (fileLoop promptClient call (prompt call.files) before.length files sender) := by
  induction files generalizing before sender with
  | nil =>
      refine ⟨fun act member => member, ?_, ?_, rfl⟩
      · intro front file rest split
        cases front <;> cases split
      · intro front file rest split
        cases front <;> cases split
  | cons file rest ih =>
      have here : call.files[before.length]? = some file := by rw [whole]; simp
      have sum : sizeSum (before ++ [file]) = sizeSum before + file.size := by simp [sizeSum]
      have length : (before ++ [file]).length = before.length + 1 := by simp
      have added : wrap (wrap (sizeSum before) + file.size) = wrap (sizeSum before + file.size) :=
        Nat.mod_add_mod (sizeSum before) (2 ^ 64) file.size
      unfold fileLoop
      rw [prompt_sent call file before.length _ here]
      simp only [LegacySender.act, LegacySender.store, counted, added]
      have later :=
        ih (before ++ [file]) ⟨wrap (sizeSum before + file.size), sender.trace ++
          [.start before.length (wrap (sizeSum before))] ++
        [call.progress file (wrap (sizeSum before + file.size))]⟩ (by rw [whole, List.append_assoc]; rfl)
          (by rw [sum])
      rw [length] at later
      refine ⟨?_, ?_, ?_, later.returned⟩
      · intro act member
        exact later.kept act (by simp [member])
      · intro front next others split
        cases front with
        | nil => exact later.kept _ (by simp [sizeSum])
        | cons first front =>
            obtain ⟨rfl, tail⟩ := List.cons.inj split
            have start := later.started front next others tail
            rw [length, sum, Nat.add_assoc, Nat.add_assoc] at start
            rw [size_sum_cons, List.length_cons, Nat.add_comm front.length]
            exact start
      · intro front next others split
        cases front with
        | nil =>
            obtain ⟨rfl, rfl⟩ := List.cons.inj split
            exact later.kept _ (by simp [sizeSum])
        | cons first front =>
            obtain ⟨rfl, tail⟩ := List.cons.inj split
            have report := later.reported front next others tail
            rw [sum, Nat.add_assoc (sizeSum before)] at report
            rw [size_sum_cons]
            exact report

end Prompt

def promptCall (files : List TransferFile) : LegacySend :=
    ⟨"00000000-0000-4000-8000-000000000001", files, .granted, false⟩

theorem prompt_listed (files : List TransferFile) (nonempty : files ≠ []) (act : SenderAct)
    (member : act ∈ (fileLoop promptClient (promptCall files) (prompt files) 0 files ⟨0, []⟩).1.trace) :
    act ∈ (sendFiles promptClient (promptCall files) (prompt files)).1.trace := by
  have returned := (prompt_runs (promptCall files) [] files ⟨0, []⟩ rfl rfl).returned
  rw [List.length_nil] at returned
  change _ ∈ (sendListed promptClient (promptCall files) _ _).1.trace
  unfold sendListed
  simp only [promptCall, List.isEmpty_iff, nonempty, if_false, Negotiation.result]
  change (fileLoop promptClient (promptCall files) (prompt files) 0 files ⟨0, []⟩).2 = _ at returned
  generalize attempted : fileLoop promptClient (promptCall files) (prompt files) 0 files
    ⟨0, []⟩ = result at returned member
  rw [promptCall] at attempted
  rw [attempted]
  obtain ⟨after, reply⟩ := result
  obtain rfl : reply = some (.ok ()) := returned
  exact List.mem_append_left _ member

-- The last file starts before the sum leaves 64 bits, or the counter is already
-- wrong there; and the file before it is reported beyond the wrapped total.
theorem overflow_breaks (files : List TransferFile) (sized : ∀ f ∈ files, f.size < 2 ^ 64)
    (large : 2 ^ 64 ≤ sizeSum files) :
    ¬ SendAccounted files (sendFiles promptClient (promptCall files) (prompt files)) := by
  intro accounted
  have nonempty : files ≠ [] := by
    rintro rfl
    simp [sizeSum] at large
  have run := prompt_runs (promptCall files) [] files ⟨0, []⟩ rfl rfl
  rw [List.length_nil] at run
  have empty : sizeSum [] = 0 := rfl
  have length : ([] : List TransferFile).length = 0 := rfl
  have checked : ∀ act ∈ (fileLoop promptClient (promptCall files) (prompt files) 0 files ⟨0, []⟩).1.trace,
    act.Accounted files :=
    fun act member => accounted.acts act (prompt_listed files nonempty act member)
  obtain ⟨front, file, whole⟩ := List.eq_nil_or_concat' files |>.resolve_left nonempty
  have start : wrap (sizeSum front) = sizeSum front := by
    have counter := checked _ (run.started front file [] whole)
    simp only [SenderAct.Accounted, length, empty, Nat.zero_add] at counter
    rw [counter, whole, List.take_left]
  have small : sizeSum front < 2 ^ 64 := by
    rw [← start]
    exact Nat.mod_lt _ (by decide)
  have bound := sized file (by rw [whole]; simp)
  have sum : sizeSum files = sizeSum front + file.size := by rw [whole]; simp [sizeSum]
  have earlier : front ≠ [] := by
    rintro rfl
    rw [empty] at sum
    omega
  obtain ⟨first, previous, split⟩ := List.eq_nil_or_concat' front |>.resolve_left earlier
  have report := checked _ (run.reported first previous [file] (by rw [whole, split, List.append_assoc]; rfl))
  have reached : sizeSum first + previous.size = sizeSum front := by rw [split]; simp [sizeSum]
  simp only [empty, Nat.zero_add, reached, start] at report
  change sizeSum front ≤ totalTransferSize files at report
  have total : totalTransferSize files = sizeSum files - 2 ^ 64 := by
    rw [total_wraps, wrap, Nat.mod_eq_sub_mod large]
    exact Nat.mod_eq_of_lt (by omega)
  omega

theorem sender_accounts_iff (files : List TransferFile) (sized : ∀ f ∈ files, f.size < 2 ^ 64) :
    (∀ (client : TransferClient) (call : LegacySend) (tries : Nat → Nat → SendAttempt), call.files = files →
      (∀ k file, files[k]? = some file → ∀ a, (tries k a).Within file.size) →
      SendAccounted files (sendFiles client call tries) ∧
        SendAccounted files (sendDirectory client call tries)) ↔
    sizeSum files < 2 ^ 64 := by
  constructor
  · intro always
    by_contra large
    exact overflow_breaks files sized (Nat.le_of_not_lt large)
      (always promptClient (promptCall files) (prompt files) rfl (prompt_within files)).1
  · rintro fits client call tries rfl part
    exact ⟨send_sound client call fits _ tries part, send_sound client call fits _ tries part⟩

-- The first attempt breaks off after two bytes, the second one succeeds.
def threeBytes : TransferFile :=
  { id := "10000000-0000-4000-8000-000000000001", name := "a.txt", size := 3, mimeType := none, relativePath := none }

def secondTry (_k : Nat) : Nat → SendAttempt
  | 0 => .opened 3 [2] (.answered 500 "500 Internal Server Error" "")
  | _ => .opened 3 [3] (.answered 200 "200 OK" "")

theorem retried_upload_is_accounted : SendAccounted [threeBytes]
    (sendFiles ⟨false, 1, none⟩ (promptCall [threeBytes]) secondTry) := by
  refine ((sender_accounts_iff [threeBytes] (by decide)).mpr (by decide) _
    (promptCall [threeBytes]) secondTry rfl ?_).1
  intro k file here a
  have same : file = threeBytes := by simpa using List.mem_of_getElem? here
  subst same
  cases a with
  | zero => exact ⟨rfl, by decide⟩
  | succ => exact ⟨rfl, by decide⟩

-- Three sparse files of the greatest size a file can have.
def sparseFile (id : String) : TransferFile :=
    { id := id, name := "sparse", size := 2 ^ 63 - 1, mimeType := none, relativePath := none }

def sparseFiles : List TransferFile :=
  [sparseFile "10000000-0000-4000-8000-000000000001", sparseFile "10000000-0000-4000-8000-000000000002",
    sparseFile "10000000-0000-4000-8000-000000000003"]

theorem overflowing_total_is_exceeded :
    (∀ k file, sparseFiles[k]? = some file → ∀ a, (prompt sparseFiles k a).Within file.size) ∧
    .event (.transferProgress ⟨"00000000-0000-4000-8000-000000000001", some "sparse", 2 ^ 63 - 1,
      2 ^ 63 - 3⟩) ∈
      (sendFiles promptClient (promptCall sparseFiles) (prompt sparseFiles)).1.trace ∧
    ¬ SendAccounted sparseFiles (sendFiles promptClient (promptCall sparseFiles) (prompt sparseFiles)) := by
  have reported :
    .event (.transferProgress ⟨"00000000-0000-4000-8000-000000000001", some "sparse", 2 ^ 63 - 1,
    2 ^ 63 - 3⟩) ∈
      (sendFiles promptClient (promptCall sparseFiles) (prompt sparseFiles)).1.trace := by decide +kernel
  refine ⟨prompt_within sparseFiles, reported, ?_⟩
  intro accounted
  have within := accounted.acts _ reported
  revert within
  change ¬ (2 ^ 63 - 1 ≤ 2 ^ 63 - 3)
  decide

end GoshTransfer
