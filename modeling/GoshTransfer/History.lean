import GoshTransfer.Protocol
import GoshTransfer.Lib.Ranking

set_option autoImplicit false

namespace GoshTransfer

open Ranking

inductive TransferDirection where
  | sent
  | received
deriving DecidableEq, Repr

-- Times are instants in nanoseconds.
structure TransferRecord where
  id : String
  direction : TransferDirection
  status : TransferStatus
  peerAddress : String
  files : List TransferFile
  totalSize : Nat
  bytesTransferred : Nat
  startedAt : Int
  completedAt : Option Int
  error : Option String
deriving DecidableEq, Repr

-- The lock is poisoned only by a panic under it, and none of these calls panics.
structure InMemoryHistory where
  records : List TransferRecord
  maxRecords : Nat
deriving DecidableEq, Repr

def InMemoryHistory.new : InMemoryHistory := ⟨[], 0⟩

def InMemoryHistory.withLimit (maxRecords : Nat) : InMemoryHistory := ⟨[], maxRecords⟩

-- sort_by_key(|r| Reverse(r.started_at)), which is stable.
def newestFirst (a b : TransferRecord) : Bool := decide (b.startedAt ≤ a.startedAt)

def sortRecords (records : List TransferRecord) : List TransferRecord := sort newestFirst records

def InMemoryHistory.list (history : InMemoryHistory) : List TransferRecord := sortRecords history.records

def InMemoryHistory.listPaginated (history : InMemoryHistory) (offset limit : Nat) : List TransferRecord :=
  (history.list.drop offset).take limit

def InMemoryHistory.get (history : InMemoryHistory) (transferId : String) : Option TransferRecord :=
  history.records.find? (·.id == transferId)

def InMemoryHistory.add (history : InMemoryHistory) (record : TransferRecord) : InMemoryHistory :=
  let records := history.records ++ [record]
  if history.maxRecords > 0 && records.length > history.maxRecords then
    { history with records := (sortRecords records).take history.maxRecords }
  else { history with records := records }

def InMemoryHistory.delete (history : InMemoryHistory) (transferId : String) :
    Except EngineError InMemoryHistory :=
  let records := history.records.filter (·.id != transferId)
  if records.length == history.records.length then .error (.transferNotFound transferId)
    else .ok { history with records := records }

def InMemoryHistory.clear (history : InMemoryHistory) : InMemoryHistory := { history with records := [] }

def InMemoryHistory.count (history : InMemoryHistory) : Nat := history.records.length

theorem newest_first_trans (a b c : TransferRecord) (first : newestFirst a b = true)
    (second : newestFirst b c = true) :
    newestFirst a c = true := by
  simp only [newestFirst, decide_eq_true_eq] at *
  omega

theorem newest_first_total (a b : TransferRecord) : (newestFirst a b || newestFirst b a) = true := by
  simp only [newestFirst, Bool.or_eq_true, decide_eq_true_eq]
  omega

theorem sort_records_ranked (records : List TransferRecord) : Ranked newestFirst records
    (sortRecords records) :=
  sort_ranked newestFirst newest_first_trans newest_first_total records

-- What the store has kept of all records it was given, in whatever order.
structure Retains (n : Nat) (adds : List TransferRecord) (history : InMemoryHistory) : Prop where
  limit : history.maxRecords = n
  newest : history.list = (sortRecords adds).take n
  counted : history.records.length = min n adds.length

theorem add_retains (n : Nat) (positive : 0 < n) (adds : List TransferRecord) (record : TransferRecord)
    (history : InMemoryHistory) (retains : Retains n adds history) : Retains n (adds ++ [record])
    (history.add record) := by
  obtain ⟨limit, newest, counted⟩ := retains
  have next : (sortRecords (history.records ++ [record])).take n = (sortRecords (adds ++ [record])).take n :=
    take_sort_append newestFirst newest_first_trans newest_first_total n adds history.records record newest
  have length : (sortRecords (history.records ++ [record])).length = history.records.length + 1 := by
    rw [sortRecords, (sort_perm newestFirst _).length_eq, List.length_append, List.length_singleton]
  by_cases full : history.maxRecords > 0 ∧ (history.records ++ [record]).length > history.maxRecords
  · have added :
      history.add record =
      { history with records := (sortRecords (history.records ++ [record])).take n } := by
      simp only [InMemoryHistory.add]
      rw [if_pos (by simpa using full), limit]
    -- The truncated list is still in order.
    have sorted : sortRecords ((sortRecords (history.records ++ [record])).take n) =
      (sortRecords (history.records ++ [record])).take n :=
      ((sort_records_ranked _).ordered.sublist (List.take_sublist n _)).insertionSort_eq
    refine ⟨by rw [added]; exact limit, ?_, ?_⟩
    · rw [added, InMemoryHistory.list, sorted, next]
    · have exceeds := full.2
      rw [added]
      simp only [List.length_append, List.length_singleton, List.length_take, length] at exceeds ⊢
      omega
  · have added : history.add record = { history with records := history.records ++ [record] } := by
      simp only [InMemoryHistory.add]
      rw [if_neg (by simpa using full)]
    have room : history.records.length + 1 ≤ n := by
      rw [List.length_append, List.length_singleton] at full
      omega
    refine ⟨by rw [added]; exact limit, ?_, ?_⟩
    · rw [added, InMemoryHistory.list, ← next, List.take_of_length_le (by omega)]
    · rw [added]
      simp only [List.length_append, List.length_singleton]
      omega

theorem adds_retain (n : Nat) (positive : 0 < n) (adds : List TransferRecord) :
    Retains n adds (adds.foldl InMemoryHistory.add (.withLimit n)) := by
  induction adds using List.reverseRecOn with
  | nil => exact ⟨rfl, by simp [InMemoryHistory.withLimit, InMemoryHistory.list, sortRecords, sort],
      by simp [InMemoryHistory.withLimit]⟩
  | append_singleton adds record ih =>
      rw [List.foldl_append]
      exact add_retains n positive adds record _ ih

-- list_paginated(0, k), list_paginated(k, k) and so on, m pages in all.
def InMemoryHistory.pages (history : InMemoryHistory) (k m : Nat) : List TransferRecord :=
  (List.range m).flatMap fun i => history.listPaginated (i * k) k

theorem bounded_history_keeps_newest (n : Nat) (positive : 0 < n) (adds : List TransferRecord) :
    (∃ sorted, Ranked newestFirst adds sorted ∧
      (adds.foldl InMemoryHistory.add (.withLimit n)).list = sorted.take n) ∧
      (adds.foldl InMemoryHistory.add (.withLimit n)).count = min n adds.length ∧
      ∀ k m, 0 < k → (adds.foldl InMemoryHistory.add (.withLimit n)).list.length ≤ m * k →
        (adds.foldl InMemoryHistory.add (.withLimit n)).pages k m =
          (adds.foldl InMemoryHistory.add (.withLimit n)).list := by
  have retains := adds_retain n positive adds
  refine ⟨⟨_, sort_records_ranked adds, retains.newest⟩, retains.counted, ?_⟩
  intro k m _ enough
  exact (pages_take k m _).trans (List.take_of_length_le enough)

-- One record for each attempt at a transfer.
def attempt (id : String) (startedAt : Int) : TransferRecord :=
    ⟨id, .sent, .failed, "10.0.0.1", [], 0, 0, startedAt, none, none⟩

-- Three attempts that arrive out of order, two of them at the same time.
theorem tied_attempts_are_kept :
    (∃ sorted, Ranked newestFirst [attempt "a" 2, attempt "b" 1, attempt "c" 2] sorted ∧
      ([attempt "a" 2, attempt "b" 1, attempt "c" 2].foldl InMemoryHistory.add (.withLimit 2)).list =
        sorted.take 2) ∧
      ([attempt "a" 2, attempt "b" 1, attempt "c" 2].foldl InMemoryHistory.add (.withLimit 2)).list =
      [attempt "a" 2, attempt "c" 2] ∧
      ([attempt "a" 2, attempt "b" 1, attempt "c" 2].foldl InMemoryHistory.add (.withLimit 2)).pages 1 2 =
        [attempt "a" 2, attempt "c" 2] := by
  obtain ⟨sorted, _, pages⟩ :=
    bounded_history_keeps_newest 2 (by decide) [attempt "a" 2, attempt "b" 1, attempt "c" 2]
  have list : ([attempt "a" 2, attempt "b" 1, attempt "c" 2].foldl InMemoryHistory.add (.withLimit 2)).list =
      [attempt "a" 2, attempt "c" 2] := by decide
  refine ⟨sorted, list, ?_⟩
  rw [pages 1 2 (by decide) (by rw [list]; decide), list]

inductive HistoryCall where
  | add (record : TransferRecord)
  | delete (transferId : String)

def HistoryCall.apply (history : InMemoryHistory) : HistoryCall → InMemoryHistory
  | .add record => history.add record
  | .delete transferId =>
      match history.delete transferId with
      | .ok next => next
      | .error _ => history

-- get returns the first record with this id in list.
def InMemoryHistory.Agrees (history : InMemoryHistory) (transferId : String) : Prop :=
  history.get transferId = history.list.find? (·.id == transferId)

theorem agrees_iff (history : InMemoryHistory) (transferId : String) : history.Agrees transferId ↔
    ∀ a, history.get transferId = some a → ∀ b ∈ history.records, b.id = transferId →
      b.startedAt ≤ a.startedAt := by
  refine (find_sorted_iff newestFirst newest_first_trans newest_first_total history.records
    (·.id == transferId)).trans ?_
  simp only [newestFirst, decide_eq_true_eq, beq_iff_eq, InMemoryHistory.get]

theorem roomy_add (history : InMemoryHistory) (record : TransferRecord)
    (room : ¬ (0 < history.maxRecords ∧ history.maxRecords ≤ history.records.length)) :
    (history.add record).records = history.records ++ [record] := by
  have within : ¬ (0 < history.maxRecords ∧ (history.records ++ [record]).length > history.maxRecords) := by
    rw [List.length_append, List.length_singleton]
    omega
  simp only [InMemoryHistory.add]
  rw [if_neg (by simpa using within)]

theorem truncating_add_agrees (history : InMemoryHistory) (record : TransferRecord)
    (full : 0 < history.maxRecords ∧ history.maxRecords ≤ history.records.length) (transferId : String) :
    (history.add record).Agrees transferId := by
  have exceeds : (history.records ++ [record]).length > history.maxRecords := by
    rw [List.length_append, List.length_singleton]
    omega
  have truncated : (history.add record).records = (sortRecords (history.records ++ [record])).take
    history.maxRecords := by
    simp only [InMemoryHistory.add]
    rw [if_pos (by simpa using And.intro full.1 exceeds)]
  have sorted := (sort_records_ranked (history.records ++ [record])).ordered.sublist
    (List.take_sublist history.maxRecords _)
  rw [← truncated] at sorted
  rw [agrees_iff]
  intro first found other member named
  obtain ⟨_, front, back, whole, before⟩ := List.find?_eq_some_iff_append.mp found
  rw [whole] at sorted member
  rcases List.mem_append.mp member with inFront | later
  · exact absurd named (by simpa using before other inFront)
  · rcases List.mem_cons.mp later with rfl | inBack
    · exact le_rfl
    · have least := (List.pairwise_cons.mp (List.pairwise_append.mp sorted).2.1).1 other inBack
      simpa [newestFirst] using least

-- An add that truncates, that brings the first record with this id, or that
-- brings one which is no newer than some held one; delete can do no harm.
def HistoryCall.InOrder (history : InMemoryHistory) (transferId : String) : HistoryCall → Prop
  | .add record => record.id = transferId →
      (0 < history.maxRecords ∧ history.maxRecords ≤ history.records.length) ∨
        (∀ held ∈ history.records, held.id ≠ transferId) ∨
        ∃ held ∈ history.records, held.id = transferId ∧ record.startedAt ≤ held.startedAt
  | .delete _ => True

theorem add_agrees_iff (history : InMemoryHistory) (transferId : String) (record : TransferRecord)
    (agrees : history.Agrees transferId) :
    (history.add record).Agrees transferId ↔ (HistoryCall.add record).InOrder history transferId := by
  by_cases full : 0 < history.maxRecords ∧ history.maxRecords ≤ history.records.length
  · exact iff_of_true (truncating_add_agrees history record full transferId) fun _ => .inl full
  have records := roomy_add history record full
  have found : (history.add record).get transferId = (history.get transferId).or
    ([record].find? (·.id == transferId)) := by
    simp only [InMemoryHistory.get, records, List.find?_append]
  rw [agrees_iff] at agrees ⊢
  simp only [found, records, List.mem_append, List.mem_singleton]
  by_cases named : record.id = transferId
  · have mine : [record].find? (·.id == transferId) = some record := by simp [named]
    rw [mine]
    cases first : history.get transferId with
    | none =>
        have absent : ∀ held ∈ history.records,
          held.id ≠ transferId := by simpa [InMemoryHistory.get] using first
        refine iff_of_true ?_ fun _ => .inr (.inl absent)
        rintro a same b (held | rfl) isId
        · exact absurd isId (absent b held)
        · exact (Option.some.inj same) ▸ le_rfl
    | some a =>
        have newest := agrees a first
        have member := List.mem_of_find?_eq_some first
        have isId : a.id = transferId := by simpa using List.find?_some first
        constructor
        · intro next _
          exact .inr (.inr ⟨a, member, isId, next a rfl record (.inr rfl) named⟩)
        · intro allowed c same b held theirs
          obtain rfl := Option.some.inj same
          rcases held with held | rfl
          · exact newest b held theirs
          · rcases allowed named with room | absent | ⟨other, among, its, older⟩
            · exact absurd room full
            · exact absurd isId (absent a member)
            · exact older.trans (newest other among its)
  · have notMine : [record].find? (·.id == transferId) = none := by simp [named]
    rw [notMine, Option.or_none]
    refine iff_of_true ?_ fun isId => absurd isId named
    rintro a first b (held | rfl) isId
    · exact agrees a first b held isId
    · exact absurd isId named

theorem delete_agrees (history : InMemoryHistory) (transferId other : String)
    (agrees : history.Agrees transferId) :
    (HistoryCall.apply history (.delete other)).Agrees transferId := by
  simp only [HistoryCall.apply, InMemoryHistory.delete]
  by_cases same : (history.records.filter (·.id != other)).length == history.records.length
  · rw [if_pos same]
    exact agrees
  · rw [if_neg same]
    rw [agrees_iff] at agrees ⊢
    intro a first b member isId
    obtain ⟨held, kept⟩ := List.mem_filter.mp member
    refine agrees a ?_ b held isId
    have different : transferId ≠ other := isId ▸ by simpa using kept
    simp only [InMemoryHistory.get, List.find?_filter] at first ⊢
    rw [← first]
    refine congrArg (history.records.find? ·) (funext fun c => ?_)
    by_cases isC : c.id = transferId <;> simp [isC, different]

theorem apply_agrees_iff (history : InMemoryHistory) (transferId : String) (call : HistoryCall)
    (agrees : history.Agrees transferId) :
    (HistoryCall.apply history call).Agrees transferId ↔ call.InOrder history transferId := by
  cases call with
  | add record => exact add_agrees_iff history transferId record agrees
  | delete other => exact iff_of_true (delete_agrees history transferId other agrees) trivial

-- Lookups agree with the list all along a sequence of calls exactly when every
-- call of it is in order.
theorem lookup_agrees_iff (limit : Nat) (calls : List HistoryCall) (transferId : String) :
    (∀ before, before <+: calls → (before.foldl HistoryCall.apply (.withLimit limit)).Agrees transferId) ↔
      ∀ before call, before ++ [call] <+: calls →
        call.InOrder (before.foldl HistoryCall.apply (.withLimit limit)) transferId := by
  have next : ∀ before call, (before ++ [call]).foldl HistoryCall.apply (.withLimit limit) =
      HistoryCall.apply (before.foldl HistoryCall.apply (.withLimit limit)) call := by simp
  constructor
  · intro agree before call start
    have now := agree before ((List.prefix_append before [call]).trans start)
    have later := agree _ start
    rw [next] at later
    exact (apply_agrees_iff _ transferId call now).mp later
  · intro allowed before
    induction before using List.reverseRecOn with
    | nil => exact fun _ => (agrees_iff _ _).mpr fun _ found => by cases found
    | append_singleton before call ih =>
        intro start
        rw [next]
        exact (apply_agrees_iff _ transferId call (ih ((List.prefix_append before [call]).trans start))).mpr
          (allowed before call start)

-- A failed attempt and a later one, in an unlimited store.
theorem resumed_attempt_is_not_found : ¬ ∀ (limit : Nat) (calls : List HistoryCall) (transferId : String),
    (calls.foldl HistoryCall.apply (.withLimit limit)).get transferId =
      (calls.foldl HistoryCall.apply (.withLimit limit)).list.find? (·.id == transferId) := by
  intro agrees
  have same := agrees 0 [.add (attempt "a" 1), .add (attempt "a" 2)] "a"
  have oldest : ([.add (attempt "a" 1), .add (attempt "a" 2)].foldl HistoryCall.apply (.withLimit 0)).get
    "a" = some (attempt "a" 1) := by
    decide
  have newest : ([.add (attempt "a" 1), .add (attempt "a" 2)].foldl HistoryCall.apply
    (.withLimit 0)).list.find? (·.id == "a") =
      some (attempt "a" 2) := by decide
  rw [oldest, newest] at same
  exact absurd same (by decide)

end GoshTransfer
