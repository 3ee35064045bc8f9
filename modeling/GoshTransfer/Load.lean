import GoshTransfer.System

set_option autoImplicit false

namespace GoshTransfer

open InodeStore

-- What a successful load leaves in memory: one session for each journal, made
-- from it, and nothing else.
structure Loaded (disk : ReceiverDisk) (store : Store) : Prop where
  same : store.disk = disk
  free : store.registration = none
  mapped : ∀ id s, store.sessions.lookup id = some s →
    ∃ r, store.heap[s]? = some (Session.new r) ∧ r.pending.id = id ∧ disk.doc (journalPath id) = some r
  made : ∀ s session, store.heap[s]? = some session →
    ∃ r, session = Session.new r ∧ r.manifest.Valid ∧ store.sessions.lookup r.pending.id = some s
  covered : ∀ id r, id ≠ "" → disk.doc (journalPath id) = some r →
    ∃ s, store.sessions.lookup id = some s ∧ store.heap[s]? = some (Session.new r)

theorem load_journal_ok (disk : ReceiverDisk) (name : String) (record : Record)
    (json : (splitExtension name.toList).2 = some "json".toList)
    (loaded : loadJournal disk name = .ok record) :
    [stateDir, name] = journalPath record.pending.id ∧
      disk.doc (journalPath record.pending.id) = some record ∧
      record.manifest.Valid := by
  unfold loadJournal at loaded
  split at loaded
  · rename_i r here
    split at loaded
    · cases loaded
    · rename_i valid
      split at loaded
      · cases loaded
      · rename_i identity
        split at loaded
        · cases loaded
        · obtain rfl : r = record := by simpa using loaded
          obtain ⟨stem, pending⟩ : (splitExtension name.toList).1 = r.manifest.request.transferId.toList ∧
              r.pending.id = r.manifest.request.transferId := by simpa [not_or] using identity
          have parts : splitExtension name.toList = (r.pending.id.toList, some "json".toList) := by
            rw [← json, pending, ← stem]
          have named : name = r.pending.id ++ ".json" := by
            apply String.toList_inj.mp
            simpa using split_extension_join _ _ _ parts
          have path : [stateDir, name] = journalPath r.pending.id := by simp [journalPath, named]
          exact ⟨path, by simp [Disk.doc, ← path, here], valid⟩
  · cases loaded

theorem journal_name_path (path : Path) (name : String) (named : journalName path = some name) :
    path = [stateDir, name] ∧ (splitExtension name.toList).2 = some "json".toList := by
  unfold journalName at named
  split at named
  · rename_i dir leaf
    split at named
    · rename_i conditions
      obtain rfl : leaf = name := by simpa using named
      exact ⟨by rw [conditions.1], conditions.2⟩
    · cases named
  · cases named

theorem journal_names_nodup (disk : ReceiverDisk) : (journalNames disk).Nodup := by
  refine List.Nodup.filterMap ?_ disk.names.nodupKeys
  intro path other name here there
  rw [(journal_name_path path name (by simpa using here)).1,
    (journal_name_path other name (by simpa using there)).1]

theorem journal_name_mem (disk : ReceiverDisk) (id : String) (record : Record) (nonempty : id ≠ "")
    (here : disk.doc (journalPath id) = some record) : id ++ ".json" ∈ journalNames disk := by
  refine List.mem_filterMap.mpr ⟨journalPath id, ?_, ?_⟩
  · have present : (disk.names.lookup (journalPath id)).isSome := by
      cases found : disk.node (journalPath id) with
      | none => simp [Disk.doc, found] at here
      | some node => exact Option.isSome_iff_exists.mpr ⟨node, found⟩
    exact AList.mem_keys.mp (AList.lookup_isSome.mp present)
  · have stem : id.toList ≠ [] := fun empty => nonempty (String.toList_inj.mp (by simpa using empty))
    have parts := split_extension_json id.toList stem
    simp only [journalName, journalPath, String.toList_append, parts, and_self, if_true]

-- The loop of load after the names in done.
structure LoadedFrom (disk : ReceiverDisk) (done : List String) (store : Store) : Prop where
  same : store.disk = disk
  free : store.registration = none
  mapped : ∀ id s, store.sessions.lookup id = some s →
    ∃ name ∈ done, ∃ r, store.heap[s]? = some (Session.new r) ∧ r.pending.id = id ∧
      loadJournal disk name = .ok r
  made : ∀ s session, store.heap[s]? = some session →
    ∃ name ∈ done, ∃ r, session = Session.new r ∧ loadJournal disk name = .ok r ∧
      store.sessions.lookup r.pending.id = some s
  covered : ∀ name ∈ done, ∃ r s, loadJournal disk name = .ok r ∧
    store.sessions.lookup r.pending.id = some s ∧
    store.heap[s]? = some (Session.new r)

theorem loaded_from_insert (disk : ReceiverDisk) (done : List String) (store : Store) (name : String)
    (record : Record) (json : ∀ other ∈ name :: done, (splitExtension other.toList).2 = some "json".toList)
    (fresh : name ∉ done) (inv : LoadedFrom disk done store) (loaded : loadJournal disk name = .ok record) :
    LoadedFrom disk (name :: done) (store.apply 0 (.insert record)) := by
  have path := (load_journal_ok disk name record (json name (by simp)) loaded).1
  -- Two journals of one id would have one name.
  have distinct : ∀ other ∈ done, ∀ r, loadJournal disk other = .ok r → r.pending.id ≠ record.pending.id := by
    intro other member r here same
    have otherPath := (load_journal_ok disk other r (json other (by simp [member])) here).1
    rw [same, ← path] at otherPath
    obtain rfl : other = name := by simpa using otherPath
    exact fresh member
  have old : ∀ (s : Nat) (session : Session), store.heap[s]? = some session →
      (store.heap ++ [Session.new record])[s]? = some session := by
    intro s session here
    rw [List.getElem?_append_left (List.getElem?_eq_some_iff.mp here).1]
    exact here
  have last : (store.heap ++ [Session.new record])[store.heap.length]? = some (Session.new record) := by simp
  refine ⟨inv.same, inv.free, ?_, ?_, ?_⟩
  · intro id s present
    by_cases same : id = record.pending.id
    · subst same
      obtain rfl : store.heap.length = s := by simpa [Store.apply] using present
      exact ⟨name, by simp, record, last, rfl, loaded⟩
    · obtain ⟨other, member, r, here, owned, read⟩ :=
        inv.mapped id s (by simpa [Store.apply, AList.lookup_insert_ne same] using present)
      exact ⟨other, by simp [member], r, old _ _ here, owned, read⟩
  · intro s session here
    by_cases new : s = store.heap.length
    · subst new
      obtain rfl : Session.new record = session := by simpa [Store.apply] using here
      exact ⟨name, by simp, record, rfl, loaded, by simp [Store.apply]⟩
    · have bound : s < store.heap.length := by
        have within := (List.getElem?_eq_some_iff.mp here).1
        simp [Store.apply] at within
        omega
      obtain ⟨other, member, r, rfl, read, present⟩ :=
        inv.made s session (by simpa [Store.apply, List.getElem?_append_left bound] using here)
      refine ⟨other, by simp [member], r, rfl, read, ?_⟩
      simpa [Store.apply, AList.lookup_insert_ne (distinct other member r read)] using present
  · intro other member
    rcases List.mem_cons.mp member with rfl | later
    · exact ⟨record, store.heap.length, loaded, by simp [Store.apply], last⟩
    · obtain ⟨r, s, read, present, here⟩ := inv.covered other later
      exact ⟨r, s, read,
        by simpa [Store.apply, AList.lookup_insert_ne (distinct other later r read)] using present, old _ _ here⟩

theorem load_journals_loaded (disk : ReceiverDisk) (names done : List String) (store final : Store)
    (json : ∀ name ∈ names ++ done, (splitExtension name.toList).2 = some "json".toList)
    (distinct : (names ++ done).Nodup) (inv : LoadedFrom disk done store)
    (loaded : loadJournals store names = .ok final) :
    LoadedFrom disk (names.reverse ++ done) final := by
  induction names generalizing done store with
  | nil =>
      obtain rfl : store = final := by simpa [loadJournals] using loaded
      simpa using inv
  | cons name rest ih =>
      simp only [loadJournals] at loaded
      split at loaded
      · cases loaded
      · rename_i record read
        rw [inv.same] at read
        have fresh : name ∉ done := fun member => (List.nodup_cons.mp distinct).1 (by simp [member])
        have shuffled : (rest ++ name :: done).Perm (name :: rest ++ done) := List.perm_middle
        have following := ih (name :: done) _ (fun other member => json other (shuffled.mem_iff.mp member))
          (shuffled.nodup_iff.mpr distinct)
          (loaded_from_insert disk done store name record (fun other member => json other
            (by rcases List.mem_cons.mp member with here | later <;> simp [*])) fresh inv read) loaded
        simpa using following

theorem load_loaded (disk : ReceiverDisk) (store : Store) (loaded : Store.load disk = .ok store) :
    Loaded disk store := by
  have json : ∀ name ∈ journalNames disk, (splitExtension name.toList).2 = some "json".toList := by
    intro name member
    obtain ⟨path, _, named⟩ := List.mem_filterMap.mp member
    exact (journal_name_path path name named).2
  have initial : LoadedFrom disk [] (.empty disk) :=
    ⟨rfl, rfl, by simp [Store.empty], by simp [Store.empty], by simp⟩
  have final := load_journals_loaded disk (journalNames disk) [] (.empty disk) store (by simpa using json)
    (by simpa using journal_names_nodup disk) initial loaded
  have sound : ∀ name ∈ (journalNames disk).reverse ++ [], ∀ r, loadJournal disk name = .ok r →
      [stateDir, name] = journalPath r.pending.id ∧ disk.doc (journalPath r.pending.id) = some r ∧
        r.manifest.Valid :=
    fun name member r read => load_journal_ok disk name r (json name (by simpa using member)) read
  refine ⟨final.same, final.free, ?_, ?_, ?_⟩
  · intro id s present
    obtain ⟨name, member, r, here, rfl, read⟩ := final.mapped id s present
    exact ⟨r, here, rfl, (sound name member r read).2.1⟩
  · intro s session here
    obtain ⟨name, member, r, rfl, read, present⟩ := final.made s session here
    exact ⟨r, rfl, (sound name member r read).2.2, present⟩
  · intro id r nonempty journal
    obtain ⟨r', s, read, present, here⟩ :=
      final.covered (id ++ ".json") (by simpa using journal_name_mem disk id r nonempty journal)
    obtain ⟨path, other, _⟩ := sound _ (by simpa using journal_name_mem disk id r nonempty journal) r' read
    obtain rfl : id = r'.pending.id := journal_path_inj _ _ (by rw [← path, journalPath])
    obtain rfl : r = r' := Option.some.inj (journal.symm.trans other)
    exact ⟨s, present, here⟩

theorem loaded_session (disk : ReceiverDisk) (store : Store) (spec : Loaded disk store) (s : Nat)
    (session : Session) (here : store.heap[s]? = some session) : session = Session.new session.record ∧
      store.sessions.lookup session.id = some s ∧
        disk.doc (journalPath session.id) = some session.record := by
  obtain ⟨record, rfl, _, present⟩ := spec.made s session here
  obtain ⟨other, there, _, journal⟩ := spec.mapped _ s present
  obtain rfl : record = other := congrArg Session.record (Option.some.inj (here.symm.trans there))
  exact ⟨rfl, present, journal⟩

end GoshTransfer
