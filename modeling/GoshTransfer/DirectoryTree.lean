import GoshTransfer.Sandbox

set_option autoImplicit false

namespace GoshTransfer

open UnixPath

-- A directory as read_dir lists it, with what the calls on it and on its entries
-- answer. An entry that is neither a file nor a directory counts as a symlink.
inductive Listing where
  | nil
  | unopened (cause : String)
  | broken (cause : String)
  | file (name : String) (rest : Listing)
  | symlink (name : String) (rest : Listing)
  | untyped (name cause : String) (rest : Listing)
  | dir (name : String) (inner rest : Listing)

-- The text of a component, as Path::iter gives it.
def componentText : Component → String
  | .rootDir => "/"
  | .curDir => "."
  | .parentDir => ".."
  | .normal name => name

def collectDirectoryFiles (base current : Components) : Listing → List (Components × String) →
    Except EngineError (List (Components × String))
  | .nil, files => .ok files
  | .unopened cause, _ => .error (.fileIo ("Failed to read directory: " ++ cause))
  | .broken cause, _ => .error (.fileIo ("Failed to read directory entry: " ++ cause))
  | .file name rest, files =>
      if reservedName name then collectDirectoryFiles base current rest files
      else
        let path := join current (parse name)
        match stripPrefix path base with
        | none => .error (.fileIo "Failed to calculate relative path")
        | some relative =>
            collectDirectoryFiles base current rest
              (files ++ [(path, "/".intercalate (relative.map componentText))])
  | .symlink _ rest, files => collectDirectoryFiles base current rest files
  | .untyped name cause rest, files =>
      if reservedName name then collectDirectoryFiles base current rest files
      else .error (.fileIo ("Failed to get file type: " ++ cause))
  | .dir name inner rest, files =>
      if reservedName name then collectDirectoryFiles base current rest files
      else
        match collectDirectoryFiles base (join current (parse name)) inner files with
        | .error e => .error e
        | .ok files => collectDirectoryFiles base current rest files

def Listing.names : Listing → List String
  | .nil | .unopened _ | .broken _ => []
  | .file name rest | .symlink name rest | .untyped name _ rest | .dir name _ rest => name :: rest.names

def Listing.regular : Listing → List String
  | .nil | .unopened _ | .broken _ => []
  | .file name rest => name :: rest.regular
  | .symlink _ rest | .untyped _ _ rest | .dir _ _ rest => rest.regular

def Listing.directories : Listing → List (String × Listing)
  | .nil | .unopened _ | .broken _ => []
  | .dir name inner rest => (name, inner) :: rest.directories
  | .file _ rest | .symlink _ rest | .untyped _ _ rest => rest.directories

-- The names that lead from a directory to a regular file below it, past no
-- symlink and no state directory.
inductive Reaches : Listing → List String → Prop where
  | file (listing : Listing) (name : String) (member : name ∈ listing.regular)
      (unreserved : reservedName name = false) :
      Reaches listing [name]
  | inside (listing inner : Listing) (name : String) (path : List String)
      (member : (name, inner) ∈ listing.directories) (unreserved : reservedName name = false)
      (below : Reaches inner path) : Reaches listing (name :: path)

def CleanName (name : String) : Prop := ∀ fallback, sanitizeFileName name fallback = name

-- A tree that can be read, with clean names that differ within each directory.
def Listing.Tidy : Listing → Prop
  | .nil => True
  | .unopened _ | .broken _ | .untyped _ _ _ => False
  | .file name rest | .symlink name rest => CleanName name ∧ name ∉ rest.names ∧ rest.Tidy
  | .dir name inner rest => CleanName name ∧ name ∉ rest.names ∧ inner.Tidy ∧ rest.Tidy

structure SourceTree where
  root : Listing
  tidy : root.Tidy

-- The paths in the order in which they are collected.
def Listing.paths : Listing → List (List String)
  | .nil | .unopened _ | .broken _ => []
  | .file name rest => if reservedName name then rest.paths else [name] :: rest.paths
  | .symlink _ rest | .untyped _ _ rest => rest.paths
  | .dir name inner rest => if reservedName name then rest.paths else inner.paths.map (name :: ·) ++
      rest.paths

theorem clean_name_safe (name : String) (cleaned : CleanName name) : SafeName name := by
  rw [← cleaned "file"]
  exact file_name_safe name "file"

theorem paths_reach (listing : Listing) (path : List String) : path ∈ listing.paths ↔
    Reaches listing path := by
  induction listing generalizing path with
  | nil | unopened _ | broken _ =>
      refine ⟨by simp [Listing.paths], ?_⟩
      intro reaches
      cases reaches with
      | file _ name member _ => cases member
      | inside _ inner name path member _ _ => cases member
  | symlink name rest ih | untyped name cause rest ih =>
      refine (ih path).trans ⟨?_, ?_⟩
      · intro reaches
        cases reaches with
        | file _ name member unreserved => exact .file _ name member unreserved
        | inside _ inner name path member unreserved below =>
            exact .inside _ inner name path member unreserved below
      · intro reaches
        cases reaches with
        | file _ name member unreserved => exact .file _ name member unreserved
        | inside _ inner name path member unreserved below =>
            exact .inside _ inner name path member unreserved below
  | file name rest ih =>
      have here : path ∈ (Listing.file name rest).paths ↔ (path = [name] ∧ reservedName name = false) ∨
        path ∈ rest.paths := by
        by_cases reserved : reservedName name = true <;> simp [Listing.paths, reserved]
      rw [here, ih path]
      refine ⟨?_, ?_⟩
      · rintro (⟨rfl, unreserved⟩ | reaches)
        · exact .file _ name List.mem_cons_self unreserved
        · cases reaches with
          | file _ other member unreserved => exact .file _ other (List.mem_cons_of_mem _ member) unreserved
          | inside _ inner other path member unreserved below =>
              exact .inside _ inner other path member unreserved below
      · intro reaches
        cases reaches with
        | file _ other member unreserved =>
            rcases List.mem_cons.mp member with rfl | later
            · exact .inl ⟨rfl, unreserved⟩
            · exact .inr (.file _ other later unreserved)
        | inside _ inner other path member unreserved below =>
            exact .inr (.inside _ inner other path member unreserved below)
  | dir name inner rest inside later =>
      have here : path ∈ (Listing.dir name inner rest).paths ↔
          (∃ below ∈ inner.paths, name :: below = path ∧ reservedName name = false) ∨ path ∈ rest.paths := by
        by_cases reserved : reservedName name = true <;> simp [Listing.paths, reserved]
      rw [here, later path]
      refine ⟨?_, ?_⟩
      · rintro (⟨below, found, rfl, unreserved⟩ | reaches)
        · exact .inside _ inner name below List.mem_cons_self unreserved ((inside below).mp found)
        · cases reaches with
          | file _ other member unreserved => exact .file _ other member unreserved
          | inside _ deeper other path member unreserved below =>
              exact .inside _ deeper other path (List.mem_cons_of_mem _ member) unreserved below
      · intro reaches
        cases reaches with
        | file _ other member unreserved => exact .inr (.file _ other member unreserved)
        | inside _ deeper other path member unreserved below =>
            rcases List.mem_cons.mp member with same | further
            · cases same
              exact .inl ⟨path, (inside path).mpr below, rfl, unreserved⟩
            · exact .inr (.inside _ deeper other path further unreserved below)

theorem paths_begin (listing : Listing) (path : List String) (member : path ∈ listing.paths) :
    ∃ name ∈ listing.names, path.head? = some name := by
  induction listing with
  | nil | unopened _ | broken _ => cases member
  | symlink name rest ih | untyped name cause rest ih =>
      obtain ⟨first, listed, head⟩ := ih member
      exact ⟨first, List.mem_cons_of_mem _ listed, head⟩
  | file name rest ih =>
      by_cases here : path = [name]
      · exact ⟨name, List.mem_cons_self, by rw [here]; rfl⟩
      · have later : path ∈ rest.paths := by
          by_cases reserved : reservedName name = true <;> simpa [Listing.paths, reserved, here] using member
        obtain ⟨first, listed, head⟩ := ih later
        exact ⟨first, List.mem_cons_of_mem _ listed, head⟩
  | dir name inner rest _ ih =>
      by_cases here : path.head? = some name
      · exact ⟨name, List.mem_cons_self, here⟩
      · have later : path ∈ rest.paths := by
          by_cases reserved : reservedName name = true
          · simpa [Listing.paths, reserved] using member
          · simp only [Listing.paths, reserved, Bool.false_eq_true, if_false, List.mem_append,
              List.mem_map] at member
            rcases member with ⟨below, _, rfl⟩ | later
            · exact absurd rfl here
            · exact later
        obtain ⟨first, listed, head⟩ := ih later
        exact ⟨first, List.mem_cons_of_mem _ listed, head⟩

theorem paths_nodup (listing : Listing) (tidy : listing.Tidy) : listing.paths.Nodup := by
  have apart : ∀ (name : String) (rest : Listing) (path : List String), name ∉ rest.names →
    path.head? = some name → path ∉ rest.paths := by
    intro name rest path missing head member
    obtain ⟨first, listed, same⟩ := paths_begin rest path member
    rw [head] at same
    cases same
    exact missing listed
  induction listing with
  | nil => exact List.nodup_nil
  | unopened _ | broken _ | untyped _ _ _ => cases tidy
  | symlink name rest ih => exact ih tidy.2.2
  | file name rest ih =>
      by_cases reserved : reservedName name = true
      · simpa [Listing.paths, reserved] using ih tidy.2.2
      · simp only [Listing.paths, reserved, Bool.false_eq_true, if_false]
        exact List.nodup_cons.mpr ⟨apart name rest [name] tidy.2.1 rfl, ih tidy.2.2⟩
  | dir name inner rest inside later =>
      by_cases reserved : reservedName name = true
      · simpa [Listing.paths, reserved] using later tidy.2.2.2
      · simp only [Listing.paths, reserved, Bool.false_eq_true, if_false]
        refine List.nodup_append.mpr ⟨(inside tidy.2.2.1).map (List.cons_injective), later tidy.2.2.2, ?_⟩
        intro path first other second same
        obtain ⟨below, _, rfl⟩ := List.mem_map.mp first
        exact apart name rest (name :: below) tidy.2.1 rfl (same ▸ second)

theorem paths_clean (listing : Listing) (tidy : listing.Tidy) (path : List String)
    (member : path ∈ listing.paths) :
    path ≠ [] ∧ ∀ name ∈ path, CleanName name := by
  induction listing generalizing path with
  | nil => cases member
  | unopened _ | broken _ | untyped _ _ _ => cases tidy
  | symlink name rest ih => exact ih tidy.2.2 path member
  | file name rest ih =>
      by_cases here : path = [name]
      · refine ⟨by simp [here], ?_⟩
        rw [here]
        simpa using tidy.1
      · have later : path ∈ rest.paths := by
          by_cases reserved : reservedName name = true <;> simpa [Listing.paths, reserved, here] using member
        exact ih tidy.2.2 path later
  | dir name inner rest inside later =>
      by_cases reserved : reservedName name = true
      · exact later tidy.2.2.2 path (by simpa [Listing.paths, reserved] using member)
      · simp only [Listing.paths, reserved, Bool.false_eq_true, if_false, List.mem_append,
          List.mem_map] at member
        rcases member with ⟨below, found, rfl⟩ | further
        · refine ⟨by simp, ?_⟩
          intro part inPath
          rcases List.mem_cons.mp inPath with rfl | deeper
          · exact tidy.1
          · exact (inside tidy.2.2.1 below found).2 part deeper
        · exact later tidy.2.2.2 path further

-- What is collected for a path below the root of the tree.
def sourceFile (base : Components) (path : List String) : Components × String :=
    (base ++ path.map .normal, "/".intercalate path)

theorem collect_paths (base : Components) (listing : Listing) (tidy : listing.Tidy) (above : List String)
    (files : List (Components × String)) :
    collectDirectoryFiles base (base ++ above.map .normal) listing files =
      .ok (files ++ listing.paths.map fun path => sourceFile base (above ++ path)) := by
  have entered : ∀ name, CleanName name → join (base ++ above.map .normal) (parse name) = base ++
    (above ++ [name]).map .normal := by
    intro name cleaned
    rw [join_single _ name (safe_single name (clean_name_safe name cleaned))]
    simp
  induction listing generalizing above files with
  | nil => simp [collectDirectoryFiles, Listing.paths]
  | unopened _ | broken _ | untyped _ _ _ => cases tidy
  | symlink name rest ih => exact ih tidy.2.2 above files entered
  | file name rest ih =>
      by_cases reserved : reservedName name = true
      · simp only [collectDirectoryFiles, Listing.paths, reserved, if_true]
        exact ih tidy.2.2 above files entered
      · have texts : ((above ++ [name]).map Component.normal).map componentText = above ++ [name] := by
          rw [List.map_map]
          exact List.map_id _
        simp only [collectDirectoryFiles, Listing.paths, reserved, Bool.false_eq_true, if_false,
          entered name tidy.1, strip_prefix_append, texts]
        rw [ih tidy.2.2 above _ entered]
        simp [sourceFile]
  | dir name inner rest inside later =>
      by_cases reserved : reservedName name = true
      · simp only [collectDirectoryFiles, Listing.paths, reserved, if_true]
        exact later tidy.2.2.2 above files entered
      · have deeper : ∀ name', CleanName name' → join (base ++ (above ++ [name]).map .normal) (parse name') =
            base ++ (above ++ [name] ++ [name']).map .normal := by
          intro name' cleaned
          rw [join_single _ name' (safe_single name' (clean_name_safe name' cleaned))]
          simp
        simp only [collectDirectoryFiles, Listing.paths, reserved, Bool.false_eq_true, if_false,
          entered name tidy.1]
        rw [inside tidy.2.2.1 (above ++ [name]) files deeper]
        simp only
        rw [later tidy.2.2.2 above _ entered]
        simp [Function.comp_def]

-- A path on the wire, with either separator.
def wirePath (separator : Char) (path : List String) : String := .ofList
    ([separator].intercalate (path.map String.toList))

theorem wire_split (separator : Char) (separates : isSeparator separator = true) (path : List String)
    (nonempty : path ≠ []) (safe : ∀ name ∈ path, SafeName name) :
    (wirePath separator path).toList.splitOnP isSeparator = path.map String.toList := by
  have whole : ∀ name, SafeName name → ∀ c ∈ name.toList, isSeparator c = false := by
    intro name harmless c member
    obtain ⟨slash, backslash, _⟩ := harmless.chars c member
    simp [isSeparator, slash, backslash]
  rw [wirePath, String.toList_ofList]
  induction path with
  | nil => exact absurd rfl nonempty
  | cons name rest ih =>
      have first := whole name (safe name List.mem_cons_self)
      cases rest with
      | nil => simpa using List.splitOnP_eq_singleton first
      | cons next more =>
          have later := ih (by simp) fun other member => safe other (List.mem_cons_of_mem _ member)
          rw [List.map_cons] at later
          rw [List.map_cons, List.map_cons, List.intercalate_cons_cons, List.append_assoc,
            List.singleton_append,
            List.splitOnP_append_cons_of_forall_mem first separator separates, later]

theorem wire_sanitized (separator : Char) (separates : isSeparator separator = true) (path : List String)
    (nonempty : path ≠ []) (cleaned : ∀ name ∈ path, CleanName name) :
    sanitizeRelativePath (wirePath separator path) = path := by
  have safe : ∀ name ∈ path, SafeName name := fun name member => clean_name_safe name (cleaned name member)
  unfold sanitizeRelativePath
  rw [wire_split separator separates path nonempty safe, List.filterMap_map]
  -- Every filter lets a clean name through.
  refine (List.filterMap_congr ?_).trans (List.filterMap_some)
  intro name member
  have harmless := safe name member
  have dots : ∀ cs, name ≠ .ofList cs → name.toList ≠ cs := list_ne name
  have letter : drivePrefix name.toList = false := by
    unfold drivePrefix
    split
    · rename_i c parts
      have colon := (harmless.chars ':' (by rw [parts]; simp)).2.2.2
      exact absurd (by decide) colon
    · rfl
  have kept : sanitizeFileName name "file" = name := cleaned name member "file"
  simp [dots [] harmless.nonempty, dots ['.'] harmless.notDot, dots ['.', '.'] harmless.notDots, letter, kept,
    harmless.nonempty, harmless.notDot, harmless.notDots]

theorem wire_target (download : Components) (info : TransferFile) (separator : Char)
    (separates : isSeparator separator = true) (front : List String) (last : String)
    (cleaned : ∀ name ∈ front ++ [last], CleanName name) :
    receiveTargetIn download { info with relativePath := some (wirePath separator (front ++ [last])) } =
    (download ++ front.map .normal, last) := by
  rw [receive_target_in]
  simp [receiveTarget, wire_sanitized separator separates (front ++ [last]) (by simp) cleaned]

theorem slashed_wire (path : List String) : "/".intercalate path = wirePath '/' path := by
  have chars : ("/".intercalate path).toList = (wirePath '/' path).toList := by simp [wirePath]
  exact String.toList_inj.mp chars

-- The same path as a sender with the other separator would write it.
def backslashed (relative : String) : String := .ofList
    (relative.toList.map fun c => if c = '/' then '\\' else c)

theorem backslashed_wire (path : List String) (safe : ∀ name ∈ path, SafeName name) :
    backslashed ("/".intercalate path) = wirePath '\\' path := by
  have kept : ∀ name, SafeName name →
    name.toList.map (fun c => if c = '/' then '\\' else c) = name.toList := by
    intro name harmless
    have same : name.toList.map (fun c => if c = '/' then '\\' else c) = name.toList.map id := by
      refine List.map_congr_left ?_
      intro c member
      exact if_neg (harmless.chars c member).1
    rw [same, List.map_id]
  rw [slashed_wire, backslashed, wirePath, String.toList_ofList, wirePath]
  congr 1
  induction path with
  | nil => rfl
  | cons name rest ih =>
      have first := kept name (safe name List.mem_cons_self)
      have later := ih fun other member => safe other (List.mem_cons_of_mem _ member)
      cases rest with
      | nil => simpa using first
      | cons next more =>
          rw [List.map_cons] at later
          rw [List.map_cons, List.map_cons, List.intercalate_cons_cons, List.intercalate_cons_cons,
            List.map_append, List.map_append, first, later]
          rfl

-- Every reachable file is collected once, and received where it was below the root.
structure TreePreserved (base download : Components) (tree : SourceTree)
    (files : List (Components × String)) : Prop where
  once : (files.map Prod.fst).Nodup
  exactly : ∀ path relative, (path, relative) ∈ files ↔ ∃ names, Reaches tree.root names ∧
    (path, relative) = sourceFile base names
  target : ∀ names, Reaches tree.root names → ∃ front last, names = front ++ [last] ∧ ∀ info : TransferFile,
    receiveTargetIn download { info with relativePath := some (sourceFile base names).2 } =
    (download ++ front.map .normal, last) ∧
    receiveTargetIn download { info with relativePath := some (backslashed (sourceFile base names).2) } =
    (download ++ front.map .normal, last)
  distinct : ∀ file ∈ files, ∀ other ∈ files, ∀ info info' : TransferFile,
    receiveTargetIn download { info with relativePath := some file.2 } = receiveTargetIn download
    { info' with relativePath := some other.2 } →
      file = other

theorem directory_sends_preserve_the_tree (base download : Components) (tree : SourceTree) :
    ∃ files, collectDirectoryFiles base base tree.root [] = .ok files ∧
      TreePreserved base download tree files := by
  have collected : collectDirectoryFiles base base tree.root [] = .ok
    (tree.root.paths.map (sourceFile base)) := by
    simpa using collect_paths base tree.root tree.tidy [] []
  have named : ∀ names, Reaches tree.root names → names ≠ [] ∧ ∀ name ∈ names, CleanName name :=
    fun names reaches => paths_clean tree.root tree.tidy names ((paths_reach tree.root names).mpr reaches)
  have target : ∀ names, Reaches tree.root names → ∃ front last, names = front ++ [last] ∧
    ∀ info : TransferFile,
      receiveTargetIn download { info with relativePath := some (sourceFile base names).2 } =
      (download ++ front.map .normal, last) ∧
      receiveTargetIn download { info with relativePath := some (backslashed (sourceFile base names).2) } =
      (download ++ front.map .normal, last) := by
    intro names reaches
    obtain ⟨nonempty, cleaned⟩ := named names reaches
    obtain ⟨front, last, rfl⟩ : ∃ front last, names = front ++ [last] :=
      ⟨names.dropLast, names.getLast nonempty, (List.dropLast_append_getLast nonempty).symm⟩
    refine ⟨front, last, rfl, ?_⟩
    intro info
    simp only [sourceFile]
    rw [backslashed_wire _ fun name member => clean_name_safe name (cleaned name member), slashed_wire]
    exact ⟨wire_target download info '/' (by decide) front last cleaned, wire_target download info '\\'
      (by decide) front last cleaned⟩
  refine ⟨_, collected, ?_, ?_, target, ?_⟩
  · rw [List.map_map]
    refine (paths_nodup tree.root tree.tidy).map ?_
    intro names other same
    have components := List.append_cancel_left same
    exact (List.map_injective_iff.mpr fun _ _ equal => Component.normal.inj equal) components
  · intro path relative
    rw [List.mem_map]
    refine ⟨?_, ?_⟩
    · rintro ⟨names, member, same⟩
      exact ⟨names, (paths_reach tree.root names).mp member, same.symm⟩
    · rintro ⟨names, reaches, same⟩
      exact ⟨names, (paths_reach tree.root names).mpr reaches, same.symm⟩
  · intro file member other member' info info' same
    obtain ⟨names, listed, rfl⟩ := List.mem_map.mp member
    obtain ⟨names', listed', rfl⟩ := List.mem_map.mp member'
    obtain ⟨front, last, rfl, at_⟩ := target names ((paths_reach tree.root names).mp listed)
    obtain ⟨front', last', rfl, at'⟩ := target names' ((paths_reach tree.root names').mp listed')
    rw [(at_ info).1, (at' info').1] at same
    obtain ⟨parents, rfl⟩ := Prod.mk.inj same
    have fronts := (List.map_injective_iff.mpr fun _ _ equal => Component.normal.inj equal)
      (List.append_cancel_left parents)
    rw [fronts]

example : (collectDirectoryFiles [] [] (.dir "sub" (.file "a.txt" (.symlink "l" .nil))
    (.dir ".GOSH-transfer" (.file "b" .nil) .nil)) []).toOption =
    some [([.normal "sub", .normal "a.txt"], "sub/a.txt")] := by decide +kernel

example : (Listing.dir "sub" (.file "a.txt" .nil) .nil).Tidy := by
  have sub : clean "sub".toList = some "sub".toList := by decide +kernel
  have file : clean "a.txt".toList = some "a.txt".toList := by decide +kernel
  refine ⟨?_, by simp [Listing.names], ⟨?_, by simp [Listing.names], trivial⟩, trivial⟩
  · intro fallback
    simp only [sanitizeFileName, sub, String.ofList_toList]
  · intro fallback
    simp only [sanitizeFileName, file, String.ofList_toList]

end GoshTransfer
