import GoshTransfer.Manifest
import Mathlib.Data.List.Basic

set_option autoImplicit false

namespace GoshTransfer

-- Components below the download directory. The std::path rules are those of
-- Unix, where only the slash separates components.
abbrev Path := List String

def stateDir : String := ".gosh-transfer"

def journalPath (id : String) : Path := [stateDir, id ++ ".json"]

def partPath (id file : String) : Path := [stateDir, id ++ "-" ++ file ++ ".part"]

-- char::is_control is the general category Cc.
def isControl (c : Char) : Bool := c.val < 0x20 || (0x7f ≤ c.val && c.val ≤ 0x9f)

-- str::trim removes characters with the Unicode property White_Space.
def isWhitespace (c : Char) : Bool :=
  (0x9 ≤ c.val && c.val ≤ 0xd) || c.val == 0x20 || c.val == 0x85 || c.val == 0xa0 || c.val == 0x1680 ||
    (0x2000 ≤ c.val && c.val ≤ 0x200a) || c.val == 0x2028 || c.val == 0x2029 || c.val == 0x202f ||
    c.val == 0x205f || c.val == 0x3000

def isSeparator (c : Char) : Bool := c == '/' || c == '\\'

def trimEndMatches (p : Char → Bool) (cs : List Char) : List Char := (cs.reverse.dropWhile p).reverse

def trim (cs : List Char) : List Char := trimEndMatches isWhitespace (cs.dropWhile isWhitespace)

def deviceName (stem : List Char) : Bool :=
  match stem with
  | ['C', 'O', 'N'] | ['P', 'R', 'N'] | ['A', 'U', 'X'] | ['N', 'U', 'L'] => true
  | ['C', 'O', 'M', d] | ['L', 'P', 'T', d] => '1' ≤ d && d ≤ '9'
  | _ => false

def clean (value : List Char) : Option (List Char) :=
  let leaf := (value.reverse.takeWhile (!isSeparator ·)).reverse
  let stripped := (leaf.filter (!isControl ·)).map fun c =>
    if ['<', '>', ':', '"', '|', '?', '*'].contains c then '_' else c
  let trimmed := trimEndMatches (fun c => c == '.' || c == ' ') (trim stripped)
  if trimmed.isEmpty then none
  else if deviceName ((trimmed.takeWhile (· != '.')).map Char.toUpper) then some ('_' :: trimmed)
  else some trimmed

def sanitizeFileName (name fallback : String) : String :=
  match clean name.toList with
  | some safe => .ofList safe
  | none =>
      match clean fallback.toList with
      | some safe => .ofList safe
      | none => "file"

-- A two byte component whose second byte is a colon starts with an ASCII character.
def drivePrefix (component : List Char) : Bool :=
  match component with
  | [c, ':'] => c.val < 0x80
  | _ => false

def sanitizeRelativePath (path : String) : Path :=
  (path.toList.splitOnP isSeparator).filterMap fun component =>
    if component == [] || component == ['.'] || component == ['.', '.'] then none
    else if drivePrefix component then none
    else
      let safe := sanitizeFileName (.ofList component) "file"
      if safe != "." && safe != ".." && safe != "" then some safe else none

-- The parent directory and the base name, relative to the download directory.
def receiveTarget (file : TransferFile) : Path × String :=
  let fallbackName := sanitizeFileName file.name file.id
  match file.relativePath with
  | none => ([], fallbackName)
  | some relative =>
      let sanitized := sanitizeRelativePath relative
      match sanitized.getLast? with
      | none => ([], fallbackName)
      | some base => (sanitized.dropLast, base)

def reservedName (component : String) : Bool := component.toList.map Char.toLower == stateDir.toList

def reservedTarget (target : Path) : Bool :=
  match target.head? with
  | none => false
  | some component => reservedName component

-- Path::file_stem and Path::extension of a single component: the split is at
-- the last dot, and a leading dot starts no extension.
def splitExtension (name : List Char) : List Char × Option (List Char) :=
  if name == ['.', '.'] then (name, none)
  else
    match name.reverse.dropWhile (· != '.') with
    | [] => (name, none)
    | _ :: before =>
        if before.isEmpty then (name, none)
        else (before.reverse, some (name.reverse.takeWhile (· != '.')).reverse)

def candidateName (base : String) (index : Nat) : String :=
  if index == 0 then base
  else
    match splitExtension base.toList with
    | (stem, some ext) => .ofList (stem ++ (" (" ++ toString index ++ ").").toList ++ ext)
    | (_, none) => base ++ " (" ++ toString index ++ ")"

def candidatePath (file : TransferFile) (index : Nat) : Path :=
  (receiveTarget file).1 ++ [candidateName (receiveTarget file).2 index]

def Outside (path : Path) : Prop := path.head? ≠ some stateDir

theorem part_path_inj (id id' file file' : String) (sameLength : id.toList.length = id'.toList.length)
    (same : partPath id file = partPath id' file') : id = id' ∧ file = file' := by
  have chars : id.toList ++ ('-' :: (file.toList ++ ".part".toList)) = id'.toList ++
    ('-' :: (file'.toList ++ ".part".toList)) := by
    have names : id ++ "-" ++ file ++ ".part" = id' ++ "-" ++ file' ++
    ".part" := by simpa [partPath] using same
    simpa using congrArg String.toList names
  obtain ⟨ids, rest⟩ := List.append_inj chars sameLength
  have files : file.toList = file'.toList := by simpa using rest
  exact ⟨String.toList_inj.mp ids, String.toList_inj.mp files⟩

theorem journal_path_inj (id id' : String) (same : journalPath id = journalPath id') : id = id' := by
  have names : id ++ ".json" = id' ++ ".json" := by simpa [journalPath] using same
  have chars : id.toList = id'.toList := by simpa using congrArg String.toList names
  exact String.toList_inj.mp chars

theorem part_ne_journal (id id' file : String) : partPath id file ≠ journalPath id' := by
  intro same
  have names : id ++ "-" ++ file ++ ".part" = id' ++ ".json" := by simpa [partPath, journalPath] using same
  have reversed := congrArg (fun name => name.toList.reverse.head?) names
  simp at reversed

theorem part_inside (id file : String) : ¬ Outside (partPath id file) := by simp [Outside, partPath]

theorem journal_inside (id : String) : ¬ Outside (journalPath id) := by simp [Outside, journalPath]

theorem outside_ne_part (path : Path) (id file : String) (outside : Outside path) : path ≠ partPath id file :=
  fun same => part_inside id file (same ▸ outside)

theorem outside_ne_journal (path : Path) (id : String) (outside : Outside path) : path ≠ journalPath id :=
  fun same => journal_inside id (same ▸ outside)

theorem state_dir_reserved : reservedName stateDir = true := by decide

theorem numbered_name_has_space (base : String) (index : Nat) (numbered : index ≠ 0) :
    ' ' ∈ (candidateName base index).toList := by
  unfold candidateName
  rw [if_neg (by simpa using numbered)]
  split
  · simp
  · simp

-- Numbering a name keeps it out of the state directory: the reserved name has no space.
theorem candidate_outside (file : TransferFile) (index : Nat)
    (allowed : reservedTarget ((receiveTarget file).1 ++ [(receiveTarget file).2]) = false) :
    Outside (candidatePath file index) := by
  intro reserved
  cases parent : (receiveTarget file).1 with
  | cons first rest =>
      have here : first = stateDir := by simpa [candidatePath, parent] using reserved
      simp [parent, reservedTarget, here, state_dir_reserved] at allowed
  | nil =>
      have here : candidateName (receiveTarget file).2 index = stateDir := by
        simpa [candidatePath, parent] using reserved
      by_cases numbered : index = 0
      · have base : (receiveTarget file).2 = stateDir := by simpa [candidateName, numbered] using here
        simp [parent, reservedTarget, base, state_dir_reserved] at allowed
      · have space := numbered_name_has_space (receiveTarget file).2 index numbered
        rw [here] at space
        exact absurd space (by decide)

theorem split_extension_json (stem : List Char) (nonempty : stem ≠ []) :
    splitExtension (stem ++ ".json".toList) = (stem, some "json".toList) := by
  have notDots : stem ++ ['.', 'j', 's', 'o', 'n'] ≠ ['.', '.'] := by
    intro same
    have lengths := congrArg List.length same
    simp at lengths
  simp [splitExtension, notDots, nonempty]

theorem split_extension_join (name stem ext : List Char) (parts : splitExtension name = (stem, some ext)) :
    name = stem ++ '.' :: ext := by
  unfold splitExtension at parts
  split at parts
  · simp at parts
  · split at parts
    · simp at parts
    · rename_i dot before found
      split at parts
      · simp at parts
      · have isDot : dot = '.' := by
          have head := List.head_dropWhile_not (p := (· != '.')) (l := name.reverse) (by simp [found])
          simpa [found] using head
        have whole := List.takeWhile_append_dropWhile (p := (· != '.')) (l := name.reverse)
        rw [found, isDot] at whole
        have back := congrArg List.reverse whole
        simp only [List.reverse_append, List.reverse_cons, List.reverse_reverse] at back
        obtain ⟨rfl, rfl⟩ : before.reverse = stem ∧
          (List.takeWhile (· != '.') name.reverse).reverse = ext := by simpa using parts
        simpa using back.symm

end GoshTransfer
