import GoshTransfer.LegacyUpload
import GoshTransfer.Lib.UnixPath

set_option autoImplicit false

namespace GoshTransfer

open UnixPath

-- receive_target below a download directory. The names are pushed one after the
-- other onto an empty PathBuf, and a push takes what it gets as a path.
def receiveTargetIn (download : Components) (file : TransferFile) : Components × String :=
  let fallbackName := sanitizeFileName file.name file.id
  match file.relativePath with
  | none => (download, fallbackName)
  | some relative =>
      let sanitized := (sanitizeRelativePath relative).foldl (fun path name => join path (parse name)) []
      let target := join download sanitized
      if sanitized ≠ [] ∧ startsWith target download ∧ target ≠ download then
        match parent target with
        | none => (download, fallbackName)
        | some above =>
            if startsWith above download then (above, (fileName target).getD fallbackName)
              else (download, fallbackName)
      else (download, fallbackName)

def reservedTargetIn (download target : Components) : Bool :=
  match stripPrefix target download with
  | some (.normal name :: _) => reservedName name
  | _ => false

def forbiddenChars : List Char := ['<', '>', ':', '"', '|', '?', '*']

def SafeChar (c : Char) : Prop := c ≠ '/' ∧ c ≠ '\\' ∧ isControl c = false ∧ c ∉ forbiddenChars

instance (c : Char) : Decidable (SafeChar c) := inferInstanceAs (Decidable (_ ∧ _ ∧ _ ∧ _))

structure SafeName (name : String) : Prop where
  nonempty : name ≠ ""
  notDot : name ≠ "."
  notDots : name ≠ ".."
  chars : ∀ c ∈ name.toList, SafeChar c

def BelowRoot (download target : Components) : Prop :=
  ∃ names : List String, names ≠ [] ∧ target = download ++ names.map .normal ∧ ∀ name ∈ names, SafeName name

theorem safe_single (name : String) (safe : SafeName name) : Single name :=
  ⟨safe.nonempty, safe.notDot, safe.notDots, fun slash => (safe.chars '/' slash).1 rfl⟩

theorem trim_end_subset (p : Char → Bool) (cs : List Char) : trimEndMatches p cs ⊆ cs := by
  intro c member
  have kept := (List.dropWhile_sublist p).subset (List.mem_reverse.mp member)
  exact List.mem_reverse.mp kept

theorem trim_subset (cs : List Char) : trim cs ⊆ cs := by
  intro c member
  exact (List.dropWhile_sublist isWhitespace).subset (trim_end_subset isWhitespace _ member)

theorem trim_end_last (p : Char → Bool) (cs : List Char) (last : Char)
    (ends : (trimEndMatches p cs).getLast? = some last) :
    p last = false := by
  unfold trimEndMatches at ends
  rw [List.getLast?_reverse] at ends
  have dropped := List.head?_dropWhile_not p cs.reverse
  rw [ends] at dropped
  exact dropped

theorem stripped_safe (leaf : List Char) (parted : ∀ c ∈ leaf, isSeparator c = false) :
    ∀ c ∈ (leaf.filter (!isControl ·)).map (fun c => if forbiddenChars.contains c then '_' else c),
      SafeChar c := by
  intro c member
  obtain ⟨source, kept, rfl⟩ := List.mem_map.mp member
  obtain ⟨inLeaf, plain⟩ := List.mem_filter.mp kept
  have separate := parted source inLeaf
  simp only [isSeparator, Bool.or_eq_false_iff, beq_eq_false_iff_ne] at separate
  by_cases forbidden : source ∈ forbiddenChars
  · rw [if_pos (List.contains_iff_mem.mpr forbidden)]
    exact ⟨by decide, by decide, by decide, by decide⟩
  · rw [if_neg (mt List.contains_iff_mem.mp forbidden)]
    exact ⟨separate.1, separate.2, by simpa using plain, forbidden⟩

theorem clean_safe (value safe : List Char) (cleaned : clean value = some safe) : SafeName
    (.ofList safe) := by
  have leaf : ∀ c ∈ (value.reverse.takeWhile (!isSeparator ·)).reverse, isSeparator c = false := by
    intro c member
    have held := List.all_eq_true.mp (List.all_takeWhile (p := (!isSeparator ·)) (l := value.reverse)) c
      (List.mem_reverse.mp member)
    simpa using held
  have stripped := stripped_safe _ leaf
  unfold clean at cleaned
  dsimp only at cleaned
  generalize body : List.map _ (List.filter _ _) = whole at cleaned
  have chars : ∀ c ∈ trimEndMatches (fun c => c == '.' || c == ' ') (trim whole), SafeChar c := by
    intro c member
    have inWhole := trim_subset whole (trim_end_subset _ _ member)
    rw [← body] at inWhole
    exact stripped c inWhole
  have last := trim_end_last (fun c => c == '.' || c == ' ') (trim whole)
  split at cleaned
  · cases cleaned
  · rename_i nonempty
    split at cleaned
    · obtain rfl := Option.some.inj cleaned
      refine ⟨?_, ?_, ?_, ?_⟩
      · intro same
        simpa using congrArg String.toList same
      · intro same
        simpa using congrArg String.toList same
      · intro same
        simpa using congrArg String.toList same
      · intro c member
        rw [String.toList_ofList] at member
        rcases List.mem_cons.mp member with rfl | later
        · exact ⟨by decide, by decide, by decide, by decide⟩
        · exact chars c later
    · obtain rfl := Option.some.inj cleaned
      refine ⟨?_, ?_, ?_, ?_⟩
      · intro same
        exact nonempty (by simpa using congrArg String.toList same)
      · intro same
        have dot : trimEndMatches (fun c => c == '.' || c == ' ') (trim whole) =
          ['.'] := by simpa using congrArg String.toList same
        rw [dot] at last
        exact absurd (last '.' rfl) (by decide)
      · intro same
        have dots : trimEndMatches (fun c => c == '.' || c == ' ') (trim whole) =
          ['.', '.'] := by simpa using congrArg String.toList same
        rw [dots] at last
        exact absurd (last '.' rfl) (by decide)
      · intro c member
        rw [String.toList_ofList] at member
        exact chars c member

theorem file_name_safe (name fallback : String) : SafeName (sanitizeFileName name fallback) := by
  unfold sanitizeFileName
  split
  · rename_i safe cleaned
    exact clean_safe _ safe cleaned
  · split
    · rename_i safe cleaned
      exact clean_safe _ safe cleaned
    · exact ⟨by decide, by decide, by decide, by simp [SafeChar, isControl, forbiddenChars]⟩

theorem relative_path_safe (path : String) : ∀ name ∈ sanitizeRelativePath path, SafeName name := by
  intro name member
  obtain ⟨component, _, kept⟩ := List.mem_filterMap.mp member
  split at kept
  · cases kept
  · split at kept
    · cases kept
    · dsimp only at kept
      split at kept
      · obtain rfl := Option.some.inj kept
        exact file_name_safe _ _
      · cases kept

theorem receive_target_safe (file : TransferFile) :
    ∀ name ∈ (receiveTarget file).1 ++ [(receiveTarget file).2], SafeName name := by
  have fallback := file_name_safe file.name file.id
  cases declared : file.relativePath with
  | none => simpa [receiveTarget, declared] using fallback
  | some relative =>
      have names := relative_path_safe relative
      cases last : (sanitizeRelativePath relative).getLast? with
      | none => simpa [receiveTarget, declared, last] using fallback
      | some base =>
          obtain ⟨front, whole⟩ := List.getLast?_eq_some_iff.mp last
          simpa [receiveTarget, declared, whole] using names

theorem receive_target_in (download : Components) (file : TransferFile) :
    receiveTargetIn download file = (download ++ (receiveTarget file).1.map .normal,
      (receiveTarget file).2) := by
  cases declared : file.relativePath with
  | none => simp [receiveTargetIn, receiveTarget, declared]
  | some relative =>
      have singles : ∀ name ∈ sanitizeRelativePath relative, Single name :=
        fun name member => safe_single name (relative_path_safe relative name member)
      have pushed := fold_single (sanitizeRelativePath relative) [] singles
      cases last : (sanitizeRelativePath relative).getLast? with
      | none =>
          have empty : sanitizeRelativePath relative = [] := List.getLast?_eq_none_iff.mp last
          simp [receiveTargetIn, receiveTarget, declared, empty]
      | some base =>
          obtain ⟨front, whole⟩ := List.getLast?_eq_some_iff.mp last
          have target :
            join download ((sanitizeRelativePath relative).foldl (fun path name => join path (parse name))
            []) =
              (download ++ front.map .normal) ++ [.normal base] := by
            rw [pushed, List.nil_append, join_normal, whole]
            simp
          have below : startsWith ((download ++ front.map .normal) ++ [.normal base]) download = true := by
            rw [List.append_assoc]
            exact starts_with_append _ _
          have longer : (download ++ front.map .normal) ++ [.normal base] ≠ download := by
            intro same
            have lengths := congrArg List.length same
            simp at lengths
          have nonempty : (sanitizeRelativePath relative).foldl (fun path name => join path (parse name))
            [] ≠ [] := by
            rw [pushed, whole]
            simp
          simp only [receiveTargetIn, declared, target]
          rw [if_pos ⟨nonempty, below, longer⟩, parent_append]
          simp only [starts_with_append, if_true, file_name_append, Option.getD_some]
          simp [receiveTarget, declared, whole]

theorem digit_safe (c : Char) (digit : c.isDigit = true) : SafeChar c := by
  have bounds : 48 ≤ c.toNat ∧ c.toNat ≤ 57 := by
    simp only [Char.isDigit, Bool.and_eq_true, decide_eq_true_eq, ge_iff_le, UInt32.le_iff_toNat_le] at digit
    exact digit
  have different : ∀ other : Char, ¬ (48 ≤ other.toNat ∧ other.toNat ≤ 57) → c ≠ other := by
    rintro other apart rfl
    exact apart bounds
  refine ⟨different _ (by decide), different _ (by decide), ?_, ?_⟩
  · simp only [isControl, Bool.or_eq_false_iff, Bool.and_eq_false_iff, decide_eq_false_iff_not,
      UInt32.lt_iff_toNat_lt, UInt32.le_iff_toNat_le]
    change ¬ c.toNat < 32 ∧ (¬ 127 ≤ c.toNat ∨ ¬ c.toNat ≤ 159)
    omega
  · intro member
    have none_ : forbiddenChars.all
      (fun other => !(decide (48 ≤ other.toNat) && decide (other.toNat ≤ 57))) = true := by decide
    have clash := List.all_eq_true.mp none_ c member
    simp [bounds] at clash

theorem number_safe (index : Nat) (opening closing : String) (opens : opening.toList.all SafeChar = true)
    (closes : closing.toList.all SafeChar = true) :
    ∀ c ∈ (opening ++ toString index ++ closing).toList, SafeChar c := by
  intro c member
  rw [String.toList_append, String.toList_append, List.mem_append, List.mem_append] at member
  rcases member with (front | number) | back
  · exact of_decide_eq_true (List.all_eq_true.mp opens c front)
  · refine digit_safe c ?_
    rw [Nat.toString_eq_repr, Nat.repr, String.toList_ofList] at number
    exact Nat.isDigit_of_mem_toDigits (by decide) (by decide) number
  · exact of_decide_eq_true (List.all_eq_true.mp closes c back)

theorem spaced_safe (name : String) (space : ' ' ∈ name.toList) (chars : ∀ c ∈ name.toList, SafeChar c) :
    SafeName name := by
  refine ⟨?_, ?_, ?_, chars⟩ <;> rintro rfl <;> exact absurd space (by decide)

theorem unique_name_has_space (base : String) (index : Nat) (numbered : index ≠ 0) :
    ' ' ∈ (uniqueName base index).toList := by
  unfold uniqueName
  rw [if_neg (by simpa using numbered)]
  split
  · simp
  · simp

theorem split_file_name_subset (name stem ext : List Char) (parts : splitFileName name = (stem, ext)) :
    stem ⊆ name ∧ ext ⊆ name := by
  unfold splitFileName at parts
  split at parts
  · cases parts
    exact ⟨List.Subset.refl _, List.nil_subset _⟩
  · rename_i dot before found
    have suffix : before ⊆ name.reverse := by
      intro c member
      exact (List.dropWhile_sublist _).subset (found ▸ List.mem_cons_of_mem dot member)
    split at parts
    · cases parts
      exact ⟨List.Subset.refl _, List.nil_subset _⟩
    · cases parts
      refine ⟨?_, ?_⟩
      · intro c member
        exact List.mem_reverse.mp (suffix (List.mem_reverse.mp member))
      · intro c member
        exact List.mem_reverse.mp ((List.takeWhile_sublist _).subset (List.mem_reverse.mp member))

theorem unique_name_safe (base : String) (index : Nat) (safe : SafeName base) : SafeName
    (uniqueName base index) := by
  by_cases first : index = 0
  · simpa [uniqueName, first] using safe
  · refine spaced_safe _ (unique_name_has_space base index first) ?_
    unfold uniqueName
    rw [if_neg (by simpa using first)]
    split
    · rename_i stem parts
      have inside := (split_file_name_subset _ _ _ parts).1
      intro c member
      rw [String.toList_ofList, List.mem_append] at member
      rcases member with front | back
      · exact safe.chars c (inside front)
      · exact number_safe index " (" ")" (by decide) (by decide) c back
    · rename_i stem ext _ parts
      obtain ⟨inside, extension⟩ := split_file_name_subset _ _ _ parts
      intro c member
      rw [String.toList_ofList, List.mem_append, List.mem_append] at member
      rcases member with (front | number) | back
      · exact safe.chars c (inside front)
      · exact number_safe index " (" ")." (by decide) (by decide) c number
      · exact safe.chars c (extension back)

theorem candidate_name_safe (base : String) (index : Nat) (safe : SafeName base) : SafeName
    (candidateName base index) := by
  by_cases first : index = 0
  · simpa [candidateName, first] using safe
  · refine spaced_safe _ (numbered_name_has_space base index first) ?_
    unfold candidateName
    rw [if_neg (by simpa using first)]
    split
    · rename_i stem ext parts
      have whole := split_extension_join _ _ _ parts
      intro c member
      rw [String.toList_ofList, List.mem_append, List.mem_append] at member
      rcases member with (front | number) | back
      · exact safe.chars c (by rw [whole]; simp [front])
      · exact number_safe index " (" ")." (by decide) (by decide) c number
      · exact safe.chars c (by rw [whole]; simp [back])
    · intro c member
      rw [String.append_assoc, String.append_assoc, String.toList_append, List.mem_append] at member
      rcases member with front | back
      · exact safe.chars c front
      · rw [← String.append_assoc] at back
        exact number_safe index " (" ")" (by decide) (by decide) c back

-- A name that open_unique_file or the publication loop of version 2 tries.
def Variant (base name : String) : Prop := ∃ index, name = uniqueName base index ∨
    name = candidateName base index

structure Contained (download above : Components) (base : String) : Prop where
  target : BelowRoot download (join above (parse base))
  variants : ∀ name, Variant base name → BelowRoot download (join above (parse name))
  unreserved : reservedTargetIn download (join above (parse base)) = false →
    ∀ name, name = base ∨ Variant base name →
      ∀ first rest, join above (parse name) = download ++ .normal first :: rest → reservedName first = false

theorem variant_safe (base name : String) (variant : Variant base name) (safe : SafeName base) :
    SafeName name := by
  obtain ⟨index, rfl | rfl⟩ := variant
  · exact unique_name_safe base index safe
  · exact candidate_name_safe base index safe

theorem variant_unreserved (base name : String) (variant : Variant base name)
    (allowed : reservedName base = false) :
    reservedName name = false := by
  have spaced : ∀ other : String, ' ' ∈ other.toList → reservedName other = false := by
    intro other space
    have kept : ' ' ∈ other.toList.map Char.toLower := List.mem_map.mpr ⟨' ', space, by decide⟩
    unfold reservedName
    rw [beq_eq_false_iff_ne]
    intro same
    rw [same] at kept
    exact absurd kept (by decide)
  obtain ⟨index, rfl | rfl⟩ := variant
  · by_cases first : index = 0
    · simpa [uniqueName, first] using allowed
    · exact spaced _ (unique_name_has_space base index first)
  · by_cases first : index = 0
    · simpa [candidateName, first] using allowed
    · exact spaced _ (numbered_name_has_space base index first)

theorem received_files_stay_inside (download : String) (file : TransferFile) :
    Contained (parse download) (receiveTargetIn (parse download) file).1
    (receiveTargetIn (parse download) file).2 := by
  rw [receive_target_in]
  have safe := receive_target_safe file
  generalize (receiveTarget file).1 = above at safe ⊢
  generalize (receiveTarget file).2 = base at safe ⊢
  generalize parse download = root
  have baseSafe : SafeName base := safe base (by simp)
  -- Joining a harmless name appends one component.
  have joined : ∀ name, SafeName name → join (root ++ above.map .normal) (parse name) = root ++
    (above ++ [name]).map .normal := by
    intro name harmless
    rw [join_single _ name (safe_single name harmless)]
    simp
  have confined : ∀ name, SafeName name → BelowRoot root (join (root ++ above.map .normal) (parse name)) := by
    intro name harmless
    refine ⟨above ++ [name], by simp, joined name harmless, ?_⟩
    intro part member
    rcases List.mem_append.mp member with front | leaf
    · exact safe part (List.mem_append_left _ front)
    · rw [List.mem_singleton.mp leaf]
      exact harmless
  refine ⟨confined base baseSafe, fun name variant => confined name
    (variant_safe base name variant baseSafe), ?_⟩
  intro allowed name variant first rest target
  have harmless : SafeName name := by
    rcases variant with rfl | numbered
    · exact baseSafe
    · exact variant_safe base name numbered baseSafe
  rw [joined name harmless] at target
  have components := List.append_cancel_left target
  rw [joined base baseSafe] at allowed
  simp only [reservedTargetIn, strip_prefix_append] at allowed
  cases above with
  | cons top lower =>
      have same : top = first := by simpa using (List.cons.inj components).1
      simpa [same] using allowed
  | nil =>
      have same : name = first := by simpa using (List.cons.inj components).1
      have free : reservedName base = false := by simpa using allowed
      rw [← same]
      rcases variant with rfl | numbered
      · exact free
      · exact variant_unreserved base name numbered free

-- The space hides the last dots from the first test, and cleaning leaves nothing of them.
example : receiveTargetIn (parse "/home/u/in") ⟨"..\\..\\x.txt", 0, none, "f", some "../../C:/.. "⟩ =
    ([.rootDir, .normal "home", .normal "u", .normal "in"], "file") := by decide +kernel

end GoshTransfer
