import GoshTransfer.Sandbox

set_option autoImplicit false

namespace GoshTransfer

-- The last character of a cleaned name, which the two rules for extensions depend on.
theorem clean_last (value safe : List Char) (cleaned : clean value = some safe) :
    ∃ last, safe.getLast? = some last ∧ last ≠ '.' ∧ last ≠ ' ' := by
  unfold clean at cleaned
  dsimp only at cleaned
  generalize trim _ = whole at cleaned
  split at cleaned
  · cases cleaned
  · rename_i nonempty
    have some_ : trimEndMatches (fun c => c == '.' || c == ' ') whole ≠ [] := by simpa using nonempty
    obtain ⟨last, ends⟩ := Option.ne_none_iff_exists'.mp (mt List.getLast?_eq_none_iff.mp some_)
    have kept := trim_end_last _ whole last ends
    simp only [Bool.or_eq_false_iff, beq_eq_false_iff_ne] at kept
    split at cleaned
    · obtain rfl := Option.some.inj cleaned
      exact ⟨last, by rw [List.getLast?_cons_of_ne_nil some_, ends], kept⟩
    · obtain rfl := Option.some.inj cleaned
      exact ⟨last, ends, kept⟩

theorem file_name_last (name fallback : String) :
    ∃ last, (sanitizeFileName name fallback).toList.getLast? = some last ∧ last ≠ '.' ∧ last ≠ ' ' := by
  unfold sanitizeFileName
  split
  · rename_i safe cleaned
    simpa using clean_last _ safe cleaned
  · split
    · rename_i safe cleaned
      simpa using clean_last _ safe cleaned
    · exact ⟨'e', by decide, by decide, by decide⟩

theorem relative_path_sanitized (path : String) : ∀ name ∈ sanitizeRelativePath path, ∃ component,
    name = sanitizeFileName component "file" := by
  intro name member
  obtain ⟨component, _, kept⟩ := List.mem_filterMap.mp member
  split at kept
  · cases kept
  · split at kept
    · cases kept
    · dsimp only at kept
      split at kept
      · exact ⟨_, (Option.some.inj kept).symm⟩
      · cases kept

theorem receive_target_sanitized (file : TransferFile) :
    ∃ name fallback, (receiveTarget file).2 = sanitizeFileName name fallback := by
  cases declared : file.relativePath with
  | none => exact ⟨file.name, file.id, by simp [receiveTarget, declared]⟩
  | some relative =>
      cases last : (sanitizeRelativePath relative).getLast? with
      | none => exact ⟨file.name, file.id, by simp [receiveTarget, declared, last]⟩
      | some base =>
          obtain ⟨component, same⟩ := relative_path_sanitized relative base (List.mem_of_getLast? last)
          exact ⟨component, "file", by simp [receiveTarget, declared, last, same]⟩

theorem receive_target_last (file : TransferFile) : (receiveTarget file).2.toList.getLast? ≠ some '.' := by
  obtain ⟨name, fallback, same⟩ := receive_target_sanitized file
  obtain ⟨last, ends, notDot, _⟩ := file_name_last name fallback
  rw [same, ends]
  exact fun dot => notDot (Option.some.inj dot)

-- rsplit_once and Path::extension part ways only on a name that ends with a dot.
theorem splits_agree (name : List Char) (last : name.getLast? ≠ some '.') :
    (splitFileName name = (name, []) ∧ splitExtension name = (name, none)) ∨
      ∃ stem ext, ext ≠ [] ∧ splitFileName name = (stem, ext) ∧ splitExtension name = (stem, some ext) := by
  have notDots : name ≠ ['.', '.'] := by
    rintro rfl
    exact last rfl
  unfold splitFileName splitExtension
  rw [if_neg (by simpa using notDots)]
  cases found : name.reverse.dropWhile (· != '.') with
  | nil => exact .inl ⟨rfl, rfl⟩
  | cons dot before =>
    by_cases leading : before.isEmpty = true
    · exact .inl ⟨if_pos leading, if_pos leading⟩
    · refine .inr ⟨before.reverse, (name.reverse.takeWhile (· != '.')).reverse, ?_, if_neg leading,
        if_neg leading⟩
      intro empty
      cases reversed : name.reverse with
      | nil => simp [reversed] at found
      | cons c rest =>
          have ends : name.getLast? = some c := by rw [← List.head?_reverse, reversed, List.head?_cons]
          by_cases isDot : c = '.'
          · exact last (isDot ▸ ends)
          · simp [reversed, isDot] at empty

theorem candidate_eq_unique (base : String) (index : Nat) (last : base.toList.getLast? ≠ some '.') :
    candidateName base index = uniqueName base index := by
  unfold candidateName uniqueName
  split
  · rfl
  · rcases splits_agree base.toList last with ⟨legacy, path⟩ | ⟨stem, ext, nonempty, legacy, path⟩
    · rw [legacy, path]
      simp only [← String.toList_inj, String.toList_append, String.toList_ofList, List.append_assoc]
    · rw [legacy, path]
      cases ext with
      | nil => exact absurd rfl nonempty
      | cons c rest => rfl

theorem digits_injective (i j : Nat) (same : (toString i).toList = (toString j).toList) : i = j := by
  have values := congrArg (fun digits => Nat.ofDigitChars 10 digits 0) same
  simpa [Nat.toString_eq_ofList_toDigits] using values

theorem candidate_parts (base : String) : ∃ front back : List Char,
    (∀ index, index ≠ 0 → (candidateName base index).toList = front ++ ((toString index).toList ++ back)) ∧
      base.toList.length < front.length + back.length := by
  cases parts : splitExtension base.toList with
  | mk stem ext =>
      cases ext with
      | none =>
          refine ⟨base.toList ++ [' ', '('], [')'], ?_,
            by simp only [List.length_append, List.length_cons]; omega⟩
          intro index numbered
          simp [candidateName, numbered, parts]
      | some ext =>
          refine ⟨stem ++ [' ', '('], [')', '.'] ++ ext, ?_, ?_⟩
          · intro index numbered
            simp [candidateName, numbered, parts]
          · have lengths := congrArg List.length (split_extension_join _ _ _ parts)
            simp only [List.length_append, List.length_cons] at lengths ⊢
            omega

theorem candidate_names_distinct (base : String) (i j : Nat) (different : i ≠ j) :
    candidateName base i ≠ candidateName base j := by
  obtain ⟨front, back, numbered, longer⟩ := candidate_parts base
  have unlike : ∀ index, index ≠ 0 → candidateName base index ≠ base := by
    intro index positive same
    have lengths := congrArg List.length (numbered index positive)
    rw [same] at lengths
    simp only [List.length_append] at lengths
    omega
  have first : candidateName base 0 = base := rfl
  by_cases zero : i = 0
  · subst zero
    rw [first]
    exact (unlike j (Ne.symm different)).symm
  · by_cases zero' : j = 0
    · subst zero'
      rw [first]
      exact unlike i zero
    · intro same
      have chars := congrArg String.toList same
      rw [numbered i zero, numbered j zero'] at chars
      exact different (digits_injective i j (List.append_cancel_right (List.append_cancel_left chars)))

theorem candidate_paths_distinct (file : TransferFile) (i j : Nat) (different : i ≠ j) :
    candidatePath file i ≠ candidatePath file j := by
  intro same
  have names := List.append_cancel_left same
  exact candidate_names_distinct _ i j different (List.cons.inj names).1

theorem unique_path_eq (file : TransferFile) (index : Nat) :
    uniquePath file index = candidatePath file index := by
  rw [uniquePath, candidatePath, candidate_eq_unique _ index (receive_target_last file)]

end GoshTransfer
