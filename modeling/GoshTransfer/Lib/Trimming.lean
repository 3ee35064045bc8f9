import Mathlib.Data.List.DropRight

set_option autoImplicit false

-- Trimming of lists at their end, and the part of a list before its first delimiter.
namespace Trimming

variable {α β : Type} (p : α → Bool)

theorem trim_append_kept (a b : List α) (kept : b.rdropWhile p ≠ []) :
    (a ++ b).rdropWhile p = a ++ b.rdropWhile p := by
  have some_ : List.dropWhile p b.reverse ≠ [] := fun empty => kept (by rw [List.rdropWhile, empty]; rfl)
  rw [List.rdropWhile, List.reverse_append, List.dropWhile_append]
  rw [if_neg (by simpa using some_), List.reverse_append, List.reverse_reverse]
  rfl

theorem trim_append_stop (a b : List α) (c : α) (last : a.getLast? = some c) (stops : p c = false) :
    (a ++ b).rdropWhile p = a ++ b.rdropWhile p := by
  by_cases empty : b.rdropWhile p = []
  · rw [empty, List.append_nil, List.rdropWhile, List.reverse_append, List.dropWhile_append]
    rw [List.rdropWhile, List.reverse_eq_nil_iff] at empty
    rw [if_pos (by simp [empty])]
    obtain ⟨front, rfl⟩ := List.getLast?_eq_some_iff.mp last
    simp [stops]
  · exact trim_append_kept p a b empty

theorem trim_append_gone (a b : List α) (gone : ∀ c ∈ b, p c = true) :
    (a ++ b).rdropWhile p = a.rdropWhile p := by
  have none_ : List.dropWhile p b.reverse = [] :=
    List.dropWhile_eq_nil_iff.mpr fun c member => gone c (List.mem_reverse.mp member)
  rw [List.rdropWhile, List.reverse_append, List.dropWhile_append, none_]
  rfl

theorem trim_self (a : List α) (last : ∀ c, a.getLast? = some c → p c = false) : a.rdropWhile p = a := by
  rw [List.rdropWhile_eq_self_iff]
  intro nonempty
  rw [Bool.not_eq_true]
  exact last _ (List.getLast?_eq_some_getLast nonempty)

theorem trim_last (a : List α) (c : α) (last : (a.rdropWhile p).getLast? = some c) : p c = false := by
  have nonempty : a.rdropWhile p ≠ [] := fun empty => by simp [empty] at last
  rw [List.getLast?_eq_some_getLast nonempty] at last
  have kept := List.rdropWhile_last_not p a nonempty
  rw [Option.some.inj last] at kept
  exact Bool.not_eq_true _ ▸ kept

theorem trim_split (a : List α) : ∃ gone, a = a.rdropWhile p ++ gone ∧ ∀ c ∈ gone, p c = true :=
  ⟨a.rtakeWhile p, List.rdropWhile_append_rtakeWhile.symm, fun _ => List.mem_rtakeWhile_imp⟩

theorem trim_nil_iff (a : List α) : a.rdropWhile p = [] ↔ ∀ c ∈ a, p c = true := List.rdropWhile_eq_nil_iff

theorem trim_map (f : β → α) (a : List β) :
    (a.map f).rdropWhile p = (a.rdropWhile fun c => p (f c)).map f := by
  rw [List.rdropWhile, List.rdropWhile, ← List.map_reverse, List.dropWhile_map, List.map_reverse]
  rfl

theorem before_delimiter (a b : List α) (delimiter : α) (clear : ∀ c ∈ a, p c = true)
    (stops : p delimiter = false) :
    (a ++ delimiter :: b).takeWhile p = a := by
  rw [List.takeWhile_append_of_pos clear, List.takeWhile_cons_of_neg (by simp [stops]), List.append_nil]

theorem no_delimiter (a : List α) (clear : ∀ c ∈ a, p c = true) : a.takeWhile p = a :=
  List.takeWhile_eq_self_iff.mpr clear

-- Either the delimiter does not occur or it follows what stands before it.
theorem delimiter_cases (a : List α) : (a.takeWhile p = a ∧ ∀ c ∈ a, p c = true) ∨
    ∃ delimiter rest, a = a.takeWhile p ++ delimiter :: rest ∧ p delimiter = false := by
  cases dropped : a.dropWhile p with
  | nil =>
      have whole := List.takeWhile_append_dropWhile (p := p) (l := a)
      rw [dropped, List.append_nil] at whole
      exact .inl ⟨whole, List.takeWhile_eq_self_iff.mp whole⟩
  | cons delimiter rest =>
      have head := List.head?_dropWhile_not p a
      rw [dropped] at head
      exact .inr ⟨delimiter, rest, by rw [← dropped, List.takeWhile_append_dropWhile], by simpa using head⟩

end Trimming
