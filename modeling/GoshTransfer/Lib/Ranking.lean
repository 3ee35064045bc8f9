import Mathlib.Data.List.Sort
import Mathlib.Data.List.TakeWhile

set_option autoImplicit false

-- Stable sorting by a total preorder: what determines the sorted list, how an
-- element is added at the end, and what the first elements depend on.
namespace Ranking

variable {α : Type} (le : α → α → Bool)

def tied (a b : α) : Bool := le a b && le b a

-- sorted is source in order, and tied elements keep their places.
structure Ranked (source sorted : List α) : Prop where
  ordered : sorted.Pairwise fun a b => le a b = true
  stable : ∀ a, sorted.filter (tied le a) = source.filter (tied le a)

-- Insertion sort computes it.
def sort (l : List α) : List α := l.insertionSort fun a b => le a b = true

-- x goes behind everything that may stand before it.
def place (x : α) (s : List α) : List α := s.takeWhile (le · x) ++ x :: s.dropWhile (le · x)

def pages (k m : Nat) (l : List α) : List α := (List.range m).flatMap fun i => (l.drop (i * k)).take k

theorem pages_take (k m : Nat) (l : List α) : pages k m l = l.take (m * k) := by
  induction m with
  | zero => simp [pages]
  | succ m ih =>
      rw [pages, List.range_succ, List.flatMap_append, Nat.succ_mul, List.take_add]
      exact congrArg₂ (· ++ ·) ih (by simp)

theorem place_cons (x y : α) (s : List α) : place le x (y :: s) = if le y x = true then y :: place le x s
    else x :: y :: s := by
  by_cases before : le y x = true
  · simp [place, before]
  · simp [place, before]

theorem take_place (n : Nat) (x : α) (s : List α) :
    (place le x (s.take n)).take n = (place le x s).take n := by
  induction s generalizing n with
  | nil => simp
  | cons y s ih =>
      cases n with
      | zero => simp
      | succ n =>
          rw [List.take_succ_cons, place_cons, place_cons]
          by_cases before : le y x = true
          · rw [if_pos before, if_pos before, List.take_succ_cons, List.take_succ_cons, ih]
          · rw [if_neg before, if_neg before, List.take_succ_cons, List.take_succ_cons]
            have cut : (y :: s).take n = (y :: s.take n).take n := by
              cases n with
              | zero => rfl
              | succ n => simp [List.take_take]
            rw [cut]

theorem find_filter (p q : α → Bool) (l : List α) (a : α) (found : l.find? p = some a) (kept : q a = true) :
    (l.filter q).find? p = some a := by
  induction l with
  | nil => cases found
  | cons b l ih =>
      rw [List.find?_cons] at found
      cases here : p b with
      | true =>
          rw [here] at found
          obtain rfl := Option.some.inj found
          simp [kept, here]
      | false =>
          rw [here] at found
          by_cases held : q b = true
          · rw [List.filter_cons_of_pos held, List.find?_cons, here]
            exact ih found
          · rw [List.filter_cons_of_neg held]
            exact ih found

theorem sort_perm (l : List α) : (sort le l).Perm l := List.perm_insertionSort _ l

section Preorder

variable (trans : ∀ a b c, le a b = true → le b c = true → le a c = true)
    (total : ∀ a b, (le a b || le b a) = true)

include total in
theorem le_self (a : α) : le a a = true := by simpa using total a a

include total in
theorem tied_self (a : α) : tied le a a = true := by simp [tied, le_self le total a]

include trans total

theorem sort_ranked (l : List α) : Ranked le l (sort le l) := by
  have transitive : IsTrans α fun a b => le a b = true := ⟨trans⟩
  have totality : Std.Total fun a b => le a b = true := ⟨fun a b => by simpa using total a b⟩
  refine ⟨List.pairwise_insertionSort _ l, ?_⟩
  intro a
  have sorted : (l.filter (tied le a)).Pairwise fun b c => le b c = true := by
    refine List.Pairwise.imp_of_mem (R := fun _ _ => True) ?_ (List.pairwise_of_forall fun _ _ => trivial)
    intro b c inB inC _
    have tiedB := (List.mem_filter.mp inB).2
    have tiedC := (List.mem_filter.mp inC).2
    simp only [tied, Bool.and_eq_true] at tiedB tiedC
    exact trans b a c tiedB.2 tiedC.1
  have inside := (List.sublist_insertionSort sorted List.filter_sublist).filter (tied le a)
  simp only [List.filter_filter, Bool.and_self] at inside
  have lengths := ((sort_perm le l).filter (tied le a)).length_eq
  exact (inside.eq_of_length lengths.symm).symm

-- Order and stability leave no choice.
omit trans in
theorem ranked_unique (l l' s s' : List α) (ranked : Ranked le l s) (ranked' : Ranked le l' s')
    (same : ∀ a, l.filter (tied le a) = l'.filter (tied le a)) : s = s' := by
  have classes : ∀ a, s.filter (tied le a) = s'.filter (tied le a) := fun a =>
    (ranked.stable a).trans ((same a).trans (ranked'.stable a).symm)
  have ordered := ranked.ordered
  have ordered' := ranked'.ordered
  clear same ranked ranked'
  have member : ∀ t t' : List α, (∀ a, t.filter (tied le a) = t'.filter (tied le a)) → ∀ a ∈ t, a ∈ t' := by
    intro t t' agree a inT
    have kept : a ∈ t.filter (tied le a) := List.mem_filter.mpr ⟨inT, tied_self le total a⟩
    rw [agree a] at kept
    exact (List.mem_filter.mp kept).1
  induction s generalizing s' with
  | nil =>
      cases s' with
      | nil => rfl
      | cons y t' =>
          exact absurd (member _ _ (fun a => (classes a).symm) y List.mem_cons_self) List.not_mem_nil
  | cons x t ih =>
      cases s' with
      | nil => exact absurd (member _ _ classes x List.mem_cons_self) List.not_mem_nil
      | cons y t' =>
          obtain ⟨first, later⟩ := List.pairwise_cons.mp ordered
          obtain ⟨first', later'⟩ := List.pairwise_cons.mp ordered'
          have below : ∀ (u v : α) (r : List α), (∀ w ∈ r, le u w = true) → v ∈ u :: r → le u v = true := by
            intro u v r least inR
            rcases List.mem_cons.mp inR with rfl | deeper
            · exact le_self le total v
            · exact least v deeper
          have before := below x y t first (member _ _ (fun a => (classes a).symm) y List.mem_cons_self)
          have after := below y x t' first' (member _ _ classes x List.mem_cons_self)
          have heads := classes x
          rw [List.filter_cons_of_pos (tied_self le total x), List.filter_cons_of_pos
            (by simp [tied, before, after])] at heads
          obtain rfl := (List.cons.inj heads).1
          refine congrArg (x :: ·) (ih t' ?_ later later')
          intro a
          have both := classes a
          rw [List.filter_cons, List.filter_cons] at both
          split at both
          · exact (List.cons.inj both).2
          · exact both

theorem place_ranked (l s : List α) (x : α) (ranked : Ranked le l s) : Ranked le (l ++ [x])
    (place le x s) := by
  have whole := List.takeWhile_append_dropWhile (p := (le · x)) (l := s)
  have front : ∀ y ∈ s.takeWhile (le · x), le y x = true :=
    fun y member => by simpa using List.mem_takeWhile_imp member
  have ordered := ranked.ordered
  rw [← whole] at ordered
  obtain ⟨left, right, across⟩ := List.pairwise_append.mp ordered
  -- Behind the first element that may not stand before x none may.
  have back : ∀ y ∈ s.dropWhile (le · x), le y x = false := by
    cases remaining : s.dropWhile (le · x) with
    | nil => simp
    | cons z rest =>
        have head := List.head?_dropWhile_not (le · x) s
        rw [remaining] at head right
        have least := (List.pairwise_cons.mp right).1
        have stops : le z x = false := by simpa using head
        intro y member
        rcases List.mem_cons.mp member with rfl | deeper
        · exact stops
        · by_contra other
          rw [trans z y x (least y deeper) (by simpa using other)] at stops
          cases stops
  refine ⟨?_, ?_⟩
  · refine List.pairwise_append.mpr ⟨left, List.pairwise_cons.mpr ⟨?_, right⟩, ?_⟩
    · intro y member
      have either := total x y
      simpa [back y member] using either
    · intro y inFront z inBack
      rcases List.mem_cons.mp inBack with rfl | deeper
      · exact front y inFront
      · exact across y inFront z deeper
  · intro a
    have kept := ranked.stable a
    rw [← whole, List.filter_append] at kept
    rw [place, List.filter_append, List.filter_cons, List.filter_append, ← kept]
    by_cases near : tied le a x = true
    · have none_ : (s.dropWhile (le · x)).filter (tied le a) = [] := by
        refine List.filter_eq_nil_iff.mpr fun y member close => ?_
        simp only [tied, Bool.and_eq_true] at close near
        have reaches := trans y a x close.2 near.1
        rw [back y member] at reaches
        cases reaches
      simp [near, none_]
    · simp [near]

-- Adding at the end of the source places the element in the sorted list.
theorem sort_append (l : List α) (x : α) : sort le (l ++ [x]) = place le x (sort le l) :=
  ranked_unique le total _ _ _ _ (sort_ranked le trans total _)
    (place_ranked le trans total l _ x (sort_ranked le trans total l)) fun _ => rfl

theorem take_sort_append (n : Nat) (l kept : List α) (x : α) (same : sort le kept = (sort le l).take n) :
    (sort le (kept ++ [x])).take n = (sort le (l ++ [x])).take n := by
  rw [sort_append le trans total, sort_append le trans total, same]
  exact take_place le n x (sort le l)

-- Searching the source finds the first of the sorted list exactly when nothing
-- that is searched for stands strictly before what is found.
theorem find_sorted_iff (l : List α) (p : α → Bool) :
    l.find? p = (sort le l).find? p ↔ ∀ a, l.find? p = some a → ∀ b ∈ l, p b = true → le a b = true := by
  have ranked := sort_ranked le trans total l
  have least : ∀ (s : List α) (g : α), s.Pairwise (fun a b => le a b = true) → s.find? p = some g →
    ∀ b ∈ s, p b = true → le g b = true := by
    intro s g sorted found b member chosen
    induction s with
    | nil => cases member
    | cons c s ih =>
        obtain ⟨first, later⟩ := List.pairwise_cons.mp sorted
        rw [List.find?_cons] at found
        cases here : p c with
        | true =>
            rw [here] at found
            obtain rfl := Option.some.inj found
            rcases List.mem_cons.mp member with rfl | deeper
            · exact le_self le total b
            · exact first b deeper
        | false =>
            rw [here] at found
            rcases List.mem_cons.mp member with rfl | deeper
            · rw [here] at chosen
              cases chosen
            · exact ih later found deeper
  constructor
  · intro agree a found b member chosen
    exact least _ a ranked.ordered (agree ▸ found) b ((sort_perm le l).mem_iff.mpr member) chosen
  · intro newest
    cases found : l.find? p with
    | none =>
        refine (List.find?_eq_none.mpr fun b member => ?_).symm
        exact List.find?_eq_none.mp found b ((sort_perm le l).mem_iff.mp member)
    | some a =>
        have inL := List.mem_of_find?_eq_some found
        have picked := List.find?_some found
        obtain ⟨g, found'⟩ := Option.isSome_iff_exists.mp
          (List.find?_isSome.mpr ⟨a, (sort_perm le l).mem_iff.mpr inL, picked⟩ :
          ((sort le l).find? p).isSome = true)
        have inSorted := (sort_perm le l).mem_iff.mp (List.mem_of_find?_eq_some found')
        have before := newest a found g inSorted (List.find?_some found')
        have after := least _ g ranked.ordered found' a ((sort_perm le l).mem_iff.mpr inL) picked
        have here := find_filter p (tied le a) l a found (tied_self le total a)
        have there := find_filter p (tied le a) _ g found' (by simp [tied, before, after])
        rw [ranked.stable a, here] at there
        rw [found', Option.some.inj there]

end Preorder

end Ranking
