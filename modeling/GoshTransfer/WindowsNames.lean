import GoshTransfer.Sandbox
import GoshTransfer.Lib.Trimming
import Mathlib.Tactic.IntervalCases

set_option autoImplicit false

namespace GoshTransfer

open Trimming

def numberedDevices (digits : List Char) : List (List Char) :=
    digits.flatMap fun d => [['C', 'O', 'M', d], ['L', 'P', 'T', d]]

def asciiDevices : List (List Char) :=
  [['C', 'O', 'N'], ['P', 'R', 'N'], ['A', 'U', 'X'], ['N', 'U', 'L']] ++ numberedDevices
    ['1', '2', '3', '4', '5', '6', '7', '8', '9']

def superscriptDevices : List (List Char) := numberedDevices ['¹', '²', '³']

-- What Windows takes for a device, up to ASCII case.
def WindowsDevice (name : List Char) : Prop := name.map Char.toUpper ∈ asciiDevices ++ superscriptDevices

-- Windows resolves a name by its part before the first dot, without trailing spaces.
def windowsStem (name : List Char) : List Char := trimEndMatches (· == ' ') (name.takeWhile (· != '.'))

-- The last component of an input without its control characters, from its first
-- visible character on.
def visible (value : List Char) : List Char :=
  ((value.reverse.takeWhile (!isSeparator ·)).reverse.filter (!isControl ·)).dropWhile isWhitespace

-- Something is left when the end is trimmed.
def Lasting (cs : List Char) : Prop := ∃ c ∈ trimEndMatches isWhitespace cs, c ≠ '.' ∧ c ≠ ' '

-- The inputs that pass the test for device names: a device followed by spaces, a
-- dot and an extension, and a device with a superscript digit.
inductive Slips (value : List Char) : Prop where
  | spaced (device gap tail : List Char) (whole : visible value = device ++ gap ++ '.' :: tail)
      (names : WindowsDevice device) (some_ : gap ≠ []) (spaces : ∀ c ∈ gap, c = ' ')
      (lasting : Lasting tail) : Slips value
  | superscript (device gap rest : List Char) (whole : visible value = device ++ gap ++ rest)
      (names : device.map Char.toUpper ∈ superscriptDevices) (spaces : ∀ c ∈ gap, c = ' ')
      (ends : (∀ c ∈ rest, isWhitespace c = true) ∨ rest.head? = some '.') : Slips value

def dotOrSpace (c : Char) : Bool := c == '.' || c == ' '

def replaced (c : Char) : Char := if forbiddenChars.contains c then '_' else c

-- What clean returns, before characters are replaced.
def trimmedText (value : List Char) : List Char := trimEndMatches dotOrSpace
    (trimEndMatches isWhitespace (visible value))

theorem device_name_iff (name : List Char) : deviceName name = true ↔ name ∈ asciiDevices := by
  constructor
  · intro device
    have digit : ∀ d : Char, (decide ('1' ≤ d) && decide (d ≤ '9')) = true →
      d ∈ ['1', '2', '3', '4', '5', '6', '7', '8', '9'] := by
      intro d bounds
      simp only [Bool.and_eq_true, decide_eq_true_eq, Char.le_def, UInt32.le_iff_toNat_le] at bounds
      have low : 49 ≤ d.toNat := bounds.1
      have high : d.toNat ≤ 57 := bounds.2
      rw [← Char.ofNat_toNat d]
      interval_cases d.toNat <;> decide
    unfold deviceName at device
    split at device
    · decide
    · decide
    · decide
    · decide
    · simpa [asciiDevices, numberedDevices] using digit _ device
    · simpa [asciiDevices, numberedDevices] using digit _ device
    · cases device
  · intro member
    have all_ : asciiDevices.all deviceName = true := by decide
    exact List.all_eq_true.mp all_ name member

theorem device_chars (name : List Char) (device : name ∈ asciiDevices ++ superscriptDevices) (c : Char)
    (member : c ∈ name) :
    c ≠ '_' ∧ dotOrSpace c = false ∧ isWhitespace c = false ∧ c ∉ forbiddenChars := by
  have all_ : (asciiDevices ++ superscriptDevices).all (fun device => device.all fun c =>
      decide (c ≠ '_' ∧ dotOrSpace c = false ∧ isWhitespace c = false ∧ c ∉ forbiddenChars)) =
        true := by decide
  exact of_decide_eq_true (List.all_eq_true.mp (List.all_eq_true.mp all_ name device) c member)

theorem upper_same (c : Char) (other : ¬ (97 ≤ c.toNat ∧ c.toNat ≤ 122)) : c.toUpper = c := by
  unfold Char.toUpper
  rw [dif_neg]
  intro both
  exact other ⟨UInt32.le_iff_toNat_le.mp both.1, UInt32.le_iff_toNat_le.mp both.2⟩

theorem whitespace_upper (c : Char) (white : isWhitespace c = true) : c.toUpper = c := by
  refine upper_same c ?_
  simp only [isWhitespace, Bool.or_eq_true, Bool.and_eq_true, decide_eq_true_eq, beq_iff_eq,
    UInt32.le_iff_toNat_le,
    ← UInt32.toNat_inj] at white
  change ¬ (97 ≤ c.val.toNat ∧ c.val.toNat ≤ 122)
  intro letter
  simp only [UInt32.reduceToNat] at white
  omega

theorem device_spelling (name : List Char) (device : WindowsDevice name) (c : Char) (member : c ∈ name) :
    c ≠ '_' ∧ dotOrSpace c = false ∧ isWhitespace c = false ∧ c ∉ forbiddenChars := by
  have upper := device_chars _ device c.toUpper (List.mem_map_of_mem member)
  have fixed : ∀ other : Char, other.toUpper = other → c = other → c.toUpper = other := by
    rintro other same rfl
    exact same
  refine ⟨fun same => upper.1 (fixed '_' (by decide) same), ?_, ?_, ?_⟩
  · simp only [dotOrSpace, Bool.or_eq_false_iff, beq_eq_false_iff_ne] at upper ⊢
    exact ⟨fun same => upper.2.1.1 (fixed '.' (by decide) same), fun same => upper.2.1.2
      (fixed ' ' (by decide) same)⟩
  · cases white : isWhitespace c with
    | false => rfl
    | true =>
        rw [whitespace_upper c white, white] at upper
        cases upper.2.2.1
  · intro forbidden
    have all_ : forbiddenChars.all (fun other => decide (other.toUpper = other)) = true := by decide
    have same : c.toUpper = c := of_decide_eq_true (List.all_eq_true.mp all_ c forbidden)
    rw [same] at upper
    exact upper.2.2.2 forbidden

theorem device_ends (name : List Char) (device : WindowsDevice name) :
    ∃ last, name.getLast? = some last ∧ dotOrSpace last = false ∧ isWhitespace last = false := by
  cases ends : name.getLast? with
  | none =>
      obtain rfl := List.getLast?_eq_none_iff.mp ends
      exact absurd device (by simp [WindowsDevice, asciiDevices, superscriptDevices, numberedDevices])
  | some last =>
      have kept := device_spelling name device last (List.mem_of_getLast? ends)
      exact ⟨last, rfl, kept.2.1, kept.2.2.1⟩

theorem superscript_device (name : List Char) (names : name.map Char.toUpper ∈ superscriptDevices) :
    WindowsDevice name :=
  List.mem_append_right _ names

theorem superscript_passes (name : List Char) (names : name.map Char.toUpper ∈ superscriptDevices) :
    deviceName (name.map Char.toUpper) = false := by
  have all_ : superscriptDevices.all (fun device => !deviceName device) = true := by decide
  simpa using List.all_eq_true.mp all_ _ names

theorem spaced_passes (name : List Char) (space : ' ' ∈ name) : deviceName
    (name.map Char.toUpper) = false := by
  rw [Bool.eq_false_iff, Ne, device_name_iff]
  intro device
  have kept := device_chars _ (List.mem_append_left _ device) ' ' (List.mem_map.mpr ⟨' ', space, by decide⟩)
  exact absurd kept.2.1 (by decide)

theorem trim_device (device gap : List Char) (names : WindowsDevice device) (spaces : ∀ c ∈ gap, c = ' ') :
    trimEndMatches (· == ' ') (device ++ gap) = device := by
  obtain ⟨last, ends, plain, _⟩ := device_ends device names
  refine (trim_append_gone _ device gap fun c member => by simp [spaces c member]).trans
    (trim_self _ device ?_)
  intro c here
  obtain rfl := Option.some.inj (here.symm.trans ends)
  simp only [dotOrSpace, Bool.or_eq_false_iff] at plain
  exact plain.2

theorem stem_spaced (device gap rest : List Char) (names : WindowsDevice device)
    (spaces : ∀ c ∈ gap, c = ' ') :
    (device ++ gap ++ '.' :: rest).takeWhile (· != '.') = device ++ gap := by
  refine before_delimiter _ _ _ '.' ?_ (by decide)
  intro c member
  rcases List.mem_append.mp member with front | back
  · have plain := (device_spelling device names c front).2.1
    simp only [dotOrSpace, Bool.or_eq_false_iff, beq_eq_false_iff_ne] at plain
    simpa using plain.1
  · simp [spaces c back]

theorem stem_device (device : List Char) (names : WindowsDevice device) : device.takeWhile
    (· != '.') = device := by
  refine no_delimiter _ _ fun c member => ?_
  have plain := (device_spelling device names c member).2.1
  simp only [dotOrSpace, Bool.or_eq_false_iff, beq_eq_false_iff_ne] at plain
  simpa using plain.1

theorem trim_spaced (device gap tail : List Char) (names : WindowsDevice device)
    (spaces : ∀ c ∈ gap, c = ' ') :
    (Lasting tail →
      ∃ rest, trimEndMatches dotOrSpace
      (trimEndMatches isWhitespace (device ++ gap ++ '.' :: tail)) = device ++ gap ++ '.' :: rest) ∧
    (¬ Lasting tail →
      trimEndMatches dotOrSpace (trimEndMatches isWhitespace (device ++ gap ++ '.' :: tail)) = device) := by
  obtain ⟨last, ends, plain, _⟩ := device_ends device names
  have outer : trimEndMatches isWhitespace (device ++ gap ++ '.' :: tail) = device ++ gap ++ '.' ::
    trimEndMatches isWhitespace tail := by
    have stopped : trimEndMatches isWhitespace (device ++ gap ++ ['.'] ++ tail) =
        device ++ gap ++ ['.'] ++ trimEndMatches isWhitespace tail :=
      trim_append_stop isWhitespace (device ++ gap ++ ['.']) tail '.' (by simp) (by decide)
    simpa using stopped
  rw [outer]
  constructor
  · intro lasting
    obtain ⟨c, kept, notDot, notSpace⟩ := lasting
    have nonempty : trimEndMatches dotOrSpace (trimEndMatches isWhitespace tail) ≠ [] := by
      intro empty
      have gone := (trim_nil_iff dotOrSpace _).mp empty c kept
      simp [dotOrSpace, notDot, notSpace] at gone
    refine ⟨trimEndMatches dotOrSpace (trimEndMatches isWhitespace tail), ?_⟩
    have joined : trimEndMatches dotOrSpace (device ++ gap ++ ['.'] ++ trimEndMatches isWhitespace tail) =
        device ++ gap ++ ['.'] ++ trimEndMatches dotOrSpace (trimEndMatches isWhitespace tail) :=
      trim_append_kept dotOrSpace (device ++ gap ++ ['.']) _ nonempty
    simpa using joined
  · intro fading
    have gone : ∀ c ∈ gap ++ '.' :: trimEndMatches isWhitespace tail, dotOrSpace c = true := by
      intro c member
      rcases List.mem_append.mp member with space | later
      · simp [dotOrSpace, spaces c space]
      · rcases List.mem_cons.mp later with rfl | deeper
        · decide
        · by_contra other
          simp only [dotOrSpace, Bool.or_eq_true, beq_iff_eq, not_or] at other
          exact fading ⟨c, deeper, other⟩
    rw [List.append_assoc]
    refine (trim_append_gone dotOrSpace device _ gone).trans (trim_self _ device ?_)
    intro c here
    obtain rfl := Option.some.inj (here.symm.trans ends)
    exact plain

-- An input slips through the test when its trimmed text is a device for Windows
-- and not for the test.
def Missed (text : List Char) : Prop := WindowsDevice (windowsStem text) ∧ deviceName
    ((text.takeWhile (· != '.')).map Char.toUpper) = false

theorem missed_device (device : List Char) (names : device.map Char.toUpper ∈ superscriptDevices) :
    Missed device := by
  have windows := superscript_device device names
  have stem := stem_device device windows
  refine ⟨?_, ?_⟩
  · have trimmed := trim_device device [] windows (by simp)
    rw [windowsStem, stem]
    rw [List.append_nil] at trimmed
    rwa [trimmed]
  · rw [stem]
    exact superscript_passes device names

theorem missed_spaced (device gap rest : List Char) (names : WindowsDevice device)
    (spaces : ∀ c ∈ gap, c = ' ') (passes : gap ≠ [] ∨ device.map Char.toUpper ∈ superscriptDevices) :
    Missed (device ++ gap ++ '.' :: rest) := by
  have stem := stem_spaced device gap rest names spaces
  refine ⟨?_, ?_⟩
  · rw [windowsStem, stem, trim_device device gap names spaces]
    exact names
  · rw [stem]
    cases gap with
    | nil =>
        rcases passes with some_ | superscript
        · exact absurd rfl some_
        · simpa using superscript_passes device superscript
    | cons c more => exact spaced_passes _ (by simp [spaces c List.mem_cons_self])

theorem slips_missed (value : List Char) (slips : Slips value) : Missed (trimmedText value) := by
  unfold trimmedText
  cases slips with
  | spaced device gap tail whole names some_ spaces lasting =>
      obtain ⟨rest, text⟩ := (trim_spaced device gap tail names spaces).1 lasting
      rw [whole, text]
      exact missed_spaced device gap rest names spaces (.inl some_)
  | superscript device gap rest whole names spaces ends =>
      have windows := superscript_device device names
      rcases ends with white | dot
      · obtain ⟨last, lastIs, plain, bright⟩ := device_ends device windows
        have gone : ∀ c ∈ gap ++ rest, isWhitespace c = true := by
          intro c member
          rcases List.mem_append.mp member with space | later
          · rw [spaces c space]
            decide
          · exact white c later
        have outer : trimEndMatches isWhitespace (device ++ (gap ++ rest)) = device := by
          refine (trim_append_gone isWhitespace device _ gone).trans (trim_self _ device ?_)
          intro c here
          obtain rfl := Option.some.inj (here.symm.trans lastIs)
          exact bright
        have inner : trimEndMatches dotOrSpace device = device := by
          refine trim_self _ device ?_
          intro c here
          obtain rfl := Option.some.inj (here.symm.trans lastIs)
          exact plain
        rw [whole, List.append_assoc, outer, inner]
        exact missed_device device names
      · obtain ⟨tail, rfl⟩ : ∃ tail, rest = '.' :: tail := by
          cases rest with
          | nil => cases dot
          | cons c tail => exact ⟨tail, by simpa using dot⟩
        rw [whole]
        by_cases lasting : Lasting tail
        · obtain ⟨more, text⟩ := (trim_spaced device gap tail windows spaces).1 lasting
          rw [text]
          exact missed_spaced device gap more windows spaces (.inr names)
        · rw [(trim_spaced device gap tail windows spaces).2 lasting]
          exact missed_device device names

theorem device_not_ascii (name : List Char) (device : WindowsDevice name)
    (passes : deviceName (name.map Char.toUpper) = false) :
    name.map Char.toUpper ∈ superscriptDevices := by
  rcases List.mem_append.mp device with ascii | superscript
  · rw [(device_name_iff _).mpr ascii] at passes
    cases passes
  · exact superscript

theorem missed_slips (value : List Char) (missed : Missed (trimmedText value)) : Slips value := by
  obtain ⟨windows, passes⟩ := missed
  -- The visible text is the trimmed one, dots and spaces, and whitespace.
  obtain ⟨white, outer, whites⟩ := trim_split isWhitespace (visible value)
  obtain ⟨dots, inner, dotted⟩ := trim_split dotOrSpace ((visible value).rdropWhile isWhitespace)
  have last := fun c => trim_last dotOrSpace ((visible value).rdropWhile isWhitespace) c
  have steady : (trimmedText value ++ dots).rdropWhile isWhitespace = trimmedText value ++ dots := by
    have same : trimmedText value ++ dots = (visible value).rdropWhile isWhitespace := inner.symm
    rw [same]
    exact List.rdropWhile_idempotent isWhitespace _
  have whole : visible value = trimmedText value ++ dots ++ white := by
    have same : (visible value).rdropWhile isWhitespace = trimmedText value ++ dots := inner
    rw [← same]
    exact outer
  change ∀ c, (trimmedText value).getLast? = some c → dotOrSpace c = false at last
  generalize trimmedText value = text at windows passes whole last steady
  obtain ⟨gap, split, spaced⟩ := trim_split (· == ' ') (text.takeWhile (· != '.'))
  have spaces : ∀ c ∈ gap, c = ' ' := fun c member => by simpa using spaced c member
  change text.takeWhile (· != '.') = windowsStem text ++ gap at split
  generalize windowsStem text = device at windows split
  rcases delimiter_cases (· != '.') text with ⟨same, _⟩ | ⟨dot, more, parts, isDot⟩
  · -- Without a dot the text is the device.
    have noGap : gap = [] := by
      by_contra some_
      obtain ⟨c, ends⟩ := Option.ne_none_iff_exists'.mp (mt List.getLast?_eq_none_iff.mp some_)
      have here : text.getLast? = some c := by
        rw [← same, split, List.getLast?_append_of_ne_nil _ some_, ends]
      have plain := last c here
      rw [spaces c (List.mem_of_getLast? ends)] at plain
      exact absurd plain (by decide)
    have textIs : text = device := by rw [← same, split, noGap, List.append_nil]
    rw [same, textIs] at passes
    have names := device_not_ascii device windows passes
    obtain ⟨front, stop⟩ : ∃ front, dots = front ++ dots.dropWhile (· == ' ') ∧ ∀ c ∈ front, c = ' ' := by
      refine ⟨dots.takeWhile (· == ' '), List.takeWhile_append_dropWhile.symm, ?_⟩
      intro c member
      simpa using List.mem_takeWhile_imp member
    refine .superscript device front (dots.dropWhile (· == ' ') ++ white) ?_ names stop.2 ?_
    · rw [whole, textIs, List.append_assoc device front, ← List.append_assoc front, ← stop.1,
        List.append_assoc]
    · cases remaining : dots.dropWhile (· == ' ') with
      | nil => exact .inl whites
      | cons c rest =>
          have notSpace : (c == ' ') = false := by
            have head := List.head?_dropWhile_not (· == ' ') dots
            rw [remaining] at head
            simpa using head
          have either := dotted c ((List.dropWhile_sublist _).subset (remaining ▸ List.mem_cons_self))
          rw [dotOrSpace, notSpace, Bool.or_false, beq_iff_eq] at either
          exact .inr (by rw [either]; rfl)
  · obtain rfl : dot = '.' := by simpa using isDot
    rw [split] at parts passes
    have following : visible value = device ++ gap ++ '.' :: (more ++ dots ++ white) := by
      rw [whole, parts]
      simp
    by_cases noGap : gap = []
    · subst noGap
      rw [List.append_nil] at passes
      exact .superscript device [] ('.' :: (more ++ dots ++ white)) (by rw [following])
        (device_not_ascii device windows passes) (by simp)
        (.inr rfl)
    · refine .spaced device gap (more ++ dots ++ white) following windows noGap spaces ?_
      have someMore : more ≠ [] := by
        rintro rfl
        have here : text.getLast? = some '.' := by rw [parts]; simp
        exact absurd (last '.' here) (by decide)
      obtain ⟨c, ends⟩ := Option.ne_none_iff_exists'.mp (mt List.getLast?_eq_none_iff.mp someMore)
      have here : text.getLast? = some c := by
        rw [parts, List.getLast?_append_of_ne_nil _ (by simp), List.getLast?_cons_of_ne_nil someMore, ends]
      have plain := last c here
      simp only [dotOrSpace, Bool.or_eq_false_iff, beq_eq_false_iff_ne] at plain
      have kept : (more ++ dots).rdropWhile isWhitespace = more ++ dots := by
        have nonempty : more ++ dots ≠ [] := by simp [someMore]
        refine trim_self _ _ fun d ends => ?_
        refine trim_last isWhitespace (text ++ dots) d ?_
        rw [steady, parts, List.append_assoc, List.cons_append, List.getLast?_append_of_ne_nil _ (by simp),
          List.getLast?_cons_of_ne_nil nonempty, ends]
      refine ⟨c, ?_, plain⟩
      have trimmed : trimEndMatches isWhitespace (more ++ dots ++ white) = more ++ dots :=
        (trim_append_gone isWhitespace (more ++ dots) white whites).trans kept
      rw [trimmed]
      exact List.mem_append_left _ (List.mem_of_getLast? ends)

theorem replaced_keeps (p : Char → Bool) (forbidden : ('_' :: forbiddenChars).any p = false) (c : Char) : p
    (replaced c) = p c := by
  have none_ : ∀ c ∈ '_' :: forbiddenChars, p c = false := by simpa using forbidden
  unfold replaced
  split
  · rename_i member
    rw [none_ '_' List.mem_cons_self, none_ c (List.mem_cons_of_mem _ (by simpa using member))]
  · rfl

theorem replaced_device (names : List (List Char)) (listed : names ⊆ asciiDevices ++ superscriptDevices)
    (cs : List Char) :
    (cs.map replaced).map Char.toUpper ∈ names ↔ cs.map Char.toUpper ∈ names := by
  by_cases clear : ∀ c ∈ cs, replaced c = c
  · rw [List.map_congr_left clear, List.map_id']
  · simp only [not_forall] at clear
    obtain ⟨c, member, changes⟩ := clear
    have forbidden : c ∈ forbiddenChars := by
      by_contra plain
      exact changes (if_neg (by simpa using plain))
    constructor
    · intro device
      have underscore : '_' ∈ (cs.map replaced).map Char.toUpper := by
        refine List.mem_map.mpr ⟨'_', List.mem_map.mpr ⟨c, member, ?_⟩, by decide⟩
        exact if_pos (by simpa using forbidden)
      exact absurd rfl (device_chars _ (listed device) '_' underscore).1
    · intro device
      exact absurd forbidden (device_spelling cs (listed device) c member).2.2.2

theorem clean_text (value : List Char) : clean value =
    if (trimmedText value).isEmpty then none
    else if deviceName (((trimmedText value).takeWhile (· != '.')).map Char.toUpper) then
      some ('_' :: (trimmedText value).map replaced)
    else some ((trimmedText value).map replaced) := by
  have white : (fun c => isWhitespace (replaced c)) = isWhitespace :=
    funext (replaced_keeps isWhitespace (by decide))
  have spaced : (fun c => dotOrSpace (replaced c)) = dotOrSpace :=
    funext (replaced_keeps dotOrSpace (by decide))
  have dotted : ((· != '.') ∘ replaced) = (· != '.') := by
    funext c
    have same := replaced_keeps (· == '.') (by decide) c
    exact congrArg (!·) same
  have text : trimEndMatches (fun c => c == '.' || c == ' ')
    (trim (((value.reverse.takeWhile (!isSeparator ·)).reverse.filter
      (!isControl ·)).map replaced)) = (trimmedText value).map replaced := by
    have front : (((value.reverse.takeWhile (!isSeparator ·)).reverse.filter (!isControl ·)).map
      replaced).dropWhile isWhitespace =
        (visible value).map replaced := by
      rw [List.dropWhile_map]
      exact congrArg (fun p => (List.dropWhile p _).map replaced) white
    have back : trimEndMatches isWhitespace ((visible value).map replaced) = (trimEndMatches isWhitespace
      (visible value)).map replaced :=
      (trim_map isWhitespace replaced _).trans (by rw [white]; rfl)
    rw [trim, front, back]
    exact (trim_map dotOrSpace replaced _).trans (by rw [spaced]; rfl)
  have device : deviceName ((((trimmedText value).map replaced).takeWhile (· != '.')).map Char.toUpper) =
      deviceName (((trimmedText value).takeWhile (· != '.')).map Char.toUpper) := by
    rw [List.takeWhile_map, dotted, Bool.eq_iff_iff, device_name_iff, device_name_iff]
    exact replaced_device asciiDevices (List.subset_append_left _ _) _
  have unfolded : clean value =
      if ((trimmedText value).map replaced).isEmpty then none
      else if deviceName ((((trimmedText value).map replaced).takeWhile (· != '.')).map Char.toUpper) then
        some ('_' :: (trimmedText value).map replaced)
      else some ((trimmedText value).map replaced) := by
    rw [← text]
    rfl
  rw [unfolded, device, List.isEmpty_map]

theorem clean_none_iff (value : List Char) : clean value = none ↔ ¬ Lasting (visible value) := by
  have empty : trimmedText value = [] ↔ ¬ Lasting (visible value) := by
    refine (trim_nil_iff dotOrSpace _).trans ?_
    simp only [Lasting, not_exists, not_and, dotOrSpace, Bool.or_eq_true, beq_iff_eq]
    refine forall₂_congr fun c _ => ?_
    tauto
  rw [← empty, clean_text]
  split
  · rename_i none_
    simpa using none_
  · rename_i some_
    split <;> simpa using some_

theorem underscore_no_device (rest : List Char) : ¬ WindowsDevice (windowsStem ('_' :: rest)) := by
  have stem : windowsStem ('_' :: rest) = ['_'] ++ (rest.takeWhile (· != '.')).rdropWhile (· == ' ') := by
    rw [windowsStem, List.takeWhile_cons_of_pos (by decide)]
    exact trim_append_stop (· == ' ') ['_'] _ '_' rfl (by decide)
  intro device
  rw [stem] at device
  exact (device_spelling _ device '_' (by simp)).1 rfl

theorem clean_device (value safe : List Char) (cleaned : clean value = some safe) : WindowsDevice
    (windowsStem safe) ↔ Slips value := by
  rw [clean_text] at cleaned
  split at cleaned
  · cases cleaned
  · split at cleaned
    · rename_i caught
      obtain rfl := Option.some.inj cleaned
      refine ⟨fun device => absurd device (underscore_no_device _), ?_⟩
      intro slips
      rw [(slips_missed value slips).2] at caught
      cases caught
    · rename_i passes
      obtain rfl := Option.some.inj cleaned
      have stem : windowsStem ((trimmedText value).map replaced) = (windowsStem (trimmedText value)).map
        replaced := by
        have dotted : ((· != '.') ∘ replaced) = (· != '.') := by
          funext c
          exact congrArg (!·) (replaced_keeps (· == '.') (by decide) c)
        have spaced : (fun c => replaced c == ' ') = (· == ' ') :=
          funext (replaced_keeps (· == ' ') (by decide))
        rw [windowsStem, List.takeWhile_map, dotted]
        exact (trim_map (· == ' ') replaced _).trans (by rw [spaced]; rfl)
      rw [stem, WindowsDevice, replaced_device _ (List.Subset.refl _)]
      exact ⟨fun device => missed_slips value ⟨device, by simpa using passes⟩,
        fun slips => (slips_missed value slips).1⟩

theorem slips_lasting (value : List Char) (slips : Slips value) : Lasting (visible value) := by
  by_contra fading
  have none_ := (clean_none_iff value).mpr fading
  have missed := slips_missed value slips
  have empty : trimmedText value = [] := by
    rw [clean_text] at none_
    split at none_
    · rename_i nothing
      simpa using nothing
    · split at none_ <;> cases none_
  rw [empty] at missed
  exact absurd missed.1
    (by simp [windowsStem, trimEndMatches, WindowsDevice, asciiDevices, superscriptDevices, numberedDevices])

def Device (name fallback : String) : Prop := WindowsDevice
    (windowsStem (sanitizeFileName name fallback).toList)

-- The fallback is used when nothing is left of the name.
theorem sanitized_name_is_no_device_iff (name fallback : String) :
    ¬ Device name fallback ↔
      ¬ Slips name.toList ∧ (Lasting (visible name.toList) ∨ ¬ Slips fallback.toList) := by
  unfold Device sanitizeFileName
  cases cleaned : clean name.toList with
  | some safe =>
      have lasting : Lasting (visible name.toList) := by
        by_contra fading
        rw [(clean_none_iff _).mpr fading] at cleaned
        cases cleaned
      rw [String.toList_ofList, clean_device _ _ cleaned]
      exact ⟨fun free => ⟨free, .inl lasting⟩, fun free => free.1⟩
  | none =>
      have fading := (clean_none_iff _).mp cleaned
      have free : ¬ Slips name.toList := fun slips => fading (slips_lasting _ slips)
      cases second : clean fallback.toList with
      | some safe =>
          rw [String.toList_ofList, clean_device _ _ second]
          exact ⟨fun free' => ⟨free, .inr free'⟩, fun both => both.2.resolve_left fading⟩
      | none =>
          have fading' := (clean_none_iff _).mp second
          refine ⟨fun _ => ⟨free, .inr fun slips => fading' (slips_lasting _ slips)⟩, fun _ => ?_⟩
          simp [WindowsDevice, windowsStem, trimEndMatches, asciiDevices, superscriptDevices, numberedDevices]

theorem device_with_space_is_kept : ¬ ∀ name fallback : String, ¬ Device name fallback := by
  intro never
  refine never "CON .txt" "f" ?_
  unfold Device WindowsDevice
  decide

end GoshTransfer
