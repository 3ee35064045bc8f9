import Mathlib.Data.List.Basic
import Mathlib.Tactic.IntervalCases

set_option autoImplicit false

-- Internet addresses as std::net reads and writes them. A reader takes a front
-- of the input and returns what is left of it.
namespace IpText

abbrev Reader (α : Type) := List Char → Option (α × List Char)

structure Ipv4Addr where
  a : BitVec 8
  b : BitVec 8
  c : BitVec 8
  d : BitVec 8
deriving DecidableEq, Repr

structure Ipv6Addr where
  segments : List (BitVec 16)
  eight : segments.length = 8
deriving DecidableEq, Repr

inductive IpAddr where
  | v4 (address : Ipv4Addr)
  | v6 (address : Ipv6Addr)
deriving DecidableEq, Repr

def digitValue (c : Char) : Option Nat :=
  if '0' ≤ c ∧ c ≤ '9' then some (c.toNat - 48)
  else if 'a' ≤ c ∧ c ≤ 'z' then some (c.toNat - 87)
  else if 'A' ≤ c ∧ c ≤ 'Z' then some (c.toNat - 55)
  else none

def toDigit (radix : Nat) (c : Char) : Option Nat := (digitValue c).filter (· < radix)

def isDigit (radix : Nat) (c : Char) : Bool := (toDigit radix c).isSome

def digitsValue (radix : Nat) (digits : List Char) : Nat :=
  digits.foldl (fun value c => radix * value + (toDigit radix c).getD 0) 0

-- Too many digits fail the number rather than end it.
def readNumber (radix maxDigits : Nat) (allowZeroPrefix : Bool) (width : Nat) : Reader (BitVec width) :=
    fun input =>
  let digits := input.takeWhile (isDigit radix)
  if digits = [] ∨ maxDigits < digits.length then none
  else if allowZeroPrefix = false ∧ input.head? = some '0' ∧ 1 < digits.length then none
  else if digitsValue radix digits < 2 ^ width then some (.ofNat width (digitsValue radix digits),
    input.drop digits.length)
  else none

def readSeparator {α : Type} (sep : Char) (first : Bool) (inner : Reader α) : Reader α := fun input =>
  if first then inner input
  else
    match input with
    | [] => none
    | c :: rest => if c = sep then inner rest else none

def readOctet (first : Bool) : Reader (BitVec 8) := readSeparator '.' first (readNumber 10 3 false 8)

def readIpv4 : Reader Ipv4Addr := fun input => do
  let (a, input) ← readOctet true input
  let (b, input) ← readOctet false input
  let (c, input) ← readOctet false input
  let (d, input) ← readOctet false input
  return (⟨a, b, c, d⟩, input)

def readGroup (first : Bool) : Reader (BitVec 16) := readSeparator ':' first (readNumber 16 4 true 16)

def Ipv4Addr.groups (address : Ipv4Addr) : List (BitVec 16) :=
    [address.a ++ address.b, address.c ++ address.d]

-- Reads at most this many groups, and says whether the last two of them were
-- written as a dotted address, which needs room for two.
def readGroups : (limit : Nat) → (first : Bool) → List Char → List (BitVec 16) × Bool × List Char
  | 0, _, input => ([], false, input)
  | left + 1, first, input =>
      match (if 0 < left then readSeparator ':' first readIpv4 input else none) with
      | some (address, rest) => (address.groups, true, rest)
      | none =>
          match readGroup first input with
          | some (group, rest) =>
              let (groups, embedded, rest) := readGroups left false rest
              (group :: groups, embedded, rest)
          | none => ([], false, input)

theorem groups_length (address : Ipv4Addr) : address.groups.length = 2 := rfl

theorem read_groups_length (limit : Nat) (first : Bool) (input : List Char) :
    (readGroups limit first input).1.length ≤ limit := by
  fun_induction readGroups limit first input with
  | case1 => simp
  | case2 left first input address rest embedded =>
    have room : 0 < left := by
      by_contra full
      simp [full] at embedded
    rw [groups_length]
    omega
  | case3 left first input _ group rest _ groups embedded _ more ih =>
    simp only [more] at ih
    simp only [List.length_cons]
    omega
  | case4 => simp

-- The gap stands for at least one group of zeroes.
def fillGap (head tail : List (BitVec 16)) (fits : head.length + tail.length ≤ 8) : Ipv6Addr :=
  ⟨head ++ List.replicate (8 - (head.length + tail.length)) 0 ++ tail, by simp; omega⟩

theorem gap_fits (input rest : List Char) (_ : (readGroups 8 true input).1.length ≠ 8) :
    (readGroups 8 true input).1.length +
    (readGroups (8 - ((readGroups 8 true input).1.length + 1)) true rest).1.length ≤ 8 := by
  have head := read_groups_length 8 true input
  have tail := read_groups_length (8 - ((readGroups 8 true input).1.length + 1)) true rest
  omega

def readIpv6 : Reader Ipv6Addr := fun input =>
  let head := readGroups 8 true input
  if whole : head.1.length = 8 then some (⟨head.1, whole⟩, head.2.2)
  else if head.2.1 then none
  else
    match head.2.2 with
    | ':' :: ':' :: rest =>
        let tail := readGroups (8 - (head.1.length + 1)) true rest
        some (fillGap head.1 tail.1 (gap_fits input rest whole), tail.2.2)
    | _ => none

def readIp : Reader IpAddr := fun input =>
  match readIpv4 input with
  | some (address, rest) => some (.v4 address, rest)
  | none => (readIpv6 input).map fun (address, rest) => (.v6 address, rest)

def parse (text : List Char) : Option IpAddr :=
  match readIp text with
  | some (address, []) => some address
  | _ => none

def Ipv4Addr.toText (address : Ipv4Addr) : List Char :=
  Nat.toDigits 10 address.a.toNat ++ '.' :: Nat.toDigits 10 address.b.toNat ++
    '.' :: Nat.toDigits 10 address.c.toNat ++ '.' :: Nat.toDigits 10 address.d.toNat

def toIpv4Mapped (address : Ipv6Addr) : Option Ipv4Addr :=
  match address.segments with
  | [0, 0, 0, 0, 0, 0xffff, high, low] =>
      some ⟨(high >>> 8).setWidth 8, high.setWidth 8, (low >>> 8).setWidth 8, low.setWidth 8⟩
  | _ => none

structure Span where
  start : Nat
  len : Nat
deriving DecidableEq, Repr

-- The first of the longest runs of zeroes.
def zeroSpan : (index : Nat) → (longest current : Span) → List (BitVec 16) → Span
  | _, longest, _, [] => longest
  | index, longest, current, segment :: rest =>
      if segment = 0 then
        let current : Span := ⟨if current.len = 0 then index else current.start, current.len + 1⟩
        zeroSpan (index + 1) (if longest.len < current.len then current else longest) current rest
      else zeroSpan (index + 1) longest ⟨0, 0⟩ rest

def groupsText : List (BitVec 16) → List Char
  | [] => []
  | first :: rest => Nat.toDigits 16 first.toNat ++ rest.flatMap fun group =>
      ':' :: Nat.toDigits 16 group.toNat

def Ipv6Addr.toText (address : Ipv6Addr) : List Char :=
  match toIpv4Mapped address with
  | some inner => "::ffff:".toList ++ inner.toText
  | none =>
      let zeroes := zeroSpan 0 ⟨0, 0⟩ ⟨0, 0⟩ address.segments
      if 1 < zeroes.len then
        groupsText (address.segments.take zeroes.start) ++ "::".toList ++
          groupsText (address.segments.drop (zeroes.start + zeroes.len))
      else groupsText address.segments

def IpAddr.toText : IpAddr → List Char
  | .v4 address => address.toText
  | .v6 address => address.toText

theorem digit_value_digit_char (n : Nat) (small : n < 16) : digitValue n.digitChar = some n := by
  interval_cases n <;> rfl

theorem to_digit_digit_char (radix n : Nat) (small : n < radix) (bound : radix ≤ 16) :
    toDigit radix n.digitChar = some n := by
  simp [toDigit, digit_value_digit_char n (by omega), small]

theorem digits_written (radix n : Nat) (base : 1 < radix) (bound : radix ≤ 16) :
    ∀ c ∈ Nat.toDigits radix n, isDigit radix c = true := by
  induction n using Nat.strongRecOn with
  | ind n ih =>
    intro c member
    by_cases small : n < radix
    · rw [Nat.toDigits_of_lt_base small, List.mem_singleton] at member
      simp [member, isDigit, to_digit_digit_char radix n small bound]
    · have last : n % radix < radix := Nat.mod_lt n (by omega)
      rw [Nat.toDigits_of_base_le base (by omega), List.mem_append, List.mem_singleton] at member
      cases member with
      | inl earlier => exact ih (n / radix) (Nat.div_lt_self (by omega) base) c earlier
      | inr final => simp [final, isDigit, to_digit_digit_char radix _ last bound]

theorem digits_value_written (radix n : Nat) (base : 1 < radix) (bound : radix ≤ 16) : digitsValue radix
    (Nat.toDigits radix n) = n := by
  induction n using Nat.strongRecOn with
  | ind n ih =>
    by_cases small : n < radix
    · simp [Nat.toDigits_of_lt_base small, digitsValue, to_digit_digit_char radix n small bound]
    · have last : n % radix < radix := Nat.mod_lt n (by omega)
      have earlier := ih (n / radix) (Nat.div_lt_self (by omega) base)
      simp only [digitsValue] at earlier
      simp only [Nat.toDigits_of_base_le base (by omega : radix ≤ n), digitsValue, List.foldl_append,
        earlier, List.foldl_cons,
        List.foldl_nil, to_digit_digit_char radix _ last bound, Option.getD_some]
      exact Nat.div_add_mod n radix

theorem digits_head (radix n : Nat) (base : 1 < radix) (bound : radix ≤ 16) (positive : 0 < n) :
    (Nat.toDigits radix n).head? ≠ some '0' := by
  induction n using Nat.strongRecOn with
  | ind n ih =>
    by_cases small : n < radix
    · rw [Nat.toDigits_of_lt_base small]
      have hex : n < 16 := by omega
      interval_cases n <;> decide
    · have earlier := ih (n / radix) (Nat.div_lt_self positive base) (Nat.div_pos (by omega) (by omega))
      rw [Nat.toDigits_of_base_le base (by omega), List.head?_append_of_ne_nil _ Nat.toDigits_ne_nil]
      exact earlier

-- The next character, if any, does not go on with a number.
def Ends (radix : Nat) (rest : List Char) : Prop := ∀ c ∈ rest.head?, isDigit radix c = false

theorem take_while_ends (radix : Nat) (rest : List Char) (ends : Ends radix rest) : rest.takeWhile
    (isDigit radix) = [] := by
  cases rest with
  | nil => rfl
  | cons c rest => simp [ends c rfl]

theorem read_number_ends (radix maxDigits : Nat) (allowZeroPrefix : Bool) (width : Nat) (rest : List Char)
    (ends : Ends radix rest) :
    readNumber radix maxDigits allowZeroPrefix width rest = none := by
  simp [readNumber, take_while_ends radix rest ends]

theorem read_number_written (radix maxDigits : Nat) (allowZeroPrefix : Bool) (width : Nat)
    (value : BitVec width) (rest : List Char) (base : 1 < radix) (bound : radix ≤ 16) (room : 0 < maxDigits)
    (short : 2 ^ width ≤ radix ^ maxDigits) (ends : Ends radix rest) :
    readNumber radix maxDigits allowZeroPrefix width
    (Nat.toDigits radix value.toNat ++ rest) = some (value, rest) := by
  have digits : (Nat.toDigits radix value.toNat ++ rest).takeWhile (isDigit radix) = Nat.toDigits radix
    value.toNat := by
    rw [List.takeWhile_append_of_pos (digits_written radix _ base bound), take_while_ends radix rest ends,
      List.append_nil]
  have few : (Nat.toDigits radix value.toNat).length ≤ maxDigits :=
    (Nat.length_toDigits_le_iff base room).mpr (by have := value.isLt; omega)
  have canonical : ¬ ((Nat.toDigits radix value.toNat ++ rest).head? = some '0' ∧
    1 < (Nat.toDigits radix value.toNat).length) := by
    rintro ⟨zero, several⟩
    rw [List.head?_append_of_ne_nil _ Nat.toDigits_ne_nil] at zero
    by_cases positive : 0 < value.toNat
    · exact digits_head radix _ base bound positive zero
    · rw [Nat.toDigits_of_lt_base (by omega)] at several
      simp at several
  have value' : digitsValue radix (Nat.toDigits radix value.toNat) = value.toNat :=
    digits_value_written radix _ base bound
  simp only [readNumber, digits, value', Nat.toDigits_ne_nil, false_or]
  rw [if_neg (by omega), if_neg (by tauto), if_pos value.isLt, List.drop_left]
  simp

theorem read_octet_written (octet : BitVec 8) (rest : List Char) (ends : Ends 10 rest) :
    readNumber 10 3 false 8 (Nat.toDigits 10 octet.toNat ++ rest) = some (octet, rest) :=
  read_number_written 10 3 false 8 octet rest (by decide) (by decide) (by decide) (by decide) ends

theorem read_hex_written (group : BitVec 16) (rest : List Char) (ends : Ends 16 rest) :
    readNumber 16 4 true 16 (Nat.toDigits 16 group.toNat ++ rest) = some (group, rest) :=
  read_number_written 16 4 true 16 group rest (by decide) (by decide) (by decide) (by decide) ends

theorem ends_nil (radix : Nat) : Ends radix [] := by simp [Ends]

theorem dot_ends (rest : List Char) : Ends 10 ('.' :: rest) := by
  simp only [Ends, List.head?_cons, Option.mem_some_iff, forall_eq']
  decide

theorem colon_ends (rest : List Char) : Ends 16 (':' :: rest) := by
  simp only [Ends, List.head?_cons, Option.mem_some_iff, forall_eq']
  decide

theorem read_ipv4_written (address : Ipv4Addr) : readIpv4 address.toText = some (address, []) := by
  have last : readNumber 10 3 false 8 (Nat.toDigits 10 address.d.toNat) = some (address.d, []) := by
    simpa using read_octet_written address.d [] (ends_nil 10)
  simp [readIpv4, readOctet, readSeparator, Ipv4Addr.toText, read_octet_written, dot_ends, last]

theorem parse_ipv4_written (address : Ipv4Addr) : parse address.toText = some (.v4 address) := by
  simp [parse, readIp, read_ipv4_written]

def addressChar (c : Char) : Bool := isDigit 16 c || c == ':' || c == '.'

-- The part of the input in front of the rest is written with address
-- characters only.
def Took (input rest : List Char) : Prop := ∃ taken, input = taken ++ rest ∧ ∀ c ∈ taken, addressChar c = true

theorem took_nothing (input : List Char) : Took input input := ⟨[], rfl, by simp⟩

theorem took_char (c : Char) (input rest : List Char) (allowed : addressChar c = true)
    (took : Took input rest) : Took (c :: input) rest := by
  obtain ⟨taken, rfl, chars⟩ := took
  exact ⟨c :: taken, rfl, List.forall_mem_cons.mpr ⟨allowed, chars⟩⟩

theorem took_trans (input middle rest : List Char) (first : Took input middle) (second : Took middle rest) :
    Took input rest := by
  obtain ⟨front, rfl, front_chars⟩ := first
  obtain ⟨back, rfl, back_chars⟩ := second
  exact ⟨front ++ back, by simp, List.forall_mem_append.mpr ⟨front_chars, back_chars⟩⟩

def Takes {α : Type} (reader : Reader α) : Prop :=
  ∀ (input : List Char) (value : α) (rest : List Char), reader input = some (value, rest) → Took input rest

theorem digit_hex (radix : Nat) (c : Char) (bound : radix ≤ 16) (digit : isDigit radix c = true) :
    isDigit 16 c = true := by
  cases known : digitValue c with
  | none => simp [isDigit, toDigit, known] at digit
  | some value =>
    simp only [isDigit, toDigit, known, Option.filter_some, Option.isSome_ite, decide_eq_true_eq] at digit ⊢
    omega

theorem read_number_takes (radix maxDigits : Nat) (allowZeroPrefix : Bool) (width : Nat)
    (bound : radix ≤ 16) :
    Takes (readNumber radix maxDigits allowZeroPrefix width) := by
  intro input value rest read
  obtain ⟨after, whole⟩ := List.takeWhile_prefix (isDigit radix) (l := input)
  simp only [readNumber] at read
  split at read
  · simp at read
  · split at read
    · simp at read
    · split at read
      · simp only [Option.some.injEq, Prod.mk.injEq] at read
        have left : input.drop (input.takeWhile (isDigit radix)).length = after := by
          have split : (input.takeWhile (isDigit radix) ++ after).drop
            (input.takeWhile (isDigit radix)).length = after := List.drop_left
          rwa [whole] at split
        refine ⟨input.takeWhile (isDigit radix), by rw [← read.2, left, whole], ?_⟩
        intro c member
        have digit := digit_hex radix c bound (List.all_eq_true.mp List.all_takeWhile c member)
        simp [addressChar, digit]
      · simp at read

theorem read_separator_takes {α : Type} (sep : Char) (first : Bool) (inner : Reader α)
    (allowed : addressChar sep = true) (takes : Takes inner) : Takes (readSeparator sep first inner) := by
  intro input value rest read
  simp only [readSeparator] at read
  split at read
  · exact takes input value rest read
  · split at read
    · simp at read
    · next c more =>
      split at read
      · next same => exact took_char c more rest (same ▸ allowed) (takes more value rest read)
      · simp at read

theorem read_octet_takes (first : Bool) : Takes (readOctet first) :=
  read_separator_takes '.' first _ (by decide) (read_number_takes 10 3 false 8 (by decide))

theorem read_group_takes (first : Bool) : Takes (readGroup first) :=
  read_separator_takes ':' first _ (by decide) (read_number_takes 16 4 true 16 (by decide))

theorem read_octet_dot (input : List Char) (octet : BitVec 8) (rest : List Char)
    (read : readOctet false input = some (octet, rest)) :
    '.' ∈ input := by
  simp only [readOctet, readSeparator] at read
  cases input with
  | nil => simp at read
  | cons c more =>
    by_cases dot : c = '.'
    · simp [dot]
    · simp [dot] at read

theorem read_ipv4_parts (input : List Char) (address : Ipv4Addr) (rest : List Char)
    (read : readIpv4 input = some (address, rest)) :
    ∃ second third fourth, readOctet true input = some (address.a, second) ∧
      readOctet false second = some (address.b, third) ∧
      readOctet false third = some (address.c, fourth) ∧ readOctet false fourth = some (address.d, rest) := by
  simp only [readIpv4, Option.bind_eq_bind, Option.bind_eq_some_iff, Option.pure_def, Option.some.injEq,
    Prod.mk.injEq, Prod.exists] at read
  obtain ⟨a, second, first, b, third, next, c, fourth, after, d, final, last, rfl, rfl⟩ := read
  exact ⟨second, third, fourth, first, next, after, last⟩

theorem read_ipv4_takes : Takes readIpv4 := by
  intro input address rest read
  obtain ⟨second, third, fourth, a, b, c, d⟩ := read_ipv4_parts input address rest read
  have front := took_trans _ _ _ (read_octet_takes true _ _ _ a) (read_octet_takes false _ _ _ b)
  have back := took_trans _ _ _ (read_octet_takes false _ _ _ c) (read_octet_takes false _ _ _ d)
  exact took_trans _ _ _ front back

theorem read_ipv4_dot (input : List Char) (address : Ipv4Addr) (rest : List Char)
    (read : readIpv4 input = some (address, rest)) :
    '.' ∈ input := by
  obtain ⟨second, third, fourth, a, b, -, -⟩ := read_ipv4_parts input address rest read
  obtain ⟨taken, rfl, -⟩ := read_octet_takes true _ _ _ a
  exact List.mem_append_right _ (read_octet_dot second address.b third b)

theorem read_groups_took (limit : Nat) (first : Bool) (input : List Char) : Took input
    (readGroups limit first input).2.2 := by
  fun_induction readGroups limit first input with
  | case1 => exact took_nothing _
  | case2 left first input address rest embedded =>
    by_cases room : 0 < left
    · rw [if_pos room] at embedded
      exact read_separator_takes ':' first readIpv4 (by decide) read_ipv4_takes _ _ _ embedded
    · simp [room] at embedded
  | case3 left first input _ group after read groups embedded rest more ih =>
    simp only [more] at ih
    exact took_trans _ _ _ (read_group_takes first _ _ _ read) ih
  | case4 => exact took_nothing _

theorem read_ipv6_takes : Takes readIpv6 := by
  intro input address rest read
  have head := read_groups_took 8 true input
  simp only [readIpv6] at read
  split at read
  · simp only [Option.some.injEq, Prod.mk.injEq] at read
    exact read.2 ▸ head
  · split at read
    · simp at read
    · split at read
      · next short _ after gap =>
        simp only [Option.some.injEq, Prod.mk.injEq] at read
        have tail := read_groups_took (8 - ((readGroups 8 true input).1.length + 1)) true after
        rw [read.2] at tail
        rw [gap] at head
        exact took_trans _ _ _ head (took_char _ _ _ (by decide) (took_char _ _ _ (by decide) tail))
      · simp at read

theorem read_ip_takes : Takes readIp := by
  intro input address rest read
  simp only [readIp] at read
  cases dotted : readIpv4 input with
  | some found =>
    simp only [dotted, Option.some.injEq, Prod.mk.injEq] at read
    exact read_ipv4_takes input found.1 rest (by rw [dotted, ← read.2])
  | none =>
    simp only [dotted, Option.map_eq_some_iff, Prod.mk.injEq] at read
    obtain ⟨found, six, -, rfl⟩ := read
    exact read_ipv6_takes input found.1 found.2 six

theorem parse_chars (text : List Char) (address : IpAddr) (parsed : parse text = some address) :
    ∀ c ∈ text, addressChar c = true := by
  simp only [parse] at parsed
  split at parsed
  · next found read =>
    obtain ⟨taken, rfl, chars⟩ := read_ip_takes text found [] read
    simpa using chars
  · simp at parsed

def Dotless (text : List Char) : Prop := '.' ∉ text

theorem digits_dotless (n : Nat) : Dotless (Nat.toDigits 16 n) := by
  intro dot
  have digit := digits_written 16 n (by decide) (by decide) '.' dot
  exact absurd digit (by decide)

theorem groups_text_dotless (groups : List (BitVec 16)) : Dotless (groupsText groups) := by
  cases groups with
  | nil => simp [Dotless, groupsText]
  | cons group rest =>
    intro dot
    simp only [groupsText, List.mem_append, List.mem_flatMap, List.mem_cons] at dot
    obtain first | ⟨other, -, colon | digits⟩ := dot
    · exact digits_dotless _ first
    · exact absurd colon (by decide)
    · exact digits_dotless _ digits

theorem dotless_no_ipv4 (first : Bool) (input : List Char) (plain : Dotless input) :
    readSeparator ':' first readIpv4 input = none := by
  by_contra read
  obtain ⟨⟨address, rest⟩, read⟩ := Option.ne_none_iff_exists'.mp read
  simp only [readSeparator] at read
  split at read
  · exact plain (read_ipv4_dot input address rest read)
  · split at read
    · simp at read
    · split at read
      · exact plain (List.mem_cons_of_mem _ (read_ipv4_dot _ address rest read))
      · simp at read

-- What may follow a part of an address: the end of the text or the gap.
def Closes (rest : List Char) : Prop := rest = [] ∨ ∃ after, rest = ':' :: ':' :: after

theorem closes_ends (rest : List Char) (closes : Closes rest) : Ends 16 rest := by
  obtain rfl | ⟨after, rfl⟩ := closes
  · exact ends_nil 16
  · exact colon_ends _

theorem closes_group (first : Bool) (rest : List Char) (closes : Closes rest) :
    readGroup first rest = none := by
  obtain rfl | ⟨after, rfl⟩ := closes
  · cases first with
    | true => exact read_number_ends 16 4 true 16 [] (ends_nil 16)
    | false => rfl
  · cases first with
    | true => exact read_number_ends 16 4 true 16 _ (colon_ends (':' :: after))
    | false => exact read_number_ends 16 4 true 16 _ (colon_ends after)

theorem read_none_written (limit : Nat) (first : Bool) (rest : List Char) (closes : Closes rest)
    (plain : Dotless rest) :
    readGroups limit first rest = ([], false, rest) := by
  cases limit with
  | zero => rfl
  | succ left => simp [readGroups, dotless_no_ipv4 first rest plain, closes_group first rest closes]

theorem read_groups_step (left : Nat) (first : Bool) (input rest : List Char) (group : BitVec 16)
    (plain : Dotless input) (read : readGroup first input = some (group, rest)) :
    readGroups (left + 1) first input = (group :: (readGroups left false rest).1,
      (readGroups left false rest).2) := by
  rw [readGroups, dotless_no_ipv4 first input plain, ite_self, read]

theorem read_more_written (groups : List (BitVec 16)) (limit : Nat) (rest : List Char)
    (room : groups.length ≤ limit) (closes : Closes rest) (plain : Dotless rest) :
    readGroups limit false ((groups.flatMap fun group => ':' :: Nat.toDigits 16 group.toNat) ++ rest) =
    (groups, false, rest) := by
  induction groups generalizing limit with
  | nil => exact read_none_written limit false rest closes plain
  | cons group groups ih =>
    cases limit with
    | zero => simp at room
    | succ left =>
      have after := ih left (by simpa using room)
      have ends : Ends 16 ((groups.flatMap fun group => ':' :: Nat.toDigits 16 group.toNat) ++ rest) := by
        cases groups with
        | nil => exact closes_ends rest closes
        | cons next others => exact colon_ends _
      have dotless : Dotless ((group :: groups).flatMap (fun group => ':' :: Nat.toDigits 16 group.toNat) ++
        rest) := by
        intro dot
        obtain listed | later := List.mem_append.mp dot
        · obtain ⟨other, -, written⟩ := List.mem_flatMap.mp listed
          obtain colon | digit := List.mem_cons.mp written
          · exact absurd colon (by decide)
          · exact digits_dotless _ digit
        · exact plain later
      have number := read_hex_written group _ ends
      have step := read_groups_step left false _ _ group dotless
        (by simpa [readGroup, readSeparator] using number)
      rw [step, after]

theorem read_groups_written (groups : List (BitVec 16)) (limit : Nat) (rest : List Char)
    (room : groups.length ≤ limit) (closes : Closes rest) (plain : Dotless rest) :
    readGroups limit true (groupsText groups ++ rest) = (groups, false, rest) := by
  cases groups with
  | nil => exact read_none_written limit true rest closes plain
  | cons group groups =>
    cases limit with
    | zero => simp at room
    | succ left =>
      have after := read_more_written groups left rest (by simpa using room) closes plain
      have ends : Ends 16 ((groups.flatMap fun group => ':' :: Nat.toDigits 16 group.toNat) ++ rest) := by
        cases groups with
        | nil => exact closes_ends rest closes
        | cons next others => exact colon_ends _
      have dotless : Dotless (groupsText (group :: groups) ++ rest) := by
        intro dot
        obtain listed | later := List.mem_append.mp dot
        · exact groups_text_dotless _ listed
        · exact plain later
      have number := read_hex_written group _ ends
      have step := read_groups_step left true _ _ group dotless
        (by simpa [readGroup, readSeparator, groupsText] using number)
      rw [step, after]

def Span.Zero (span : Span) (segments : List (BitVec 16)) : Prop :=
  span.start + span.len ≤ segments.length ∧ ∀ i, span.start ≤ i → i < span.start + span.len →
    segments[i]? = some 0

theorem zero_span_zero (segments rest : List (BitVec 16)) (index : Nat) (longest current : Span)
    (seen : segments.drop index = rest) (longest_zero : longest.Zero segments)
    (current_zero : current.Zero segments)
    (adjacent : current.len = 0 ∨ current.start + current.len = index) :
      (zeroSpan index longest current rest).Zero segments := by
  induction rest generalizing index longest current with
  | nil => exact longest_zero
  | cons segment rest ih =>
    have here : segments[index]? = some segment := by
      rw [← List.head?_drop, seen, List.head?_cons]
    have inside : index < segments.length := (List.getElem?_eq_some_iff.mp here).1
    have later : segments.drop (index + 1) = rest := by
      rw [← List.drop_drop, seen, List.drop_one, List.tail_cons]
    by_cases zero : segment = 0
    · have start : (if current.len = 0 then index else current.start) + (current.len + 1) = index + 1 := by
        split <;> omega
      have grown : Span.Zero ⟨if current.len = 0 then index else current.start, current.len + 1⟩
        segments := by
        refine ⟨by simp only; omega, ?_⟩
        intro i low high
        simp only at low high
        by_cases new : i = index
        · rw [new, here, zero]
        · refine current_zero.2 i ?_ ?_
          · split at low <;> omega
          · split at low <;> omega
      simp only [zeroSpan, if_pos zero]
      refine ih (index + 1) _ _ later ?_ grown (.inr start)
      split
      · exact grown
      · exact longest_zero
    · simp only [zeroSpan, if_neg zero]
      exact ih (index + 1) _ _ later longest_zero ⟨by simp, by intro i _ high; simp at high⟩ (.inl rfl)

theorem fill_gap_span (address : Ipv6Addr) (span : Span) (zero : span.Zero address.segments)
    (fits : (address.segments.take span.start).length +
      (address.segments.drop (span.start + span.len)).length ≤ 8) :
    fillGap (address.segments.take span.start)
    (address.segments.drop (span.start + span.len)) fits = address := by
  have eight := address.eight
  obtain ⟨inside, zeroes⟩ := zero
  have gap : 8 - ((address.segments.take span.start).length +
    (address.segments.drop (span.start + span.len)).length) = span.len := by
    simp only [List.length_take, List.length_drop]
    omega
  have middle : (address.segments.drop span.start).take span.len = List.replicate span.len 0 := by
    apply List.ext_getElem?
    intro i
    by_cases within : i < span.len
    · have named := zeroes (span.start + i) (by omega) (by omega)
      simp [within, List.getElem?_drop, named]
    · simp [within]
  have same : address.segments.take span.start ++ List.replicate span.len 0 ++ address.segments.drop
    (span.start + span.len) = address.segments := by
    rw [← middle, ← List.drop_drop, List.append_assoc, List.take_append_drop, List.take_append_drop]
  cases address with
  | mk segments eight =>
    simp only [fillGap, Ipv6Addr.mk.injEq]
    rw [gap]
    exact same

theorem read_ipv6_gap (input rest : List Char) (head tail : List (BitVec 16))
    (fits : head.length + tail.length ≤ 8) (short : head.length < 8)
    (front : readGroups 8 true input = (head, false, ':' :: ':' :: rest))
    (back : readGroups (8 - (head.length + 1)) true rest = (tail, false, [])) :
    readIpv6 input = some (fillGap head tail fits, []) := by
  have partly : head.length ≠ 8 := by omega
  simp only [readIpv6, front, back]
  simp [partly]

theorem read_ipv6_written (address : Ipv6Addr) (plain : toIpv4Mapped address = none) :
    readIpv6 address.toText = some (address, []) := by
  have eight := address.eight
  simp only [Ipv6Addr.toText, plain]
  have zero : (zeroSpan 0 ⟨0, 0⟩ ⟨0, 0⟩ address.segments).Zero address.segments :=
    zero_span_zero address.segments address.segments 0 ⟨0, 0⟩ ⟨0, 0⟩ rfl
      ⟨by simp, by intro i _ high; simp at high⟩
      ⟨by simp, by intro i _ high; simp at high⟩ (.inl rfl)
  generalize zeroSpan 0 ⟨0, 0⟩ ⟨0, 0⟩ address.segments = span at zero
  by_cases several : 1 < span.len
  · have inside := zero.1
    have front_length : (address.segments.take span.start).length <
      8 := by simp only [List.length_take]; omega
    have back_length : (address.segments.drop (span.start + span.len)).length ≤ 8 -
      ((address.segments.take span.start).length + 1) := by
      simp only [List.length_take, List.length_drop]
      omega
    have back_dotless := groups_text_dotless (address.segments.drop (span.start + span.len))
    have dotless : Dotless (':' :: ':' :: groupsText (address.segments.drop (span.start + span.len))) := by
      simpa [Dotless] using back_dotless
    have front := read_groups_written (address.segments.take span.start) 8 _ (by omega)
      (.inr ⟨_, rfl⟩) dotless
    have back := read_groups_written _ _ [] back_length (.inl rfl) (by simp [Dotless])
    rw [List.append_nil] at back
    have found := read_ipv6_gap _ _ _ _ (by omega) front_length front back
    rw [fill_gap_span address span zero] at found
    rw [if_pos several, List.append_assoc]
    exact found
  · rw [if_neg several]
    have whole := read_groups_written address.segments 8 [] (by omega) (.inl rfl) (by simp [Dotless])
    rw [List.append_nil] at whole
    simp only [readIpv6, whole]
    simp [eight]

theorem ipv6_text_dotless (address : Ipv6Addr) (plain : toIpv4Mapped address = none) :
    Dotless address.toText := by
  simp only [Ipv6Addr.toText, plain]
  split
  · have front := groups_text_dotless
    simp only [Dotless] at front ⊢
    simp [front]
  · exact groups_text_dotless _

theorem parse_ipv6_written (address : Ipv6Addr) (plain : toIpv4Mapped address = none) :
    parse address.toText = some (.v6 address) := by
  have dotted : readIpv4 address.toText = none := dotless_no_ipv4 true _ (ipv6_text_dotless address plain)
  simp [parse, readIp, dotted, read_ipv6_written address plain]

end IpText
