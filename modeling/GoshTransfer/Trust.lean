import GoshTransfer.Names
import GoshTransfer.Lib.IpText

set_option autoImplicit false

-- The trusted hosts of the configuration. Both registrations decide with them
-- whether to accept at once; the requests of the other modules carry the
-- outcome.
namespace GoshTransfer

open IpText

def normalizeIp : IpAddr → String
  | .v4 address => .ofList address.toText
  | .v6 address =>
      match toIpv4Mapped address with
      | some inner => .ofList inner.toText
      | none => .ofList address.toText

def normalizeTrustedHost (host : String) : String :=
  match parse (trim host.toList) with
  | some ip => normalizeIp ip
  | none => .ofList (trim host.toList)

-- transfer_request_handler trims first and parses then,
def isTrusted (trustedHosts : List String) (peer : IpAddr) : Bool :=
  trustedHosts.any fun host => normalizeTrustedHost host == normalizeIp peer || host == normalizeIp peer

-- register parses the entry as it stands and trims only what is no address.
def trustedEntry (host : String) : String :=
  match parse host.toList with
  | some ip => normalizeIp ip
  | none => .ofList (trim host.toList)

def trusted (trustedHosts : List String) (peer : IpAddr) : Bool :=
  trustedHosts.any fun host => trustedEntry host == normalizeIp peer

-- The entry is an address of the source as it stands, or the source's own
-- spelling in blanks.
def Names (host source : String) : Prop := (parse host.toList).map normalizeIp = some source ∨
    trim host.toList = source.toList

-- The entry is another spelling of the source in blanks.
def Padded (host source : String) : Prop :=
  trim host.toList ≠ host.toList ∧ trim host.toList ≠ source.toList ∧
    (parse (trim host.toList)).map normalizeIp = some source

theorem canonical_parse (peer : IpAddr) :
    ∃ same, parse (normalizeIp peer).toList = some same ∧ normalizeIp same = normalizeIp peer := by
  cases peer with
  | v4 address => exact ⟨.v4 address, by simp [normalizeIp, parse_ipv4_written], rfl⟩
  | v6 address =>
    cases mapped : toIpv4Mapped address with
    | some inner =>
        exact ⟨.v4 inner, by simp [normalizeIp, mapped, parse_ipv4_written], by simp [normalizeIp, mapped]⟩
    | none => exact ⟨.v6 address, by simp [normalizeIp, mapped, parse_ipv6_written], rfl⟩

theorem digit_range (c : Char) (digit : isDigit 16 c = true) : 0x30 ≤ c.toNat ∧ c.toNat ≤ 0x7a := by
  simp only [isDigit, toDigit, digitValue, Char.le_def, UInt32.le_iff_toNat_le] at digit
  split at digit
  · simp_all; omega
  · split at digit
    · simp_all; omega
    · split at digit
      · simp_all; omega
      · simp at digit

theorem address_not_blank (c : Char) (allowed : addressChar c = true) : isWhitespace c = false := by
  simp only [addressChar, Bool.or_eq_true, beq_iff_eq] at allowed
  obtain (digit | rfl) | rfl := allowed
  · have range := digit_range c digit
    simp [isWhitespace, UInt32.le_iff_toNat_le, ← UInt32.toNat_inj]
    omega
  · decide
  · decide

theorem trim_unblank (cs : List Char) (unblank : ∀ c ∈ cs, isWhitespace c = false) : trim cs = cs := by
  have front : cs.dropWhile isWhitespace = cs := by
    cases cs with
    | nil => rfl
    | cons c rest => simp [unblank c]
  have back : cs.reverse.dropWhile isWhitespace = cs.reverse := by
    cases reversed : cs.reverse with
    | nil => rfl
    | cons c rest =>
      have member : c ∈ cs := List.mem_reverse.mp (by simp [reversed])
      simp [unblank c member]
  simp [trim, trimEndMatches, front, back]

theorem parsed_unblank (cs : List Char) (ip : IpAddr) (parsed : parse cs = some ip) : trim cs = cs :=
  trim_unblank cs fun c member => address_not_blank c (parse_chars cs ip parsed c member)

theorem names_alone (host source : String) (ip : IpAddr) (parsed : parse host.toList = some ip)
    (blanks : trim host.toList = source.toList) :
    host = source := by
  rw [parsed_unblank host.toList ip parsed] at blanks
  exact String.toList_inj.mp blanks

theorem trusted_entry_names (host : String) (peer : IpAddr) : trustedEntry host = normalizeIp peer ↔
    Names host (normalizeIp peer) := by
  cases parsed : parse host.toList with
  | some ip =>
    have read : trustedEntry host = normalizeIp ip := by simp [trustedEntry, parsed]
    constructor
    · intro entry
      exact .inl (by rw [parsed, Option.map_some, ← read, entry])
    · rintro (named | blanks)
      · rw [parsed, Option.map_some, Option.some.injEq] at named
        rw [read, named]
      · obtain rfl := names_alone host _ ip parsed blanks
        obtain ⟨same, spelled, canonical⟩ := canonical_parse peer
        rw [parsed, Option.some.injEq] at spelled
        rw [read, spelled, canonical]
  | none =>
    have read : trustedEntry host = .ofList (trim host.toList) := by simp [trustedEntry, parsed]
    simp [Names, parsed, read, ← String.toList_inj]

theorem trusted_host_names (host : String) (peer : IpAddr) :
    (normalizeTrustedHost host = normalizeIp peer ∨ host = normalizeIp peer) ↔
      Names host (normalizeIp peer) ∨ Padded host (normalizeIp peer) := by
  obtain ⟨same, spelled, canonical⟩ := canonical_parse peer
  constructor
  · rintro (entry | rfl)
    · cases parsed : parse (trim host.toList) with
      | some ip =>
        have named : normalizeIp ip = normalizeIp peer := by simpa [normalizeTrustedHost, parsed] using entry
        by_cases alone : trim host.toList = host.toList
        · exact .inl (.inl (by rw [← alone, parsed, Option.map_some, named]))
        · by_cases own : trim host.toList = (normalizeIp peer).toList
          · exact .inl (.inr own)
          · exact .inr ⟨alone, own, by rw [parsed, Option.map_some, named]⟩
      | none =>
        have text : String.ofList (trim host.toList) = normalizeIp peer := by
          simpa [normalizeTrustedHost, parsed] using entry
        exact .inl (.inr (by rw [← text, String.toList_ofList]))
    · exact .inl (.inl (by rw [spelled, Option.map_some, canonical]))
  · have entry : ∀ ip, parse (trim host.toList) = some ip → normalizeTrustedHost host = normalizeIp ip := by
      intro ip parsed
      simp [normalizeTrustedHost, parsed]
    rintro ((named | blanks) | ⟨-, -, named⟩)
    · obtain ⟨ip, parsed, same⟩ := Option.map_eq_some_iff.mp named
      exact .inl ((entry ip (by rw [parsed_unblank _ ip parsed, parsed])).trans same)
    · exact .inl ((entry same (by rw [blanks, spelled])).trans canonical)
    · obtain ⟨ip, parsed, same⟩ := Option.map_eq_some_iff.mp named
      exact .inl ((entry ip parsed).trans same)

theorem trusted_iff (trustedHosts : List String) (peer : IpAddr) :
    trusted trustedHosts peer = true ↔ ∃ host ∈ trustedHosts, Names host (normalizeIp peer) := by
  simp [trusted, trusted_entry_names]

theorem is_trusted_iff (trustedHosts : List String) (peer : IpAddr) :
    isTrusted trustedHosts peer = true ↔
      ∃ host ∈ trustedHosts, Names host (normalizeIp peer) ∨ Padded host (normalizeIp peer) := by
  simp [isTrusted, trusted_host_names]

theorem protocols_trust_alike_iff (trustedHosts : List String) (peer : IpAddr) :
    isTrusted trustedHosts peer = trusted trustedHosts peer ↔
      (∃ host ∈ trustedHosts, Names host (normalizeIp peer)) ∨
        ∀ host ∈ trustedHosts, ¬ Padded host (normalizeIp peer) := by
  rw [Bool.eq_iff_iff, is_trusted_iff, trusted_iff]
  constructor
  · intro alike
    by_cases named : ∃ host ∈ trustedHosts, Names host (normalizeIp peer)
    · exact .inl named
    · exact .inr fun host listed padded => named (alike.mp ⟨host, listed, .inr padded⟩)
  · intro harmless
    constructor
    · rintro ⟨host, listed, named | padded⟩
      · exact ⟨host, listed, named⟩
      · exact harmless.resolve_right fun none => none host listed padded
    · rintro ⟨host, listed, named⟩
      exact ⟨host, listed, .inl named⟩

theorem padded_entry_is_trusted_by_one_protocol :
    ¬ ∀ trustedHosts peer, isTrusted trustedHosts peer = trusted trustedHosts peer := by
  intro alike
  have differ : isTrusted [" ::ffff:10.0.0.1 "] (.v4 ⟨10, 0, 0, 1⟩) = true ∧
    trusted [" ::ffff:10.0.0.1 "] (.v4 ⟨10, 0, 0, 1⟩) = false := by
    decide
  have same := alike [" ::ffff:10.0.0.1 "] (.v4 ⟨10, 0, 0, 1⟩)
  rw [differ.1, differ.2] at same
  simp at same

end GoshTransfer
