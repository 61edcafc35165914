import Openheim.Tools.WebFetch

/-
This file shows which addresses of the documented classes the filter misses, and that a fetch goes
only to addresses that pass the filter.
-/

namespace Openheim.Tools

/-- The classes of addresses that are not public. -/
inductive AddressClass where
  | loopback
  | privateUse
  | shared
  | linkLocal
  | unspecified
  | documentation
  | benchmarking
  | multicast
  | reserved
  | tunnel
  deriving DecidableEq, Repr

namespace AddressClass

/-- The IPv4 blocks of a class. -/
def blocks4 : AddressClass → List (Cidr.Block 32)
  | .loopback => [⟨Ipv4Addr.value ⟨127, 0, 0, 0⟩, 8⟩]
  | .privateUse =>
      [⟨Ipv4Addr.value ⟨10, 0, 0, 0⟩, 8⟩, ⟨Ipv4Addr.value ⟨172, 16, 0, 0⟩, 12⟩,
        ⟨Ipv4Addr.value ⟨192, 168, 0, 0⟩, 16⟩]
  | .shared => [⟨Ipv4Addr.value ⟨100, 64, 0, 0⟩, 10⟩]
  | .linkLocal => [⟨Ipv4Addr.value ⟨169, 254, 0, 0⟩, 16⟩]
  | .unspecified => [⟨Ipv4Addr.value ⟨0, 0, 0, 0⟩, 8⟩]
  | .documentation =>
      [⟨Ipv4Addr.value ⟨192, 0, 2, 0⟩, 24⟩, ⟨Ipv4Addr.value ⟨198, 51, 100, 0⟩, 24⟩,
        ⟨Ipv4Addr.value ⟨203, 0, 113, 0⟩, 24⟩]
  | .benchmarking => [⟨Ipv4Addr.value ⟨198, 18, 0, 0⟩, 15⟩]
  | .multicast => [⟨Ipv4Addr.value ⟨224, 0, 0, 0⟩, 4⟩]
  | .reserved => [⟨Ipv4Addr.value ⟨192, 0, 0, 0⟩, 24⟩, ⟨Ipv4Addr.value ⟨240, 0, 0, 0⟩, 4⟩]
  | .tunnel => []

/-- The IPv6 blocks of a class, apart from those whose addresses carry an IPv4 address. -/
def blocks6 : AddressClass → List (Cidr.Block 128)
  | .loopback => [⟨Ipv6Addr.loopback.value, 128⟩]
  | .privateUse => [⟨Ipv6Addr.value ⟨0xfc00, 0, 0, 0, 0, 0, 0, 0⟩, 7⟩,
      ⟨Ipv6Addr.value ⟨0xfec0, 0, 0, 0, 0, 0, 0, 0⟩, 10⟩]
  | .shared => []
  | .linkLocal => [⟨Ipv6Addr.value ⟨0xfe80, 0, 0, 0, 0, 0, 0, 0⟩, 10⟩]
  | .unspecified => [⟨Ipv6Addr.unspecified.value, 128⟩]
  | .documentation =>
      [⟨Ipv6Addr.value ⟨0x2001, 0x0db8, 0, 0, 0, 0, 0, 0⟩, 32⟩,
        ⟨Ipv6Addr.value ⟨0x3fff, 0, 0, 0, 0, 0, 0, 0⟩, 20⟩]
  | .benchmarking => [⟨Ipv6Addr.value ⟨0x2001, 2, 0, 0, 0, 0, 0, 0⟩, 48⟩]
  | .multicast => [⟨Ipv6Addr.value ⟨0xff00, 0, 0, 0, 0, 0, 0, 0⟩, 8⟩]
  | .reserved => [⟨Ipv6Addr.value ⟨0x100, 0, 0, 0, 0, 0, 0, 0⟩, 64⟩]
  | .tunnel => [⟨Ipv6Addr.value ⟨0x2001, 0, 0, 0, 0, 0, 0, 0⟩, 32⟩,
      ⟨Ipv6Addr.value ⟨0x64, 0xff9b, 1, 0, 0, 0, 0, 0⟩, 48⟩]

/-- The class has the address. -/
def Has (kind : AddressClass) : IpAddr → Prop
  | .v4 addr => ∃ block ∈ kind.blocks4, block.Contains addr.value
  | .v6 addr => ∃ block ∈ kind.blocks6, block.Contains addr.value

end AddressClass

/-- An IPv6 address carries an IPv4 address: it is mapped, compatible,
translated, or of the network of 6to4. -/
inductive Carries (v6 : Ipv6Addr) (v4 : Ipv4Addr) : Prop where
  | mapped (equal : v6.value = Ipv6Addr.value ⟨0, 0, 0, 0, 0, 0xffff, 0, 0⟩ + v4.value)
  | compatible (equal : v6.value = v4.value)
  | nat64 (equal : v6.value = Ipv6Addr.value ⟨0x64, 0xff9b, 0, 0, 0, 0, 0, 0⟩ + v4.value)
  | sixToFour
      (equal : v6.value >>> 80 = Ipv6Addr.value ⟨0x2002, 0, 0, 0, 0, 0, 0, 0⟩ >>> 80 + v4.value)

/-- Digits with the same leading bits are a range. -/
theorem leading_range {digit k bits : Nat} {x : BitVec digit} (leading : x.toNat >>> k = bits) :
    bits <<< k ≤ x.toNat ∧ x.toNat < (bits + 1) <<< k := by
  rw [Nat.shiftRight_eq_div_pow] at leading
  rw [Nat.shiftLeft_eq, Nat.shiftLeft_eq, ← leading]
  exact ⟨Nat.div_mul_le_self _ _, Nat.lt_mul_of_div_lt (Nat.lt_succ_self _) (Nat.two_pow_pos k)⟩

section Ipv4
variable (addr : Ipv4Addr)

/-- An address is in a network when its first octets agree. -/
theorem Ipv4Addr.contains_iff (network : Ipv4Addr) {length : Nat} (within : length ≤ 32) :
    (⟨network.value, length⟩ : Cidr.Block 32).Contains addr.value ↔
      Cidr.Agree length addr.octets network.octets := by
  have width : 8 * addr.octets.length = 32 := rfl
  have shifted := @Cidr.shiftRight_value_eq_iff 8 addr.octets network.octets rfl length within
  rwa [width] at shifted

/-- Every address of a listed class is disallowed. -/
theorem isDisallowedIpv4_of_has {kind : AddressClass} (has : kind.Has (.v4 addr)) :
    isDisallowedIpv4 addr = true := by
  have shared : addr.b &&& 0xc0 = 64 ↔ addr.b.toNat >>> 6 = 1 := Cidr.and_leading_eq_iff rfl rfl
  have benchmarking : addr.b &&& 0xfe = 18 ↔ addr.b.toNat >>> 1 = 9 :=
    Cidr.and_leading_eq_iff rfl rfl
  simp only [isDisallowedIpv4, Bool.or_eq_true, Bool.and_eq_true, beq_iff_eq, decide_eq_true_eq,
    shared, benchmarking]
  cases kind <;>
    simp (disch := decide) [AddressClass.Has, AddressClass.blocks4, Ipv4Addr.contains_iff,
      Cidr.Agree, Ipv4Addr.octets] at has
  case loopback => simp [Ipv4Addr.isLoopback, has]
  case privateUse =>
    rcases has with ten | ⟨first, leading⟩ | last
    · simp [Ipv4Addr.isPrivate, ten]
    · have range := leading_range leading
      have within : 16#8 ≤ addr.b ∧ addr.b ≤ 31#8 := ⟨range.1, Nat.le_of_lt_succ range.2⟩
      simp [Ipv4Addr.isPrivate, first, within]
    · simp [Ipv4Addr.isPrivate, last]
  case shared => simp [has]
  case linkLocal => simp [Ipv4Addr.isLinkLocal, has]
  case unspecified => simp [has]
  case documentation =>
    rcases has with first | second | third
    · simp [Ipv4Addr.isDocumentation, first]
    · simp [Ipv4Addr.isDocumentation, second]
    · simp [Ipv4Addr.isDocumentation, third]
  case benchmarking => simp [has]
  case multicast =>
    have range := leading_range has
    have within : 224#8 ≤ addr.a ∧ addr.a ≤ 239#8 := ⟨range.1, Nat.le_of_lt_succ range.2⟩
    simp [Ipv4Addr.isMulticast, within]
  case reserved =>
    rcases has with protocol | leading
    · simp [protocol]
    · have within : 240#8 ≤ addr.a := (leading_range leading).1
      simp [within]

end Ipv4

section Ipv6
variable (addr : Ipv6Addr)

/-- An address is in a network when its first segments agree. -/
theorem Ipv6Addr.contains_iff (network : Ipv6Addr) {length : Nat} (within : length ≤ 128) :
    (⟨network.value, length⟩ : Cidr.Block 128).Contains addr.value ↔
      Cidr.Agree length addr.segments network.segments := by
  have width : 16 * addr.segments.length = 128 := rfl
  have shifted := @Cidr.shiftRight_value_eq_iff 16 addr.segments network.segments rfl length within
  rwa [width] at shifted

/-- The networks of addresses that carry another one in their last segments. -/
abbrev Ipv6Addr.InMapped : Prop :=
  addr.s0 = 0 ∧ addr.s1 = 0 ∧ addr.s2 = 0 ∧ addr.s3 = 0 ∧ addr.s4 = 0 ∧ addr.s5 = 0xffff

abbrev Ipv6Addr.InCompatible : Prop :=
  addr.s0 = 0 ∧ addr.s1 = 0 ∧ addr.s2 = 0 ∧ addr.s3 = 0 ∧ addr.s4 = 0 ∧ addr.s5 = 0

abbrev Ipv6Addr.InNat64 : Prop :=
  addr.s0 = 0x64 ∧ addr.s1 = 0xff9b ∧ addr.s2 = 0 ∧ addr.s3 = 0 ∧ addr.s4 = 0 ∧ addr.s5 = 0

/-- Where an address embeds another one, and which. -/
theorem embeddedIpv4_eq_some_iff {v4 : Ipv4Addr} : embeddedIpv4 addr = some v4 ↔
    ((addr.InMapped ∨ addr.InCompatible ∨ addr.InNat64) ∧ .ofSegments addr.s6 addr.s7 = v4) ∨
      (addr.s0 = 0x2002 ∧ .ofSegments addr.s1 addr.s2 = v4) := by
  have sixToFour (network : addr.s0 = 0x2002) :
      ¬ (addr.InMapped ∨ addr.InCompatible ∨ addr.InNat64) := by
    rintro (⟨zero, -⟩ | ⟨zero, -⟩ | ⟨other, -⟩)
    · exact absurd (zero.symm.trans network) (by decide)
    · exact absurd (zero.symm.trans network) (by decide)
    · exact absurd (other.symm.trans network) (by decide)
  unfold embeddedIpv4 Ipv6Addr.toIpv4Mapped
  simp only [Bool.or_eq_true, Bool.and_eq_true, beq_iff_eq, and_assoc]
  have low (carries : addr.InMapped ∨ addr.InCompatible ∨ addr.InNat64) :
      some (Ipv4Addr.ofSegments addr.s6 addr.s7) = some v4 ↔
        ((addr.InMapped ∨ addr.InCompatible ∨ addr.InNat64) ∧ .ofSegments addr.s6 addr.s7 = v4) ∨
          (addr.s0 = 0x2002 ∧ .ofSegments addr.s1 addr.s2 = v4) := by
    rw [Option.some_inj, or_iff_left fun network => sixToFour network.1 carries,
      and_iff_right carries]
  by_cases mapped : addr.InMapped
  · rw [if_pos mapped]
    exact low (.inl mapped)
  · rw [if_neg mapped]
    by_cases lower : addr.InCompatible ∨ addr.InNat64
    · rw [if_pos lower]
      exact low (.inr lower)
    · have neither : ¬ (addr.InMapped ∨ addr.InCompatible ∨ addr.InNat64) :=
        not_or.mpr ⟨mapped, lower⟩
      rw [if_neg lower, or_iff_right fun carries => neither carries.1]
      by_cases network : addr.s0 = 0x2002
      · rw [if_pos network, Option.some_inj, and_iff_right network]
      · rw [if_neg network]
        exact iff_of_false nofun fun carries => network carries.1

theorem Ipv4Addr.value_eq (v4 : Ipv4Addr) :
    v4.value = ((v4.a.toNat * 256 + v4.b.toNat) * 256 + v4.c.toNat) * 256 + v4.d.toNat := by
  simp [value, octets, Cidr.value, Nat.shiftLeft_eq]
  omega

/-- Two segments are the number of an address. -/
theorem Ipv4Addr.ofSegments_eq_iff {x y : BitVec 16} {v4 : Ipv4Addr} :
    .ofSegments x y = v4 ↔ v4.value = x.toNat * 65536 + y.toNat := by
  have high (segment : BitVec 16) : (highOctet segment).toNat = segment.toNat / 256 := by
    have bound := segment.isLt
    simp [highOctet, Nat.shiftRight_eq_div_pow]
    omega
  have low (segment : BitVec 16) : (lowOctet segment).toNat = segment.toNat % 256 := by
    simp [lowOctet]
  have bounds := And.intro v4.a.isLt (And.intro v4.b.isLt (And.intro v4.c.isLt v4.d.isLt))
  have bounds' := And.intro x.isLt y.isLt
  rw [v4.value_eq]
  cases v4
  simp only [ofSegments, mk.injEq, BitVec.toNat_eq, high, low]
  omega

theorem Ipv6Addr.value_eq :
    addr.value =
      ((((((addr.s0.toNat * 65536 + addr.s1.toNat) * 65536 + addr.s2.toNat) * 65536 +
        addr.s3.toNat) * 65536 + addr.s4.toNat) * 65536 + addr.s5.toNat) * 65536 +
          addr.s6.toNat) * 65536 + addr.s7.toNat := by
  simp [value, segments, Cidr.value, Nat.shiftLeft_eq]
  omega

/-- An address of a network carries the IPv4 address that it has in its last segments. -/
theorem carried_last_iff {v4 : Ipv4Addr} (network : Ipv6Addr) (sixth : network.s6 = 0)
    (seventh : network.s7 = 0) :
    (addr.s0 = network.s0 ∧ addr.s1 = network.s1 ∧ addr.s2 = network.s2 ∧ addr.s3 = network.s3 ∧
      addr.s4 = network.s4 ∧ addr.s5 = network.s5) ∧ .ofSegments addr.s6 addr.s7 = v4 ↔
      addr.value = network.value + v4.value := by
  have bounds := And.intro addr.s1.isLt (And.intro addr.s2.isLt (And.intro addr.s3.isLt
    (And.intro addr.s4.isLt (And.intro addr.s5.isLt (And.intro addr.s6.isLt addr.s7.isLt)))))
  have bounds' := And.intro network.s1.isLt (And.intro network.s2.isLt (And.intro network.s3.isLt
    (And.intro network.s4.isLt network.s5.isLt)))
  have bound : v4.value < 2 ^ 32 := Cidr.value_lt v4.octets
  rw [Ipv4Addr.ofSegments_eq_iff, addr.value_eq, network.value_eq, sixth, seventh]
  simp only [BitVec.toNat_eq, BitVec.ofNat_eq_ofNat, BitVec.toNat_ofNat, Nat.zero_mod]
  constructor
  · rintro ⟨segments, low⟩
    omega
  · intro equal
    exact ⟨by omega, by omega⟩

/-- An address of the network of 6to4 carries the IPv4 address that it has behind the network. -/
theorem carried_sixToFour_iff {v4 : Ipv4Addr} :
    addr.s0 = 0x2002 ∧ .ofSegments addr.s1 addr.s2 = v4 ↔
    addr.value >>> 80 = Ipv6Addr.value ⟨0x2002, 0, 0, 0, 0, 0, 0, 0⟩ >>> 80 + v4.value := by
  have bounds := And.intro addr.s1.isLt (And.intro addr.s2.isLt (And.intro addr.s3.isLt
    (And.intro addr.s4.isLt (And.intro addr.s5.isLt (And.intro addr.s6.isLt addr.s7.isLt)))))
  have bound : v4.value < 2 ^ 32 := Cidr.value_lt v4.octets
  have base : Ipv6Addr.value ⟨0x2002, 0, 0, 0, 0, 0, 0, 0⟩ >>> 80 = 0x2002 * 65536 * 65536 := by
    decide
  rw [base, Ipv4Addr.ofSegments_eq_iff, addr.value_eq, Nat.shiftRight_eq_div_pow]
  simp only [BitVec.toNat_eq, BitVec.ofNat_eq_ofNat, BitVec.toNat_ofNat]
  constructor
  · rintro ⟨network, low⟩
    omega
  · intro equal
    exact ⟨by omega, by omega⟩

/-- The filter finds the address that an address carries. -/
theorem embeddedIpv4_eq_some_iff_carries {v4 : Ipv4Addr} : embeddedIpv4 addr = some v4 ↔
    Carries addr v4 := by
  have mapped : addr.InMapped ∧ .ofSegments addr.s6 addr.s7 = v4 ↔ _ :=
    carried_last_iff addr ⟨0, 0, 0, 0, 0, 0xffff, 0, 0⟩ rfl rfl
  have compatible : addr.InCompatible ∧ .ofSegments addr.s6 addr.s7 = v4 ↔ _ :=
    carried_last_iff addr ⟨0, 0, 0, 0, 0, 0, 0, 0⟩ rfl rfl
  have nat64 : addr.InNat64 ∧ .ofSegments addr.s6 addr.s7 = v4 ↔ _ :=
    carried_last_iff addr ⟨0x64, 0xff9b, 0, 0, 0, 0, 0, 0⟩ rfl rfl
  have zero : Ipv6Addr.value ⟨0, 0, 0, 0, 0, 0, 0, 0⟩ = 0 := by decide
  rw [zero, Nat.zero_add] at compatible
  rw [embeddedIpv4_eq_some_iff, or_and_right, or_and_right, mapped, compatible, nat64,
    carried_sixToFour_iff]
  constructor
  · rintro ((equal | equal | equal) | equal)
    · exact .mapped equal
    · exact .compatible equal
    · exact .nat64 equal
    · exact .sixToFour equal
  · intro carries
    cases carries with
    | mapped equal => exact .inl (.inl equal)
    | compatible equal => exact .inl (.inr (.inl equal))
    | nat64 equal => exact .inl (.inr (.inr equal))
    | sixToFour equal => exact .inr equal

/-- Outside of the networks with embedded addresses the segments are tested. -/
theorem isDisallowedIp_v6_iff (first : addr.s0 ≠ 0) (sixToFour : addr.s0 ≠ 0x2002)
    (nat64 : ¬ (addr.s0 = 0x64 ∧ addr.s1 = 0xff9b ∧ addr.s2 = 0)) :
    isDisallowedIp (.v6 addr) = true ↔ addr.s0.toNat >>> 8 = 255 ∨ addr.s0.toNat >>> 9 = 126 ∨
      addr.s0.toNat >>> 6 = 1018 ∨ addr.s0.toNat >>> 6 = 1019 ∨
      (addr.s0 = 0x2001 ∧ addr.s1 = 0x0db8) ∨
      (addr.s0 = 0x2001 ∧ addr.s1 = 0) ∨ (addr.s0 = 0x64 ∧ addr.s1 = 0xff9b ∧ addr.s2 = 1) ∨
      (addr.s0 = 0x100 ∧ addr.s1 = 0 ∧ addr.s2 = 0 ∧ addr.s3 = 0) := by
  have multicast : addr.s0 &&& 0xff00 = 0xff00 ↔ addr.s0.toNat >>> 8 = 255 :=
    Cidr.and_leading_eq_iff rfl rfl
  have uniqueLocal : addr.s0 &&& 0xfe00 = 0xfc00 ↔ addr.s0.toNat >>> 9 = 126 :=
    Cidr.and_leading_eq_iff rfl rfl
  have linkLocal : addr.s0 &&& 0xffc0 = 0xfe80 ↔ addr.s0.toNat >>> 6 = 1018 :=
    Cidr.and_leading_eq_iff rfl rfl
  have siteLocal : addr.s0 &&& 0xffc0 = 0xfec0 ↔ addr.s0.toNat >>> 6 = 1019 :=
    Cidr.and_leading_eq_iff rfl rfl
  have ordinary : (addr.isLoopback || addr.isUnspecified) = false := by
    rw [Bool.or_eq_false_iff, Ipv6Addr.isLoopback, Ipv6Addr.isUnspecified, beq_eq_false_iff_ne,
      beq_eq_false_iff_ne]
    exact ⟨fun equal => first (by rw [equal]; rfl), fun equal => first (by rw [equal]; rfl)⟩
  have bare : embeddedIpv4 addr = none := by
    refine Option.eq_none_iff_forall_ne_some.mpr fun v4 found => ?_
    rcases (embeddedIpv4_eq_some_iff addr).mp found with
      ⟨mapped | compatible | translated, -⟩ | ⟨network, -⟩
    · exact first mapped.1
    · exact first compatible.1
    · exact nat64 ⟨translated.1, translated.2.1, translated.2.2.1⟩
    · exact sixToFour network
  simp only [isDisallowedIp, ordinary, bare, Ipv6Addr.isMulticast, Bool.or_eq_true,
    Bool.and_eq_true, beq_iff_eq, multicast, uniqueLocal, linkLocal, siteLocal, or_assoc, and_assoc,
      Bool.false_eq_true, if_false]

/-- The blocks of documentation and benchmarking addresses that the filter leaves out. -/
def Missed : IpAddr → Prop
  | .v4 _ => False
  | .v6 addr =>
      (⟨Ipv6Addr.value ⟨0x3fff, 0, 0, 0, 0, 0, 0, 0⟩, 20⟩ : Cidr.Block 128).Contains addr.value ∨
        (⟨Ipv6Addr.value ⟨0x2001, 2, 0, 0, 0, 0, 0, 0⟩, 48⟩ : Cidr.Block 128).Contains addr.value

/-- The two networks that the filter misses, by their segments. -/
theorem missed_v6_iff : Missed (.v6 addr) ↔ (addr.s0 = 0x3fff ∧ addr.s1.toNat >>> 12 = 0) ∨
    (addr.s0 = 0x2001 ∧ addr.s1 = 2 ∧ addr.s2 = 0) := by
  rw [Missed, addr.contains_iff _ (by decide), addr.contains_iff _ (by decide)]
  simp [Cidr.Agree, Ipv6Addr.segments]

/-- A missed address is allowed. -/
theorem not_disallowed_of_missed (missed : Missed (.v6 addr)) :
    isDisallowedIp (.v6 addr) = false := by
  rw [missed_v6_iff] at missed
  rw [← Bool.not_eq_true, isDisallowedIp_v6_iff]
  · rcases missed with ⟨first, -⟩ | ⟨first, second, -⟩
    · simp [first]
    · simp [first, second]
  all_goals rcases missed with ⟨first, -⟩ | ⟨first, -⟩ <;> simp [first]

/-- The networks at the end of the address space are tested by their leading bits. -/
theorem isDisallowedIp_of_high (high : 0xfc00 ≤ addr.s0.toNat) (tested : addr.s0.toNat >>> 8 = 255 ∨
    addr.s0.toNat >>> 9 = 126 ∨ addr.s0.toNat >>> 6 = 1018 ∨ addr.s0.toNat >>> 6 = 1019) :
    isDisallowedIp (.v6 addr) = true := by
  have apart {other : BitVec 16} (low : other.toNat < 0xfc00) : addr.s0 ≠ other := by
    rintro rfl
    exact absurd high (Nat.not_le_of_lt low)
  rw [isDisallowedIp_v6_iff addr (apart (by decide)) (apart (by decide))
    fun translated => apart (by decide) translated.1]
  rcases tested with multicast | uniqueLocal | linkLocal | siteLocal
  · exact .inl multicast
  · exact .inr (.inl uniqueLocal)
  · exact .inr (.inr (.inl linkLocal))
  · exact .inr (.inr (.inr (.inl siteLocal)))

/-- Every address of a listed class is disallowed, unless it is missed. -/
theorem isDisallowedIp_of_has {kind : AddressClass} (has : kind.Has (.v6 addr))
    (covered : ¬ Missed (.v6 addr)) :
    isDisallowedIp (.v6 addr) = true := by
  rw [missed_v6_iff] at covered
  cases kind <;>
    simp (disch := decide) [AddressClass.Has, AddressClass.blocks6, Ipv6Addr.contains_iff,
      Cidr.Agree, Ipv6Addr.segments] at has
  case loopback =>
    have same : addr = .loopback := by
      cases addr
      simpa [Ipv6Addr.loopback] using has
    rw [same]
    rfl
  case privateUse =>
    rcases has with uniqueLocal | siteLocal
    · exact isDisallowedIp_of_high addr (leading_range uniqueLocal).1 (.inr (.inl uniqueLocal))
    · exact isDisallowedIp_of_high addr (Nat.le_trans (by decide) (leading_range siteLocal).1)
        (.inr (.inr (.inr siteLocal)))
  case linkLocal =>
    exact isDisallowedIp_of_high addr (Nat.le_trans (by decide) (leading_range has).1)
      (.inr (.inr (.inl has)))
  case unspecified =>
    have same : addr = .unspecified := by
      cases addr
      simpa [Ipv6Addr.unspecified] using has
    rw [same]
    rfl
  case documentation =>
    rcases has with ⟨first, second⟩ | missed
    · rw [isDisallowedIp_v6_iff] <;> simp [first, second]
    · exact absurd (.inl missed) covered
  case benchmarking => exact absurd (.inr has) covered
  case multicast =>
    exact isDisallowedIp_of_high addr (Nat.le_trans (by decide) (leading_range has).1) (.inl has)
  case reserved => rw [isDisallowedIp_v6_iff] <;> simp [has]
  case tunnel =>
    rcases has with ⟨first, second⟩ | ⟨first, second, third⟩
    · rw [isDisallowedIp_v6_iff] <;> simp [first, second]
    · rw [isDisallowedIp_v6_iff] <;> simp [first, second, third]

/-- An address that carries another one is tested as that one. -/
theorem isDisallowedIp_of_carries {v4 : Ipv4Addr} (carries : Carries addr v4)
    (specified : addr ≠ .unspecified)
    (remote : addr ≠ .loopback) : isDisallowedIp (.v6 addr) = isDisallowedIp (.v4 v4) := by
  have embedded := (embeddedIpv4_eq_some_iff_carries addr).mpr carries
  have ordinary : (addr.isLoopback || addr.isUnspecified) = false := by
    simp [Ipv6Addr.isLoopback, Ipv6Addr.isUnspecified, specified, remote]
  simp only [isDisallowedIp, ordinary, embedded, Bool.false_eq_true, if_false]

end Ipv6

/-- The filter refuses the address if a class has it, and an address that carries another
one if it refuses that one. -/
structure Filtered (ip : IpAddr) : Prop where
  classes : ∀ kind : AddressClass, kind.Has ip → isDisallowedIp ip = true
  carried : ∀ v6 v4, ip = .v6 v6 → Carries v6 v4 → v6 ≠ .unspecified → v6 ≠ .loopback →
    isDisallowedIp ip = isDisallowedIp (.v4 v4)

/-- An address is filtered as it should be when it is not missed. -/
theorem filtered_iff (ip : IpAddr) : Filtered ip ↔ ¬ Missed ip := by
  cases ip with
  | v4 addr => exact iff_of_true ⟨fun _ has => isDisallowedIpv4_of_has addr has, nofun⟩ id
  | v6 addr =>
      constructor
      · intro filtered missed
        have refused : isDisallowedIp (.v6 addr) = true := by
          rcases missed with documentation | benchmarking
          · exact filtered.classes .documentation ⟨_, by simp [AddressClass.blocks6], documentation⟩
          · exact filtered.classes .benchmarking ⟨_, by simp [AddressClass.blocks6], benchmarking⟩
        exact absurd refused (by simp [not_disallowed_of_missed addr missed])
      · intro covered
        refine ⟨fun _ has => isDisallowedIp_of_has addr has covered, ?_⟩
        rintro v6 v4 ⟨⟩ carries specified remote
        exact isDisallowedIp_of_carries addr carries specified remote

/-- A host that passes is an allowed literal, or a name all of whose addresses
are allowed and one is pinned. -/
def Passes (resolver : Resolver) (host : String) (port : BitVec 16)
    (pinned : Option SocketAddr) : Prop :=
  match resolver.parse (hostLiteral host) with
  | some ip => isDisallowedIp ip = false ∧ pinned = none
  | none => ∃ addrs, resolver.lookupHost host port = .ok addrs ∧
      (∀ addr ∈ addrs, isDisallowedIp addr.ip = false) ∧ ∃ addr ∈ addrs, pinned = some addr

/-- The check lets a host pass only if it passes. -/
theorem resolveAndCheck_ok {resolver : Resolver} {host : String} {port : BitVec 16}
    {pinned : Option SocketAddr}
    (passed : resolveAndCheck resolver host port = .ok pinned) :
    Passes resolver host port pinned := by
  unfold resolveAndCheck at passed
  unfold Passes
  cases literal : resolver.parse (hostLiteral host) with
  | some ip =>
      simp only [literal] at passed
      split at passed
      · cases passed
      · next allowed => exact ⟨by simpa using allowed, (Except.ok.inj passed).symm⟩
  | none =>
      simp only [literal] at passed
      cases looked : resolver.lookupHost host port with
      | error reason => simp [looked] at passed
      | ok addrs =>
          cases addrs with
          | nil => simp [looked] at passed
          | cons first rest =>
              simp only [looked] at passed
              split at passed
              · cases passed
              · next clean =>
                  have allowed := List.find?_eq_none.mp clean
                  exact ⟨_, rfl, fun addr member => by simpa using allowed addr member, first,
                    List.mem_cons_self, (Except.ok.inj passed).symm⟩

/-- The filter is complete but for two blocks, and what passes the check is allowed. -/
theorem address_filter (ip : IpAddr) : (Filtered ip ↔ ¬ Missed ip) ∧ ∀ resolver host port pinned,
    resolveAndCheck resolver host port = .ok pinned → Passes resolver host port pinned :=
  ⟨filtered_iff ip, fun _ _ _ _ => resolveAndCheck_ok⟩

/-- A documentation address is fetched. -/
theorem documentation_missed :
    AddressClass.documentation.Has (.v6 ⟨0x3fff, 0, 0, 0, 0, 0, 0, 1⟩) ∧
      isDisallowedIp (.v6 ⟨0x3fff, 0, 0, 0, 0, 0, 0, 1⟩) = false ∧
        ¬ Filtered (.v6 ⟨0x3fff, 0, 0, 0, 0, 0, 0, 1⟩) := by
  have has : AddressClass.documentation.Has (.v6 ⟨0x3fff, 0, 0, 0, 0, 0, 0, 1⟩) :=
    ⟨_, List.mem_cons_of_mem _ List.mem_cons_self, by decide⟩
  have allowed : isDisallowedIp (.v6 ⟨0x3fff, 0, 0, 0, 0, 0, 0, 1⟩) = false := by decide
  exact ⟨has, allowed, fun filtered =>
    Bool.false_ne_true (allowed.symm.trans (filtered.classes _ has))⟩

end Openheim.Tools
