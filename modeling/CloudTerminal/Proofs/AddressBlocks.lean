import CloudTerminal.Host.Address

/-!
Which blocks the addresses of named hosts lie in. The first octet comes out of a digest between 1 and 223 and
steps over 10 and 127, and no octet is computed beyond 255 (`first_octet_of_digest`). So the blocks that one
octet decides are avoided. Those that need a second octet are not: the digests that lead into them are exactly
known, and there are names that have them (`named_hosts_avoid_blocks_of_one_octet`).
-/

namespace CloudTerminal.Host

/-- The number with the octets as its digits. -/
def Address.number (address : Address) : Nat :=
  ((address.first.toNat * 256 + address.second.toNat) * 256 + address.third.toNat) * 256 + address.fourth.toNat

/-- The addresses that agree with one of them in the leading bits. -/
structure Block where
  base : Address
  bits : Nat

namespace Block

def Holds (block : Block) (address : Address) : Prop :=
  address.number >>> (32 - block.bits) = block.base.number >>> (32 - block.bits)

instance (block : Block) (address : Address) : Decidable (block.Holds address) :=
  inferInstanceAs (Decidable (_ = _))

def ownNetwork : Block := ⟨⟨0, 0, 0, 0⟩, 8⟩
def loopback : Block := ⟨⟨127, 0, 0, 0⟩, 8⟩
def largePrivate : Block := ⟨⟨10, 0, 0, 0⟩, 8⟩
def mediumPrivate : Block := ⟨⟨172, 16, 0, 0⟩, 12⟩
def smallPrivate : Block := ⟨⟨192, 168, 0, 0⟩, 16⟩
def linkLocal : Block := ⟨⟨169, 254, 0, 0⟩, 16⟩

/-- Multicast addresses and those that are kept for later. -/
def reserved : Block := ⟨⟨224, 0, 0, 0⟩, 3⟩

end Block

section Octets

variable (address : Address)

theorem number_by_its_first_octet : address.number >>> 24 = address.first.toNat := by
  have second := address.second.toNat_lt
  have third := address.third.toNat_lt
  have fourth := address.fourth.toNat_lt
  rw [Nat.shiftRight_eq_div_pow, Address.number]
  omega

theorem number_by_its_first_two : address.number >>> 16 = address.first.toNat * 256 + address.second.toNat := by
  have third := address.third.toNat_lt
  have fourth := address.fourth.toNat_lt
  rw [Nat.shiftRight_eq_div_pow, Address.number]
  omega

theorem holds_iff_first (one : UInt8) :
    (⟨⟨one, 0, 0, 0⟩, 8⟩ : Block).Holds address ↔ address.first.toNat = one.toNat := by
  rw [← number_by_its_first_octet address, ← number_by_its_first_octet ⟨one, 0, 0, 0⟩]
  rfl

theorem holds_iff_first_two (one two : UInt8) : (⟨⟨one, two, 0, 0⟩, 16⟩ : Block).Holds address ↔
    address.first.toNat = one.toNat ∧ address.second.toNat = two.toNat := by
  have held : (⟨⟨one, two, 0, 0⟩, 16⟩ : Block).Holds address ↔
      address.number >>> 16 = (⟨one, two, 0, 0⟩ : Address).number >>> 16 := .rfl
  have base : (⟨one, two, 0, 0⟩ : Address).number >>> 16 = one.toNat * 256 + two.toNat := number_by_its_first_two _
  have second := address.second.toNat_lt
  have second' := two.toNat_lt
  rw [held, base, number_by_its_first_two]
  omega

/-- The one block whose mask ends within an octet: its second octet is bounded from both sides. -/
theorem mediumPrivate_holds_iff : Block.mediumPrivate.Holds address ↔
    address.first.toNat = 172 ∧ 16 ≤ address.second.toNat ∧ address.second.toNat ≤ 31 := by
  have held : Block.mediumPrivate.Holds address ↔ address.number >>> (16 + 4) = 172 * 16 + 1 := .rfl
  have second := address.second.toNat_lt
  rw [held, Nat.shiftRight_add, number_by_its_first_two, Nat.shiftRight_eq_div_pow]
  omega

theorem reserved_holds_iff : Block.reserved.Holds address ↔ 224 ≤ address.first.toNat := by
  have held : Block.reserved.Holds address ↔ address.number >>> (24 + 5) = 7 := .rfl
  have first := address.first.toNat_lt
  rw [held, Nat.shiftRight_add, number_by_its_first_octet, Nat.shiftRight_eq_div_pow]
  omega

end Octets

section Digests

variable (digest : Vector UInt8 32)

/-- The first octet is computed without going beyond 255. -/
theorem first_octet_of_digest :
    let start := 1 + (Digest.byteAt digest 0).toNat % 222
    (addressOfDigest digest).first.toNat = if start = 10 ∨ start = 127 then start + 1 else start := by
  intro start
  have begins : (1 + Digest.byteAt digest 0 % 222).toNat = start := by
    simp only [UInt8.toNat_add, UInt8.toNat_mod, UInt8.reduceToNat, start]
    omega
  have skipped : ∀ octet : UInt8, 1 + Digest.byteAt digest 0 % 222 = octet ↔ start = octet.toNat := fun octet => by
    rw [← UInt8.toNat_inj, begins]
  simp only [addressOfDigest, skipped, UInt8.reduceToNat]
  split
  · rw [UInt8.toNat_add, begins]
    simp only [UInt8.reduceToNat]
    omega
  · exact begins

/-- The address of a named host is never the address of a network. -/
theorem last_octet_of_digest : (addressOfDigest digest).fourth ≠ 0 := by
  have greatest : (addressOfDigest digest).fourth =
      if Digest.byteAt digest 3 ≤ 1 then 1 else Digest.byteAt digest 3 := rfl
  rw [greatest]
  split
  · decide
  · rename_i above
    rintro zero
    exact above (by rw [zero]; decide)

end Digests

/-- A host that is neither an address itself nor the own host has the address that its digest gives. -/
theorem resolve_of_a_name {host : String} {address : Address} (resolved : resolve? host = some address)
    (named : Address.ofText? host = none) (other : host ≠ "localhost") :
    address = addressOfDigest (Digest.ofText host) := by
  rw [resolve?, named] at resolved
  simp only [other, if_false] at resolved
  split at resolved
  · exact (Option.some.inj resolved).symm
  · cases resolved

/-- The address of a host that is neither an address itself nor the own host lies in no block that its first
octet decides. It may lie in three blocks for which the second octet counts. -/
theorem named_hosts_avoid_blocks_of_one_octet (host : String) (address : Address)
    (resolved : resolve? host = some address) (named : Address.ofText? host = none) (other : host ≠ "localhost") :
    let digest := Digest.ofText host
    let start := 1 + (Digest.byteAt digest 0).toNat % 222
    let second := (Digest.byteAt digest 1).toNat
    address.first.toNat = (if start = 10 ∨ start = 127 then start + 1 else start) ∧ address.fourth ≠ 0 ∧
      (∀ block ∈ [Block.ownNetwork, .loopback, .largePrivate, .reserved], ¬ block.Holds address) ∧
      (Block.mediumPrivate.Holds address ↔ start = 172 ∧ 16 ≤ second ∧ second ≤ 31) ∧
      (Block.smallPrivate.Holds address ↔ start = 192 ∧ second = 168) ∧
      (Block.linkLocal.Holds address ↔ start = 169 ∧ second = 254) := by
  intro digest start second
  obtain rfl := resolve_of_a_name resolved named other
  have first := first_octet_of_digest digest
  have from_digest : (addressOfDigest digest).second.toNat = second := rfl
  refine ⟨first, last_octet_of_digest digest, ?_, ?_, ?_, ?_⟩
  · have range : 1 ≤ start ∧ start ≤ 222 := by
      simp only [start]
      omega
    have avoided : (addressOfDigest digest).first.toNat ∉ [0, 127, 10] ∧
        (addressOfDigest digest).first.toNat < 224 := by
      rw [first]
      split <;> simp <;> omega
    simp only [List.mem_cons, List.not_mem_nil, or_false, not_or] at avoided
    obtain ⟨⟨own, loopback, large⟩, reserved⟩ := avoided
    rintro block listed holds
    simp only [List.mem_cons, List.not_mem_nil, or_false] at listed
    rcases listed with rfl | rfl | rfl | rfl
    · exact own ((holds_iff_first _ 0).mp holds)
    · exact loopback ((holds_iff_first _ 127).mp holds)
    · exact large ((holds_iff_first _ 10).mp holds)
    · exact Nat.not_le_of_lt reserved ((reserved_holds_iff _).mp holds)
  · rw [mediumPrivate_holds_iff, from_digest, first]
    split <;> omega
  · have small : Block.smallPrivate.Holds (addressOfDigest digest) ↔
        (addressOfDigest digest).first.toNat = 192 ∧ (addressOfDigest digest).second.toNat = 168 :=
      holds_iff_first_two _ 192 168
    rw [small, from_digest, first]
    split <;> omega
  · have link : Block.linkLocal.Holds (addressOfDigest digest) ↔
        (addressOfDigest digest).first.toNat = 169 ∧ (addressOfDigest digest).second.toNat = 254 :=
      holds_iff_first_two _ 169 254
    rw [link, from_digest, first]
    split <;> omega

/-- The second octets of these names lead into a private block. -/
theorem name_with_an_address_in_a_private_block :
    resolve? "appf" = some ⟨192, 168, 81, 204⟩ ∧ Address.ofText? "appf" = none ∧ "appf" ≠ "localhost" ∧
      Block.smallPrivate.Holds ⟨192, 168, 81, 204⟩ ∧ ¬ Block.linkLocal.Holds ⟨192, 168, 81, 204⟩ := by
  have resolved : resolve? "appf" = some ⟨192, 168, 81, 204⟩ := by decide +kernel
  have named : Address.ofText? "appf" = none := by decide
  have first : 1 + (Digest.byteAt (Digest.ofText "appf") 0).toNat % 222 = 192 := by decide +kernel
  have second : (Digest.byteAt (Digest.ofText "appf") 1).toNat = 168 := by decide +kernel
  obtain ⟨-, -, -, -, small, link⟩ :=
    named_hosts_avoid_blocks_of_one_octet "appf" ⟨192, 168, 81, 204⟩ resolved named (by decide)
  refine ⟨resolved, named, by decide, small.mpr ⟨first, second⟩, fun held => ?_⟩
  rw [first] at link
  exact absurd (link.mp held).1 (by decide)

/-- There are names whose addresses are private or reach the own link only. -/
theorem named_hosts_may_have_private_addresses :
    (∃ address, resolve? "gnu" = some address ∧ Address.ofText? "gnu" = none ∧ Block.mediumPrivate.Holds address) ∧
    (∃ address, resolve? "appf" = some address ∧ Address.ofText? "appf" = none ∧
      Block.smallPrivate.Holds address) ∧
    ∃ address, resolve? "0o1" = some address ∧ Address.ofText? "0o1" = none ∧ Block.linkLocal.Holds address := by
  refine ⟨⟨⟨172, 19, 123, 2⟩, ?_⟩, ⟨⟨192, 168, 81, 204⟩, ?_⟩, ⟨⟨169, 254, 163, 31⟩, ?_⟩⟩ <;> decide +kernel

end CloudTerminal.Host
