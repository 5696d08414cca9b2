import CloudTerminal.Host.Address
import CloudTerminal.Proofs.PageUrls
import CloudTerminal.Proofs.Words

/-!
The texts that name hosts. A host has an address exactly if its name is made of labels with dots between them
and is short enough (`resolves_iff_host_name`): addresses in dotted decimal are names of this kind themselves,
and they are the only texts that are read as addresses (`address_is_read_iff_written`). A name holds no
character that a URL is cut at, so that alone it is the URL of the page at the host's root
(`host_name_is_the_url_of_its_root`).
-/

namespace CloudTerminal.Host

open PageUrl (isHostEnd)

/-- A part of a host's name between dots. -/
structure IsHostLabel (label : String) : Prop where
  filled : label ≠ ""
  characters : ∀ c ∈ label.toList, c.isAlphanum = true ∨ c = '-'
  start : label.toList.head? ≠ some '-'
  ending : label.toList.getLast? ≠ some '-'

/-- A text that can be the name of a host. -/
structure IsHostName (host : String) : Prop where
  size : 1 ≤ host.utf8ByteSize ∧ host.utf8ByteSize ≤ 253
  labels : ∃ labels, host = ".".intercalate labels ∧ ∀ label ∈ labels, IsHostLabel label

namespace Address

def octets (address : Address) : List UInt8 := [address.first, address.second, address.third, address.fourth]

/-- The octets of an address as numerals. -/
def numerals (address : Address) : List (List Char) := address.octets.map fun octet => Nat.toDigits 10 octet.toNat

theorem numerals_hold_digits {address : Address} : ∀ piece ∈ address.numerals, ∀ c ∈ piece, c.isDigit = true :=
  List.forall_mem_map.mpr fun _ _ _ => Nat.isDigit_of_mem_toDigits (by decide) (by decide)

theorem toList_text (address : Address) : address.text.toList = ['.'].intercalate address.numerals := by
  simp [text, numerals, octets, toString, Nat.repr]

/-- An octet is read from its decimal numeral without leading zeros, and from nothing else. -/
theorem readOctet_iff {text : List Char} {octet : UInt8} :
    readOctet? text = some octet ↔ text = Nat.toDigits 10 octet.toNat := by
  rw [Text.numeral_iff_read_without_leading_zero]
  unfold readOctet?
  split
  · rename_i zeros
    simp [zeros]
  · rename_i fits
    have alone : text.head? = some '0' → text.length = 1 := fun zero => by
      by_contra longer
      exact fits ⟨longer, zero⟩
    split
    · rename_i n read
      simp only [read, Option.some.injEq, and_iff_left alone]
      by_cases small : n < 256
      · have value : n.toUInt8.toNat = n := by simpa using Nat.mod_eq_of_lt small
        rw [if_pos small, Option.some.injEq, ← UInt8.toNat_inj, value]
      · have other : n ≠ octet.toNat := by
          have := octet.toNat_lt
          omega
        simp [small, other]
    · rename_i unread
      simp [unread]

theorem octets_are_read_iff_written {pieces : List (List Char)} {octets : List UInt8} :
    pieces.map readOctet? = octets.map some ↔ pieces = octets.map fun octet => Nat.toDigits 10 octet.toNat := by
  induction pieces generalizing octets with
  | nil => cases octets <;> simp
  | cons piece pieces ih =>
    cases octets with
    | nil => simp
    | cons octet octets => simp [readOctet_iff, ih]

/-- An address is read from the text that it is written as, and from no other. -/
theorem address_is_read_iff_written {text : String} {address : Address} :
    ofText? text = some address ↔ text = address.text := by
  have pieces : Text.splitAll (· == '.') text.toList = address.numerals ↔
      text.toList = ['.'].intercalate address.numerals :=
    Text.pieces_iff_joined (List.cons_ne_nil _ _) fun piece member dot =>
      absurd (numerals_hold_digits piece member '.' dot) (by decide)
  rw [← String.toList_inj, toList_text, ← pieces, numerals, ← octets_are_read_iff_written]
  unfold ofText?
  split
  · rename_i first second third fourth read
    rw [read]
    cases address
    simp [octets]
  · rename_i unread
    constructor
    · intro read
      cases read
    · intro read
      exact absurd read (unread _ _ _ _)

/-- No two addresses are written alike, since each is read back from its text. -/
theorem text_determines_the_address {address other : Address} (same : address.text = other.text) :
    address = other := by
  have read := address_is_read_iff_written.mpr same
  rw [address_is_read_iff_written.mpr rfl] at read
  exact Option.some.inj read

end Address

/-- No character takes more than four bytes. -/
theorem byte_size_le (characters : List Char) :
    (String.ofList characters).utf8ByteSize ≤ 4 * characters.length := by
  induction characters with
  | nil => decide
  | cons c rest ih =>
    have size := c.utf8Size_le_four
    rw [String.ofList_cons, String.utf8ByteSize_append, String.utf8ByteSize_singleton, List.length_cons]
    omega

section Names

variable {host : String}

theorem label_iff (label : String) : isLabel label.toList = true ↔ IsHostLabel label := by
  simp only [isLabel, Bool.and_eq_true, List.all_eq_true, Bool.or_eq_true, beq_iff_eq, bne_iff_ne,
    Bool.not_eq_true', List.isEmpty_eq_false_iff]
  constructor
  · rintro ⟨⟨⟨filled, start⟩, ending⟩, characters⟩
    exact ⟨by simpa using filled, characters, start, ending⟩
  · rintro ⟨filled, characters, start, ending⟩
    exact ⟨⟨⟨by simpa using filled, start⟩, ending⟩, characters⟩

theorem other_character_is_not_in_a_label {c : Char} {label : String} (other : (c.isAlphanum || c == '-') = false)
    (isLabel : IsHostLabel label) : c ∉ label.toList := by
  intro inside
  have allowed := isLabel.characters c inside
  simp only [Bool.or_eq_false_iff, beq_eq_false_iff_ne] at other
  simp [other] at allowed

/-- The names that are accepted are those that consist of labels. -/
theorem name_iff (host : String) : isName host = true ↔ IsHostName host := by
  have filled : 1 ≤ host.utf8ByteSize ↔ host ≠ "" := by
    rw [Nat.one_le_iff_ne_zero, ne_eq, String.utf8ByteSize_eq_zero_iff]
  simp only [isName, Bool.and_eq_true, bne_iff_ne, decide_eq_true_eq, List.all_eq_true]
  constructor
  · rintro ⟨⟨some_there, short⟩, labels⟩
    refine ⟨⟨filled.mpr some_there, short⟩, (Text.splitAll (· == '.') host.toList).map String.ofList, ?_, ?_⟩
    · rw [← String.toList_inj, String.toList_intercalate, List.map_map]
      simpa using (Text.joined_pieces '.' host.toList).symm
    · refine List.forall_mem_map.mpr fun piece member => (label_iff _).mp ?_
      rw [String.toList_ofList]
      exact labels piece member
  · rintro ⟨⟨some_there, short⟩, labels, rfl, areLabels⟩
    have pieces : Text.splitAll (· == '.') (".".intercalate labels).toList = labels.map String.toList := by
      refine (Text.pieces_iff_joined ?_ ?_).mpr String.toList_intercalate
      · rw [ne_eq, List.map_eq_nil_iff]
        rintro rfl
        exact absurd some_there (by decide)
      · exact List.forall_mem_map.mpr fun label member => other_character_is_not_in_a_label (by decide)
          (areLabels label member)
    rw [pieces]
    refine ⟨⟨filled.mp some_there, short⟩, List.forall_mem_map.mpr fun label member => ?_⟩
    exact (label_iff label).mpr (areLabels label member)

/-- The name of a host holds letters, digits, dashes and points only. -/
theorem characters_of_a_name (name : IsHostName host) :
    ∀ c ∈ host.toList, c.isAlphanum = true ∨ c = '-' ∨ c = '.' := by
  intro c member
  by_cases dot : c = '.'
  · exact .inr (.inr dot)
  · have accepted := (name_iff host).mpr name
    simp only [isName, Bool.and_eq_true, List.all_eq_true] at accepted
    have kept : c ∈ (Text.splitAll (· == '.') host.toList).flatten := by
      rw [Text.flatten_splitAll]
      exact List.mem_filter.mpr ⟨member, by simpa using dot⟩
    obtain ⟨piece, there, inside⟩ := List.mem_flatten.mp kept
    have isLabel : IsHostLabel (String.ofList piece) := by
      rw [← label_iff, String.toList_ofList]
      exact accepted.2 piece there
    exact (isLabel.characters c (by simpa using inside)).imp_right .inl

theorem other_character_is_not_in_a_name {c : Char} (other : (c.isAlphanum || c == '-' || c == '.') = false)
    (name : IsHostName host) : c ∉ host.toList := by
  intro inside
  have allowed := characters_of_a_name name c inside
  simp only [Bool.or_eq_false_iff, beq_eq_false_iff_ne] at other
  simp [other] at allowed

theorem numeral_is_a_label (n : Nat) : IsHostLabel (toString n) := by
  have digits : ∀ c ∈ (toString n).toList, c.isDigit = true := by
    intro c member
    have digit : c ∈ Nat.toDigits 10 n := by simpa using member
    exact Nat.isDigit_of_mem_toDigits (by decide) (by decide) digit
  have no_hyphen : '-' ∉ (toString n).toList := fun inside => absurd (digits '-' inside) (by decide)
  refine ⟨by simp, fun c member => .inl ?_, fun start => no_hyphen ?_, fun ending => no_hyphen ?_⟩
  · simp [Char.isAlphanum, digits c member]
  · exact List.mem_of_head? start
  · exact List.mem_of_getLast? ending

/-- An address in dotted decimal is itself a name. -/
theorem address_text_is_a_name (address : Address) : IsHostName address.text := by
  have joined : address.text = ".".intercalate (address.octets.map fun octet => toString octet.toNat) := by
    rw [← String.toList_inj, Address.toList_text, String.toList_intercalate, List.map_map]
    simp [Address.numerals, Function.comp_def]
  have width : ∀ octet : UInt8, (Nat.toDigits 10 octet.toNat).length ≤ 3 := fun octet =>
    (Nat.length_toDigits_le_iff (by decide) (by decide)).mpr (Nat.lt_trans octet.toNat_lt (by decide))
  have length : 3 ≤ address.text.toList.length ∧ address.text.toList.length ≤ 15 := by
    have first := width address.first
    have second := width address.second
    have third := width address.third
    have fourth := width address.fourth
    simp [Address.toList_text, Address.numerals, Address.octets]
    omega
  have filled : address.text ≠ "" := by
    intro nothing
    simp [nothing] at length
  have bytes := byte_size_le address.text.toList
  rw [String.ofList_toList] at bytes
  refine ⟨⟨?_, by omega⟩, _, joined, List.forall_mem_map.mpr fun octet _ => numeral_is_a_label octet.toNat⟩
  rwa [Nat.one_le_iff_ne_zero, ne_eq, String.utf8ByteSize_eq_zero_iff]

/-- A host has an address exactly if its text can be a name. -/
theorem resolves_iff_host_name (host : String) : (∃ address, resolve? host = some address) ↔ IsHostName host := by
  unfold resolve?
  split
  · rename_i address read
    rw [Address.address_is_read_iff_written.mp read]
    exact iff_of_true ⟨address, rfl⟩ (address_text_is_a_name address)
  · split
    · rename_i own
      rw [own]
      exact iff_of_true ⟨_, rfl⟩ ((name_iff "localhost").mp (by decide))
    · rw [← name_iff]
      split <;> simp_all

/-- A name alone is the URL of the page at the host's root. -/
theorem host_name_is_the_url_of_its_root (name : IsHostName host) :
    PageUrl.parse host = some ⟨false, host, none, "/"⟩ := by
  let parts : UrlParts := ⟨.absent, none, host, none, ""⟩
  have unmarked : ∀ c ∈ host.toList, isHostEnd c = false ∧ c ≠ '@' ∧ c ≠ ':' := by
    intro c member
    have other : ∀ mark ∈ ['/', '?', '#', '@', ':'], c ≠ mark := by
      rintro mark listed rfl
      have no_part : ['/', '?', '#', '@', ':'].all
          (fun mark => !(mark.isAlphanum || mark == '-' || mark == '.')) := by
        decide
      have barred := List.all_eq_true.mp no_part c listed
      exact other_character_is_not_in_a_name (by simpa using barred) name member
    simp_all [isHostEnd]
  have separate : parts.Separate := by
    refine ⟨by simp [parts], fun c member => ?_, fun _ c member => (unmarked c member).2.2, by simp [parts]⟩
    exact ⟨(unmarked c member).1, (unmarked c member).2.1⟩
  have same : parts.text = host := by simp [parts, UrlParts.text, Scheme.text]
  have parsed : PageUrl.parse parts.text = some ⟨false, host, none, "/"⟩ :=
    UrlParts.parse_of_parts separate ⟨rfl, rfl, .none, rfl⟩
  rwa [same] at parsed

/-- An address in dotted decimal is not looked up as a name. -/
theorem address_resolves_to_itself (address : Address) : resolve? address.text = some address := by
  rw [resolve?, Address.address_is_read_iff_written.mpr rfl]

end Names

end CloudTerminal.Host
