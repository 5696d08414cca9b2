import CloudTerminal.Digest.Sha256
import CloudTerminal.Text.Numeral
import CloudTerminal.Text.Split

/-!
The addresses of simulated hosts. An address stands for itself, `localhost` is the loopback address, and
every other host has an address that the digest of its name decides.
-/

namespace CloudTerminal.Host

/-- `Ipv4Addr`: an address of four octets. -/
structure Address where
  first : UInt8
  second : UInt8
  third : UInt8
  fourth : UInt8
  deriving DecidableEq

namespace Address

/-- The address in dotted decimal. -/
def text (address : Address) : String :=
  s!"{address.first.toNat}.{address.second.toNat}.{address.third.toNat}.{address.fourth.toNat}"

/-- Reads an octet: a decimal number up to 255 without leading zeros. -/
def readOctet? (text : List Char) : Option UInt8 :=
  if text.length ≠ 1 ∧ text.head? = some '0' then none
  else
    match Text.readDigits? 10 text with
    | some n => if n < 256 then some n.toUInt8 else none
    | none => none

/-- Reads an address in dotted decimal. -/
def ofText? (text : String) : Option Address :=
  match (Text.splitAll (· == '.') text.toList).map readOctet? with
  | [some first, some second, some third, some fourth] => some { first, second, third, fourth }
  | _ => none

/-- The address of the own host. -/
def loopback : Address := ⟨127, 0, 0, 1⟩

/-- Whether an address is one of those that lead back to the own host. -/
def isLoopback (address : Address) : Bool := address.first == 127

end Address

/-- Whether a text can be a part of a host name between dots: ASCII letters, digits and hyphens, without a
hyphen at the ends. -/
def isLabel (label : List Char) : Bool :=
  !label.isEmpty && label.head? != some '-' && label.getLast? != some '-' &&
    label.all fun c => c.isAlphanum || c == '-'

/-- `is_valid_hostname`: whether a text can be the name of a host. -/
def isName (host : String) : Bool :=
  host != "" && host.utf8ByteSize ≤ 253 && (Text.splitAll (· == '.') host.toList).all isLabel

/-- The address that a digest decides. It is none of the addresses that are reserved for other uses of the
first octet, and its last octet is not zero. -/
def addressOfDigest (digest : Vector UInt8 32) : Address :=
  let first := 1 + Digest.byteAt digest 0 % 222
  { first := if first = 10 ∨ first = 127 then first + 1 else first
    second := Digest.byteAt digest 1
    third := Digest.byteAt digest 2
    fourth := max (Digest.byteAt digest 3) 1 }

/-- `resolve`: the address of a host, if it has one. -/
def resolve? (host : String) : Option Address :=
  match Address.ofText? host with
  | some address => some address
  | none =>
    if host = "localhost" then some .loopback
    else if isName host then some (addressOfDigest (Digest.ofText host))
    else none

end CloudTerminal.Host
