import CloudTerminal.Directory
import CloudTerminal.Digest.Sha256
import CloudTerminal.Text.Numeral

/-!
Simulated keys: a public key text, its fingerprint and the mark that the agent holds the key.
-/

namespace CloudTerminal

/-- The first sixteen bytes of the SHA-256 digest of a text, in hexadecimal and separated by colons. -/
def fingerprint (material : String) : String :=
  ":".intercalate (((Digest.ofText material).toList.take 16).map fun byte =>
    String.ofList (Text.hexDigits 2 byte.toNat))

/-- `SshKey`: a generated key pair, of which the public half is kept. -/
structure Key where
  name : String
  publicKey : String
  fingerprint : String
  /-- The clock text at its creation. -/
  created : String
  /-- Whether the agent holds the key. -/
  added : Bool := false
  deriving DecidableEq

namespace Key

instance : Named Key where
  label := "ssh key"
  name := Key.name

/-- `SshKey::new`: a fresh key, which the agent does not hold. -/
def generate (name publicKey created : String) : Key :=
  { name, publicKey, fingerprint := CloudTerminal.fingerprint publicKey, created }

/-- `SshKey::mark_added`: marks the key as held by the agent, and tells whether it was not so before. -/
def markAdded (k : Key) : Bool × Key := (!k.added, { k with added := true })

/-- `is_valid_key_name`: whether a name can be that of a key file. -/
def isValidName (name : String) : Bool :=
  name.toList.head?.any (· != '.') &&
    name.toList.all fun c => c.isAlphanum || ['-', '_', '.', '@'].contains c

end Key

end CloudTerminal
