import CloudTerminal.Random.ChaCha
import CloudTerminal.Text.Base64
import CloudTerminal.Text.Numeral

/-!
Identifiers and public keys. An instance identifier joins a random part and a running number, so that two
of them differ even if the random part repeats.
-/

namespace CloudTerminal

/-- `IdGenerator`, where identifiers and keys come from: a random source, and the number of identifiers
issued. -/
structure IdSource where
  random : Random.Source
  issued : Nat := 0
  deriving DecidableEq

namespace IdSource

/-- `IdGenerator::seeded`: the source that a seed starts. -/
def ofSeed (seed : UInt64) : IdSource := { random := .ofSeed seed }

/-- `IdGenerator::from_seed`: the source that a seed starts, or the one that was drawn if there is no seed. -/
def ofSeed? (seed? : Option UInt64) (drawn : Random.Source) : IdSource :=
  match seed? with
  | some seed => .ofSeed seed
  | none => { random := drawn }

/-- However it starts, a source has issued no identifier at first. -/
theorem nothing_issued_at_the_start (seed? : Option UInt64) (drawn : Random.Source) :
    (ofSeed? seed? drawn).issued = 0 := by
  cases seed? <;> rfl

/-- `IdGenerator::new_instance_id`, the next instance identifier: twelve random hexadecimal digits, then five
of the running number. -/
def instanceId (source : IdSource) : String × IdSource :=
  let issued := source.issued + 1
  let (number, random) := source.random.next64
  ("i-" ++ String.ofList (Text.hexDigits 12 number ++ Text.hexDigits 5 issued), { random, issued })

/-- `KEY_ALGORITHM`: the algorithm that public keys name. -/
def keyAlgorithm : String := "ssh-ed25519"

/-- A field of the wire format: its length in four bytes, most significant first, and its bytes. -/
def wireField (bytes : List UInt8) : List UInt8 :=
  [(bytes.length >>> 24).toUInt8, (bytes.length >>> 16).toUInt8, (bytes.length >>> 8).toUInt8,
    bytes.length.toUInt8] ++ bytes

/-- `IdGenerator::new_public_key`, the next public key: the algorithm, the base64 text of its wire format, and
a comment. -/
def publicKey (source : IdSource) (comment : String) : String × IdSource :=
  let (bytes, random) := source.random.next32Bytes
  let wire := wireField keyAlgorithm.toUTF8.toList ++ wireField bytes
  (s!"{keyAlgorithm} {String.ofList (Text.Base64.encode wire)} {comment}", { source with random })

end IdSource

end CloudTerminal
