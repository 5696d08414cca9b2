import Mathlib.Data.List.Induction
import CloudTerminal.Proofs.Base64
import CloudTerminal.Proofs.Listings

/-!
What keys are made of. A public key is the base64 text of two fields, each with its length in four bytes in
front of it, between the name of the algorithm and the comment (`public_key_eq`). The fields have fifty-one
bytes together, so that nothing is filled up. A key is added by no other line than one that draws it from the
source of the session, and none changes its texts (`Key.DrawnFrom`), so that all keys of a session are of this
form, with the identity of its settings as their comment.
-/

namespace CloudTerminal

/-- Sixteen groups of two lowercase hexadecimal digits with colons between them. -/
def IsFingerprint (text : String) : Prop :=
  ∃ groups : List String, text = ":".intercalate groups ∧ groups.length = 16 ∧
    ∀ group ∈ groups, group.length = 2 ∧ ∀ c ∈ group.toList, c ∈ Text.hexAlphabet

/-- A fingerprint has its mark in front and the digits of a whole digest behind it, without filling. -/
theorem fingerprint_is_well_formed (material : String) : IsFingerprint (fingerprint material) := by
  refine ⟨_, rfl, by simp, List.forall_mem_map.mpr fun byte _ => ⟨by simp [Text.hexDigits], fun c member => ?_⟩⟩
  rw [String.toList_ofList] at member
  exact Text.padded_digits_are_hexadecimal c member

namespace IdSource

theorem wire_field_of_few {bytes : List UInt8} (few : bytes.length < 256) :
    wireField bytes = [0, 0, 0, bytes.length.toUInt8] ++ bytes := by
  have shifted : ∀ places ∈ [24, 16, 8], bytes.length >>> places = 0 := by
    intro places member
    rw [Nat.shiftRight_eq_zero]
    simp only [List.mem_cons, List.not_mem_nil, or_false] at member
    rcases member with rfl | rfl | rfl <;> omega
  rw [wireField, shifted 24 (by simp), shifted 16 (by simp), shifted 8 (by simp)]
  rfl

/-- The bytes of the next public key. -/
def wire (source : IdSource) : List UInt8 :=
  [0, 0, 0, 11] ++ "ssh-ed25519".toUTF8.toList ++ [0, 0, 0, 32] ++ source.random.next32Bytes.1

theorem algorithm_has_eleven_bytes : "ssh-ed25519".toUTF8.toList.length = 11 := by decide +kernel

/-- The material of every key has the same length: the name of the algorithm and thirty-two bytes, each with
its length in front. -/
theorem length_wire (source : IdSource) : source.wire.length = 51 := by
  simp only [wire, List.length_append, algorithm_has_eleven_bytes, Random.Source.length_next32Bytes]
  rfl

/-- A public key shows the algorithm, its material in base64 and the comment, and draws thirty-two bytes. -/
theorem public_key_eq (source : IdSource) (comment : String) : source.publicKey comment =
    ("ssh-ed25519 " ++ String.ofList (Text.Base64.encode source.wire) ++ " " ++ comment,
      { source with random := source.random.next32Bytes.2 }) := by
  have algorithm : wireField "ssh-ed25519".toUTF8.toList = [0, 0, 0, 11] ++ "ssh-ed25519".toUTF8.toList := by
    rw [wire_field_of_few (by rw [algorithm_has_eleven_bytes]; decide), algorithm_has_eleven_bytes]
    rfl
  have key : wireField source.random.next32Bytes.1 = [0, 0, 0, 32] ++ source.random.next32Bytes.1 := by
    rw [wire_field_of_few (by rw [Random.Source.length_next32Bytes]; decide), Random.Source.length_next32Bytes]
    rfl
  have fields : wireField keyAlgorithm.toUTF8.toList ++ wireField source.random.next32Bytes.1 = source.wire := by
    rw [wire, key, ← List.append_assoc]
    exact congrArg (· ++ _ ++ _) algorithm
  have same : source.publicKey comment = (s!"{keyAlgorithm} {String.ofList (Text.Base64.encode
      (wireField keyAlgorithm.toUTF8.toList ++ wireField source.random.next32Bytes.1))} {comment}",
      { source with random := source.random.next32Bytes.2 }) := rfl
  rw [same, fields]
  refine Prod.ext (String.toList_injective ?_) rfl
  simp [toString, keyAlgorithm]

end IdSource

/-- A key that has been drawn for an identity from one of some sources, under a name that is allowed. -/
structure Key.DrawnFrom (sources : IdSource → Prop) (identity : String) (key : Key) : Prop where
  drawn : ∃ source, sources source ∧ key.publicKey = (source.publicKey identity).1
  fingerprint : key.fingerprint = CloudTerminal.fingerprint key.publicKey
  named : Key.isValidName key.name = true

namespace Key.DrawnFrom

variable {sources : IdSource → Prop} {identity : String} {key : Key}

theorem mono {more : IdSource → Prop} (drawn : key.DrawnFrom sources identity)
    (wider : ∀ source, sources source → more source) :
    key.DrawnFrom more identity := by
  obtain ⟨⟨source, given, made⟩, fingerprint, named⟩ := drawn
  exact ⟨⟨source, wider source given, made⟩, fingerprint, named⟩

/-- A line leaves keys that have been drawn, of which it may have added one from the source that it has found. -/
theorem line {setting : Setting} {world : World} {words : Line} {outcome : Outcome}
    (effect : LineEffect setting world words outcome) (given : sources world.ids)
    (drawn : ∀ key ∈ world.store.keys.toList, key.DrawnFrom sources setting.config.identity) :
    ∀ key ∈ outcome.2.store.keys.toList, key.DrawnFrom sources setting.config.identity := by
  cases effect with
  | generate name name? key said named free made =>
    have fresh : key.DrawnFrom sources setting.config.identity := by
      rw [made]
      exact ⟨⟨world.ids, given, rfl⟩, rfl, Key.new_name_is_valid named⟩
    exact List.forall_mem_append.mpr ⟨drawn, List.forall_mem_singleton.mpr fresh⟩
  | mark reply name front back key said found =>
    exact Directory.all_after_change drawn found fun known => ⟨known.drawn, known.fingerprint, known.named⟩
  | discard reply name front back key said found => exact Directory.all_after_removal drawn found
  | _ => exact drawn

/-- The keys of a session have been drawn from the sources that it has had after some of its lines. -/
theorem of_run (config : Config) (entropy : Random.Source) (inputs : List Input) :
    ∀ key ∈ ((Session.start config entropy).after inputs).world.store.keys.toList, key.DrawnFrom
      (fun source => ∃ done, done <+: inputs ∧ ((Session.start config entropy).after done).world.ids = source)
      config.identity := by
  induction inputs using List.reverseRecOn with
  | nil => exact List.forall_mem_nil _
  | append_singleton inputs input ih =>
    obtain ⟨terminal, configured⟩ := (Session.start config entropy).after_keeps_the_settings inputs
    have last : (Session.start config entropy).after (inputs ++ [input]) =
        ((Session.start config entropy).after inputs).take input := Session.after_append _ inputs [input]
    have before : ∀ key ∈ ((Session.start config entropy).after inputs).world.store.keys.toList, key.DrawnFrom
        (fun source => ∃ done, done <+: inputs ++ [input] ∧
          ((Session.start config entropy).after done).world.ids = source) config.identity := by
      intro key member
      refine (ih key member).mono ?_
      rintro source ⟨done, earlier, same⟩
      exact ⟨done, earlier.trans (List.prefix_append _ _), same⟩
    rw [last]
    cases parsed : Line.parse input.line with
    | none =>
      rw [Session.take_of_blank _ input parsed]
      exact before
    | some words =>
      rw [(Session.take_spec _ input words parsed).2.2, terminal, configured]
      have effect := run_has_effect ⟨config, input.clock⟩ ((Session.start config entropy).after inputs).found words
      have kept := line effect ⟨inputs, List.prefix_append _ _, rfl⟩ before
      exact kept

end Key.DrawnFrom

/-- A public key is the name of the algorithm, sixty-eight digits of base64 and the comment as it is, and the
digits are read as two fields with their lengths: the name again, and the thirty-two bytes that the random
source gives next. In every session the keys have such public keys, drawn at some line before for who works
where, with the fingerprints of these and names that are allowed. -/
theorem keys_are_well_formed :
    (∀ (source : IdSource) (comment : String), ∃ blob bytes,
      source.publicKey comment = ("ssh-ed25519 " ++ String.ofList blob ++ " " ++ comment,
        { source with random := source.random.next32Bytes.2 }) ∧
      blob.length = 68 ∧ (∀ c ∈ blob, c ∈ Text.Base64.alphabet) ∧
      Text.Base64.decode blob = some bytes ∧ bytes.length = 51 ∧ source.random.next32Bytes.1.length = 32 ∧
      bytes = [0, 0, 0, 11] ++ "ssh-ed25519".toUTF8.toList ++ [0, 0, 0, 32] ++ source.random.next32Bytes.1) ∧
    ∀ (config : Config) (entropy : Random.Source) (inputs : List Input),
      let session := Session.start config entropy
      ∀ key ∈ (session.after inputs).world.store.keys.toList,
        (∃ done, done <+: inputs ∧ key.publicKey =
          ((session.after done).world.ids.publicKey (config.user ++ "@" ++ config.hostname)).1) ∧
        key.fingerprint = fingerprint key.publicKey ∧ IsFingerprint key.fingerprint ∧
        Key.isValidName key.name = true := by
  constructor
  · intro source comment
    have length := Text.Base64.length_encode source.wire
    rw [source.length_wire] at length
    exact ⟨_, source.wire, source.public_key_eq comment, length,
      Text.Base64.whole_groups_are_not_padded (by rw [source.length_wire]), Text.Base64.decode_encode source.wire,
      source.length_wire, source.random.length_next32Bytes, rfl⟩
  · intro config entropy inputs session key member
    obtain ⟨⟨_, ⟨done, earlier, rfl⟩, drawn⟩, made, named⟩ := Key.DrawnFrom.of_run config entropy inputs key member
    have identity : config.identity = config.user ++ "@" ++ config.hostname := by simp [Config.identity, toString]
    rw [identity] at drawn
    exact ⟨⟨done, earlier, drawn⟩, made, made ▸ fingerprint_is_well_formed key.publicKey, named⟩

/-- A key that the agent holds, of two, and whose user and host are not written in ASCII. -/
theorem key_of_an_unusual_identity_is_well_formed :
    let config : Config := { user := "ü ser", hostname := "höst" }
    let inputs : List Input := [⟨"", "ssh-keygen a@b"⟩, ⟨"", "create instance web compute"⟩, ⟨"", "ssh-keygen"⟩,
      ⟨"", "ssh-add id_ed25519"⟩]
    let session := Session.start config 7
    ∃ key ∈ (session.after inputs).world.store.keys.toList, key.name = "id_ed25519" ∧ key.added = true ∧
      (∃ done, done <+: inputs ∧ key.publicKey = ((session.after done).world.ids.publicKey "ü ser@höst").1) ∧
      key.fingerprint = fingerprint key.publicKey ∧ IsFingerprint key.fingerprint := by
  intro config inputs session
  have holds := keys_are_well_formed.2 config 7 inputs
  have names : (session.after inputs).world.store.keys.toList.map (fun key => (key.name, key.added)) =
      [("a@b", false), ("id_ed25519", true)] := by
    decide +kernel
  have identity : config.user ++ "@" ++ config.hostname = "ü ser@höst" := by decide
  dsimp only at holds ⊢
  rw [identity] at holds
  generalize (session.after inputs).world.store.keys.toList = keys at names holds ⊢
  obtain ⟨first, _, rfl, -, others⟩ := List.map_eq_cons_iff.mp names
  obtain ⟨key, rest, rfl, named, -⟩ := List.map_eq_cons_iff.mp others
  have member : key ∈ first :: key :: rest := by simp
  obtain ⟨drawn, made, shape, -⟩ := holds key member
  simp only [Prod.mk.injEq] at named
  exact ⟨key, member, named.1, named.2, drawn, made, shape⟩

end CloudTerminal
