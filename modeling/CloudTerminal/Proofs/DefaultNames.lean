import Mathlib.Data.List.Nodup
import Mathlib.Data.List.Perm.Subperm
import Mathlib.Data.Nat.Find
import CloudTerminal.Proofs.Numeral
import CloudTerminal.Proofs.Run

/-!
The names of keys that are generated without one. They are tried in a fixed order (`Key.defaultNameAt`), and
no two of them are the same, so that one of the first is free as soon as there are more of them than keys
(`Directory.some_name_is_free`). The numbers do not run out before that, and the search stops at the first
free name (`Key.freeNumber?_eq_some_iff`), whatever names have been given and taken back.
-/

namespace CloudTerminal

/-- Of one more name than there are entries, one is free. -/
theorem Directory.some_name_is_free {α : Type} [Named α] (d : Directory α) {names : Nat → String}
    (different : Function.Injective names) : ∃ n ≤ d.size, d.contains (names n) = false := by
  by_contra! taken
  have held : (List.range (d.size + 1)).map names ⊆ d.toList.map Named.name := by
    intro name member
    obtain ⟨n, below, rfl⟩ := List.mem_map.mp member
    have there := taken n (Nat.le_of_lt_succ (List.mem_range.mp below))
    obtain ⟨entry, there, named⟩ := contains_iff.mp (by simpa using there)
    exact named ▸ List.mem_map_of_mem there
  have fits := ((List.nodup_range.map different).subperm held).length_le
  simp only [List.length_map, List.length_range] at fits
  exact Nat.not_succ_le_self _ fits

namespace Key

variable {keys : Directory Key} {left start n : Nat}

/-- The names that are tried for a key that is given none, in their order. -/
def defaultNameAt : Nat → String
  | 0 => defaultName
  | n + 1 => numberedName (n + 1)

theorem numberedName_injective : Function.Injective numberedName := by
  intro m n same
  exact Text.numeral_determines_the_number (by simpa [numberedName] using congrArg String.toList same)

theorem numberedName_is_another (n : Nat) : numberedName n ≠ defaultName := by
  intro same
  have lengths := congrArg (fun name => name.toList.length) same
  simp [numberedName, toString] at lengths

/-- The default names are distinct: the first one has no number, and the others have different ones. -/
theorem defaultNameAt_injective : Function.Injective defaultNameAt
  | 0, 0, _ => rfl
  | 0, n + 1, same => absurd same.symm (numberedName_is_another (n + 1))
  | m + 1, 0, same => absurd same (numberedName_is_another (m + 1))
  | _ + 1, _ + 1, same => numberedName_injective same

/-- The search finds a number exactly if it is the first in its range whose name is free, by induction on how
many numbers are left. -/
theorem freeNumber?_eq_some_iff :
    freeNumber? keys left start = some n ↔ start ≤ n ∧ n < start + left ∧ keys.contains (numberedName n) = false ∧
      ∀ m, start ≤ m → m < n → keys.contains (numberedName m) = true := by
  induction left generalizing start with
  | zero =>
    simp only [freeNumber?, reduceCtorEq, false_iff]
    omega
  | succ left ih =>
    unfold freeNumber?
    split
    case isTrue taken =>
      rw [ih]
      constructor
      · rintro ⟨above, within, free, before⟩
        refine ⟨by omega, by omega, free, fun m reached passed => ?_⟩
        rcases Nat.eq_or_lt_of_le reached with rfl | later
        · exact taken
        · exact before m later passed
      · rintro ⟨above, within, free, before⟩
        have other : start ≠ n := by
          rintro rfl
          simp [taken] at free
        exact ⟨by omega, by omega, free, fun m reached => before m (by omega)⟩
    case isFalse free =>
      rw [Option.some.injEq]
      constructor
      · rintro rfl
        exact ⟨le_rfl, by omega, by simpa using free, by omega⟩
      · rintro ⟨above, _, _, before⟩
        by_contra other
        exact free (before start le_rfl (Nat.lt_of_le_of_ne above other))

/-- The name for a new key is the first default name that is free, as long as its number is within the
limit. -/
theorem first_default_name_is_chosen (numbered : n ≤ numberLimit) (free : keys.contains (defaultNameAt n) = false)
    (before : ∀ m < n, keys.contains (defaultNameAt m) = true) :
    freeName keys = defaultNameAt n ∧
      (keys.contains defaultName = true → freeNumber? keys numberLimit 1 = some n) := by
  cases n with
  | zero =>
    have free : keys.contains defaultName = false := free
    simp [freeName, free, defaultNameAt]
  | succ n =>
    have taken : keys.contains defaultName = true := before 0 n.succ_pos
    have found : freeNumber? keys numberLimit 1 = some (n + 1) := by
      refine freeNumber?_eq_some_iff.mpr ⟨by omega, by omega, free, fun m reached passed => ?_⟩
      obtain ⟨m, rfl⟩ := Nat.exists_eq_add_one_of_ne_zero (Nat.ne_of_gt reached)
      exact before (m + 1) passed
    exact ⟨by rw [freeName, if_pos taken, found]; rfl, fun _ => found⟩

/-- A key generation without a name is carried out if the chosen name is free, and the key comes last in the
store. -/
theorem keygen_without_a_name (setting : Setting) (world : World)
    (free : world.store.keys.contains (freeName world.store.keys) = false) :
    let drawn := world.ids.publicKey setting.config.identity
    let key := generate (freeName world.store.keys) drawn.1 setting.clock
    keygen.run setting world [] = (.ok (.text (announcement setting.config key)),
      { world with ids := drawn.2, store.keys := ⟨world.store.keys.toList ++ [key]⟩ }) := by
  have parsed : keygenManual.optionalArgument [] = .ok none := rfl
  have added := Directory.add_of_free
    (generate (freeName world.store.keys) (world.ids.publicKey setting.config.identity).1 setting.clock) free
  simp only [keygen, parsed, Except.bind, newName, free, Bool.false_eq_true, if_false, added]

end Key

/-- With fewer keys than there are default names, a key is generated without a name, and it gets the first of
the default names that no key has. The numbers behind the name do not run out. -/
theorem key_without_a_name_gets_the_first_free_one (setting : Setting) (world : World)
    (few : world.store.keys.size < UInt32.size - 1) :
    let keys := world.store.keys
    ∃ n ≤ keys.size, (∀ m < n, keys.contains (Key.defaultNameAt m) = true) ∧
      keys.contains (Key.defaultNameAt n) = false ∧
      (keys.contains Key.defaultName = true → Key.freeNumber? keys Key.numberLimit 1 = some n) ∧
      let drawn := world.ids.publicKey setting.config.identity
      let key := Key.generate (Key.defaultNameAt n) drawn.1 setting.clock
      Terminal.registry.run setting world ⟨"ssh-keygen", []⟩ = (.ok (.text (Key.announcement setting.config key)),
        { world with ids := drawn.2, store.keys := ⟨keys.toList ++ [key]⟩ }) := by
  intro keys
  obtain ⟨some_free, near, free⟩ := keys.some_name_is_free Key.defaultNameAt_injective
  have exists_free : ∃ n, keys.contains (Key.defaultNameAt n) = false := ⟨some_free, free⟩
  have first := Nat.find_spec exists_free
  have near : Nat.find exists_free ≤ keys.size := Nat.le_trans (Nat.find_min' exists_free free) near
  have before : ∀ m < Nat.find exists_free, keys.contains (Key.defaultNameAt m) = true := fun m passed => by
    simpa using Nat.find_min exists_free passed
  have numbered : Nat.find exists_free ≤ Key.numberLimit := Nat.le_trans near (Nat.le_of_lt_succ few)
  obtain ⟨chosen, found⟩ := Key.first_default_name_is_chosen numbered first before
  refine ⟨Nat.find exists_free, near, before, first, found, ?_⟩
  have member : Key.keygen ∈ Terminal.commands := by simp [Terminal.commands, Key.commands]
  have generated := Key.keygen_without_a_name setting world (chosen ▸ first)
  rw [← run_by_the_command setting world [] member] at generated
  rw [← chosen]
  exact generated

/-- A number that a removal has left is taken up again, and the same number with a zero before it does not
count. -/
theorem key_without_a_name_fills_a_gap :
    let world := ((Session.start {} 0).after
      [⟨"", "ssh-keygen"⟩, ⟨"", "ssh-keygen"⟩, ⟨"", "ssh-keygen id_ed25519_01"⟩, ⟨"", "ssh-keygen"⟩,
        ⟨"", "ssh-remove id_ed25519_1"⟩]).found
    world.store.keys.size < UInt32.size - 1 ∧
      (Terminal.registry.run ⟨{}, ""⟩ world ⟨"ssh-keygen", []⟩).2.store.keys.toList.map (·.name) =
        ["id_ed25519", "id_ed25519_01", "id_ed25519_2", "id_ed25519_1"] := by
  have names : ((Session.start {} 0).after
      [⟨"", "ssh-keygen"⟩, ⟨"", "ssh-keygen"⟩, ⟨"", "ssh-keygen id_ed25519_01"⟩, ⟨"", "ssh-keygen"⟩,
        ⟨"", "ssh-remove id_ed25519_1"⟩]).found.store.keys.toList.map (·.name) =
      ["id_ed25519", "id_ed25519_01", "id_ed25519_2"] := by
    decide +kernel
  -- From here on the run is not looked at again.
  dsimp only
  generalize (Session.start {} 0).after _ = session at names ⊢
  have few : session.found.store.keys.size < UInt32.size - 1 := by
    rw [Directory.size, ← List.length_map (·.name), names]
    decide
  obtain ⟨n, _, before, free, _, generated⟩ :=
    key_without_a_name_gets_the_first_free_one ⟨{}, ""⟩ session.found few
  have held : ∀ m, session.found.store.keys.contains (Key.defaultNameAt m) = true ↔
      Key.defaultNameAt m ∈ ["id_ed25519", "id_ed25519_01", "id_ed25519_2"] := fun m => by
    rw [← names, Directory.contains_iff, List.mem_map]
    rfl
  refine ⟨few, ?_⟩
  rcases Nat.lt_trichotomy n 1 with below | rfl | above
  · obtain rfl := Nat.lt_one_iff.mp below
    exact absurd ((held 0).mpr (by decide)) (by simp [free])
  · have name : Key.defaultNameAt 1 = "id_ed25519_1" := by decide
    rw [generated, List.map_append, names, List.map_singleton, Key.generate, name]
    rfl
  · exact absurd ((held 1).mp (before 1 above)) (by decide)

end CloudTerminal
