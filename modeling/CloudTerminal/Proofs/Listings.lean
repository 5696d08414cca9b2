import CloudTerminal.Proofs.CloneQueue
import CloudTerminal.Proofs.Logging
import CloudTerminal.Proofs.Numeral
import CloudTerminal.Proofs.TableReading

/-!
Listings read back. All that a session stores and lists is a word: names and URLs come from the words of lines, or
they are made of plain characters, as identifiers and fingerprints are (`World.Listable`). No line and no passing
command puts anything else into the store, so after every run a reader of the listings finds the entries of the
store again, in their order (`listings_read_back_as_the_store`). Times alone come from outside, so for the listing
of the keys they have to be words, too.
-/

namespace CloudTerminal

open Text (IsWord tableCells)

section Words

/-- The characters that generated names, identifiers and fingerprints are made of. -/
def Text.isPlain (c : Char) : Bool := c.isAlphanum || ['-', '_', '.', '@', ':'].contains c

/-- A text of plain characters that is not empty is one word, since no blank is plain. -/
theorem Text.word_of_plain_characters {text : String} (filled : text.toList ≠ [])
    (plain : ∀ c ∈ text.toList, isPlain c = true) : IsWord text := by
  have none_plain : blanks.all (!isPlain ·) = true := by decide
  refine ⟨filled, fun c member => ?_⟩
  cases blank : isBlank c with
  | false => rfl
  | true =>
    have other := List.all_eq_true.mp none_plain c (List.contains_iff_mem.mp blank)
    rw [plain c member] at other
    cases other

theorem Text.plain_if_allowed {c : Char} {marks : List Char} (fewer : marks ⊆ ['-', '_', '.', '@', ':'])
    (allowed : (c.isAlphanum || marks.contains c) = true) : isPlain c = true := by
  rcases Bool.or_eq_true_iff.mp allowed with letter | mark
  · simp [isPlain, letter]
  · have plain := fewer (List.contains_iff_mem.mp mark)
    exact Bool.or_eq_true_iff.mpr (.inr (List.contains_iff_mem.mpr plain))

theorem Text.hexadecimal_is_plain : ∀ c ∈ hexAlphabet, isPlain c = true := List.all_eq_true.mp (by decide)

theorem Text.hex_digits_are_plain (width n : Nat) : ∀ c ∈ hexDigits width n, isPlain c = true :=
  fun c member => hexadecimal_is_plain c (padded_digits_are_hexadecimal c member)

theorem valid_directory_is_word {name : String} (valid : Repository.isValidDirectory name = true) :
    IsWord name := by
  simp only [Repository.isValidDirectory, Bool.and_eq_true, bne_iff_ne, List.all_eq_true] at valid
  obtain ⟨⟨⟨filled, _⟩, _⟩, allowed⟩ := valid
  exact Text.word_of_plain_characters (fun empty => filled (String.toList_eq_nil_iff.mp empty))
    fun c member => Text.plain_if_allowed (by decide) (allowed c member)

/-- The directory that a URL names is checked like one that is given. -/
theorem directory_of_url_is_valid {url name : String} (found : Repository.directoryOfUrl? url = some name) :
    Repository.isValidDirectory name = true := by
  unfold Repository.directoryOfUrl? at found
  obtain ⟨valid, same⟩ := Option.ite_none_right_eq_some.mp found
  exact Option.some.inj same ▸ valid

theorem directory_to_clone_into_is_word {url name : String} {name? : Option String}
    (named : Repository.directoryFor url name? = .ok name) : IsWord name := by
  unfold Repository.directoryFor at named
  split at named
  · split at named
    · rename_i valid
      exact Except.ok.inj named ▸ valid_directory_is_word valid
    · cases named
  · split at named
    · rename_i found
      exact Except.ok.inj named ▸ valid_directory_is_word (directory_of_url_is_valid found)
    · cases named

/-- An identifier is one word whatever is drawn for it. -/
theorem IdSource.identifier_is_word (source : IdSource) : IsWord source.instanceId.1 := by
  refine Text.word_of_plain_characters (by simp [IdSource.instanceId]) fun c member => ?_
  simp only [IdSource.instanceId, String.toList_append, String.toList_ofList, List.mem_append] at member
  rcases member with start | leading | last
  · exact List.all_eq_true.mp (by decide) c start
  · exact Text.hex_digits_are_plain _ _ c leading
  · exact Text.hex_digits_are_plain _ _ c last

theorem fingerprint_is_word (material : String) : IsWord (fingerprint material) := by
  have bytes : ∃ first rest, (Digest.ofText material).toList.take 16 = first :: rest :=
    List.exists_cons_of_length_pos (by simp)
  obtain ⟨first, rest, list⟩ := bytes
  have characters : (fingerprint material).toList =
      List.intercalate [':'] (((Digest.ofText material).toList.take 16).map fun byte =>
        Text.hexDigits 2 byte.toNat) := by
    rw [fingerprint, String.toList_intercalate, List.map_map]
    simp [Function.comp_def]
  refine Text.word_of_plain_characters ?_ fun c member => ?_
  · rw [characters, list]
    cases rest <;> simp [Text.hexDigits, Text.paddedDigits]
  · rw [characters] at member
    rcases Text.element_of_joined member with between | ⟨piece, present, inside⟩
    · rw [List.mem_singleton.mp between]
      decide
    · obtain ⟨byte, _, rfl⟩ := List.mem_map.mp present
      exact Text.hex_digits_are_plain _ _ c inside

theorem Key.free_name_is_valid (keys : Directory Key) : Key.isValidName (Key.freeName keys) = true := by
  rcases Key.freeName_eq keys with default | ⟨n, numbered⟩
  · rw [default]
    decide
  · have stem : ∀ c ∈ "id_ed25519_".toList, (c.isAlphanum || ['-', '_', '.', '@'].contains c) = true :=
      List.all_eq_true.mp (by decide)
    have allowed : ∀ c ∈ "id_ed25519_".toList ++ Nat.toDigits 10 n,
        (c.isAlphanum || ['-', '_', '.', '@'].contains c) = true := by
      intro c member
      rcases List.mem_append.mp member with letter | digit
      · exact stem c letter
      · have is_digit := Nat.isDigit_of_mem_toDigits (by decide) (by decide) digit
        simp [Char.isAlphanum, is_digit]
    rw [numbered, Key.isValidName, Key.toList_numberedName, List.all_eq_true.mpr allowed]
    rfl

theorem Key.new_name_is_valid {keys : Directory Key} {name? : Option String} {name : String}
    (named : Key.newName keys name? = .ok name) : Key.isValidName name = true := by
  unfold Key.newName at named
  split at named
  · exact Except.ok.inj named ▸ Key.free_name_is_valid keys
  · split at named
    · rename_i valid
      exact Except.ok.inj named ▸ valid
    · cases named

theorem Key.new_name_is_word {keys : Directory Key} {name? : Option String} {name : String}
    (named : Key.newName keys name? = .ok name) : IsWord name := by
  have valid := Key.new_name_is_valid named
  simp only [Key.isValidName, Bool.and_eq_true, List.all_eq_true] at valid
  obtain ⟨start, allowed⟩ := valid
  exact Text.word_of_plain_characters (fun empty => by simp [empty] at start)
    fun c member => Text.plain_if_allowed (by decide) (allowed c member)

end Words

/-- The listings of a world show words, and of the times at which keys were generated what is `dated`. -/
structure World.Listable (dated : String → Prop) (world : World) : Prop where
  instances : ∀ i ∈ world.store.instances.toList, IsWord i.id ∧ IsWord i.name
  keys : ∀ key ∈ world.store.keys.toList, IsWord key.name ∧ IsWord key.fingerprint ∧ dated key.created
  repositories : ∀ r ∈ world.store.repositories.toList, IsWord r.name ∧ IsWord r.url

namespace World.Listable

variable {dated : String → Prop} {world next : World}

theorem tick (listable : world.Listable dated) : world.tick.2.Listable dated := by
  refine ⟨listable.instances, listable.keys, fun r member => ?_⟩
  have same := CloneQueue.tick_keeps_names_and_urls world
  have shown : (r.name, r.url) ∈ world.store.repositories.toList.map fun r => (r.name, r.url) :=
    same ▸ List.mem_map_of_mem member
  obtain ⟨before, present, alike⟩ := List.mem_map.mp shown
  simp only [Prod.mk.injEq] at alike
  rw [← alike.1, ← alike.2]
  exact listable.repositories before present

/-- A line whose arguments are words adds nothing else. -/
theorem line {setting : Setting} {words : Line} {result : Except Error Reply} (listable : world.Listable dated)
    (arguments : ∀ argument ∈ words.arguments, IsWord argument) (now : dated setting.clock)
    (effect : LineEffect setting world words (result, next)) : next.Listable dated := by
  cases effect with
  | refused | look => exact listable
  | create name type said =>
    rw [said] at arguments
    have added : IsWord world.ids.instanceId.1 ∧ IsWord name :=
      ⟨IdSource.identifier_is_word world.ids, arguments name (by simp)⟩
    exact ⟨List.forall_mem_append.mpr ⟨listable.instances, List.forall_mem_singleton.mpr added⟩,
      listable.keys, listable.repositories⟩
  | power reply name power front back i said found =>
    exact ⟨Directory.all_after_change listable.instances found id, listable.keys, listable.repositories⟩
  | delete reply name front back i said found =>
    exact ⟨Directory.all_after_removal listable.instances found, listable.keys, listable.repositories⟩
  | generate name name? key said named free made =>
    have added : IsWord key.name ∧ IsWord key.fingerprint ∧ dated key.created := by
      rw [made]
      exact ⟨Key.new_name_is_word named, fingerprint_is_word _, now⟩
    exact ⟨listable.instances, List.forall_mem_append.mpr ⟨listable.keys, List.forall_mem_singleton.mpr added⟩,
      listable.repositories⟩
  | mark reply name front back key said found =>
    exact ⟨listable.instances, Directory.all_after_change listable.keys found id, listable.repositories⟩
  | discard reply name front back key said found =>
    exact ⟨listable.instances, Directory.all_after_removal listable.keys found, listable.repositories⟩
  | clone url name name? said named =>
    rw [said] at arguments
    have added : IsWord name ∧ IsWord url := ⟨directory_to_clone_into_is_word named, arguments url (by simp)⟩
    exact ⟨listable.instances, listable.keys,
      List.forall_mem_append.mpr ⟨listable.repositories, List.forall_mem_singleton.mpr added⟩⟩

theorem take {session : Session} {input : Input} (terminal : session.registry = Terminal.registry)
    (listable : session.world.Listable dated) (now : dated input.clock) :
    (session.take input).world.Listable dated := by
  cases parsed : Line.parse input.line with
  | none =>
    rw [session.take_of_blank input parsed]
    exact listable
  | some words =>
    rw [(session.take_spec input words parsed).2.2, terminal]
    exact listable.tick.line (fun _ member => Line.arguments_are_words parsed member) now (run_has_effect _ _ _)

theorem after {session : Session} {inputs : List Input} (terminal : session.registry = Terminal.registry)
    (listable : session.world.Listable dated) (times : ∀ input ∈ inputs, dated input.clock) :
    (session.after inputs).world.Listable dated := by
  induction inputs generalizing session with
  | nil => exact listable
  | cons input rest ih =>
    obtain ⟨now, later⟩ := List.forall_mem_cons.mp times
    exact ih ((session.take_keeps_the_settings input).1.trans terminal) (listable.take terminal now) later

/-- After every run all names, URLs and identifiers can be listed, and the times if the clock allows it. -/
theorem of_run (config : Config) (entropy : Random.Source) {inputs : List Input}
    (times : ∀ input ∈ inputs, dated input.clock) :
    ((Session.start config entropy).after inputs).world.Listable dated := by
  have empty : (Session.start config entropy).world.Listable dated :=
    ⟨List.forall_mem_nil _, List.forall_mem_nil _, List.forall_mem_nil _⟩
  exact empty.after rfl times

end World.Listable

section Replies

variable {dated : String → Prop} {world : World}

theorem Text.message_has_no_cells {message : String} (flat : '\n' ∉ message.toList) : tableCells message = [] := by
  rw [tableCells, flat_text_is_one_line flat]
  rfl

theorem type_is_word (type : InstanceType) : IsWord type.text := by
  cases type <;> decide

theorem power_is_word (power : Power) : IsWord power.text := by
  cases power <;> decide

theorem status_is_word (status : CloneStatus) : IsWord status.text := by
  cases status <;> decide

theorem mark_is_word (added : Bool) : IsWord (if added then "yes" else "no") := by
  cases added <;> decide

/-- The cells of the listing are those of the instances of the type, row by row. -/
theorem instances_read_back (listable : world.Listable dated) (type? : Option InstanceType) :
    tableCells (Instance.listing world.store type?).rendered =
      (world.store.instances.filter fun i => type?.all (i.type == ·)).map fun i =>
        [i.id, i.name, i.type.text, i.power.text] := by
  unfold Instance.listing
  split
  · rename_i none_found
    rw [none_found]
    refine Text.message_has_no_cells ?_
    cases type? with
    | none => decide
    | some type => cases type <;> decide
  · refine Text.cells_of_rendered_table (by decide) (List.forall_mem_map.mpr fun i member => ?_)
    obtain ⟨id, name⟩ := listable.instances i (List.mem_of_mem_filter member)
    simp [id, name, type_is_word, power_is_word]

theorem repositories_read_back (listable : world.Listable dated) :
    tableCells (Repository.listing world.store).rendered =
      world.store.repositories.toList.map fun r => [r.name, r.status.text, r.url] := by
  unfold Repository.listing
  split
  · rename_i none_there
    rw [none_there]
    exact Text.message_has_no_cells (by decide)
  · refine Text.cells_of_rendered_table (by decide) (List.forall_mem_map.mpr fun r member => ?_)
    obtain ⟨name, url⟩ := listable.repositories r member
    simp [name, url, status_is_word]

theorem keys_read_back (listable : world.Listable IsWord) :
    tableCells (Key.listing world.store).rendered =
      world.store.keys.toList.map fun key =>
        [key.name, key.fingerprint, key.created, if key.added then "yes" else "no"] := by
  unfold Key.listing
  split
  · rename_i none_there
    rw [none_there]
    exact Text.message_has_no_cells (by decide)
  · refine Text.cells_of_rendered_table (by decide) (List.forall_mem_map.mpr fun key member => ?_)
    obtain ⟨name, fingerprint, created⟩ := listable.keys key member
    simp [name, fingerprint, created, mark_is_word key.added]

end Replies

namespace Session

variable {session : Session} {clock line : String}

/-- The line shows a table whose cells are `rows`, and leaves the world as it finds it. -/
def Lists (session : Session) (clock line : String) (rows : List (List String)) : Prop :=
  ∃ entry, (session.execute clock line).1 = some entry ∧ tableCells entry.output = rows ∧
    (session.execute clock line).2.world = session.found

/-- A command that changes nothing lists what is read from its answer. -/
theorem lists_its_answer (terminal : session.registry = Terminal.registry) {command : Command}
    {arguments : List String} {reply : Reply} (member : command ∈ Terminal.commands)
    (other : command.name ≠ "clear") (parsed : Line.parse line = some ⟨command.name, arguments⟩)
    (ran : command.run ⟨session.config, clock⟩ session.found arguments = (.ok reply, session.found)) :
    session.Lists clock line (tableCells reply.rendered) := by
  have keeps : reply ≠ .clear := by
    rintro rfl
    exact other_commands_keep_the_log command member other _ _ _ (congrArg Prod.fst ran)
  have output : shown? (.ok reply) = some reply.rendered := by
    cases reply <;> first | rfl | exact absurd rfl keeps
  have carried := (run_by_the_command _ _ _ member).trans ran
  unfold found at carried
  refine ⟨⟨line, reply.rendered, clock⟩, ?_, rfl, ?_⟩ <;>
    simp only [execute, parsed, terminal, carried, output, found]

end Session

/-- After every run, the listings show the store. A reader who drops the headers and cuts the lines into words
finds every instance, or every one of a type, every repository and every key, in the order in which they were
added, and nothing else. For the keys the times that the clock has shown have to be words themselves. -/
theorem listings_read_back_as_the_store (config : Config) (entropy : Random.Source) (inputs : List Input)
    (clock line : String) :
    let session := (Session.start config entropy).after inputs
    let store := session.found.store
    (Line.parse line = some ⟨"instances", ["list"]⟩ →
      session.Lists clock line (store.instances.toList.map fun i => [i.id, i.name, i.type.text, i.power.text])) ∧
    (∀ type, Line.parse line = some ⟨"instances", ["list", InstanceType.text type]⟩ →
      session.Lists clock line ((store.instances.toList.filter (·.type = type)).map fun i =>
        [i.id, i.name, i.type.text, i.power.text])) ∧
    (Line.parse line = some ⟨"git", ["list"]⟩ →
      session.Lists clock line (store.repositories.toList.map fun r => [r.name, r.status.text, r.url])) ∧
    ((∀ input ∈ inputs, IsWord input.clock) → Line.parse line = some ⟨"ssh-list", []⟩ →
      session.Lists clock line (store.keys.toList.map fun key =>
        [key.name, key.fingerprint, key.created, if key.added then "yes" else "no"])) := by
  intro session store
  have terminal : session.registry = Terminal.registry :=
    ((Session.start config entropy).after_keeps_the_settings inputs).1
  have listable : session.found.Listable fun _ => True :=
    (World.Listable.of_run config entropy fun _ _ => trivial).tick
  have lists_instances : Instance.instances ∈ Terminal.commands := by simp [Terminal.commands, Instance.commands]
  have lists_repositories : Repository.git ∈ Terminal.commands := by simp [Terminal.commands, Repository.commands]
  have lists_keys : Key.list ∈ Terminal.commands := by simp [Terminal.commands, Key.commands]
  refine ⟨?_, ?_, ?_, ?_⟩
  · intro parsed
    have every : (store.instances.filter fun i => Option.all (i.type == ·) none) = store.instances.toList :=
      List.filter_eq_self.mpr fun _ _ => rfl
    have read := instances_read_back listable none
    rw [every] at read
    exact read ▸ Session.lists_its_answer terminal lists_instances (by decide) parsed rfl
  · intro type parsed
    have read := instances_read_back listable (some type)
    exact read ▸ Session.lists_its_answer terminal lists_instances (by decide) parsed (by cases type <;> rfl)
  · intro parsed
    have read := repositories_read_back listable
    exact read ▸ Session.lists_its_answer terminal lists_repositories (by decide) parsed rfl
  · intro times parsed
    have dated : session.found.Listable IsWord := (World.Listable.of_run config entropy times).tick
    have read := keys_read_back dated
    exact read ▸ Session.lists_its_answer terminal lists_keys (by decide) parsed rfl

/-- The time of the generation stands in the third cell of the row. -/
theorem generated_key_is_listed :
    let session := (Session.start {} 7).after [⟨"09:30", "ssh-keygen deploy"⟩]
    ∃ fingerprint, session.Lists "09:31" " ssh-list" [["deploy", fingerprint, "09:30", "no"]] := by
  intro session
  have dated : IsWord "09:30" := by decide
  have listed := (listings_read_back_as_the_store {} 7 [⟨"09:30", "ssh-keygen deploy"⟩] "09:31" " ssh-list").2.2.2
    (List.forall_mem_singleton.mpr dated) (by decide)
  exact ⟨_, listed⟩

end CloudTerminal
