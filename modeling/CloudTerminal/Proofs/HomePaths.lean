import Mathlib.Data.List.Perm.Basic
import CloudTerminal.Proofs.HomeListing

/-!
Paths below a home directory whose path is `~`. A path without a tilde is taken as it is
(`relative_without_the_home_path`), so every directory that the listing of home shows is found when it is
given back (`listed_directory_is_found`). The one entry of home that is a file is not
(`file_of_home_is_not_found`).

The listing of the keys shows a file and a public file for each of them. Names of keys are distinct, but that
is not enough for these files: they are distinct unless a key is called like the file of known hosts, or like
the public file of another key (`key_files_are_distinct_iff`).
-/

namespace CloudTerminal

open Text (IsWord)

theorem exchange_of_the_command {session : Session} {clock line : String}
    (terminal : session.registry = Terminal.registry) {command : Command} {arguments : List String}
    {result : Except Error Reply} (member : command ∈ Terminal.commands)
    (parsed : Line.parse line = some ⟨command.name, arguments⟩)
    (ran : (command.run ⟨session.config, clock⟩ session.found arguments).1 = result) :
    session.exchange? ⟨clock, line⟩ = some (⟨command.name, arguments⟩, result) := by
  rw [Session.exchange?, parsed, Option.map_some, terminal, run_by_the_command _ _ _ member, ran]

namespace Home

variable {past : List Exchange} {world : World} {store : Store} {path : String} {entries : List String}

theorem ls_accepts_what_is_found (setting : Setting)
    (found : list? world.store (relative setting.config.home path) = some entries) :
    ∃ reply, (ls.run setting world [path]).1 = .ok reply := by
  have parsed : lsManual.optionalArgument [path] = .ok (some path) := takes_optional_argument.mpr rfl
  simp only [ls, Command.reading, parsed, Option.getD_some, found]
  cases entries with
  | nil => exact ⟨.silent, rfl⟩
  | cons first rest => exact ⟨.text _, rfl⟩

theorem ls_refuses_what_is_missing (setting : Setting)
    (missing : list? world.store (relative setting.config.home path) = none) :
    (ls.run setting world [path]).1 = .error (.noSuchPath path) := by
  have parsed : lsManual.optionalArgument [path] = .ok (some path) := takes_optional_argument.mpr rfl
  simp only [ls, Command.reading, parsed, Option.getD_some, missing]

theorem ls_line_is_parsed (word : IsWord path) : Line.parse s!"ls {path}" = some ⟨"ls", [path]⟩ := by
  have ls : IsWord "ls" := by decide
  simpa [toString] using Line.parse_of_one_argument ls word

theorem relative_without_the_home_path (other : '~' ∉ path.toList) :
    relative "~" path = String.ofList (withoutSlashes path) := by
  have home : withoutSlashes "~" = ['~'] := rfl
  have outside : '~' ∉ withoutSlashes path :=
    fun inside => other ((Text.text_begins_with_trimmed _ _).subset inside)
  have begins_otherwise : List.isPrefixOf? ['~'] (withoutSlashes path) = none := by
    cases chars : withoutSlashes path with
    | nil => rfl
    | cons first rest =>
      rw [chars] at outside
      have differs : ('~' == first) = false := by
        rw [beq_eq_false_iff_ne]
        rintro rfl
        exact outside List.mem_cons_self
      rw [List.isPrefixOf?, differs]
      rfl
  rw [relative, home, begins_otherwise]

/-- Below the name of a repository there is a checkout, once its clone has arrived. -/
theorem list_at_a_repository {r : Repository} (holds : world.HoldsTheCloned past)
    (distinct : world.store.repositories.Distinct) (held : r ∈ world.store.repositories.toList) :
    list? world.store r.name = if r.status = .cloned then some checkout else none := by
  have name : r.name ∈ past.filterMap Exchange.clonedInto? := holds.names ▸ List.mem_map_of_mem held
  have other := holds.clear r.name name
  have valid := holds.valid r.name name
  have found : world.store.repositories.get? r.name = some r :=
    (Directory.lookup_finds_exactly_the_member distinct).mpr ⟨held, rfl⟩
  simp only [Repository.homeNames, List.mem_cons, List.not_mem_nil, or_false, not_or] at other
  simp only [Repository.isValidDirectory, Bool.and_eq_true, bne_iff_ne] at valid
  simp [list?, found, other, valid]

/-- Every directory that home shows can be listed in turn. -/
theorem listed_directory_is_found (holds : world.HoldsTheCloned past)
    (distinct : world.store.repositories.Distinct)
    (listed : path ∈ Home.entries world.store) (other : path ≠ "README.md") :
    ∃ entries, list? world.store (relative "~" path) = some entries := by
  rw [entries_by_name, List.mem_append] at listed
  rcases listed with fixed | cloned
  · simp only [List.mem_cons, other, List.not_mem_nil, or_false] at fixed
    rcases fixed with rfl | rfl | rfl
    · exact ⟨keyFiles world.store, rfl⟩
    · exact ⟨[], rfl⟩
    · exact ⟨[], rfl⟩
  · obtain ⟨name, member, rfl⟩ := List.mem_map.mp cloned
    have valid := holds.valid name (cloned_name_is_in_the_history holds member)
    have no_home : '~' ∉ (name ++ "/").toList := by
      rw [String.toList_append, List.mem_append, not_or]
      exact ⟨other_character_is_not_in_a_directory_name (by decide) valid, by decide⟩
    have bare : withoutSlashes (name ++ "/") = name.toList :=
      without_the_slash_behind (other_character_is_not_in_a_directory_name (by decide) valid)
    obtain ⟨r, held, rfl, arrived⟩ := mem_clonedNames.mp member
    rw [relative_without_the_home_path no_home, bare, String.ofList_toList]
    exact ⟨checkout, (list_at_a_repository holds distinct held).trans (if_pos arrived)⟩

/-- The one file that home shows cannot, as only directories are found and no repository can have its name. -/
theorem file_of_home_is_not_found (holds : world.HoldsTheCloned past) :
    list? world.store (relative "~" "README.md") = none := by
  have free : world.store.repositories.get? "README.md" = none := by
    refine List.find?_eq_none.mpr fun r held named => ?_
    have same : r.name = "README.md" := eq_of_beq named
    have name : r.name ∈ past.filterMap Exchange.clonedInto? := holds.names ▸ List.mem_map_of_mem held
    have clear := holds.clear r.name name
    rw [same] at clear
    exact clear (by decide)
  have path : relative "~" "README.md" = "README.md" := by decide
  simp [path, list?, free]

def keyNames (store : Store) : List String := store.keys.toList.map (·.name)

/-- Each key has two files, and one more file is there for the known hosts. -/
theorem key_files_by_name (store : Store) :
    keyFiles store = (keyNames store).flatMap (fun name => [name, name ++ ".pub"]) ++ ["known_hosts"] := by
  rw [keyFiles, keyNames, List.flatMap_map]

theorem key_files_are_words (words : ∀ key ∈ store.keys.toList, IsWord key.name) :
    ∀ file ∈ keyFiles store, IsWord file := by
  refine List.forall_mem_append.mpr ⟨fun file member => ?_, by decide⟩
  obtain ⟨key, held, of_key⟩ := List.mem_flatMap.mp member
  simp only [List.mem_cons, List.not_mem_nil, or_false] at of_key
  rcases of_key with rfl | rfl
  · exact words key held
  · exact Text.word_of_appended (words key held) (by decide)

theorem public_file_is_not_known_hosts (name : String) : name ++ ".pub" ≠ "known_hosts" := by
  intro same
  have last := congrArg (fun text => text.toList.getLast?) same
  simp at last

/-- The files of the keys are distinct exactly if none of their names is taken. -/
theorem key_files_are_distinct_iff (distinct : store.keys.Distinct) :
    (keyFiles store).Nodup ↔
      "known_hosts" ∉ keyNames store ∧ (keyNames store).Disjoint ((keyNames store).map (· ++ ".pub")) := by
  have names : (keyNames store).Nodup := distinct
  have public_files : ((keyNames store).map (· ++ ".pub")).Nodup :=
    names.map fun _ _ => (String.append_left_inj ".pub").mp
  have apart :
      (keyNames store ++ (keyNames store).map (· ++ ".pub") ++ ["known_hosts"]).Perm (keyFiles store) := by
    have pairs := List.map_append_flatMap_perm (keyNames store) id fun name => [name ++ ".pub"]
    rw [List.map_id, ← List.map_eq_flatMap] at pairs
    rw [key_files_by_name]
    exact pairs.append_right ["known_hosts"]
  have no_public_file : "known_hosts" ∉ (keyNames store).map (· ++ ".pub") := by
    intro member
    obtain ⟨name, -, same⟩ := List.mem_map.mp member
    exact public_file_is_not_known_hosts name same
  rw [← apart.nodup_iff, List.nodup_append', List.nodup_append', List.disjoint_singleton, List.mem_append]
  constructor
  · rintro ⟨⟨-, -, clear⟩, -, free⟩
    exact ⟨fun member => free (.inl member), clear⟩
  · rintro ⟨free, clear⟩
    exact ⟨⟨names, public_files, clear⟩, List.nodup_singleton _, not_or.mpr ⟨free, no_public_file⟩⟩

end Home

/-- The directories that the listing of home shows can be listed themselves, those that it always shows as well as
those of repositories. `README.md` stands among them and cannot be listed. -/
theorem directories_of_home_can_be_listed (config : Config) (entropy : Random.Source) (inputs : List Input)
    (clock : String) :
    let session := (Session.start { config with home := "~" } entropy).after inputs
    let home := Text.lines (session.output clock "ls")
    (∀ entry ∈ home, entry ≠ "README.md" →
      ∃ reply, session.exchange? ⟨clock, s!"ls {entry}"⟩ = some (⟨"ls", [entry]⟩, .ok reply)) ∧
      "README.md" ∈ home ∧
      session.exchange? ⟨clock, "ls README.md"⟩ =
        some (⟨"ls", ["README.md"]⟩, .error (.noSuchPath "README.md")) := by
  intro session home
  obtain ⟨terminal, configured⟩ :
      session.registry = Terminal.registry ∧ session.config = { config with home := "~" } :=
    (Session.start { config with home := "~" } entropy).after_keeps_the_settings inputs
  have home_path : session.config.home = "~" := by rw [configured]
  have holds : session.found.HoldsTheCloned ((Session.start { config with home := "~" } entropy).history inputs) :=
    (World.HoldsTheCloned.of_run { config with home := "~" } entropy inputs).tick
  have distinct : session.found.store.repositories.Distinct :=
    (LockStep.of_run { config with home := "~" } entropy inputs).tick.distinct
  have member : Home.ls ∈ Terminal.commands := by simp [Terminal.commands, Home.commands]
  have shown : home = Home.entries session.found.store := Home.lines_of_home terminal holds
  rw [shown]
  refine ⟨fun entry listed other => ?_, ?_, ?_⟩
  · have parsed := Home.ls_line_is_parsed (Home.entries_are_words holds entry listed)
    obtain ⟨entries, found⟩ := Home.listed_directory_is_found holds distinct listed other
    rw [← home_path] at found
    obtain ⟨reply, accepted⟩ := Home.ls_accepts_what_is_found ⟨session.config, clock⟩ found
    exact ⟨reply, exchange_of_the_command terminal member parsed accepted⟩
  · rw [Home.entries_by_name]
    simp
  · have parsed : Line.parse "ls README.md" = some ⟨"ls", ["README.md"]⟩ := by decide
    have missing := Home.file_of_home_is_not_found holds
    rw [← home_path] at missing
    have refused := Home.ls_refuses_what_is_missing ⟨session.config, clock⟩ missing
    exact exchange_of_the_command terminal member parsed refused

theorem cloned_directory_can_be_listed :
    let session := (Session.start {} 0).after [⟨"", "git clone https://h/app"⟩]
    "app/" ∈ Text.lines (session.output "" "ls") ∧
      ∃ reply, session.exchange? ⟨"", "ls app/"⟩ = some (⟨"ls", ["app/"]⟩, .ok reply) := by
  intro session
  have listed : "app/" ∈ Text.lines (session.output "" "ls") := by decide +kernel
  have accepted := (directories_of_home_can_be_listed {} 0 [⟨"", "git clone https://h/app"⟩] "").1
  exact ⟨listed, accepted "app/" listed (by decide)⟩

theorem listed_file_of_home_cannot_be_listed :
    let session := (Session.start {} 0).after []
    "README.md" ∈ Text.lines (session.output "" "ls") ∧
      session.output "" "ls README.md" = "ls: cannot access 'README.md': No such file or directory" := by
  decide +kernel

/-- The listing of the keys shows for each key its file and its public file, and then the file of known hosts.
No name stands twice in it exactly if no key has the name of the file of known hosts, and none that of a
public file. -/
theorem key_files_clash_by_name_only (config : Config) (entropy : Random.Source) (inputs : List Input)
    (clock : String) :
    let session := (Session.start { config with home := "~" } entropy).after inputs
    let files := Text.lines (session.output clock "ls ~/.ssh")
    let names := session.found.store.keys.toList.map (·.name)
    files = names.flatMap (fun name => [name, name ++ ".pub"]) ++ ["known_hosts"] ∧
      (files.Nodup ↔ "known_hosts" ∉ names ∧ names.Disjoint (names.map (· ++ ".pub"))) := by
  intro session files names
  obtain ⟨terminal, configured⟩ :
      session.registry = Terminal.registry ∧ session.config = { config with home := "~" } :=
    (Session.start { config with home := "~" } entropy).after_keeps_the_settings inputs
  have distinct : DistinctNames session.found :=
    Session.found_has_distinct_names (Session.after_is_ready (Session.start_is_ready _ entropy) inputs)
  have listable : session.found.Listable fun _ => True :=
    (World.Listable.of_run { config with home := "~" } entropy fun _ _ => trivial).tick
  have home_path : session.config.home = "~" := by rw [configured]
  have shown : files = Home.keyFiles session.found.store := by
    have parsed : Line.parse "ls ~/.ssh" = some ⟨"ls", Option.toList (some "~/.ssh")⟩ := by decide
    have path : Home.relative session.config.home "~/.ssh" = ".ssh" := by
      rw [home_path]
      decide
    have found : Home.list? session.found.store (Home.relative session.config.home "~/.ssh") =
        some (Home.keyFiles session.found.store) := by
      rw [path]
      rfl
    have words := Home.key_files_are_words fun key member => (listable.keys key member).1
    exact Home.lines_of_a_listing terminal parsed found (by simp [Home.keyFiles]) words
  rw [shown]
  exact ⟨Home.key_files_by_name session.found.store, Home.key_files_are_distinct_iff distinct.keys⟩

theorem public_file_of_one_key_is_the_file_of_another :
    let session := (Session.start {} 0).after [⟨"", "ssh-keygen a"⟩, ⟨"", "ssh-keygen a.pub"⟩]
    let files := Text.lines (session.output "" "ls ~/.ssh")
    files = ["a", "a.pub", "a.pub", "a.pub.pub", "known_hosts"] ∧ ¬files.Nodup := by
  intro session files
  have shown : files = ["a", "a.pub", "a.pub", "a.pub.pub", "known_hosts"] := by decide +kernel
  rw [shown]
  decide

end CloudTerminal
