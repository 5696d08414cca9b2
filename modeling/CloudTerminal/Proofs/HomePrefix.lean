import CloudTerminal.Proofs.HomePaths

/-!
Paths that begin with the path of home, whatever that path is. Slashes at the end of either count for nothing,
so a path is home itself (`relative_of_home`), or it stands behind home and a slash (`relative_below_home`),
or else it is taken as it is (`relative_elsewhere`). So what is at and below home is found there
(`paths_at_and_below_home_are_resolved`). What begins with a slash elsewhere is not found, except that nothing
is left of the root when its slashes are taken off (`root_alone_is_taken_for_home`).
-/

namespace CloudTerminal

open Text (IsWord)

namespace Home

variable {home path name : String} {rest : List Char}

def slashes (count : Nat) : String := String.ofList (List.replicate count '/')

/-- Any number of slashes may stand behind a path. -/
theorem slashes_behind_do_not_count (path : String) (count : Nat) :
    withoutSlashes (path ++ slashes count) = withoutSlashes path := by
  rw [withoutSlashes, String.toList_append, slashes, String.toList_ofList]
  exact Text.trimEnd_before_trimmed (by simp)

theorem path_with_its_slashes (path : String) :
    ∃ count, path.toList = withoutSlashes path ++ List.replicate count '/' :=
  Text.trimmed_repetition '/' path.toList

theorem only_slashes_iff (path : String) : withoutSlashes path = [] ↔ ∀ c ∈ path.toList, c = '/' := by
  refine ⟨fun empty => ?_, fun only => Text.trimEnd_of_all fun c member => by simp [only c member]⟩
  obtain ⟨count, ends⟩ := path_with_its_slashes path
  rw [ends, empty, List.nil_append]
  exact fun _ => List.eq_of_mem_replicate

theorem relative_of_home (same : withoutSlashes path = withoutSlashes home) : relative home path = "" := by
  have cut : (withoutSlashes home).isPrefixOf? (withoutSlashes home) = some [] :=
    List.isPrefixOf?_eq_some_iff_append_eq.mpr (List.append_nil _)
  rw [relative, same, cut]

/-- A path that goes on behind home with a slash leads to what stands behind that slash. -/
theorem relative_below_home (below : withoutSlashes path = withoutSlashes home ++ '/' :: rest) :
    relative home path = String.ofList (Text.trimStart (· == '/') rest) := by
  have cut : (withoutSlashes home).isPrefixOf? (withoutSlashes path) = some ('/' :: rest) :=
    List.isPrefixOf?_eq_some_iff_append_eq.mpr below.symm
  simp only [relative, cut]

theorem relative_elsewhere (other : withoutSlashes path ≠ withoutSlashes home)
    (apart : ¬ withoutSlashes home ++ ['/'] <+: withoutSlashes path) :
    relative home path = String.ofList (withoutSlashes path) := by
  simp only [relative]
  split
  · rename_i cut
    have same := List.isPrefixOf?_eq_some_iff_append_eq.mp cut
    exact absurd (by simpa using same.symm) other
  · rename_i rest cut
    have same := List.isPrefixOf?_eq_some_iff_append_eq.mp cut
    exact absurd ⟨rest, by simpa using same⟩ apart
  · rfl

/-- Outside home nothing is left of the path of the root alone, because it consists of slashes. -/
theorem relative_of_an_absolute_path (absolute : path.toList.head? = some '/')
    (other : withoutSlashes path ≠ withoutSlashes home) (apart : ¬ withoutSlashes home ++ ['/'] <+: path.toList) :
    relative home path = "" ∧ (∀ c ∈ path.toList, c = '/') ∨
      '/' ∈ (relative home path).toList ∧ ∃ c ∈ path.toList, c ≠ '/' := by
  obtain ⟨count, ends⟩ := path_with_its_slashes path
  have elsewhere := relative_elsewhere other fun below => apart (below.trans ⟨_, ends.symm⟩)
  rw [elsewhere, String.toList_ofList]
  by_cases nothing : withoutSlashes path = []
  · exact .inl ⟨congrArg String.ofList nothing, (only_slashes_iff path).mp nothing⟩
  · have solid : ∃ c ∈ path.toList, c ≠ '/' := by simpa using mt (only_slashes_iff path).mpr nothing
    obtain ⟨first, rest, kept⟩ := List.exists_cons_of_ne_nil nothing
    rw [ends, kept] at absolute
    rw [kept, Option.some.inj absolute]
    exact .inr ⟨List.mem_cons_self, solid⟩

theorem nothing_is_cut_off_a_name (front : String) (plain : '/' ∉ name.toList) (filled : name.toList ≠ []) :
    withoutSlashes (front ++ name) = front.toList ++ name.toList := by
  rw [withoutSlashes, String.toList_append]
  refine Text.trimEnd_of_kept_last fun c last => beq_eq_false_iff_ne.mpr ?_
  rw [List.getLast?_append, List.getLast?_eq_some_getLast filled, Option.some_or] at last
  rintro rfl
  exact plain (Option.some.inj last ▸ List.getLast_mem filled)

/-- A name behind home is found below it, however many slashes stand around it. -/
theorem relative_of_a_name (home : String) (plain : '/' ∉ name.toList) (filled : name.toList ≠ []) (count : Nat) :
    relative home (home ++ "/" ++ name ++ slashes count) = name := by
  -- The slashes that home ends in come to stand in front of the name, behind the one that ends the prefix.
  obtain ⟨behind, ends⟩ := path_with_its_slashes home
  have between : (home ++ "/").toList = withoutSlashes home ++ '/' :: List.replicate behind '/' := by
    rw [String.toList_append, ends, ← List.replicate_succ, List.replicate_succ', List.append_assoc]
    rfl
  have below : withoutSlashes (home ++ "/" ++ name ++ slashes count) =
      withoutSlashes home ++ '/' :: (List.replicate behind '/' ++ name.toList) := by
    rw [slashes_behind_do_not_count, nothing_is_cut_off_a_name _ plain filled, between, List.append_assoc,
      List.cons_append]
  have clear : Text.trimStart (· == '/') (List.replicate behind '/' ++ name.toList) = name.toList := by
    rw [Text.trimStart, List.dropWhile_append_of_pos (by simp), List.dropWhile_eq_self_iff]
    intro _ slash
    exact plain (eq_of_beq slash ▸ List.getElem_mem _)
  rw [relative_below_home below, clear, String.ofList_toList]

theorem word_before_slashes (word : IsWord path) (count : Nat) : IsWord (path ++ slashes count) := by
  constructor <;> rw [String.toList_append]
  · exact List.append_ne_nil_of_left_ne_nil word.filled _
  · refine List.forall_mem_append.mpr ⟨word.solid, fun c member => ?_⟩
    rw [slashes, String.toList_ofList] at member
    rw [List.eq_of_mem_replicate member]
    decide

theorem key_path_is_word (word : IsWord home) (named : IsWord name) : IsWord (keyPath home name) := by
  have ending : IsWord ("/.ssh/" ++ name) := Text.word_of_appended (by decide) named
  have characters : (keyPath home name).toList = withoutSlashes home ++ ("/.ssh/" ++ name).toList := by
    simp [keyPath, toString]
  obtain ⟨count, ends⟩ := path_with_its_slashes home
  constructor <;> rw [characters]
  · exact List.append_ne_nil_of_right_ne_nil _ ending.filled
  · refine List.forall_mem_append.mpr ⟨fun c member => word.solid c ?_, ending.solid⟩
    rw [ends]
    exact List.mem_append_left _ member

/-- No repository and no fixed directory has a slash in its name, so that nothing lies deeper. -/
theorem path_with_a_slash_is_not_found {past : List Exchange} {world : World} (holds : world.HoldsTheCloned past)
    (slash : '/' ∈ path.toList) : list? world.store path = none := by
  have other : ∀ fixed : String, '/' ∉ fixed.toList → path ≠ fixed := fun fixed plain same => plain (same ▸ slash)
  have free : world.store.repositories.get? path = none := by
    refine List.find?_eq_none.mpr fun r held named => ?_
    have valid := holds.valid r.name (holds.names ▸ List.mem_map_of_mem held)
    exact other r.name (other_character_is_not_in_a_directory_name (by decide) valid) (eq_of_beq named).symm
  have fixed : path ≠ "" ∧ path ≠ "." ∧ path ≠ ".ssh" ∧ path ≠ "Documents" ∧ path ≠ "Downloads" :=
    ⟨other _ (by decide), other _ (by decide), other _ (by decide), other _ (by decide), other _ (by decide)⟩
  simp [list?, free, fixed]

end Home

/-- The first lines of what is said about a new key are where its files are. -/
theorem announcement_begins_with_the_paths {config : Config} {key : Key} (word : IsWord config.home)
    (named : IsWord key.name) :
    (Text.lines (Key.announcement config key)).take 3 = ["Generating public/private ed25519 key pair.",
      s!"Your identification has been saved in {Home.keyPath config.home key.name}",
      s!"Your public key has been saved in {Home.keyPath config.home key.name}.pub"] := by
  have path : '\n' ∉ (Home.keyPath config.home key.name).toList :=
    Text.word_is_flat (Home.key_path_is_word word named)
  rw [Key.announcement, Text.lines_of_joined (List.cons_ne_nil _ _), List.flatMap_cons, List.flatMap_cons,
    List.flatMap_cons, Text.lines_of_flat (by decide), Text.lines_of_flat (by simpa [toString] using path),
    Text.lines_of_flat (by simpa [toString] using path)]
  rfl

/-- Every key that a run has generated was announced with its own paths. -/
theorem generated_key_is_announced (config : Config) (entropy : Random.Source) (inputs : List Input) :
    ∀ arguments reply, (⟨"ssh-keygen", arguments⟩, .ok reply) ∈ (Session.start config entropy).history inputs →
      ∃ key : Key, IsWord key.name ∧ reply = .text (Key.announcement config key) := by
  refine (Session.start config entropy).run_keeps inputs
    (P := fun past _ => ∀ arguments reply, (⟨"ssh-keygen", arguments⟩, .ok reply) ∈ past →
      ∃ key : Key, IsWord key.name ∧ reply = .text (Key.announcement config key)) rfl ?_ ?_
  · simp
  · intro past world clock words result next effect announced arguments reply member
    rcases List.mem_append.mp member with earlier | now
    · exact announced arguments reply earlier
    · obtain ⟨rfl, rfl⟩ := Prod.mk.inj (List.mem_singleton.mp now)
      cases effect
      case generate name name? key said named free made => exact ⟨key, made ▸ Key.new_name_is_word named, rfl⟩
      case power name power front back i said found other => cases power <;> simp [Power.verb] at said
      all_goals simp_all [Line.changes]

section Sessions

variable {session : Session} {clock path : String} {entries : List String}

/-- Home shows the same at its path and without one. -/
theorem home_is_listed_at_its_path (terminal : session.registry = Terminal.registry) (word : IsWord path)
    (here : Home.relative session.config.home path = "") :
    session.output clock s!"ls {path}" = session.output clock "ls" := by
  have listed : Home.list? session.found.store (Home.relative session.config.home path) =
      some (Home.entries session.found.store) := by
    rw [here]
    rfl
  have bare := Home.home_is_listed_without_a_path session.found.store session.config.home
  have alone : Line.parse "ls" = some ⟨"ls", Option.toList none⟩ := by decide
  have parsed : Line.parse s!"ls {path}" = some ⟨"ls", Option.toList (some path)⟩ := Home.ls_line_is_parsed word
  rw [Home.output_of_a_listing terminal parsed listed (List.cons_ne_nil _ _),
    Home.output_of_a_listing terminal alone bare (List.cons_ne_nil _ _)]

theorem keys_are_listed_at_their_path (terminal : session.registry = Terminal.registry) (word : IsWord path)
    (there : Home.relative session.config.home path = ".ssh")
    (named : ∀ key ∈ session.found.store.keys.toList, IsWord key.name) :
    Text.lines (session.output clock s!"ls {path}") = Home.keyFiles session.found.store := by
  have listed : Home.list? session.found.store (Home.relative session.config.home path) =
      some (Home.keyFiles session.found.store) := by
    rw [there]
    rfl
  have parsed : Line.parse s!"ls {path}" = some ⟨"ls", Option.toList (some path)⟩ := Home.ls_line_is_parsed word
  exact Home.lines_of_a_listing terminal parsed listed (by simp [Home.keyFiles]) (Home.key_files_are_words named)

theorem exchange_of_a_found_path (terminal : session.registry = Terminal.registry) (word : IsWord path)
    (found : Home.list? session.found.store (Home.relative session.config.home path) = some entries)
    (filled : entries ≠ []) :
    session.exchange? ⟨clock, s!"ls {path}"⟩ = some (⟨"ls", [path]⟩, .ok (.text ("\n".intercalate entries))) := by
  have ran : Home.ls.run ⟨session.config, clock⟩ session.found (some path).toList =
      (.ok (.text ("\n".intercalate entries)), session.found) := Home.ls_of_a_directory _ found filled
  exact exchange_of_the_command terminal Home.ls_is_a_command (Home.ls_line_is_parsed word) (congrArg Prod.fst ran)

theorem exchange_of_a_missing_path (terminal : session.registry = Terminal.registry) (word : IsWord path)
    (missing : Home.list? session.found.store (Home.relative session.config.home path) = none) :
    session.exchange? ⟨clock, s!"ls {path}"⟩ = some (⟨"ls", [path]⟩, .error (.noSuchPath path)) :=
  exchange_of_the_command terminal Home.ls_is_a_command (Home.ls_line_is_parsed word)
    (Home.ls_refuses_what_is_missing _ missing)

end Sessions

/-- Paths at and below home are resolved whatever path home has, with any number of slashes behind them. Home
shows what it shows without a path. A repository shows its checkout once its clone has arrived, and there is
no such path before, or if it has failed. The directory of the keys shows their files, and these are what a
key generation has named in the paths that it has shown, as long as the key is there. -/
theorem paths_at_and_below_home_are_resolved (config : Config) (word : IsWord config.home)
    (entropy : Random.Source)
    (inputs : List Input) (clock : String) (count : Nat) :
    let start := Session.start config entropy
    let session := start.after inputs
    let home := config.home
    let slashes := Home.slashes count
    let names := session.found.store.keys.toList.map (·.name)
    let ls (path : String) := session.output clock s!"ls {path}"
    let below (name : String) := s!"{home}/{name}{slashes}"
    let files := Text.lines (ls (below ".ssh"))
    ls s!"{home}{slashes}" = session.output clock "ls" ∧
      (∀ r ∈ session.found.store.repositories.toList,
        session.exchange? ⟨clock, s!"ls {below r.name}"⟩ = some (⟨"ls", [below r.name]⟩,
          if r.status = .cloned then .ok (.text ".git/\nREADME.md\nsrc/")
          else .error (.noSuchPath (below r.name)))) ∧
      files = names.flatMap (fun name => [name, name ++ ".pub"]) ++ ["known_hosts"] ∧
      ∀ arguments reply, (⟨"ssh-keygen", arguments⟩, .ok reply) ∈ start.history inputs → ∃ name,
        let path := s!"{String.ofList (Home.withoutSlashes home)}/.ssh/{name}"
        (Text.lines reply.rendered).take 3 = ["Generating public/private ed25519 key pair.",
          s!"Your identification has been saved in {path}", s!"Your public key has been saved in {path}.pub"] ∧
        (name ∈ names → name ∈ files ∧ name ++ ".pub" ∈ files) := by
  intro start session home slashes names ls below files
  obtain ⟨terminal, configured⟩ : session.registry = Terminal.registry ∧ session.config = config :=
    start.after_keeps_the_settings inputs
  have holds : session.found.HoldsTheCloned (start.history inputs) :=
    (World.HoldsTheCloned.of_run config entropy inputs).tick
  have distinct : session.found.store.repositories.Distinct :=
    (LockStep.of_run config entropy inputs).tick.distinct
  have listable : session.found.Listable fun _ => True :=
    (World.Listable.of_run config entropy fun _ _ => trivial).tick
  have home_path : session.config.home = home := congrArg Config.home configured
  have solid : ∀ name : String, IsWord name → IsWord (below name) := fun name named =>
    Home.word_before_slashes (Text.word_of_appended (Text.word_of_appended word (by decide)) named) count
  have resolved : ∀ name : String, IsWord name → '/' ∉ name.toList →
      Home.relative session.config.home (below name) = name := fun name named plain =>
    home_path ▸ Home.relative_of_a_name home plain named.filled count
  have shown : files = Home.keyFiles session.found.store :=
    keys_are_listed_at_their_path terminal (solid ".ssh" (by decide)) (resolved ".ssh" (by decide) (by decide))
      fun key member => (listable.keys key member).1
  have listed : files = names.flatMap (fun name => [name, name ++ ".pub"]) ++ ["known_hosts"] :=
    shown.trans (Home.key_files_by_name session.found.store)
  refine ⟨?_, fun r held => ?_, listed, fun arguments reply said => ?_⟩
  · refine home_is_listed_at_its_path terminal (Home.word_before_slashes word count) (Home.relative_of_home ?_)
    rw [home_path]
    exact Home.slashes_behind_do_not_count home count
  · have valid := holds.valid r.name (holds.names ▸ List.mem_map_of_mem held)
    have named := valid_directory_is_word valid
    have plain := Home.other_character_is_not_in_a_directory_name (c := '/') (by decide) valid
    have found := Home.list_at_a_repository holds distinct held
    rw [← resolved r.name named plain] at found
    split
    case isTrue arrived =>
      rw [if_pos arrived] at found
      exact exchange_of_a_found_path terminal (solid r.name named) found (List.cons_ne_nil _ _)
    case isFalse arrived =>
      rw [if_neg arrived] at found
      exact exchange_of_a_missing_path terminal (solid r.name named) found
  · obtain ⟨key, named, rfl⟩ := generated_key_is_announced config entropy inputs arguments reply said
    refine ⟨key.name, ?_, fun there => ?_⟩
    · rw [Reply.rendered]
      exact announcement_begins_with_the_paths word named
    · rw [listed]
      constructor <;> refine List.mem_append_left _ (List.mem_flatMap.mpr ⟨key.name, there, ?_⟩) <;> simp

/-- Home is `lib/`, and one of the repositories has its name. -/
theorem clone_named_like_home_is_found_below_it :
    let session := (Session.start { home := "lib/", cloneDelay := 1 } 0).after
      [⟨"", "git clone https://h/lib"⟩, ⟨"", "ssh-keygen"⟩]
    IsWord "lib/" ∧ session.output "" "ls lib///" = session.output "" "ls" ∧
      session.exchange? ⟨"", "ls lib//lib//"⟩ =
        some (⟨"ls", ["lib//lib//"]⟩, .ok (.text ".git/\nREADME.md\nsrc/")) ∧
      Text.lines (session.output "" "ls lib//.ssh//") = ["id_ed25519", "id_ed25519.pub", "known_hosts"] := by
  have word : IsWord "lib/" := by decide
  have resolved := paths_at_and_below_home_are_resolved { home := "lib/", cloneDelay := 1 } word 0
    [⟨"", "git clone https://h/lib"⟩, ⟨"", "ssh-keygen"⟩] "" 2
  have held : (⟨"lib", "https://h/lib", .cloned⟩ : Repository) ∈
      ((Session.start { home := "lib/", cloneDelay := 1 } 0).after
        [⟨"", "git clone https://h/lib"⟩, ⟨"", "ssh-keygen"⟩]).found.store.repositories.toList := by
    decide +kernel
  have keys : ((Session.start { home := "lib/", cloneDelay := 1 } 0).after
      [⟨"", "git clone https://h/lib"⟩, ⟨"", "ssh-keygen"⟩]).found.store.keys.toList.map (·.name) =
        ["id_ed25519"] := by
    decide +kernel
  have slashes : Home.slashes 2 = "//" := by decide
  dsimp only at resolved ⊢
  -- From here on the run is not looked at again.
  generalize (Session.start { home := "lib/", cloneDelay := 1 } 0).after _ = session at resolved held keys ⊢
  obtain ⟨home, repositories, files, -⟩ := resolved
  have checkout := repositories _ held
  rw [keys] at files
  rw [slashes] at home checkout files
  dsimp only [toString, String.reduceAppend] at home checkout files
  rw [if_pos rfl] at checkout
  exact ⟨word, home, checkout, files⟩

/-- A path that begins with a slash, and is neither home nor below it, cannot be accessed, unless it is the
root. The root is shown as if it were home. -/
theorem root_alone_is_taken_for_home (config : Config) (entropy : Random.Source) (inputs : List Input)
    (clock path : String) (word : IsWord path) (absolute : path.toList.head? = some '/')
    (other : Home.withoutSlashes path ≠ Home.withoutSlashes config.home)
    (apart : ¬ Home.withoutSlashes config.home ++ ['/'] <+: path.toList) :
    let session := (Session.start config entropy).after inputs
    ((∃ c ∈ path.toList, c ≠ '/') →
      session.exchange? ⟨clock, s!"ls {path}"⟩ = some (⟨"ls", [path]⟩, .error (.noSuchPath path))) ∧
    ((∀ c ∈ path.toList, c = '/') → session.output clock s!"ls {path}" = session.output clock "ls") := by
  intro session
  obtain ⟨terminal, configured⟩ : session.registry = Terminal.registry ∧ session.config = config :=
    (Session.start config entropy).after_keeps_the_settings inputs
  have holds : session.found.HoldsTheCloned ((Session.start config entropy).history inputs) :=
    (World.HoldsTheCloned.of_run config entropy inputs).tick
  have resolved := Home.relative_of_an_absolute_path absolute other apart
  rw [← configured] at resolved
  rcases resolved with ⟨here, only⟩ | ⟨slash, c, member, plain⟩
  · refine ⟨?_, fun _ => home_is_listed_at_its_path terminal word here⟩
    rintro ⟨c, member, plain⟩
    exact absurd (only c member) plain
  · have missing := Home.path_with_a_slash_is_not_found holds slash
    exact ⟨fun _ => exchange_of_a_missing_path terminal word missing, fun only => absurd (only c member) plain⟩

/-- Home's path with another letter behind it is outside home. -/
theorem path_that_goes_on_behind_home_is_refused :
    let session := (Session.start { home := "/home/dev/" } 0).after [⟨"", "git clone https://h/x"⟩]
    session.exchange? ⟨"", "ls /home/devx"⟩ = some (⟨"ls", ["/home/devx"]⟩, .error (.noSuchPath "/home/devx")) ∧
      session.output "" "ls //" = session.output "" "ls" := by
  have refused := (root_alone_is_taken_for_home { home := "/home/dev/" } 0 [⟨"", "git clone https://h/x"⟩] ""
    "/home/devx" (by decide) (by decide) (by decide) (by decide)).1 ⟨'h', by decide, by decide⟩
  have root := (root_alone_is_taken_for_home { home := "/home/dev/" } 0 [⟨"", "git clone https://h/x"⟩] ""
    "//" (by decide) (by decide) (by decide) (by decide)).2 (by simp)
  dsimp only [toString, String.reduceAppend] at refused root
  exact ⟨refused, root⟩

theorem root_is_listed_as_home :
    let session := (Session.start {} 0).after []
    session.config.home = "~" ∧ Home.withoutSlashes "/" ≠ Home.withoutSlashes "~" ∧
      ¬ Home.withoutSlashes "~" ++ ['/'] <+: "/".toList ∧
      session.output "" "ls /" = ".ssh/\nDocuments/\nDownloads/\nREADME.md" := by
  decide +kernel

end CloudTerminal
