import Mathlib.Data.List.Nodup
import CloudTerminal.Proofs.CloneRequest

/-!
The listing of the home directory, beside the two other views of the repositories. A session holds the
repositories that its accepted clones have added, in their order, and none under a name that home has already
(`World.HoldsTheCloned`); names that can be cloned into hold neither slashes nor line feeds. So the listing of
home has a line for each of its entries, and no two of them name one thing (`entries_name_distinct_things`).
What `git status` and the table of `git list` say of a name is read off the same store (`status_says`,
`row_of_the_listing`), and the three agree after every run (`views_of_the_repositories_agree`).
-/

namespace CloudTerminal

namespace Text

def lines (text : String) : List String := (splitAll (· == '\n') text.toList).map String.ofList

theorem lines_of_flat {text : String} (flat : '\n' ∉ text.toList) : lines text = [text] := by
  rw [lines, flat_text_is_one_line flat, List.map_singleton, String.ofList_toList]

theorem lines_of_joined {pieces : List String} (filled : pieces ≠ []) :
    lines ("\n".intercalate pieces) = pieces.flatMap lines := by
  induction pieces with
  | nil => exact absurd rfl filled
  | cons first rest ih =>
    cases rest with
    | nil => simp [String.intercalate_singleton]
    | cons second rest =>
      have later := ih (List.cons_ne_nil second rest)
      have cut : ("\n".intercalate (first :: second :: rest)).toList =
          first.toList ++ '\n' :: ("\n".intercalate (second :: rest)).toList := by
        simp
      rw [List.flatMap_cons, ← later]
      simp only [lines]
      rw [cut, splitAll_append_sep (by decide), List.map_append]

/-- Joined words are cut apart into just these words. -/
theorem lines_of_joined_words {pieces : List String} (filled : pieces ≠ [])
    (words : ∀ piece ∈ pieces, IsWord piece) :
    lines ("\n".intercalate pieces) = pieces := by
  have alone : ∀ piece ∈ pieces, lines piece = [piece] :=
    fun piece member => lines_of_flat (word_is_flat (words piece member))
  rw [lines_of_joined filled, List.flatMap_congr alone, List.flatMap_singleton']

/-- The headers of a table that is given as text: the words of its first line. -/
def tableHeaders (text : String) : List String :=
  ((lines text).take 1).flatMap fun line => (words line.toList).map String.ofList

/-- The rows of a table that is given as text, each cell with the header that it stands under. -/
def tableRows (text : String) : List (List (String × String)) := (tableCells text).map (tableHeaders text).zip

theorem headers_of_rendered_table {headers : List String} {rows : List (List String)}
    (named : ∀ header ∈ headers, IsWord header) (cells : ∀ row ∈ rows, ∀ cell ∈ row, IsWord cell) :
    tableHeaders (renderTable headers rows) = headers := by
  have made := lines_of_rendered_table (fun header member => word_is_flat (named header member)) cells
  rw [tableHeaders, lines, made, tableLines, List.map_cons, List.map_cons, List.take_succ_cons, List.take_zero,
    List.flatMap_singleton, String.toList_ofList]
  exact cells_of_table_line List.mem_cons_self named

end Text

open Text (IsWord)

section Output

variable {session : Session} {clock line : String}

/-- What is shown for a line, nothing if it is blank or clears the screen. -/
def Session.output (session : Session) (clock line : String) : String :=
  ((session.execute clock line).1.map LogEntry.output).getD ""

/-- The output of a line is what its command shows for the world as the line finds it. -/
theorem output_of_the_command (terminal : session.registry = Terminal.registry) {command : Command}
    {arguments : List String} (member : command ∈ Terminal.commands)
    (parsed : Line.parse line = some ⟨command.name, arguments⟩) :
    session.output clock line =
      (Session.shown? (command.run ⟨session.config, clock⟩ session.found arguments).1).getD "" := by
  have carried := run_by_the_command ⟨session.config, clock⟩ session.found arguments member
  unfold Session.found at carried ⊢
  rw [← carried, Session.output, Session.execute, parsed]
  simp only [terminal]
  cases Session.shown? _ <;> rfl

theorem output_of_the_answer (terminal : session.registry = Terminal.registry) {command : Command}
    {arguments : List String} {reply : Reply} (member : command ∈ Terminal.commands)
    (parsed : Line.parse line = some ⟨command.name, arguments⟩)
    (ran : (command.run ⟨session.config, clock⟩ session.found arguments).1 = .ok reply) :
    session.output clock line = reply.rendered := by
  rw [output_of_the_command terminal member parsed, ran]
  cases reply <;> rfl

end Output

/-- The directory that an accepted clone goes into. -/
def Exchange.clonedInto? : Exchange → Option String
  | (⟨"git", "clone" :: url :: rest⟩, .ok _) => Repository.askedFor? url rest.head?
  | _ => none

section Names

variable {past : List Exchange} {setting : Setting} {world next : World} {words : Line} {reply : Reply}
  {result : Except Error Reply} {url name : String} {name? : Option String}

theorem nothing_cloned_by_a_refused_line (e : Error) : Exchange.clonedInto? (words, .error e) = none := by
  unfold Exchange.clonedInto?
  split
  · rename_i shape
    cases shape
  · rfl

theorem nothing_cloned_by_a_quiet_line (quiet : words.changes = false) :
    Exchange.clonedInto? (words, .ok reply) = none := by
  unfold Exchange.clonedInto?
  split
  · rename_i shape
    cases shape
    cases quiet
  · rfl

theorem directory_is_the_valid_one_asked_for (named : Repository.directoryFor url name? = .ok name) :
    Repository.askedFor? url name? = some name ∧ Repository.isValidDirectory name = true := by
  rw [Repository.directory_that_is_asked_for] at named
  split at named
  · cases named
  · rename_i asked
    split at named
    · rename_i valid
      cases named
      exact ⟨asked, valid⟩
    · cases named

/-- The repositories are those that the accepted clones have added, in their order. Each has a name that can
be cloned into and that nothing else in the home directory has. -/
structure World.HoldsTheCloned (past : List Exchange) (world : World) : Prop where
  names : world.store.repositories.toList.map (·.name) = past.filterMap Exchange.clonedInto?
  valid : ∀ name ∈ past.filterMap Exchange.clonedInto?, Repository.isValidDirectory name = true
  clear : ∀ name ∈ past.filterMap Exchange.clonedInto?, name ∉ Repository.homeNames

namespace World.HoldsTheCloned

theorem tick (holds : world.HoldsTheCloned past) : world.tick.2.HoldsTheCloned past := by
  have same := congrArg (List.map Prod.fst) (CloneQueue.tick_keeps_names_and_urls world)
  rw [List.map_map, List.map_map] at same
  exact ⟨same.trans holds.names, holds.valid, holds.clear⟩

theorem other_line {exchange : Exchange} (holds : world.HoldsTheCloned past)
    (kept : next.store.repositories = world.store.repositories) (other : exchange.clonedInto? = none) :
    next.HoldsTheCloned (past ++ [exchange]) := by
  have same : (past ++ [exchange]).filterMap Exchange.clonedInto? = past.filterMap Exchange.clonedInto? := by
    simp [other]
  refine ⟨?_, ?_, ?_⟩ <;> rw [same]
  · rw [kept]
    exact holds.names
  · exact holds.valid
  · exact holds.clear

theorem clone {exchange : Exchange} {r : Repository} (holds : world.HoldsTheCloned past)
    (added : next.store.repositories.toList = world.store.repositories.toList ++ [r])
    (cloned : exchange.clonedInto? = some r.name) (valid : Repository.isValidDirectory r.name = true)
    (clear : r.name ∉ Repository.homeNames) : next.HoldsTheCloned (past ++ [exchange]) := by
  have longer : (past ++ [exchange]).filterMap Exchange.clonedInto? =
      past.filterMap Exchange.clonedInto? ++ [r.name] := by
    simp [cloned]
  refine ⟨?_, ?_, ?_⟩ <;> rw [longer]
  · rw [added, List.map_append, holds.names]
    rfl
  · exact List.forall_mem_append.mpr ⟨holds.valid, List.forall_mem_singleton.mpr valid⟩
  · exact List.forall_mem_append.mpr ⟨holds.clear, List.forall_mem_singleton.mpr clear⟩

/-- What the repositories and the history have in common is kept by every line, with one case for each
effect. -/
theorem line (holds : world.HoldsTheCloned past) (effect : LineEffect setting world words (result, next)) :
    next.HoldsTheCloned (past ++ [(words, result)]) := by
  cases effect with
  | refused e => exact holds.other_line rfl (nothing_cloned_by_a_refused_line e)
  | look reply quiet => exact holds.other_line rfl (nothing_cloned_by_a_quiet_line quiet)
  | clone url name name? said named clear free idle =>
    obtain ⟨asked, valid⟩ := directory_is_the_valid_one_asked_for named
    have cloned : Exchange.clonedInto? (words, .ok (.text ("\n".intercalate
        (Repository.cloneLines url name setting.config.cloneDelay)))) = some name := by
      rw [said, ← asked]
      cases name? <;> rfl
    have other : name ∉ Repository.homeNames := by
      rw [← Repository.fixed_iff_home_name, clear]
      exact Bool.false_ne_true
    exact holds.clone (r := .cloneOf setting.config.cloneDelay url name) rfl cloned valid other
  | power _ _ power _ _ _ said => cases power <;> exact holds.other_line rfl (said ▸ rfl)
  | generate _ _ _ said => exact holds.other_line rfl (said ▸ rfl)
  | create _ _ said => exact holds.other_line rfl (said ▸ rfl)
  | delete _ _ _ _ _ said | mark _ _ _ _ _ said | discard _ _ _ _ _ said => exact holds.other_line rfl (said ▸ rfl)

/-- After every run the repositories are those that the history has cloned, under valid names that are not
fixed in home. -/
theorem of_run (config : Config) (entropy : Random.Source) (inputs : List Input) :
    ((Session.start config entropy).after inputs).world.HoldsTheCloned
      ((Session.start config entropy).history inputs) := by
  have empty : World.HoldsTheCloned [] (Session.start config entropy).world :=
    ⟨rfl, List.forall_mem_nil _, List.forall_mem_nil _⟩
  exact (Session.start config entropy).run_keeps inputs
    (P := fun past world => world.HoldsTheCloned past) rfl empty
    fun _ _ _ _ _ _ effect holds => holds.tick.line effect

end World.HoldsTheCloned

end Names

namespace Home

variable {past : List Exchange} {world : World} {store : Store} {path? : Option String} {entries : List String}
  {name : String}

theorem ls_is_a_command : ls ∈ Terminal.commands := by simp [Terminal.commands, Home.commands]

theorem ls_of_a_directory (setting : Setting)
    (found : list? world.store (relative setting.config.home (path?.getD "")) = some entries)
    (filled : entries ≠ []) :
    ls.run setting world path?.toList = (.ok (.text ("\n".intercalate entries)), world) := by
  have parsed : lsManual.optionalArgument path?.toList = .ok path? := takes_optional_argument.mpr rfl
  obtain ⟨first, rest, rfl⟩ := List.exists_cons_of_ne_nil filled
  simp only [ls, Command.reading, parsed, found]

/-- Without a path home is listed, whatever its path is. -/
theorem home_is_listed_without_a_path (store : Store) (home : String) :
    list? store (relative home "") = some (Home.entries store) := by
  have here : relative home "" = "" := by
    have nothing : withoutSlashes "" = [] := rfl
    unfold relative
    rw [nothing]
    cases withoutSlashes home <;> rfl
  rw [here]
  rfl

/-- The names of the repositories whose clones have arrived. -/
def clonedNames (store : Store) : List String := (store.repositories.filter (·.status == .cloned)).map (·.name)

/-- The listing of home shows what every home holds, and then the cloned repositories by name. -/
theorem entries_by_name (store : Store) :
    Home.entries store = [".ssh/", "Documents/", "Downloads/", "README.md"] ++
      (clonedNames store).map (· ++ "/") := by
  rw [Home.entries, clonedNames, List.map_map]
  rfl

/-- A name is listed exactly if a repository has it and its clone has arrived. -/
theorem mem_clonedNames : name ∈ clonedNames store ↔
    ∃ r ∈ store.repositories.toList, r.name = name ∧ r.status = .cloned := by
  simp only [clonedNames, Directory.filter, List.mem_map, List.mem_filter, beq_iff_eq]
  constructor
  · rintro ⟨r, ⟨held, cloned⟩, named⟩
    exact ⟨r, held, named, cloned⟩
  · rintro ⟨r, held, named, cloned⟩
    exact ⟨r, ⟨held, cloned⟩, named⟩

theorem cloned_names_among_all (store : Store) :
    (clonedNames store).Sublist (store.repositories.toList.map (·.name)) :=
  List.filter_sublist.map _

theorem cloned_name_is_in_the_history (holds : world.HoldsTheCloned past)
    (member : name ∈ clonedNames world.store) :
    name ∈ past.filterMap Exchange.clonedInto? :=
  holds.names ▸ (cloned_names_among_all world.store).subset member

theorem fixed_directory_is_a_home_name (member : name ++ "/" ∈ fixedEntries) : name ∈ Repository.homeNames := by
  have cut : ∀ entry ∈ fixedEntries.map String.toList, entry.getLast? = some '/' →
      entry.dropLast ∈ Repository.homeNames.map String.toList := by decide
  have written : name.toList ++ ['/'] ∈ fixedEntries.map String.toList := by
    simpa using List.mem_map_of_mem (f := String.toList) member
  have names := cut _ written (by simp)
  rw [List.dropLast_concat] at names
  exact (List.mem_map_of_injective fun _ _ => String.toList_injective).mp names

/-- Home lists a directory that it does not always have exactly if that is the one of a repository that has
arrived. -/
theorem mem_entries_iff (other : name ∉ Repository.homeNames) :
    name ++ "/" ∈ Home.entries store ↔ ∃ r ∈ store.repositories.toList, r.name = name ∧ r.status = .cloned := by
  rw [← mem_clonedNames, entries_by_name, List.mem_append, List.mem_map]
  constructor
  · rintro (fixed | ⟨cloned, member, same⟩)
    · exact absurd (fixed_directory_is_a_home_name fixed) other
    · exact (String.append_left_inj "/").mp same ▸ member
  · exact fun member => .inr ⟨name, member, rfl⟩

theorem other_character_is_not_in_a_directory_name {c : Char}
    (other : (c.isAlphanum || ['-', '_', '.'].contains c) = false)
    (valid : Repository.isValidDirectory name = true) : c ∉ name.toList := by
  intro inside
  simp only [Repository.isValidDirectory, Bool.and_eq_true, List.all_eq_true] at valid
  rw [valid.2 c inside] at other
  cases other

theorem without_the_slash_behind (plain : '/' ∉ name.toList) : withoutSlashes (name ++ "/") = name.toList := by
  rw [withoutSlashes, String.toList_append, Text.trimEnd_before_trimmed (by simp)]
  refine Text.trimEnd_of_kept_last fun c last => beq_eq_false_iff_ne.mpr ?_
  rintro rfl
  exact plain (List.mem_of_getLast? last)

theorem names_of_entries (holds : world.HoldsTheCloned past) :
    (Home.entries world.store).map withoutSlashes =
      (Repository.homeNames ++ clonedNames world.store).map String.toList := by
  rw [entries_by_name, List.map_append, List.map_append, List.map_map]
  congr 1
  refine List.map_congr_left fun name member => ?_
  have valid := holds.valid name (cloned_name_is_in_the_history holds member)
  exact without_the_slash_behind (other_character_is_not_in_a_directory_name (by decide) valid)

theorem entries_are_words (holds : world.HoldsTheCloned past) :
    ∀ entry ∈ Home.entries world.store, IsWord entry := by
  rw [entries_by_name, List.forall_mem_append]
  refine ⟨by decide, List.forall_mem_map.mpr fun name member => ?_⟩
  have valid := holds.valid name (cloned_name_is_in_the_history holds member)
  exact Text.word_of_appended (valid_directory_is_word valid) (by decide)

/-- Also without the slashes behind directories, no two entries of home are the same. -/
theorem entries_name_distinct_things (holds : world.HoldsTheCloned past)
    (distinct : world.store.repositories.Distinct) :
    ((Home.entries world.store).map withoutSlashes).Nodup := by
  have arrived : (clonedNames world.store).Nodup := distinct.sublist (cloned_names_among_all world.store)
  rw [names_of_entries holds]
  refine List.Nodup.map (fun _ _ => String.toList_injective) (List.nodup_append.mpr ⟨by decide, arrived, ?_⟩)
  rintro fixed there name member rfl
  exact holds.clear fixed (cloned_name_is_in_the_history holds member) there

section Lines

variable {session : Session} {clock line : String}

theorem output_of_a_listing (terminal : session.registry = Terminal.registry)
    (parsed : Line.parse line = some ⟨"ls", path?.toList⟩)
    (found : list? session.found.store (relative session.config.home (path?.getD "")) = some entries)
    (filled : entries ≠ []) : session.output clock line = "\n".intercalate entries := by
  have ran := congrArg Prod.fst (ls_of_a_directory ⟨session.config, clock⟩ found filled)
  exact output_of_the_answer terminal ls_is_a_command parsed ran

theorem lines_of_a_listing (terminal : session.registry = Terminal.registry)
    (parsed : Line.parse line = some ⟨"ls", path?.toList⟩)
    (found : list? session.found.store (relative session.config.home (path?.getD "")) = some entries)
    (filled : entries ≠ []) (words : ∀ entry ∈ entries, IsWord entry) :
    Text.lines (session.output clock line) = entries := by
  rw [output_of_a_listing terminal parsed found filled, Text.lines_of_joined_words filled words]

/-- The lines that are shown for home are its entries, one in each line. -/
theorem lines_of_home (terminal : session.registry = Terminal.registry)
    (holds : session.found.HoldsTheCloned past) :
    Text.lines (session.output clock "ls") = Home.entries session.found.store := by
  have parsed : Line.parse "ls" = some ⟨"ls", Option.toList none⟩ := by decide
  have found := home_is_listed_without_a_path session.found.store session.config.home
  exact lines_of_a_listing terminal parsed found (List.cons_ne_nil _ _) (entries_are_words holds)

end Lines

end Home

namespace Repository

variable {dated : String → Prop} {world : World} {r : Repository} {name : String}

theorem text_tells_the_status {status other : CloneStatus} (same : status.text = other.text) : status = other := by
  cases status <;> cases other <;> first | rfl | exact absurd same (by decide)

theorem lines_of_description (name : IsWord r.name) (url : IsWord r.url) :
    Text.lines (description r) =
      [s!"Repository: {r.name}", s!"  URL:    {r.url}", s!"  Status: {r.status.text}"] ++
        Text.lines (detail r.status) := by
  have flat_name : '\n' ∉ r.name.toList := Text.word_is_flat name
  have flat_url : '\n' ∉ r.url.toList := Text.word_is_flat url
  have flat_status : '\n' ∉ r.status.text.toList := Text.word_is_flat (status_is_word r.status)
  rw [description, Text.lines_of_joined (List.cons_ne_nil _ _)]
  simp only [List.flatMap_cons, List.flatMap_nil, List.append_nil]
  rw [Text.lines_of_flat, Text.lines_of_flat, Text.lines_of_flat]
  · rfl
  · simpa [toString] using flat_status
  · simpa [toString] using flat_url
  · simpa [toString] using flat_name

theorem detail_shows_no_status (status other : CloneStatus) :
    s!"  Status: {status.text}" ∉ Text.lines (detail other) := by
  cases status <;> cases other <;> decide

theorem description_shows_the_status (name : IsWord r.name) (url : IsWord r.url) (status : CloneStatus) :
    s!"  Status: {status.text}" ∈ Text.lines (description r) ↔ r.status = status := by
  rw [lines_of_description name url]
  constructor
  · intro member
    rcases List.mem_append.mp member with above | below
    · have named : s!"  Status: {status.text}" ≠ s!"Repository: {r.name}" := by
        simp [toString, ← String.toList_inj]
      have located : s!"  Status: {status.text}" ≠ s!"  URL:    {r.url}" := by
        simp [toString, ← String.toList_inj]
      simp only [List.mem_cons, named, located, List.not_mem_nil, false_or, or_false] at above
      have texts := (String.append_right_inj "  Status: ").mp above
      exact (text_tells_the_status texts).symm
    · exact absurd below (detail_shows_no_status status r.status)
  · rintro rfl
    simp

/-- The answer about a name tells a status exactly if a repository of that name has it. -/
theorem status_says (distinct : world.store.repositories.Distinct) (listable : world.Listable dated)
    (word : IsWord name) (status : CloneStatus) :
    s!"  Status: {status.text}" ∈ Text.lines ((Session.shown? (viewStatus world.store [name])).getD "") ↔
      ∃ r ∈ world.store.repositories.toList, r.name = name ∧ r.status = status := by
  have parsed : manual.oneArgument [name] = .ok name := takes_one_argument.mpr rfl
  have read : ∀ r, world.store.repositories.get? name = some r ↔
      r ∈ world.store.repositories.toList ∧ r.name = name :=
    fun r => Directory.lookup_finds_exactly_the_member distinct
  cases found : world.store.repositories.get? name with
  | none =>
    have answer : (Session.shown? (viewStatus world.store [name])).getD "" =
        s!"repository '{name}' not found" := by
      simp only [viewStatus, parsed, Directory.find, found]
      rfl
    have flat : '\n' ∉ s!"repository '{name}' not found".toList := by
      simpa [toString] using Text.word_is_flat word
    rw [answer, Text.lines_of_flat flat, List.mem_singleton]
    constructor
    · intro same
      exact absurd same (by simp [toString, ← String.toList_inj])
    · rintro ⟨r, held, named, -⟩
      rw [(read r).mpr ⟨held, named⟩] at found
      cases found
  | some r =>
    have answer : (Session.shown? (viewStatus world.store [name])).getD "" = description r := by
      simp only [viewStatus, parsed, Directory.find, found]
      rfl
    obtain ⟨held, named⟩ := (read r).mp found
    obtain ⟨name_word, url_word⟩ := listable.repositories r held
    rw [answer, description_shows_the_status name_word url_word]
    constructor
    · exact fun same => ⟨r, held, named, same⟩
    · rintro ⟨other, member, same, rfl⟩
      have only := found.symm.trans ((read other).mpr ⟨member, same⟩)
      rw [Option.some.inj only]

theorem headers_of_the_listing (listable : world.Listable dated) (held : r ∈ world.store.repositories.toList) :
    Text.tableHeaders (listing world.store).rendered = ["NAME", "STATUS", "URL"] := by
  unfold listing
  split
  · rename_i none_there
    rw [none_there] at held
    cases held
  · refine Text.headers_of_rendered_table (by decide) (List.forall_mem_map.mpr fun r member => ?_)
    obtain ⟨name, url⟩ := listable.repositories r member
    simp [name, url, status_is_word]

/-- The table of the listing has a row with a name and a status exactly if there is such a repository. -/
theorem row_of_the_listing (listable : world.Listable dated) (name : String) (status : CloneStatus) :
    (∃ row ∈ Text.tableRows (listing world.store).rendered, ("NAME", name) ∈ row ∧ ("STATUS", status.text) ∈ row) ↔
      ∃ r ∈ world.store.repositories.toList, r.name = name ∧ r.status = status := by
  have rows : Text.tableRows (listing world.store).rendered =
      world.store.repositories.toList.map fun r =>
        [("NAME", r.name), ("STATUS", r.status.text), ("URL", r.url)] := by
    rw [Text.tableRows, repositories_read_back listable, List.map_map]
    refine List.map_congr_left fun r member => ?_
    rw [Function.comp_apply, headers_of_the_listing listable member]
    rfl
  rw [rows]
  constructor
  · rintro ⟨row, member, named, ended⟩
    obtain ⟨r, held, rfl⟩ := List.mem_map.mp member
    have same_name : name = r.name := by simpa using named
    have same_text : status.text = r.status.text := by simpa using ended
    exact ⟨r, held, same_name.symm, (text_tells_the_status same_text).symm⟩
  · rintro ⟨r, held, rfl, rfl⟩
    exact ⟨_, List.mem_map_of_mem held, by simp, by simp⟩

end Repository

/-- The views of the repositories agree after every run. Without the slashes behind directories, the lines of
the listing of home are distinct. Those of repositories come behind the fixed ones, in the order of the
clones. There is a line for a name exactly if `git status` says that the repository of that name is cloned,
and also exactly if the table of `git list` has a row that says so. -/
theorem views_of_the_repositories_agree (config : Config) (entropy : Random.Source) (inputs : List Input)
    (clock : String) :
    let session := (Session.start config entropy).after inputs
    let cloned := ((Session.start config entropy).history inputs).filterMap Exchange.clonedInto?
    let home := Text.lines (session.output clock "ls")
    (home.map Home.withoutSlashes).Nodup ∧
      (cloned.Nodup ∧ ∃ names : List String, names.Sublist cloned ∧
        home = [".ssh/", "Documents/", "Downloads/", "README.md"] ++ names.map (· ++ "/")) ∧
      ∀ name, IsWord name → name ∉ [".ssh", "Documents", "Downloads", "README.md"] →
        (name ++ "/" ∈ home ↔ "  Status: cloned" ∈ Text.lines (session.output clock s!"git status {name}")) ∧
        (name ++ "/" ∈ home ↔ ∃ row ∈ Text.tableRows (session.output clock "git list"),
          ("NAME", name) ∈ row ∧ ("STATUS", "cloned") ∈ row) := by
  intro session cloned home
  have terminal : session.registry = Terminal.registry :=
    ((Session.start config entropy).after_keeps_the_settings inputs).1
  have holds : session.found.HoldsTheCloned ((Session.start config entropy).history inputs) :=
    (World.HoldsTheCloned.of_run config entropy inputs).tick
  have distinct : session.found.store.repositories.Distinct :=
    (LockStep.of_run config entropy inputs).tick.distinct
  have listable : session.found.Listable fun _ => True :=
    (World.Listable.of_run config entropy fun _ _ => trivial).tick
  have member : Repository.git ∈ Terminal.commands := by simp [Terminal.commands, Repository.commands]
  have among : (Home.clonedNames session.found.store).Sublist cloned := by
    have some_of_all := Home.cloned_names_among_all session.found.store
    rwa [holds.names] at some_of_all
  have shown : home = Home.entries session.found.store := Home.lines_of_home terminal holds
  refine ⟨?_, ⟨?_, Home.clonedNames session.found.store, among, ?_⟩, ?_⟩
  · rw [shown]
    exact Home.entries_name_distinct_things holds distinct
  · have all : (session.found.store.repositories.toList.map (·.name)).Nodup := distinct
    rwa [holds.names] at all
  · rw [shown, Home.entries_by_name]
  · intro name word other
    have asked : Line.parse s!"git status {name}" = some ⟨"git", ["status", name]⟩ := by
      have joined : s!"git status {name}" = " ".intercalate ["git", "status", name] := by
        simp [toString, ← String.toList_inj]
      rw [joined]
      exact Line.parse_of_joined (by simp [word]; decide)
    have listed : Line.parse "git list" = some ⟨"git", ["list"]⟩ := by decide
    have status : session.output clock s!"git status {name}" =
        (Session.shown? (Repository.viewStatus session.found.store [name])).getD "" :=
      output_of_the_command terminal member asked
    have table : session.output clock "git list" = (Repository.listing session.found.store).rendered :=
      output_of_the_answer terminal member listed rfl
    rw [shown, Home.mem_entries_iff other, status, table]
    exact ⟨(Repository.status_says distinct listable word .cloned).symm,
      (Repository.row_of_the_listing listable name .cloned).symm⟩

/-- The clone that came first has arrived, and the one after it is under way. -/
theorem only_the_first_of_two_clones_is_listed :
    let session := (Session.start { cloneDelay := 1 } 0).after
      [⟨"", "git clone https://h/app"⟩, ⟨"", "git clone https://h/lib"⟩]
    let home := Text.lines (session.output "" "ls")
    home = [".ssh/", "Documents/", "Downloads/", "README.md", "app/"] ∧
      "  Status: cloned" ∈ Text.lines (session.output "" "git status app") ∧
      ¬∃ row ∈ Text.tableRows (session.output "" "git list"),
        ("NAME", "lib") ∈ row ∧ ("STATUS", "cloned") ∈ row := by
  intro session home
  have listed : home = [".ssh/", "Documents/", "Downloads/", "README.md", "app/"] := by decide +kernel
  have agree := (views_of_the_repositories_agree { cloneDelay := 1 } 0
    [⟨"", "git clone https://h/app"⟩, ⟨"", "git clone https://h/lib"⟩] "").2.2
  refine ⟨listed, (agree "app" (by decide) (by decide)).1.mp ?_, fun row => ?_⟩
  · show _ ∈ home
    rw [listed]
    decide
  · have present : "lib/" ∈ home := (agree "lib" (by decide) (by decide)).2.mpr row
    rw [listed] at present
    exact absurd present (by decide)

end CloudTerminal
