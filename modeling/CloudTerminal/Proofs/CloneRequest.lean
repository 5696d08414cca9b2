import CloudTerminal.Proofs.Change
import CloudTerminal.Proofs.Listings

/-!
Which requests to clone are accepted. What counts is the directory that is asked for, be it given or named by
the URL: `Repository.Open` says when a store can take it, and `Repository.Refuses` says for all other requests
why they are refused, in the order in which the reasons are looked for. In a session a name that no repository
has is not waiting in the queue either, so no clone fails after its repository has been added
(`LockStep.schedule_succeeds`), and what is shown of a clone tells how far it has come
(`clone_text_tells_the_status`).
-/

namespace CloudTerminal

namespace Repository

/-- The directory that is asked for: the one that is given, or else the one that the URL names. -/
def askedFor? (url : String) (name? : Option String) : Option String := name?.or (directoryOfUrl? url)

/-- The names that are taken in every home directory. -/
def homeNames : List String := [".ssh", "Documents", "Downloads", "README.md"]

/-- A name under which a store can take a repository. It must not be that of another one, however far the
clone of that has come. -/
structure Open (store : Store) (name : String) : Prop where
  valid : isValidDirectory name = true
  clear : name ∉ homeNames
  free : ∀ r ∈ store.repositories.toList, r.name ≠ name

/-- Why a clone is refused, by the directory that is asked for. All reasons but the last lie in the arguments. -/
inductive Refuses (store : Store) (url : String) : Option String → Error → Prop where
  | nameless : Refuses store url none (.noDirectoryName url "git clone <url> [name]")
  | invalid (name : String) (invalid : isValidDirectory name = false) :
    Refuses store url (some name) (.invalidDirectoryName name)
  | occupied (name : String) (valid : isValidDirectory name = true) (occupied : name ∈ homeNames) :
    Refuses store url (some name) (.occupiedDirectory name)
  | taken (r : Repository) (valid : isValidDirectory r.name = true) (clear : r.name ∉ homeNames)
      (held : r ∈ store.repositories.toList) :
    Refuses store url (some r.name) (.duplicateName "repository" r.name)

/-- What is shown of a clone that has come as far as the status says. -/
def cloneText (url name : String) (status : CloneStatus) : String :=
  "\n".intercalate <| s!"Cloning into '{name}'..." ::
    match status with
    | .cloning => [s!"Clone in progress. Check with 'git status {name}'."]
    | .cloned => (Transfer.ofUrl url).lines
    | .failed => [s!"fatal: repository '{url}' does not exist"]

variable {setting : Setting} {world : World} {store : Store}
variable {url name : String} {name? : Option String} {e : Error}

theorem fixed_iff_home_name (name : String) : Home.isFixed name = true ↔ name ∈ homeNames := by
  have entries : Home.fixedEntries.map Home.withoutSlashes = homeNames.map String.toList := by decide
  have texts : name.toList ∈ homeNames.map String.toList ↔ name ∈ homeNames :=
    List.mem_map_of_injective fun _ _ => String.toList_injective
  rw [← texts, ← entries, List.mem_map, Home.isFixed, List.any_eq_true]
  simp only [beq_iff_eq]

/-- Which directory a request names is decided before the store is looked at: the given one if it is valid,
and else the one of the URL. -/
theorem directory_that_is_asked_for (url : String) (name? : Option String) :
    directoryFor url name? =
      match askedFor? url name? with
      | none => .error (.noDirectoryName url cloneUsage)
      | some name => if isValidDirectory name then .ok name else .error (.invalidDirectoryName name) := by
  cases name? with
  | some name => rfl
  | none =>
    have valid : ∀ name, directoryOfUrl? url = some name → isValidDirectory name = true :=
      fun _ => directory_of_url_is_valid
    unfold directoryFor askedFor?
    rw [Option.none_or]
    generalize directoryOfUrl? url = found? at valid
    cases found? with
    | none => rfl
    | some name => simp [valid name rfl]

/-- For every request there is either a directory that is open, or a reason to refuse it. -/
theorem open_or_refused (store : Store) (url : String) (asked? : Option String) :
    (∃ name, asked? = some name ∧ Open store name) ∨ ∃ e, Refuses store url asked? e := by
  cases asked? with
  | none => exact .inr ⟨_, .nameless⟩
  | some name =>
    cases valid : isValidDirectory name with
    | false => exact .inr ⟨_, .invalid name valid⟩
    | true =>
      by_cases clear : name ∈ homeNames
      · exact .inr ⟨_, .occupied name valid clear⟩
      · by_cases free : ∀ r ∈ store.repositories.toList, r.name ≠ name
        · exact .inl ⟨name, rfl, valid, clear, free⟩
        · simp only [not_forall, ne_eq, not_not] at free
          obtain ⟨r, held, rfl⟩ := free
          exact .inr ⟨_, .taken r valid clear held⟩

theorem clone_line_runs (setting : Setting) (world : World) (url : String) (name? : Option String) :
    Terminal.registry.run setting world ⟨"git", "clone" :: url :: name?.toList⟩ =
      match directoryFor url name? with
      | .error e => (.error e, world)
      | .ok name =>
        if Home.isFixed name then (.error (.occupiedDirectory name), world)
        else clone setting world url name := by
  have member : git ∈ Terminal.commands := by simp [Terminal.commands, commands]
  have parsed : manual.oneArgumentOrTwo (url :: name?.toList) = .ok (url, name?) :=
    takes_one_argument_or_two.mpr rfl
  have carried := run_by_the_command setting world ("clone" :: url :: name?.toList) member
  refine carried.trans ?_
  show runClone setting world (url :: name?.toList) = _
  cases found : directoryFor url name? <;> simp only [runClone, parsed, found]

/-- A request that there is a reason against is answered with this reason, and it changes nothing. -/
theorem refused_for_its_reason (setting : Setting) (refuses : Refuses world.store url (askedFor? url name?) e) :
    Terminal.registry.run setting world ⟨"git", "clone" :: url :: name?.toList⟩ = (.error e, world) := by
  rw [clone_line_runs, directory_that_is_asked_for]
  generalize askedFor? url name? = asked? at refuses
  cases refuses with
  | nameless => rfl
  | invalid name invalid => simp [invalid]
  | occupied name valid occupied => simp [valid, (fixed_iff_home_name name).mpr occupied]
  | taken r valid clear held =>
    have vacant : Home.isFixed r.name = false := by
      rwa [← Bool.not_eq_true, fixed_iff_home_name]
    have taken : world.store.repositories.contains r.name = true :=
      Directory.contains_iff.mpr ⟨r, held, rfl⟩
    simp only [valid, vacant, if_true, Bool.false_eq_true, if_false]
    exact clone_of_taken taken

/-- A request for an open directory is carried out if no clone of that name waits, and shows the lines of the
clone. -/
theorem begun_under_an_open_name (setting : Setting) (asked : askedFor? url name? = some name)
    (opened : Open world.store name) (idle : world.clones.isPending name = false) :
    Terminal.registry.run setting world ⟨"git", "clone" :: url :: name?.toList⟩ =
      (.ok (.text ("\n".intercalate (cloneLines url name setting.config.cloneDelay))),
        (Change.clone url name).apply setting world) := by
  have vacant : Home.isFixed name = false := by
    rw [← Bool.not_eq_true, fixed_iff_home_name]
    exact opened.clear
  rw [clone_line_runs, directory_that_is_asked_for, asked]
  simp only [opened.valid, vacant, if_true, Bool.false_eq_true, if_false]
  exact clone_of_free (Directory.free_iff_no_entry_named.mpr opened.free) idle

/-- What is shown depends on the delay only in the status that the new repository has. -/
theorem clone_lines_show_the_status (delay : Nat) (url name : String) :
    "\n".intercalate (cloneLines url name delay) = cloneText url name (cloneOf delay url name).status := by
  unfold cloneLines cloneText cloneOf
  by_cases immediate : delay = 0
  · cases ended : cloneOutcome url with
    | cloning => exact absurd ended (clone_outcome_is_not_cloning url)
    | cloned => simp [immediate]
    | failed => simp [immediate]
  · simp [immediate, Nat.pos_of_ne_zero immediate]

/-- The letter that the second line about a clone begins with. -/
def initial : CloneStatus → Char
  | .cloning => 'C'
  | .cloned => 'r'
  | .failed => 'f'

theorem second_line_begins_with_the_initial (url name : String) (status : CloneStatus) : ∃ rest,
    (cloneText url name status).toList =
      (s!"Cloning into '{name}'..." ++ "\n").toList ++ initial status :: rest := by
  cases status <;>
    simp [cloneText, Transfer.lines, initial, toString]

/-- No two statuses are shown by the same text, as their second lines begin with different characters. -/
theorem clone_text_tells_the_status {shown status : CloneStatus} :
    cloneText url name shown = cloneText url name status ↔ shown = status := by
  constructor
  · intro same
    obtain ⟨_, one⟩ := second_line_begins_with_the_initial url name shown
    obtain ⟨_, other⟩ := second_line_begins_with_the_initial url name status
    rw [same, other, List.append_cancel_left_eq] at one
    have letters := (List.cons.inj one).1
    cases shown <;> cases status <;> first | rfl | exact absurd letters (by decide)
  · rintro rfl
    rfl

end Repository

namespace LockStep

variable {bound : Nat} {world : World} {name : String}

/-- In lock step every job has its repository, so that no job waits under a free name. -/
theorem idle_if_free (lock : LockStep bound world) (free : ∀ r ∈ world.store.repositories.toList, r.name ≠ name) :
    world.clones.isPending name = false := by
  unfold CloneQueue.isPending
  rw [← Bool.not_eq_true, List.any_eq_true]
  rintro ⟨job, member, named⟩
  obtain ⟨r, held, _, same, _⟩ := lock.job_has_a_cloning_repository member
  exact free r held (same.trans (eq_of_beq named))

/-- No clone fails after its repository has been added. -/
theorem schedule_succeeds (lock : LockStep bound world) {url : String} {added : Directory Repository} (delay : Nat)
    (adds : world.store.repositories.add (.begin name url) = .ok added) :
    ∃ scheduled, world.clones.schedule added name delay (Repository.cloneOutcome url) = .ok scheduled := by
  have free : world.store.repositories.contains name = false := (Directory.add_eq_ok_iff.mp adds).1
  rw [Directory.add_of_free (Repository.begin name url) free] at adds
  cases adds
  exact ⟨_, schedule_the_last_added delay free (lock.idle_if_free (Directory.free_iff_no_entry_named.mp free))⟩

end LockStep

/-- A request to clone is accepted in a session exactly if the directory that it asks for is open in the store
that it finds; otherwise it is refused for the one reason there is, and leaves the world. An accepted request
appends the repository, and without a delay this has ended as its URL decides; with one it is still cloning,
and one job is appended to the queue. The answer shows just that status. That the end of a clone cannot be
scheduled after its repository has been added does not occur. -/
theorem clone_is_accepted_into_an_open_directory (config : Config) (entropy : Random.Source) (inputs : List Input)
    (clock url : String) (name? : Option String) :
    let session := (Session.start config entropy).after inputs
    let world := session.found
    let asked? := Repository.askedFor? url name?
    let outcome := session.registry.run ⟨session.config, clock⟩ world ⟨"git", "clone" :: url :: name?.toList⟩
    ((∃ reply, outcome.1 = .ok reply) ↔ ∃ name, asked? = some name ∧ Repository.Open world.store name) ∧
      (∀ e, outcome.1 = .error e ↔ Repository.Refuses world.store url asked? e) ∧
      (∀ e, outcome.1 = .error e → outcome.2 = world) ∧
      (∀ reply name, outcome.1 = .ok reply → asked? = some name →
        let status := if config.cloneDelay = 0 then Repository.cloneOutcome url else .cloning
        let waiting : List CloneJob :=
          if config.cloneDelay = 0 then [] else [⟨name, config.cloneDelay, Repository.cloneOutcome url⟩]
        outcome.2 = { world with
            store.repositories := ⟨world.store.repositories.toList ++ [⟨name, url, status⟩]⟩
            clones := ⟨world.clones.jobs ++ waiting⟩ } ∧
          ∀ shown, reply = .text (Repository.cloneText url name shown) ↔ shown = status) ∧
      ∀ name added, world.store.repositories.add (.begin name url) = .ok added →
        ∃ scheduled, world.clones.schedule added name config.cloneDelay (Repository.cloneOutcome url) =
          .ok scheduled := by
  intro session world asked? outcome
  obtain ⟨terminal, configured⟩ : session.registry = Terminal.registry ∧ session.config = config :=
    (Session.start config entropy).after_keeps_the_settings inputs
  have lock : LockStep config.cloneDelay world := (LockStep.of_run config entropy inputs).tick
  have ran : outcome = Terminal.registry.run ⟨config, clock⟩ world ⟨"git", "clone" :: url :: name?.toList⟩ := by
    simp only [outcome, terminal, configured]
  have refused : ∀ e, Repository.Refuses world.store url asked? e → outcome = (.error e, world) := by
    intro e refuses
    rw [ran]
    exact Repository.refused_for_its_reason _ refuses
  have begun : ∀ name, asked? = some name → Repository.Open world.store name → outcome =
      (.ok (.text (Repository.cloneText url name (Repository.cloneOf config.cloneDelay url name).status)),
        (Change.clone url name).apply ⟨config, clock⟩ world) := by
    intro name asked opened
    rw [ran, Repository.begun_under_an_open_name _ asked opened (lock.idle_if_free opened.free),
      Repository.clone_lines_show_the_status]
  have scheduled : ∀ name added, world.store.repositories.add (.begin name url) = .ok added →
      ∃ scheduled, world.clones.schedule added name config.cloneDelay (Repository.cloneOutcome url) =
        .ok scheduled := fun _ _ => lock.schedule_succeeds config.cloneDelay
  rcases Repository.open_or_refused world.store url asked? with ⟨name, asked, opened⟩ | ⟨reason, refuses⟩
  · have accepted := begun name asked opened
    have not_failed : ∀ e, outcome.1 ≠ .error e := by
      intro e failed
      rw [accepted] at failed
      cases failed
    refine ⟨⟨fun _ => ⟨name, asked, opened⟩, fun _ => ⟨_, congrArg Prod.fst accepted⟩⟩, fun e => ⟨?_, ?_⟩, ?_, ?_,
      scheduled⟩
    · exact fun failed => absurd failed (not_failed e)
    · exact fun refuses => absurd (congrArg Prod.fst (refused e refuses)) (not_failed e)
    · exact fun e failed => absurd failed (not_failed e)
    · intro reply other answered asked_other status waiting
      obtain rfl : name = other := Option.some.inj (asked.symm.trans asked_other)
      rw [accepted] at answered ⊢
      refine ⟨rfl, fun shown => ?_⟩
      rw [← Except.ok.inj answered, Reply.text.injEq, eq_comm, Repository.clone_text_tells_the_status]
      rfl
  · have rejected := refused reason refuses
    have not_answered : ∀ reply, outcome.1 ≠ .ok reply := by
      intro reply answered
      rw [rejected] at answered
      cases answered
    refine ⟨⟨?_, ?_⟩, fun e => ⟨?_, ?_⟩, fun e _ => congrArg Prod.snd rejected, ?_, scheduled⟩
    · exact fun ⟨reply, answered⟩ => absurd answered (not_answered reply)
    · exact fun ⟨name, asked, opened⟩ => absurd (congrArg Prod.fst (begun name asked opened)) (not_answered _)
    · intro failed
      rw [rejected] at failed
      exact Except.error.inj failed ▸ refuses
    · exact fun refuses => congrArg Prod.fst (refused e refuses)
    · exact fun reply name answered => absurd answered (not_answered reply)

/-- A directory is not open as long as another clone into it is under way. -/
theorem clone_beside_another_of_its_name_is_refused :
    let session := (Session.start { cloneDelay := 2 } 0).after [⟨"", "git clone https://h/app"⟩]
    let words : Line := ⟨"git", ["clone", "git@h:acme/tools", "app"]⟩
    session.found.store.repositories.toList = [⟨"app", "https://h/app", .cloning⟩] ∧
      session.registry.run ⟨session.config, "08:00"⟩ session.found words =
        (.error (.duplicateName "repository" "app"), session.found) := by
  intro session words
  have held : session.found.store.repositories.toList = [⟨"app", "https://h/app", .cloning⟩] := by decide +kernel
  obtain ⟨_, refuses, leaves, _⟩ := clone_is_accepted_into_an_open_directory { cloneDelay := 2 } 0
    [⟨"", "git clone https://h/app"⟩] "08:00" "git@h:acme/tools" (some "app")
  have taken : Repository.Refuses session.found.store "git@h:acme/tools" (some "app")
      (.duplicateName "repository" "app") :=
    .taken ⟨"app", "https://h/app", .cloning⟩ (by decide) (by decide) (by rw [held]; exact List.mem_cons_self)
  have failed := (refuses _).mpr taken
  exact ⟨held, Prod.ext failed (leaves _ failed)⟩

end CloudTerminal
