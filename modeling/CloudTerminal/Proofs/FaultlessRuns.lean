import CloudTerminal.Proofs.CloneQueue
import CloudTerminal.Proofs.CloneUrls
import CloudTerminal.Proofs.FaultlessCommands

/-!
Runs with their limits looked at. What a session stores stays within bounds that the number of its lines sets:
no more numbers are issued and no more entries are kept than lines have been carried out, and the texts in the
entries are no longer than a table can be padded to (`Within`). Under these bounds a line is not at fault, and
it keeps them with one line more, so that no line of a run is at fault that has fewer lines than there are
numbers of thirty-two bits (`no_line_is_at_fault`).
-/

namespace CloudTerminal.Guarded

section Execution

/-- Counts a command for one job. -/
def advance (progress : CloneProgress) (job : CloneJob) : Guarded CloneProgress :=
  if 0 < job.remaining then do
    let remaining ← difference job.remaining 1
    return { progress with waiting := progress.waiting ++ [{ job with remaining }] }
  else .ok (CloneQueue.advance progress job)

def tick (world : World) : Guarded World := do
  let progress ← world.clones.jobs.foldlM advance { repositories := world.store.repositories }
  return { world with store.repositories := progress.repositories, clones := ⟨progress.waiting⟩ }

def rendered : Reply → Guarded String
  | .table headers rows => renderTable headers rows
  | reply => .ok reply.rendered

/-- What a line shows, or nothing if it clears the screen. -/
def shown? : Except Error Reply → Guarded (Option String)
  | .ok .clear => .ok none
  | .ok reply => (rendered reply).map some
  | .error e => .ok (some e.message)

/-- Appends an entry to a log. The entry is then found at the last place of the log. -/
def append (log : Log) (entry : LogEntry) : Guarded (LogEntry × Log) := do
  let entries := log.entries ++ [entry]
  return (← item entries (← difference entries.length 1), ⟨entries⟩)

/-- Takes an input. Answers the new entry of the log, if there is one. -/
def execute (session : Session) (input : Input) : Guarded (Option LogEntry × Session) := do
  match Line.parse input.line with
  | none => return (none, session)
  | some words =>
    let (result, world) ← run ⟨session.config, input.clock⟩ (← tick session.world) words
    match ← shown? result with
    | none => return (none, { session with world, log := .empty })
    | some output =>
      let (entry, log) ← append session.log { input := input.line, output, timestamp := input.clock }
      return (some entry, { session with world, log })

def after (session : Session) (inputs : List Input) : Guarded Session :=
  inputs.foldlM (fun session input => (execute session input).map (·.2)) session

theorem passing_is_faultless (world : World) : tick world = .ok world.tick.2 := by
  have turn : ∀ progress job, advance progress job = .ok (CloneQueue.advance progress job) := by
    intro progress job
    unfold advance
    split
    · rename_i waits
      rw [difference_of_smaller waits, CloneQueue.advance, if_neg (Nat.ne_of_gt waits)]
      rfl
    · rfl
  have turns : advance = fun progress job => pure (CloneQueue.advance progress job) := funext₂ turn
  rw [tick, turns, List.foldlM_pure]
  rfl

theorem entry_is_the_last (log : Log) (entry : LogEntry) : append log entry = .ok (entry, log.append entry) := by
  have last : (log.entries ++ [entry]).length - 1 < (log.entries ++ [entry]).length := by simp
  have found : item (log.entries ++ [entry]) ((log.entries ++ [entry]).length - 1) = .ok entry := by
    rw [item_inside last]
    simp
  unfold append
  dsimp only
  rw [difference_of_smaller (by simp), go_on, found]
  rfl

end Execution

section Replies

/-- A table that is answered can be laid out: there are not too many rows, and the cells can be padded to. -/
def Fits : Except Error Reply → Prop
  | .ok (.table headers rows) =>
    rows.length < UInt32.size - 1 ∧ ∀ row ∈ headers :: rows, ∀ cell ∈ row, cell.length ≤ widest
  | _ => True

/-- An answer that fits is shown without a fault: no cell of its tables is wider than the width that can be
filled up. -/
theorem showing_is_faultless {result : Except Error Reply} (fits : Fits result) :
    shown? result = .ok (Session.shown? result) := by
  cases result with
  | error e => rfl
  | ok reply =>
    cases reply with
    | table headers rows =>
      have laid_out : renderTable headers rows = .ok (Text.renderTable headers rows) :=
        table_is_laid_out fits.1 fits.2
      rw [shown?, rendered, laid_out]
      · rfl
      · exact nofun
    | _ => rfl

end Replies

section Texts

theorem identifier_is_short (source : IdSource) : source.instanceId.1.length ≤ widest := by
  have digits : (String.ofList (Text.hexDigits 12 source.random.next64.1 ++
      Text.hexDigits 5 (source.issued + 1))).length = 17 := by
    rw [String.length_ofList]
    simp [Text.hexDigits]
  rw [IdSource.instanceId, String.length_append, digits]
  decide

/-- The sixteen bytes of a fingerprint have two digits each, and colons stand between them. -/
theorem fingerprint_is_short (material : String) : (CloudTerminal.fingerprint material).length ≤ widest := by
  have bytes : ∃ first rest, (Digest.ofText material).toList.take 16 = first :: rest ∧ rest.length = 15 := by
    have sixteen : ((Digest.ofText material).toList.take 16).length = 16 := by simp
    obtain ⟨first, rest, list⟩ := List.exists_cons_of_length_eq_add_one sixteen
    rw [list, List.length_cons] at sixteen
    exact ⟨first, rest, list, Nat.succ.inj sixteen⟩
  obtain ⟨first, rest, list, others⟩ := bytes
  have characters : (CloudTerminal.fingerprint material).toList = Text.hexDigits 2 first.toNat ++
      (rest.map fun byte => Text.hexDigits 2 byte.toNat).flatMap (":".toList ++ ·) := by
    rw [CloudTerminal.fingerprint, String.toList_intercalate, List.map_map, list, List.map_cons,
      Text.joined_from_a_piece]
    simp [Function.comp_def]
  rw [← String.length_toList, characters]
  simp [Text.hexDigits, List.length_flatMap, Function.comp_def, others, widest]

theorem default_name_is_short (keys : Directory Key) : (Key.freeName keys).length ≤ widest := by
  unfold Key.freeName
  split
  · cases found : Key.freeNumber? keys Key.numberLimit 1 with
    | none => decide
    | some n =>
      have limited := (Key.freeNumber?_eq_some_iff.mp found).2.1
      simp only [Key.numberLimit] at limited
      have digits : (Nat.toDigits 10 n).length ≤ 10 :=
        (Nat.length_toDigits_le_iff (by decide) (by decide)).mpr (by omega)
      rw [Option.map_some, Option.getD_some, ← String.length_toList, Key.toList_numberedName, List.length_append]
      exact Nat.le_trans (Nat.add_le_add_left digits _) (by decide)
  · decide

theorem new_name_is_short {keys : Directory Key} {name? : Option String} {name : String}
    (given : ∀ argument ∈ name?.toList, argument.length ≤ widest) (named : Key.newName keys name? = .ok name) :
    name.length ≤ widest := by
  unfold Key.newName at named
  split at named
  · exact Except.ok.inj named ▸ default_name_is_short keys
  · split at named
    · exact Except.ok.inj named ▸ given _ (by simp)
    · cases named

/-- The last segment of a URL is no longer than the URL. -/
theorem directory_of_url_is_short {url name : String} (found : Repository.directoryOfUrl? url = some name) :
    name.length ≤ url.length := by
  have segment : (Repository.lastSegment url).length ≤ url.length := by
    obtain ⟨front, path, -⟩ :=
      Text.text_before_afterLast Repository.isSegmentEnd (Text.trimEnd (· == '/') url.toList)
    have trimmed := (Text.text_begins_with_trimmed (· == '/') url.toList).length_le
    rw [path, List.length_append, String.length_toList] at trimmed
    exact Nat.le_trans (Nat.le_add_left _ _) trimmed
  have stem := Repository.without_git_iff.mp ((Repository.directory_of_url_iff_read url name).mp found).2
  rw [← String.length_toList (s := name)]
  rcases stem with suffixed | ⟨same, -⟩
  · rw [suffixed, List.length_append] at segment
    exact Nat.le_trans (Nat.le_add_right _ _) segment
  · exact same ▸ segment

/-- A new repository has a short name if the arguments are short, for the name is a part of one of them. -/
theorem directory_is_short {url name : String} {name? : Option String}
    (given : ∀ argument ∈ url :: name?.toList, argument.length ≤ widest)
    (named : Repository.directoryFor url name? = .ok name) : name.length ≤ widest := by
  unfold Repository.directoryFor at named
  split at named
  · split at named
    · exact Except.ok.inj named ▸ given _ (by simp)
    · cases named
  · split at named
    · rename_i found
      exact Except.ok.inj named ▸ Nat.le_trans (directory_of_url_is_short found) (given url (by simp))
    · cases named

end Texts

/-- What a world holds after `n` lines at most. -/
structure Within (n : Nat) (world : World) : Prop where
  identifiers : world.ids.issued ≤ n
  instances : world.store.instances.size ≤ n
  keys : world.store.keys.size ≤ n
  repositories : world.store.repositories.size ≤ n
  instance_texts : ∀ i ∈ world.store.instances.toList, i.id.length ≤ widest ∧ i.name.length ≤ widest
  key_texts : ∀ key ∈ world.store.keys.toList,
    key.name.length ≤ widest ∧ key.fingerprint.length ≤ widest ∧ key.created.length ≤ widest
  repository_texts : ∀ r ∈ world.store.repositories.toList, r.name.length ≤ widest ∧ r.url.length ≤ widest

/-- The texts of an input are no longer than a table can be padded to. -/
structure IsShort (input : Input) : Prop where
  clock : input.clock.length ≤ widest
  words : ∀ word ∈ Text.words input.line.toList, word.length ≤ widest

theorem IsShort.arguments {input : Input} {words : Line} (short : IsShort input)
    (parsed : Line.parse input.line = some words) : ∀ argument ∈ words.arguments, argument.length ≤ widest := by
  unfold Line.parse at parsed
  split at parsed
  · cases parsed
  · rename_i command arguments found
    obtain rfl := Option.some.inj parsed
    refine List.forall_mem_map.mpr fun argument member => ?_
    rw [String.length_ofList]
    exact short.words argument (found ▸ List.mem_cons_of_mem _ member)

namespace Within

variable {n : Nat} {world next : World}

/-- A passing command keeps the bounds, since it adds nothing. -/
theorem tick (within : Within n world) : Within n world.tick.2 := by
  have same := CloneQueue.tick_keeps_names_and_urls world
  have size : world.tick.2.store.repositories.size = world.store.repositories.size := by
    simpa [Directory.size] using congrArg List.length same
  have texts : ∀ shown ∈ world.store.repositories.toList.map fun r => (r.name, r.url),
      shown.1.length ≤ widest ∧ shown.2.length ≤ widest := List.forall_mem_map.mpr within.repository_texts
  rw [← same, List.forall_mem_map] at texts
  exact { within with repositories := size ▸ within.repositories, repository_texts := texts }

theorem more (within : Within n world) : Within (n + 1) world where
  identifiers := Nat.le_succ_of_le within.identifiers
  instances := Nat.le_succ_of_le within.instances
  keys := Nat.le_succ_of_le within.keys
  repositories := Nat.le_succ_of_le within.repositories
  instance_texts := within.instance_texts
  key_texts := within.key_texts
  repository_texts := within.repository_texts

/-- A line with short arguments keeps the bounds, with one line more. -/
theorem line {setting : Setting} {words : Line} {result : Except Error Reply} (within : Within n world)
    (arguments : ∀ argument ∈ words.arguments, argument.length ≤ widest) (now : setting.clock.length ≤ widest)
    (effect : LineEffect setting world words (result, next)) : Within (n + 1) next := by
  cases effect with
  | refused | look => exact within.more
  | create name type said =>
    rw [said] at arguments
    have added : world.ids.instanceId.1.length ≤ widest ∧ name.length ≤ widest :=
      ⟨identifier_is_short world.ids, arguments name (by simp)⟩
    exact { within.more with
      identifiers := Nat.succ_le_succ within.identifiers
      instances := by simpa [Directory.size] using within.instances
      instance_texts := List.forall_mem_append.mpr ⟨within.instance_texts, List.forall_mem_singleton.mpr added⟩ }
  | power reply name power front back i said found =>
    exact { within.more with
      instances := Nat.le_trans (Directory.size_after_change _ found).le within.more.instances
      instance_texts := Directory.all_after_change within.instance_texts found id }
  | delete reply name front back i said found =>
    exact { within.more with
      instances := Nat.le_trans (Directory.size_after_removal found) within.more.instances
      instance_texts := Directory.all_after_removal within.instance_texts found }
  | generate name name? key said named free made =>
    rw [said] at arguments
    have added : key.name.length ≤ widest ∧ key.fingerprint.length ≤ widest ∧ key.created.length ≤ widest := by
      rw [made]
      exact ⟨new_name_is_short arguments named, fingerprint_is_short _, now⟩
    exact { within.more with
      keys := by simpa [Directory.size] using within.keys
      key_texts := List.forall_mem_append.mpr ⟨within.key_texts, List.forall_mem_singleton.mpr added⟩ }
  | mark reply name front back key said found =>
    exact { within.more with
      keys := Nat.le_trans (Directory.size_after_change _ found).le within.more.keys
      key_texts := Directory.all_after_change within.key_texts found id }
  | discard reply name front back key said found =>
    exact { within.more with
      keys := Nat.le_trans (Directory.size_after_removal found) within.more.keys
      key_texts := Directory.all_after_removal within.key_texts found }
  | clone url name name? said named =>
    rw [said] at arguments
    have given : ∀ argument ∈ url :: name?.toList, argument.length ≤ widest :=
      fun argument member => arguments argument (List.mem_cons_of_mem _ member)
    have added : name.length ≤ widest ∧ url.length ≤ widest :=
      ⟨directory_is_short given named, given url (by simp)⟩
    exact { within.more with
      repositories := by simpa [Directory.size] using within.repositories
      repository_texts := List.forall_mem_append.mpr ⟨within.repository_texts,
        List.forall_mem_singleton.mpr added⟩ }

/-- One short input adds at most one of everything, so that the bounds widen by one. -/
theorem take {session : Session} {input : Input} (terminal : session.registry = Terminal.registry)
    (within : Within n session.world) (short : IsShort input) : Within (n + 1) (session.take input).world := by
  cases parsed : Line.parse input.line with
  | none =>
    rw [session.take_of_blank input parsed]
    exact within.more
  | some words =>
    have arguments := short.arguments parsed
    rw [(session.take_spec input words parsed).2.2, terminal]
    exact within.tick.line arguments short.clock (run_has_effect _ _ _)

/-- As long as few inputs have been given, there is room for one more of everything. -/
theorem room (within : Within n world) (few : n < UInt32.size - 1) : HasRoom world where
  identifiers := by
    have issued := within.identifiers
    simp only [UInt32.size, UInt64.size] at few ⊢
    omega
  keys := Nat.lt_of_le_of_lt within.keys few

end Within

section Answers

variable {n : Nat} {world : World}

theorem answer_of_parsed_fits {α : Type} {parsed : Except Error α} {answer : α → Reply}
    (fits : ∀ a, Fits (.ok (answer a))) : Fits (parsed.map answer) := by
  cases parsed with
  | error e => trivial
  | ok a => exact fits a

theorem type_text_is_short (type : InstanceType) : type.text.length ≤ widest := by cases type <;> decide

theorem power_text_is_short (power : Power) : power.text.length ≤ widest := by cases power <;> decide

theorem status_text_is_short (status : CloneStatus) : status.text.length ≤ widest := by cases status <;> decide

theorem instances_fit (within : Within n world) (few : n < UInt32.size - 1) (type? : Option InstanceType) :
    Fits (.ok (Instance.listing world.store type?)) := by
  unfold Instance.listing
  split
  · trivial
  · refine ⟨?_, List.forall_mem_cons.mpr ⟨by decide, List.forall_mem_map.mpr fun i member => ?_⟩⟩
    · rw [List.length_map]
      exact Nat.lt_of_le_of_lt (Nat.le_trans (List.length_filter_le _ _) within.instances) few
    · obtain ⟨id, name⟩ := within.instance_texts i (List.mem_of_mem_filter member)
      simp [id, name, type_text_is_short, power_text_is_short]

theorem repositories_fit (within : Within n world) (few : n < UInt32.size - 1) :
    Fits (.ok (Repository.listing world.store)) := by
  unfold Repository.listing
  split
  · trivial
  · refine ⟨?_, List.forall_mem_cons.mpr ⟨by decide, List.forall_mem_map.mpr fun r member => ?_⟩⟩
    · rw [List.length_map]
      exact Nat.lt_of_le_of_lt within.repositories few
    · obtain ⟨name, url⟩ := within.repository_texts r member
      simp [name, url, status_text_is_short]

theorem keys_fit (within : Within n world) (few : n < UInt32.size - 1) : Fits (.ok (Key.listing world.store)) := by
  have mark : ∀ added : Bool, (if added then "yes" else "no").length ≤ widest := by decide
  unfold Key.listing
  split
  · trivial
  · refine ⟨?_, List.forall_mem_cons.mpr ⟨by decide, List.forall_mem_map.mpr fun key member => ?_⟩⟩
    · rw [List.length_map]
      exact Nat.lt_of_le_of_lt within.keys few
    · obtain ⟨name, fingerprint, created⟩ := within.key_texts key member
      simp [name, fingerprint, created, mark key.added]

/-- Whatever a command of the terminal answers can be shown. -/
theorem answers_fit (within : Within n world) (few : n < UInt32.size - 1) (setting : Setting)
    (arguments : List String) :
    ∀ command ∈ Terminal.commands, Fits (command.run setting world arguments).1 := by
  simp only [Terminal.commands, Home.commands, Instance.commands, Key.commands, Host.commands, Repository.commands,
    List.cons_append, List.nil_append, List.forall_mem_cons, List.not_mem_nil, false_implies, implies_true,
    and_true]
  refine ⟨?clear, ?pwd, ?ls, ?status, ?create, ?instances, ?start, ?stop, ?describe, ?delete, ?keygen, ?add, ?list,
    ?remove, ?login, ?ping, ?ifconfig, ?netstat, ?curl, ?wget, ?git⟩
  case clear | pwd | status | ifconfig => exact answer_of_parsed_fits fun _ => trivial
  case list => exact answer_of_parsed_fits fun _ => keys_fit within few
  case netstat => exact answer_of_parsed_fits fun _ => ⟨by decide, by decide⟩
  case instances =>
    simp only [Instance.instances, Command.reading]
    split
    · trivial
    · exact instances_fit within few none
    · split
      · trivial
      · exact instances_fit within few _
  case describe | curl | wget =>
    simp only [Instance.describe, Host.curl, Host.wget, Command.reading]
    split
    · trivial
    · exact answer_of_parsed_fits fun _ => trivial
  case git =>
    simp only [Repository.git]
    split
    · trivial
    · simp only [Repository.runClone, Repository.clone]
      repeat' split
      all_goals trivial
    · exact answer_of_parsed_fits fun _ => repositories_fit within few
    · simp only [Repository.viewStatus]
      split
      · trivial
      · exact answer_of_parsed_fits fun _ => trivial
    · trivial
  all_goals
    simp only [Home.ls, Instance.create, Instance.startCommand, Instance.stopCommand, Instance.changing,
      Instance.delete, Key.keygen, Key.add, Key.remove, Key.login, Host.ping, Command.reading]
    repeat' split
    all_goals trivial

theorem line_answer_fits (within : Within n world) (few : n < UInt32.size - 1) (setting : Setting) (words : Line) :
    Fits (Terminal.registry.run setting world words).1 := by
  unfold Registry.run
  split
  · unfold Registry.help
    repeat' split
    all_goals trivial
  · split
    · trivial
    · rename_i command found
      exact answers_fit within few setting words.arguments command
        ((terminal_finds_exactly_its_commands _ _).mp found).1

end Answers

section Runs

variable {n : Nat} {session : Session}

/-- Within the bounds, a line is not at fault, and it is answered as the session answers it. -/
theorem execution_is_faultless (terminal : session.registry = Terminal.registry) (within : Within n session.world)
    (few : n < UInt32.size - 1) (input : Input) :
    execute session input = .ok (session.execute input.clock input.line) := by
  unfold execute Session.execute
  cases Line.parse input.line with
  | none => rfl
  | some words =>
    have ran := line_is_faultless ⟨session.config, input.clock⟩ (within.tick.room few) words
    have shown := showing_is_faultless (line_answer_fits within.tick few ⟨session.config, input.clock⟩ words)
    dsimp only
    rw [passing_is_faultless, go_on, ran, go_on, shown, go_on, terminal]
    cases Session.shown? (Terminal.registry.run ⟨session.config, input.clock⟩ session.world.tick.2 words).1 with
    | none => rfl
    | some output =>
      dsimp only
      rw [entry_is_the_last]
      rfl

/-- After so many short inputs the world is within as many, by induction on the inputs. -/
theorem run_stays_within (terminal : session.registry = Terminal.registry) (within : Within n session.world)
    {inputs : List Input} (short : ∀ input ∈ inputs, IsShort input) :
    Within (n + inputs.length) (session.after inputs).world := by
  induction inputs generalizing n session with
  | nil => exact within
  | cons input rest ih =>
    obtain ⟨first, others⟩ := List.forall_mem_cons.mp short
    have later := ih ((session.take_keeps_the_settings input).1.trans terminal) (within.take terminal first) others
    rw [List.length_cons, Nat.add_comm rest.length, ← Nat.add_assoc]
    exact later

/-- A run of few short inputs is without a fault, step by step. -/
theorem run_is_faultless (terminal : session.registry = Terminal.registry) (within : Within n session.world)
    {inputs : List Input} (few : n + inputs.length < UInt32.size) (short : ∀ input ∈ inputs, IsShort input) :
    after session inputs = .ok (session.after inputs) := by
  induction inputs generalizing n session with
  | nil => rfl
  | cons input rest ih =>
    obtain ⟨first, others⟩ := List.forall_mem_cons.mp short
    rw [List.length_cons] at few
    have step := execution_is_faultless terminal within (by omega) input
    have later := ih ((session.take_keeps_the_settings input).1.trans terminal) (within.take terminal first)
      (by omega)
      others
    unfold after at later ⊢
    rw [List.foldlM_cons, step]
    exact later

end Runs

/-- Whatever the settings are, no line is at fault in a run of fewer lines than the largest number of
thirty-two bits, if none of their words and times is longer than a table can be padded to. The run leaves the
session that it leaves when no limit is looked at, and each of its lines is answered as it is then. -/
theorem no_line_is_at_fault (config : Config) (entropy : Random.Source) (inputs : List Input)
    (few : inputs.length < UInt32.size - 1) (short : ∀ input ∈ inputs, IsShort input) :
    let session := Session.start config entropy
    after session inputs = .ok (session.after inputs) ∧
      ∀ front input back, inputs = front ++ input :: back →
        execute (session.after front) input = .ok ((session.after front).execute input.clock input.line) := by
  intro session
  have none_issued := IdSource.nothing_issued_at_the_start config.seed entropy
  have empty : Within 0 session.world :=
    ⟨Nat.le_of_eq none_issued, Nat.le_refl 0, Nat.le_refl 0, Nat.le_refl 0, List.forall_mem_nil _,
      List.forall_mem_nil _, List.forall_mem_nil _⟩
  refine ⟨run_is_faultless rfl empty (by omega) short, ?_⟩
  rintro front input back rfl
  have before : ∀ input ∈ front, IsShort input := fun input member => short input (List.mem_append_left _ member)
  have shorter : 0 + front.length < UInt32.size - 1 := by
    rw [List.length_append] at few
    omega
  exact execution_is_faultless (session.after_keeps_the_settings front).1
    (run_stays_within rfl empty before) shorter
    input

/-- Settings that are as far out of range as they can be, and lines that ask for what they set. -/
theorem extreme_settings_run_without_a_fault :
    let session := Session.start { pingCount := 4294967295, cloneDelay := 4294967295, user := "", home := "" } 0
    let inputs : List Input := [⟨"", "git clone https://h/app"⟩, ⟨"08:15:00", "ping localhost"⟩, ⟨"", "git list"⟩]
    (inputs.length < UInt32.size - 1 ∧ ∀ input ∈ inputs, IsShort input) ∧
      after session inputs = .ok (session.after inputs) := by
  intro session inputs
  have few : inputs.length < UInt32.size - 1 := by decide
  have short : ∀ input ∈ inputs, IsShort input := by
    simp only [inputs, List.forall_mem_cons, List.not_mem_nil, false_implies, implies_true, and_true]
    exact ⟨⟨by decide, by decide⟩, ⟨by decide, by decide⟩, ⟨by decide, by decide⟩⟩
  exact ⟨⟨few, short⟩, (no_line_is_at_fault _ 0 inputs few short).1⟩

end CloudTerminal.Guarded
