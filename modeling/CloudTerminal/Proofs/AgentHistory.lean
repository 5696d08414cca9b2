import Mathlib.Data.List.Induction
import CloudTerminal.Proofs.EntryHistory
import CloudTerminal.Proofs.HomeListing

/-!
The keys as their history tells them, and what a login makes of it. A line that was carried out may tell that
a key was generated, marked as held by the agent, or removed (`Moment.TellsOfKeys`). After every run the store
holds just the keys that survive these events, in the order of their creation: those generated and since then
neither removed nor generated again, each marked if that has happened since then. A login names the first
marked one of them (`login_follows_the_history`).
-/

namespace CloudTerminal

open Text (IsWord)
open EntryEvent

/-- Keys come in without a mark, and can be marked. -/
instance : Historic Key Unit where
  fresh key := { key with added := false }
  apply _ key := { key with added := true }
  name_fresh _ := rfl
  name_apply _ _ := rfl

/-- What can happen to a key: it is generated, marked or removed. -/
abbrev KeyEvent := EntryEvent Key Unit

def EntryEvent.marks (name : String) (event : KeyEvent) : Bool := (event.way? name).isSome

/-- A key is marked exactly if an event has marked it since it was generated. -/
theorem outcome_of_a_key (key : Key) (later : List KeyEvent) :
    outcome key later = { key with added := later.any (marks key.name) } := by
  induction later using List.reverseRecOn with
  | nil => rfl
  | append_singleton later event ih =>
    rw [List.any_append]
    cases marked : event.way? key.name with
    | none =>
      rw [outcome_after_another key later event marked, ih]
      simp [marks, marked]
    | some way =>
      cases event with
      | changed name _ =>
        obtain rfl : name = key.name := by
          by_contra other
          simp [way?, other] at marked
        have made : outcome key (later ++ [changed key.name ()]) = { outcome key later with added := true } :=
          outcome_after_a_change ()
        rw [made, ih]
        simp [marks, way?]
      | _ => cases marked

/-- The words of the lines that tell something about the keys when they are carried out. -/
def keyWords : List String := ["ssh-keygen", "ssh-add", "ssh-remove"]

/-- What a line that was carried out tells about the keys. The name and the public key of a generated one are
those that its announcement shows. -/
inductive Moment.TellsOfKeys (config : Config) : Moment → Option KeyEvent → Prop where
  | generated (clock name publicKey : String) (arguments : List String) (word : IsWord name) :
    TellsOfKeys config ⟨clock, ⟨"ssh-keygen", arguments⟩,
      .ok (.text (Key.announcement config (.generate name publicKey clock)))⟩
      (some (.entered (.generate name publicKey clock)))
  | marked (clock name : String) (reply : Reply) :
    TellsOfKeys config ⟨clock, ⟨"ssh-add", [name]⟩, .ok reply⟩ (some (.changed name ()))
  | discarded (clock name : String) (reply : Reply) :
    TellsOfKeys config ⟨clock, ⟨"ssh-remove", [name]⟩, .ok reply⟩ (some (.left name))
  | refused (clock : String) (words : Line) (e : Error) : TellsOfKeys config ⟨clock, words, .error e⟩ none
  | other (clock : String) (words : Line) (reply : Reply) (command : words.command ∉ keyWords) :
    TellsOfKeys config ⟨clock, words, .ok reply⟩ none

section Reading

variable {config : Config} {name name' publicKey publicKey' clock clock' : String}

/-- What stands in an announcement in front of the name. -/
def announcedBefore (config : Config) : List Char :=
  "Generating public/private ed25519 key pair.".toList ++ "\n".toList ++
    ("Your identification has been saved in ".toList ++ (Home.keyPath config.home "").toList)

/-- What stands between the name and the fingerprint. -/
def announcedBetween (config : Config) (name : String) : List Char :=
  "Your public key has been saved in ".toList ++ (Home.keyPath config.home name).toList ++ ".pub".toList ++
    "\n".toList ++ ("The key fingerprint is:".toList ++ "\n".toList)

/-- What stands between the fingerprint and the public key. -/
def announcedBehind (config : Config) : List Char :=
  config.identity.toList ++ "\n".toList ++ ("The public key is:".toList ++ "\n".toList)

theorem announcement_text (config : Config) (key : Key) :
    (Key.announcement config key).toList = announcedBefore config ++ (key.name.toList ++ '\n' ::
      (announcedBetween config key.name ++ (key.fingerprint.toList ++ ' ' ::
        (announcedBehind config ++ key.publicKey.toList)))) := by
  have feed : "\n".toList = ['\n'] := by decide
  have blank : " ".toList = [' '] := by decide
  have shown : ∀ text : String, toString text = text := fun _ => rfl
  have path : Home.keyPath config.home key.name = Home.keyPath config.home "" ++ key.name := by
    simp only [Home.keyPath, shown, String.append_assoc, String.empty_append]
  unfold announcedBefore announcedBetween announcedBehind
  simp only [Key.announcement, path, String.toList_intercalate, List.map_cons, List.map_nil,
    List.intercalate_cons_cons, List.intercalate_singleton, shown, String.toList_append, feed, blank,
    List.append_assoc, List.cons_append, List.nil_append]

/-- The announcement of a key can be taken apart again: it shows a name and a public key, and no other ones
are shown by the same text. So what a line tells of the keys can be read off what it has shown. -/
theorem announcement_tells_the_key (word : IsWord name) (word' : IsWord name')
    (same : Key.announcement config (.generate name publicKey clock) =
      Key.announcement config (.generate name' publicKey' clock')) : name = name' ∧ publicKey = publicKey' := by
  have texts := congrArg String.toList same
  -- The path of home may hold line feeds, so the name is found behind it and not by the number of its line.
  rw [announcement_text, announcement_text, List.append_cancel_left_eq] at texts
  obtain ⟨named, rest⟩ := Text.text_up_to_separator (Text.word_is_flat word) (Text.word_is_flat word') texts
  cases String.toList_injective named
  have unbroken : ∀ material, ' ' ∉ (fingerprint material).toList := by
    intro material member
    exact absurd ((fingerprint_is_word material).solid ' ' member) (by decide)
  have unnamed := List.append_cancel_left rest
  obtain ⟨_, ending⟩ := Text.text_up_to_separator (unbroken publicKey) (unbroken publicKey') unnamed
  exact ⟨rfl, String.toList_injective (List.append_cancel_left ending)⟩

end Reading

section Steps

variable {setting : Setting} {world next : World} {words : Line} {result : Except Error Reply}

/-- A moment tells one thing about the keys. -/
theorem tells_one_thing_of_keys {config : Config} {moment moment' : Moment} {told told' : Option KeyEvent}
    (tells : moment.TellsOfKeys config told) (tells' : moment'.TellsOfKeys config told')
    (same : moment = moment') :
    told = told' := by
  have command : moment.words.command = moment'.words.command := by rw [same]
  cases tells with
  | generated clock name publicKey arguments word =>
    cases tells' with
    | generated clock' name' publicKey' arguments' word' =>
      simp only [Moment.mk.injEq, Except.ok.injEq, Reply.text.injEq] at same
      obtain ⟨rfl, _, shown⟩ := same
      obtain ⟨rfl, rfl⟩ := announcement_tells_the_key word word' shown
      rfl
    | other clock' words reply silent => exact absurd (command ▸ by simp [keyWords]) silent
    | _ => simp at same
  | marked clock name reply =>
    cases tells' with
    | marked clock' name' reply' => simp_all
    | other clock' words reply' silent => exact absurd (command ▸ by simp [keyWords]) silent
    | _ => simp at same
  | discarded clock name reply =>
    cases tells' with
    | discarded clock' name' reply' => simp_all
    | other clock' words reply' silent => exact absurd (command ▸ by simp [keyWords]) silent
    | _ => simp at same
  | refused clock words e =>
    cases tells' with
    | refused clock' words' e' => rfl
    | _ => simp at same
  | other clock words reply silent =>
    cases tells' with
    | other clock' words' reply' silent' => rfl
    | refused clock' words' e => rfl
    | _ => exact absurd (command ▸ by simp [keyWords]) silent

theorem chronicle_tells_one_story_of_keys {config : Config} {chronicle : List Moment}
    {events events' : List (Option KeyEvent)} (tells : List.Forall₂ (Moment.TellsOfKeys config) chronicle events)
    (tells' : List.Forall₂ (Moment.TellsOfKeys config) chronicle events') : events = events' := by
  have unique : Relator.RightUnique (Moment.TellsOfKeys config) :=
    fun _ _ _ told told' => tells_one_thing_of_keys told told' rfl
  exact List.right_unique_forall₂' unique tells tells'

/-- What a line tells about the keys is what it has made of them. -/
theorem line_tells_of_keys (distinct : DistinctNames world)
    (effect : LineEffect setting world words (result, next)) :
    ∃ told, Moment.TellsOfKeys setting.config ⟨setting.clock, words, result⟩ told ∧
      next.store.keys.toList = told.elim world.store.keys.toList (·.act world.store.keys.toList) := by
  have elsewhere : ∀ word ∈ ["create", "delete", "git"], word ∉ keyWords := by decide
  have verbs : ∀ power : Power, power.verb ∉ keyWords := by
    intro power
    cases power <;> decide
  cases effect with
  | refused e => exact ⟨none, .refused _ _ e, rfl⟩
  | look reply quiet =>
    refine ⟨none, .other _ _ reply ?_, rfl⟩
    intro changing
    simp only [keyWords, List.mem_cons, List.not_mem_nil, or_false] at changing
    rcases changing with command | command | command <;> simp [Line.changes, command] at quiet
  | generate name name? key said named free made =>
    subst said made
    refine ⟨_, .generated _ name _ _ (Key.new_name_is_word named), ?_⟩
    exact (act_under_a_free_name (Key.generate name _ setting.clock) free).symm
  | mark reply name front back key said found =>
    subst said
    refine ⟨_, .marked _ name reply, ?_⟩
    have place := Directory.adapt_at_the_place (fun key : Key => { key with added := true }) distinct.keys found
    exact (congrArg Directory.toList place).symm
  | discard reply name front back key said found =>
    subst said
    refine ⟨_, .discarded _ name reply, ?_⟩
    exact (congrArg Directory.toList (Directory.without_at_the_place distinct.keys found)).symm
  | power reply name power front back i said found other =>
    subst said
    exact ⟨none, .other _ _ _ (verbs power), rfl⟩
  | create name type said free =>
    subst said
    exact ⟨none, .other _ _ _ (elsewhere _ (by simp)), rfl⟩
  | delete reply name front back i said found =>
    subst said
    exact ⟨none, .other _ _ _ (elsewhere _ (by simp)), rfl⟩
  | clone url name name? said named clear free idle =>
    subst said
    exact ⟨none, .other _ _ _ (elsewhere _ (by simp)), rfl⟩

/-- After every run that starts without keys, the keys are the survivors of the story that its moments
tell. -/
theorem run_tells_its_keys (session : Session) (ready : session.Ready) (fresh : session.world.store.keys = .empty)
    (inputs : List Input) :
    ∃ events, List.Forall₂ (Moment.TellsOfKeys session.config) (session.chronicle inputs) events ∧
      (session.after inputs).world.store.keys.toList = survivors events.reduceOption :=
  session.run_tells_a_story ready (fun world => world.store.keys.toList) (fun _ => rfl)
    (fun _ _ _ _ _ distinct effect => line_tells_of_keys distinct effect) (congrArg Directory.toList fresh) inputs

end Steps

theorem Login.parse_of_valid {user host : String} (valid_user : isValidUser user.toList = true)
    (valid_host : isValidHost host.toList = true) : parse s!"{user}@{host}" = some ⟨user, host⟩ := by
  have shown : ∀ text : String, toString text = text := fun _ => rfl
  have characters : (s!"{user}@{host}").toList = user.toList ++ '@' :: host.toList := by simp [shown]
  have clear : ∀ c ∈ user.toList, (c == '@') = false := by
    intro c member
    have allowed := List.all_eq_true.mp (Bool.and_eq_true_iff.mp valid_user).2 c member
    refine beq_false_of_ne fun same => ?_
    subst same
    exact absurd allowed (by decide)
  have cut : Text.cutFirst (· == '@') (user.toList ++ '@' :: host.toList) = some (user.toList, host.toList) :=
    Text.cutFirst_eq_some_iff.mpr ⟨'@', rfl, clear, rfl⟩
  simp only [parse, characters, cut, valid_user, valid_host, Bool.and_self, if_true, String.ofList_toList]

section Answers

variable {session : Session} {key : Key}

/-- A login shows the transcript for the store as it finds it; no passing command changes the keys before
that. -/
theorem login_shows (terminal : session.registry = Terminal.registry) (clock : String) {user host line : String}
    (valid_user : Login.isValidUser user.toList = true) (valid_host : Login.isValidHost host.toList = true)
    (parsed : Line.parse line = some ⟨"ssh", [s!"{user}@{host}"]⟩) :
    session.output clock line = Key.transcript ⟨session.config, clock⟩ session.world.store ⟨user, host⟩ := by
  have member : Key.login ∈ Terminal.commands := by simp [Terminal.commands, Key.commands]
  have one : Key.loginManual.oneArgument [s!"{user}@{host}"] = .ok s!"{user}@{host}" := takes_one_argument.mpr rfl
  have ran : (Key.login.run ⟨session.config, clock⟩ session.found [s!"{user}@{host}"]).1 =
      .ok (.text (Key.transcript ⟨session.config, clock⟩ session.world.store ⟨user, host⟩)) := by
    simp only [Key.login, Command.reading, one, Login.parse_of_valid valid_user valid_host]
    rfl
  exact output_of_the_answer terminal member parsed ran

theorem marked_at_its_place {world : World} (distinct : DistinctNames world)
    (held : key ∈ world.store.keys.toList) :
    ∃ front back, world.store.keys.split? key.name = some (front, key, back) ∧
      world.store.keys.adapt key.name (fun key => { key with added := true }) =
        ⟨front ++ { key with added := true } :: back⟩ := by
  obtain ⟨front, back, found⟩ := Directory.split_at_the_member distinct.keys held
  exact ⟨front, back, found, Directory.adapt_at_the_place _ distinct.keys found⟩

/-- What is shown when a key is given to the agent. -/
def Key.addition (config : Config) (name verb : String) : String :=
  s!"Identity {verb}: {Home.keyPath config.home name} ({config.identity})"

/-- What giving a key to the agent shows depends on whether the agent held it; the world that it leaves does
not. -/
theorem addition_shows (ready : session.Ready) (held : key ∈ session.world.store.keys.toList) {addition : Input}
    (parsed : Line.parse addition.line = some ⟨"ssh-add", [key.name]⟩) :
    session.output addition.clock addition.line =
        Key.addition session.config key.name (if key.added then "already added" else "added") ∧
      (session.take addition).world =
        (Change.mark key.name).apply ⟨session.config, addition.clock⟩ session.found := by
  have distinct := Session.found_has_distinct_names ready
  have member : Key.add ∈ Terminal.commands := by simp [Terminal.commands, Key.commands]
  have one : Key.addManual.oneArgument [key.name] = .ok key.name := takes_one_argument.mpr rfl
  obtain ⟨front, back, found, place⟩ := marked_at_its_place distinct held
  have updated : session.found.store.keys.update key.name (fun key => .ok key.markAdded) =
      .ok (!key.added, ⟨front ++ { key with added := true } :: back⟩) :=
    Directory.update_eq_ok_iff.mpr ⟨front, key, back, _, found, rfl, rfl⟩
  have ran : Key.add.run ⟨session.config, addition.clock⟩ session.found [key.name] =
      (.ok (.text (Key.addition session.config key.name (if key.added then "already added" else "added"))),
        (Change.mark key.name).apply ⟨session.config, addition.clock⟩ session.found) := by
    simp only [Key.add, one, updated, Key.addition, Change.apply, place]
    cases key.added <;> rfl
  exact ⟨output_of_the_answer ready.terminal member parsed (congrArg Prod.fst ran),
    (Session.world_after_line ready parsed).trans
      (congrArg Prod.snd ((run_by_the_command _ _ _ member).trans ran))⟩

theorem marked_key_is_held (setting : Setting) {world : World} (distinct : DistinctNames world)
    (held : key ∈ world.store.keys.toList) :
    { key with added := true } ∈ ((Change.mark key.name).apply setting world).store.keys.toList := by
  obtain ⟨front, back, _, place⟩ := marked_at_its_place distinct held
  simp [Change.apply, place]

/-- The second time, the agent already holds the key, and the whole world stays as it was. -/
theorem marking_a_marked_key_changes_nothing (setting : Setting) {world : World} (distinct : DistinctNames world)
    (held : key ∈ world.store.keys.toList) (marked : key.added = true) :
    (Change.mark key.name).apply setting world = world := by
  obtain ⟨front, back, found, place⟩ := marked_at_its_place distinct held
  have list := (Directory.split?_eq_some_iff.mp found).1
  have same : ({ key with added := true } : Key) = key := by rw [← marked]
  rw [same, ← list] at place
  simp only [Change.apply, place]

/-- Every key has a name that a key can be generated with. -/
theorem key_names_are_valid (ready : session.Ready) (fresh : session.world.store.keys = .empty)
    (inputs : List Input) :
    ∀ key ∈ (session.after inputs).world.store.keys.toList, Key.isValidName key.name = true := by
  refine session.run_keeps inputs
    (P := fun _ world => ∀ key ∈ world.store.keys.toList, Key.isValidName key.name = true) ready.terminal ?_ ?_
  · rw [fresh]
    exact List.forall_mem_nil _
  · intro past world clock words result next effect valid
    cases effect with
    | generate name name? key said named free made =>
      subst made
      exact List.forall_mem_append.mpr ⟨valid, List.forall_mem_singleton.mpr (Key.new_name_is_valid named)⟩
    | mark reply name front back key said found => exact Directory.all_after_change valid found id
    | discard reply name front back key said found => exact Directory.all_after_removal valid found
    | _ => exact valid

/-- A key that is removed and generated again comes last, and the agent does not hold it. -/
theorem regenerated_key_is_unmarked (ready : session.Ready) (held : key ∈ session.world.store.keys.toList)
    (valid : Key.isValidName key.name = true) {removal generation : Input}
    (removes : Line.parse removal.line = some ⟨"ssh-remove", [key.name]⟩)
    (generates : Line.parse generation.line = some ⟨"ssh-keygen", [key.name]⟩) :
    ∃ publicKey, (session.after [removal, generation]).world.store.keys.toList =
      session.world.store.keys.toList.filter (·.name != key.name) ++
        [.generate key.name publicKey generation.clock] := by
  have removed_ready : (session.take removal).Ready := Session.take_is_ready ready
  have there : session.found.store.keys.contains key.name = true := Directory.contains_iff.mpr ⟨key, held, rfl⟩
  obtain ⟨_, removed⟩ := asked_change_is_made ⟨session.config, removal.clock⟩
    (Session.found_has_distinct_names ready) (.discard key.name there)
  have left : (session.take removal).found.store.keys = session.found.store.keys.without key.name := by
    have world := (Session.world_after_line ready removes).trans (congrArg Prod.snd removed)
    exact congrArg (fun world : World => world.tick.2.store.keys) world
  have free : (session.take removal).found.store.keys.contains key.name = false := by
    rw [left, Directory.free_iff_no_entry_named]
    intro other member
    exact bne_iff_ne.mp (List.mem_filter.mp member).2
  have named : Key.newName (session.take removal).found.store.keys (some key.name) = .ok key.name := if_pos valid
  obtain ⟨_, generated⟩ := asked_change_is_made ⟨(session.take removal).config, generation.clock⟩
    (Session.found_has_distinct_names removed_ready) (.generate key.name (some key.name) named free)
  have world := (Session.world_after_line removed_ready generates).trans (congrArg Prod.snd generated)
  have keys := congrArg (fun world : World => world.store.keys.toList) world
  simp only [Change.apply, left] at keys
  exact ⟨_, keys⟩

end Answers

/-- What happens in a run tells one story of keys that were generated, given to the agent and removed, and
after the run there are just the keys that this story leaves: those generated and not ended since, marked
exactly if they were given to the agent since then. A login names the first marked one, in the order of their
creation, with its fingerprint; if there is none, it goes by password. A key that is removed and generated
again is not marked, and comes last. Giving the agent a key that it holds says so, and leaves the world as a
line finds it. -/
theorem login_follows_the_history (config : Config) (entropy : Random.Source) (inputs : List Input) :
    let start := Session.start config entropy
    let session := start.after inputs
    let keys := session.world.store.keys.toList
    (∃ events, List.Forall₂ (Moment.TellsOfKeys config) (start.chronicle inputs) events ∧
      (∀ others, List.Forall₂ (Moment.TellsOfKeys config) (start.chronicle inputs) others → others = events) ∧
      keys = survivors events.reduceOption ∧
      (∀ key, key ∈ keys ↔ ∃ before fresh later, events.reduceOption = before ++ .entered fresh :: later ∧
        later.any (ends fresh.name) = false ∧ key = { fresh with added := later.any (marks fresh.name) }) ∧
      ∀ user host clock line : String, Login.isValidUser user.toList = true →
        Login.isValidHost host.toList = true →
        Line.parse line = some ⟨"ssh", [s!"{user}@{host}"]⟩ →
        let authentication :=
          match (survivors events.reduceOption).find? (·.added) with
          | some key => s!"Authenticated to {host} using public key '{key.name}' ({key.fingerprint})."
          | none => s!"{user}@{host}: authenticated with password."
        session.output clock line = "\n".intercalate [s!"Connecting to {host} as {user}...", authentication,
          s!"Welcome to {host}", s!"Last login: {clock} from {config.hostname}",
          s!"Connection to {host} closed."]) ∧
    (∀ key ∈ keys, ∀ removal generation : Input, Line.parse removal.line = some ⟨"ssh-remove", [key.name]⟩ →
      Line.parse generation.line = some ⟨"ssh-keygen", [key.name]⟩ →
      ∃ publicKey, (session.after [removal, generation]).world.store.keys.toList =
        keys.filter (·.name != key.name) ++ [.generate key.name publicKey generation.clock]) ∧
    ∀ key ∈ keys, ∀ addition again : Input, Line.parse addition.line = some ⟨"ssh-add", [key.name]⟩ →
      Line.parse again.line = some ⟨"ssh-add", [key.name]⟩ →
      let given := session.take addition
      let identity := fun verb => s!"Identity {verb}: {Home.keyPath config.home key.name} ({config.identity})"
      session.output addition.clock addition.line = identity (if key.added then "already added" else "added") ∧
        (key.added = true → given.world = session.found) ∧
        given.output again.clock again.line = identity "already added" ∧
        (given.take again).world = given.found := by
  intro start session keys
  have ready : session.Ready := Session.after_is_ready (Session.start_is_ready config entropy) inputs
  have configured : session.config = config := (start.after_keeps_the_settings inputs).2
  obtain ⟨events, tells, left⟩ := run_tells_its_keys start (Session.start_is_ready config entropy) rfl inputs
  refine ⟨⟨events, tells, fun others told => chronicle_tells_one_story_of_keys told tells, left, ?_, ?_⟩, ?_, ?_⟩
  · intro key
    have there := mem_survivors_iff events.reduceOption key
    simp only [outcome_of_a_key] at there
    rw [← left] at there
    exact there
  · intro user host clock line valid_user valid_host parsed authentication
    have shown := login_shows ready.terminal clock valid_user valid_host parsed
    have authenticates : Key.authentication session.world.store ⟨user, host⟩ = authentication := by
      have same : session.world.store.keys.toList = survivors events.reduceOption := left
      cases offered : (survivors events.reduceOption).find? (·.added) <;>
        simp only [Key.authentication, same, authentication, offered]
    rw [shown, Key.transcript, authenticates, configured]
  · intro key held removal generation removes generates
    have valid := key_names_are_valid (Session.start_is_ready config entropy) rfl inputs key held
    exact regenerated_key_is_unmarked ready held valid removes generates
  · intro key held addition again adds adds_again given identity
    have given_config : given.config = config :=
      (Session.take_keeps_the_settings session addition).2.trans configured
    obtain ⟨shown, marked⟩ := addition_shows ready held adds
    have given_ready : given.Ready := Session.take_is_ready ready
    have held_again : { key with added := true } ∈ given.world.store.keys.toList := by
      rw [marked]
      exact marked_key_is_held _ (Session.found_has_distinct_names ready) held
    obtain ⟨shown_again, marked_again⟩ := addition_shows given_ready held_again adds_again
    rw [configured] at shown
    rw [given_config] at shown_again
    refine ⟨shown, ?_, shown_again, ?_⟩
    · intro known
      exact marked.trans (marking_a_marked_key_changes_nothing _
        (Session.found_has_distinct_names ready) held known)
    · exact marked_again.trans
        (marking_a_marked_key_changes_nothing _ (Session.found_has_distinct_names given_ready) held_again rfl)

/-- The agent is given two keys, and the older one is removed and generated again. -/
def givenTwoKeys : List Input :=
  [⟨"", "ssh-keygen old"⟩, ⟨"", "ssh-keygen new"⟩, ⟨"", "ssh-add new"⟩, ⟨"", "ssh-add old"⟩,
    ⟨"", "ssh-remove old"⟩, ⟨"", "ssh-keygen old"⟩]

/-- The login names the other one. Giving it to the agent once more changes nothing, and when it is removed
and generated again, it comes last. -/
theorem login_passes_over_a_regenerated_key :
    let session := (Session.start {} 7).after givenTwoKeys
    let keys := session.world.store.keys.toList
    ∃ key ∈ keys, key.name = "new" ∧
      session.output "12:01" "ssh deploy@web" = "\n".intercalate ["Connecting to web as deploy...",
        s!"Authenticated to web using public key '{key.name}' ({key.fingerprint}).", "Welcome to web",
        "Last login: 12:01 from cloudsim", "Connection to web closed."] ∧
      (session.take ⟨"12:02", "ssh-add new"⟩).world = session.found ∧
      ∃ publicKey,
        (session.after [⟨"12:02", "ssh-remove new"⟩, ⟨"12:03", "ssh-keygen new"⟩]).world.store.keys.toList =
        keys.filter (·.name != key.name) ++ [.generate key.name publicKey "12:03"] := by
  have follows := login_follows_the_history {} 7 givenTwoKeys
  have names : ((Session.start {} 7).after givenTwoKeys).world.store.keys.toList.map
      (fun key => (key.name, key.added)) = [("new", true), ("old", false)] := by
    decide +kernel
  -- From here on the run is not looked at again.
  dsimp only at follows ⊢
  generalize (Session.start {} 7).after givenTwoKeys = session at follows names ⊢
  obtain ⟨⟨events, _, _, left, _, logs_in⟩, regenerates, gives⟩ := follows
  obtain ⟨key, rest, list, first, _⟩ := List.map_eq_cons_iff.mp names
  simp only [Prod.mk.injEq] at first
  obtain ⟨named, marked⟩ := first
  have held : key ∈ session.world.store.keys.toList := list ▸ List.mem_cons_self
  have offered : (survivors events.reduceOption).find? (·.added) = some key := by
    rw [← left, list, List.find?_cons_of_pos marked]
  have said : ∀ word ∈ ["ssh-add", "ssh-remove", "ssh-keygen"],
      Line.parse s!"{word} new" = some ⟨word, [key.name]⟩ := by
    rw [named]
    decide +kernel
  have adds := said "ssh-add" (by decide)
  have removes := said "ssh-remove" (by decide)
  have generates := said "ssh-keygen" (by decide)
  have login := logs_in "deploy" "web" "12:01" "ssh deploy@web" (by decide) (by decide) (by decide +kernel)
  rw [offered] at login
  exact ⟨key, held, named, login,
    (gives key held ⟨"12:02", "ssh-add new"⟩ ⟨"", "ssh-add new"⟩ adds adds).2.1 marked,
    regenerates key held ⟨"12:02", "ssh-remove new"⟩ ⟨"12:03", "ssh-keygen new"⟩ removes generates⟩

end CloudTerminal
