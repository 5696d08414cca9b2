import CloudTerminal.Config.Decode
import CloudTerminal.Proofs.EchoLines
import CloudTerminal.Proofs.TomlDocuments

/-!
Settings as texts. A document that gives some of the settings new values (`Assignment`), each at most once, is
read as the default settings with exactly these values in their places: the order of the lines, the ways of
writing a text and lines about anything else make no difference (`settings_of_document`). What is refused is
what the check of the settings refuses, so that a session with settings from a document uses them as they are.
-/

namespace CloudTerminal.Config

def keys : List String := ["user", "hostname", "home", "seed", "clone_delay", "ping_count"]

/-- What a line of a document gives a value: one of the settings, or something that is none of them. The seed
is written as an integer of sixty-four bits with a sign. -/
inductive Assignment where
  | user (name : String)
  | hostname (name : String)
  | home (path : String)
  | seed (start : UInt64) (signed : start.toNat ≤ Int64.maxValue.toInt)
  | cloneDelay (count : UInt32)
  | pingCount (count : UInt32)
  | other (key : String) (bare : Toml.IsBareKey key) (unknown : key ∉ keys) (number : Int64)

namespace Assignment

def key : Assignment → String
  | user _ => "user"
  | hostname _ => "hostname"
  | home _ => "home"
  | seed _ _ => "seed"
  | cloneDelay _ => "clone_delay"
  | pingCount _ => "ping_count"
  | other key _ _ _ => key

def value : Assignment → Toml.Value
  | user name => .string name
  | hostname name => .string name
  | home path => .string path
  | seed start _ => .integer start.toNat
  | cloneDelay count => .integer count.toNat
  | pingCount count => .integer count.toNat
  | other _ _ _ number => .integer number.toInt

/-- The entry that the line of an assignment adds to a document. -/
def entry (assignment : Assignment) : String × Toml.Value := (assignment.key, assignment.value)

/-- The settings with a new value in the place of the old one. -/
def apply (config : Config) : Assignment → Config
  | user name => { config with user := name }
  | hostname name => { config with hostname := name }
  | home path => { config with home := path }
  | seed start _ => { config with seed := some start }
  | cloneDelay count => { config with cloneDelay := count.toNat }
  | pingCount count => { config with pingCount := count.toNat }
  | other _ _ _ _ => config

/-- The default settings with the values of some assignments in their places. -/
def settings (assignments : List Assignment) : Config := assignments.foldl apply {}

end Assignment

open Assignment

variable {assignments assignments' : List Assignment} {document document' : String}

/-- The settings in a table, where those without a key stay as they are. -/
def updated? (entries : Toml.Entries) (config : Config) : Option Config := do
  return {
    user := ← field entries "user" config.user text?
    hostname := ← field entries "hostname" config.hostname text?
    home := ← field entries "home" config.home text?
    seed := ← field entries "seed" config.seed seed?
    cloneDelay := ← field entries "clone_delay" config.cloneDelay (numberBelow? UInt32.size)
    pingCount := ← field entries "ping_count" config.pingCount (numberBelow? UInt32.size) }

theorem defaults_are_updated (entries : Toml.Entries) : ofEntries? entries = updated? entries {} := rfl

theorem number_below {bound n : Nat} (small : n < bound) : numberBelow? bound (.integer n) = some n := by
  simp [numberBelow?, small]

/-- An assignment at the head of a table gives its setting the value that is read, if the key does not come
again. -/
theorem updated_by_an_assignment (assignment : Assignment) {rest : Toml.Entries}
    (absent : rest.lookup assignment.key = none) (config : Config) :
    updated? (assignment.entry :: rest) config = updated? rest (assignment.apply config) := by
  have first {α : Type} (name : String) (default : α) (read : Toml.Value → Option α) :
      field (assignment.entry :: rest) name default read =
        if assignment.key = name then read assignment.value else field rest name default read := by
    by_cases same : assignment.key = name
    · simp [field, entry, same]
    · have passed : (name == assignment.key) = false := beq_eq_false_iff_ne.mpr (Ne.symm same)
      simp [field, entry, List.lookup_cons, passed, same]
  have kept {α : Type} (default : α) (read : Toml.Value → Option α) :
      field rest assignment.key default read = some default := by
    rw [field, absent]
  cases assignment with
  | other key bare unknown number =>
    have others : ∀ name ∈ keys, key ≠ name := fun name known same => unknown (same ▸ known)
    simp only [keys, List.forall_mem_cons] at others
    simp [updated?, first, Assignment.key, apply, others]
  | _ =>
    simp only [key] at kept
    simp [updated?, first, kept, key, value, apply, text?, seed?, number_below, UInt32.toNat_lt_size,
      UInt64.toNat_lt_size]

/-- A whole list of assignments updates settings as one after the other would, by induction. -/
theorem updated_by_assignments (distinct : (assignments.map key).Nodup) (config : Config) :
    updated? (assignments.map entry) config = some (assignments.foldl apply config) := by
  induction assignments generalizing config with
  | nil => rfl
  | cons assignment rest ih =>
    obtain ⟨alone, others⟩ := List.nodup_cons.mp distinct
    have absent : (rest.map entry).lookup assignment.key = none := by
      rw [List.lookup_eq_none_iff]
      intro given member
      obtain ⟨other, other_member, rfl⟩ := List.mem_map.mp member
      exact bne_iff_ne.mpr fun same => alone (same ▸ List.mem_map_of_mem other_member)
    rw [List.map_cons, updated_by_an_assignment assignment absent]
    exact ih others (assignment.apply config)

theorem entries_of_assignments (distinct : (assignments.map key).Nodup) :
    ofEntries? (assignments.map entry) = some (settings assignments) :=
  (defaults_are_updated _).trans (updated_by_assignments distinct {})

/-- Assignments to different keys can be made in either order. -/
theorem assignments_of_other_keys_commute {assignment other : Assignment} (apart : assignment.key ≠ other.key)
    (config : Config) : apply (apply config assignment) other = apply (apply config other) assignment := by
  cases assignment <;> cases other <;> first | rfl | exact absurd rfl apart

/-- So the order of assignments to distinct keys does not count. -/
theorem settings_in_any_order (permuted : assignments'.Perm assignments)
    (distinct : (assignments'.map key).Nodup) :
    settings assignments' = settings assignments := by
  refine permuted.foldl_eq' (fun assignment member other other_member config => ?_) _
  by_cases same : assignment.key = other.key
  · rw [List.inj_on_of_nodup_map distinct member other_member same]
  · exact assignments_of_other_keys_commute same config

theorem assignment_is_written (assignment : Assignment) :
    ∃ line, Toml.IsLine assignment.key assignment.value line := by
  have bare : Toml.IsBareKey assignment.key := by
    cases assignment with
    | other _ bare _ _ => exact bare
    | _ => exact ⟨by simp [key], by simp [key]⟩
  have well : ∃ written, Toml.IsWritten assignment.value written := by
    cases assignment with
    | user text | hostname text | home text =>
      obtain ⟨written, spelled⟩ := Toml.every_text_is_spelled text.toList
      exact ⟨_, .string spelled⟩
    | seed start signed => exact ⟨_, .integer (by simp) signed⟩
    | cloneDelay count | pingCount count =>
      have small := count.toNat_lt
      have greatest : Int64.maxValue.toInt = 9223372036854775807 := rfl
      exact ⟨_, .integer (by simp) (by omega)⟩
    | other _ _ _ number => exact ⟨_, .integer number.minValue_le_toInt number.toInt_le⟩
  obtain ⟨written, well⟩ := well
  exact ⟨_, bare, [], [' '], [' '], written, [], by simp [Toml.IsGap], by simp [Toml.IsGap], by simp [Toml.IsGap],
    by simp [Toml.IsGap], well, rfl⟩

/-- The settings are what the lines say, in any order, and then they are checked. -/
theorem settings_of_document (written : Toml.IsDocument (assignments.map entry) document.toList)
    (distinct : (assignments.map key).Nodup) :
    ofToml document = (settings assignments).check.map fun _ => settings assignments := by
  have keyed : (assignments.map entry).map Prod.fst = assignments.map key := by
    rw [List.map_map]
    rfl
  have parsed := Toml.document_is_read written (keyed ▸ distinct)
  rw [ofToml, parsed, Option.bind_some, entries_of_assignments distinct]

/-- Settings that a session can use as they are. -/
structure IsSound (config : Config) : Prop where
  user : ∃ c ∈ config.user.toList, Text.isBlank c = false
  hostname : ∃ c ∈ config.hostname.toList, Text.isBlank c = false
  home : ∃ c ∈ config.home.toList, Text.isBlank c = false
  count : 1 ≤ config.pingCount ∧ config.pingCount ≤ 20

/-- What is wrong with settings, the first of the faults being reported. -/
inductive Refuses (config : Config) : Error → Prop where
  | user (blank : ∀ c ∈ config.user.toList, Text.isBlank c = true) : Refuses config (.emptyField "user")
  | hostname (blank : ∀ c ∈ config.hostname.toList, Text.isBlank c = true) :
    Refuses config (.emptyField "hostname")
  | home (blank : ∀ c ∈ config.home.toList, Text.isBlank c = true) : Refuses config (.emptyField "home")
  | count (outside : config.pingCount = 0 ∨ 20 < config.pingCount) : Refuses config (.pingCountOutOfRange 20)

variable {config : Config} {error : Error}

/-- The check accepts exactly the sound settings. -/
theorem sound_iff_checked : IsSound config ↔ config.check = .ok () := by
  have filled (text : String) : (∃ c ∈ text.toList, Text.isBlank c = false) ↔ Text.isAllBlank text = false := by
    simp [Text.isAllBlank]
  rw [check_eq_ok_iff, ← filled, ← filled, ← filled]
  constructor
  · rintro ⟨user, hostname, home, count⟩
    exact ⟨user, hostname, home, count⟩
  · rintro ⟨user, hostname, home, count⟩
    exact ⟨user, hostname, home, count⟩

/-- Every error of the check is a reason to refuse the settings. -/
theorem refused_if_checked (refused : config.check = .error error) : Refuses config error := by
  have blank {text : String} (all : Text.isAllBlank text = true) : ∀ c ∈ text.toList, Text.isBlank c = true :=
    List.all_eq_true.mp all
  unfold check at refused
  split at refused
  · cases refused
    exact .user (blank (by assumption))
  split at refused
  · cases refused
    exact .hostname (blank (by assumption))
  split at refused
  · cases refused
    exact .home (blank (by assumption))
  split at refused
  · cases refused
    exact .count (by assumption)
  · cases refused

/-- All refusals are told as errors of the settings. -/
theorem refusal_is_a_config_error (refuses : Refuses config error) :
    ∃ reason, error.message = "config error: " ++ reason := by
  have field (name : String) : (Error.emptyField name).message =
      "config error: " ++ (name ++ " must not be empty") := by
    rw [← String.append_assoc]
    rfl
  cases refuses with
  | user _ | hostname _ | home _ => exact ⟨_, field _⟩
  | count _ => exact ⟨"ping_count must be between 1 and 20", by decide⟩

/-- Settings that have been checked are used as they are: a session sends as many echo requests as they ask for. -/
theorem checked_settings_are_used (checked : config.check = .ok ()) (entropy : Random.Source) (inputs : List Input)
    {clock line host : String} {address : Host.Address} (asked : Line.parse line = some ⟨"ping", [host]⟩)
    (resolved : Host.resolve? host = some address) :
    Host.EchoesTold host address config.pingCount
      (Text.lines (((Session.start config entropy).after inputs).output clock line)) := by
  obtain ⟨terminal, configured⟩ := (Session.start config entropy).after_keeps_the_settings inputs
  have kept : min (max config.pingCount 1) maxPingCount = config.pingCount := Host.checked_count_is_kept checked
  have named : Host.IsHostName host := (Host.resolves_iff_host_name host).mp ⟨address, resolved⟩
  generalize (Session.start config entropy).after inputs = session at terminal configured ⊢
  have configured : session.config = config := configured
  have ran := congrArg Prod.fst (Host.ping_of_resolved ⟨session.config, clock⟩ session.found resolved)
  rw [output_of_the_answer terminal (by simp [Terminal.commands, Host.commands]) asked ran, Reply.rendered]
  simp only [configured, kept]
  rw [Host.lines_of_echoes named]
  exact Host.echoes_are_told host address config.pingCount

/-- Whatever the settings, there are documents that state them, and each of these is read as just these
settings, if they are sound: in whatever order the settings come, however the texts are written, and whatever
else is given a number. -/
theorem settings_are_read_key_by_key (assignments : List Assignment) (distinct : (assignments.map key).Nodup) :
    (∃ document : String, Toml.IsDocument (assignments.map entry) document.toList) ∧
    ∀ document : String, Toml.IsDocument (assignments.map entry) document.toList →
      (IsSound (settings assignments) → ofToml document = .ok (settings assignments)) ∧
      (¬IsSound (settings assignments) → ∃ error reason, ofToml document = .error error ∧
        Refuses (settings assignments) error ∧ error.message = "config error: " ++ reason) ∧
      (∀ (assignments' : List Assignment) (document' : String), assignments'.Perm assignments →
        Toml.IsDocument (assignments'.map entry) document'.toList → ofToml document' = ofToml document) ∧
      (∀ accepted, ofToml document = .ok accepted → ∀ entropy inputs clock line host address,
        Line.parse line = some ⟨"ping", [host]⟩ → Host.resolve? host = some address →
          Host.EchoesTold host address accepted.pingCount
            (Text.lines (((Session.start accepted entropy).after inputs).output clock line))) := by
  have lines : ∀ given ∈ assignments.map entry, ∃ line, Toml.IsLine given.1 given.2 line := by
    rw [List.forall_mem_map]
    exact fun assignment _ => assignment_is_written assignment
  refine ⟨Toml.lines_make_a_document lines, fun document written => ?_⟩
  have read := settings_of_document written distinct
  refine ⟨fun sound => ?accepted, fun unsound => ?refused, fun assignments' document' permuted written' => ?order,
    fun accepted answer entropy inputs clock line host address asked resolved => ?used⟩
  case accepted =>
    rw [read, sound_iff_checked.mp sound]
    rfl
  case refused =>
    cases checked : (settings assignments).check with
    | ok _ => exact absurd (sound_iff_checked.mpr checked) unsound
    | error error =>
      have refuses := refused_if_checked checked
      obtain ⟨reason, told⟩ := refusal_is_a_config_error refuses
      rw [read, checked]
      exact ⟨error, reason, rfl, refuses, told⟩
  case order =>
    have distinct' : (assignments'.map key).Nodup := (permuted.map key).nodup_iff.mpr distinct
    rw [read, settings_of_document written' distinct', settings_in_any_order permuted distinct']
  case used =>
    have checked : accepted.check = .ok () := by
      rw [read] at answer
      cases checked : (settings assignments).check with
      | ok _ =>
        rw [checked] at answer
        cases answer
        exact checked
      | error error =>
        rw [checked] at answer
        cases answer
    exact checked_settings_are_used checked entropy inputs asked resolved

/-- An escaped quotation mark, a letter by its code, an empty line and a key that means nothing. -/
theorem three_lines_are_two_settings :
    ofToml "ping_count = 3\n\nuser=\"\\\"\\u00eB\"\r\nx-1 = -5" = .ok { user := "\"ë", pingCount := 3 } := by
  have bare : Toml.IsBareKey "x-1" := ⟨by simp, by simp⟩
  let assignments : List Assignment := [.pingCount 3, .user "\"ë", .other "x-1" bare (by decide) (-5)]
  have gap : Toml.IsGap [] := by simp [Toml.IsGap]
  have blank : Toml.IsGap [' '] := by simp [Toml.IsGap]
  have digit {value : Nat} {c : Char} (small : value < 16)
      (same : c = value.digitChar ∨ c = value.digitChar.toUpper) :
      Toml.IsHexDigit value c := ⟨small, same⟩
  have code : Toml.AreHexDigits ['0', '0', 'e', 'B'] 'ë'.toNat :=
    ⟨[0, 0, 14, 11], .cons (digit (by decide) (.inl rfl)) (.cons (digit (by decide) (.inl rfl))
      (.cons (digit (by decide) (.inl rfl)) (.cons (digit (by decide) (.inr (by decide))) .nil))), rfl⟩
  have spelled : Toml.AreSpelled ['"', 'ë'] ['\\', '"', '\\', 'u', '0', '0', 'e', 'B'] :=
    .cons (.letter (by decide)) (.cons (.short rfl code) .nil)
  have first : Toml.IsLine "ping_count" (.integer 3) "ping_count = 3".toList :=
    ⟨⟨by simp, by simp⟩, [], [' '], [' '], ['3'], [], gap, blank, blank, gap,
      .integer (by decide) (by decide), by simp⟩
  have second : Toml.IsLine "user" (.string "\"ë") "user=\"\\\"\\u00eB\"".toList :=
    ⟨⟨by simp, by simp⟩, [], [], [], _, [], gap, gap, gap, gap, .string (by simpa using spelled), by simp⟩
  have third : Toml.IsLine "x-1" (.integer (-5)) "x-1 = -5".toList :=
    ⟨bare, [], [' '], [' '], ['-', '5'], [], gap, blank, blank, gap, .integer (by decide) (by decide), by simp⟩
  have document : Toml.IsDocument (assignments.map entry)
      "ping_count = 3\n\nuser=\"\\\"\\u00eB\"\r\nx-1 = -5".toList := by
    have lines := Toml.IsDocument.line first (.inl rfl)
      (.gap gap (.inl rfl) (.line second (.inr rfl) (.last third)))
    have stated : assignments.map entry =
      [("ping_count", .integer 3), ("user", .string "\"ë"), ("x-1", .integer (-5))] := rfl
    simpa [stated] using lines
  have sound : IsSound (settings assignments) :=
    ⟨⟨'"', by simp [settings, assignments, apply], rfl⟩, ⟨'c', by simp [settings, assignments, apply], rfl⟩,
      ⟨'~', by simp [settings, assignments, apply], rfl⟩, by simp [settings, assignments, apply]⟩
  exact ((settings_are_read_key_by_key assignments (by simp [assignments, key])).2 _ document).1 sound

end CloudTerminal.Config
