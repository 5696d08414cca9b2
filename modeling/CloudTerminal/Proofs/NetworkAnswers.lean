import CloudTerminal.Proofs.FileNames
import CloudTerminal.Proofs.HomeListing
import CloudTerminal.Proofs.HostNames

/-!
What `ping`, `curl` and `wget` answer. The text that tells of a download can be read in one way only
(`text_determines_the_download`), and so can that of the echoes of a host (`echo_determines_the_address`).
What is fetched for a URL does not depend on the command, and a refusal names the command at its beginning and
nowhere else (`serves_or_refused`). So the commands agree about every host and page
(`network_commands_agree`), the addresses that they show can be used again (`shown_addresses_can_be_used`),
and a page is saved under the last segment of its path (`saved_file_is_named_by_the_path`).
-/

namespace CloudTerminal

open Text (IsWord)

namespace Registry

/-- Whether each of the commands is found by its name. -/
def Offers (registry : Registry) (commands : List Command) : Prop :=
  ∀ command ∈ commands, registry.lookup command.name = some command

/-- What a line is answered. -/
def answer? (registry : Registry) (setting : Setting) (world : World) (line : String) :
    Option (Except Error Reply) :=
  (Line.parse line).map fun words => (registry.run setting world words).1

variable {registry : Registry} {commands : List Command} {command : Command} {setting : Setting} {world : World}
  {argument : String}

/-- A family of commands of distinct names that has just been registered is offered. -/
theorem registered_commands_are_offered (registry : Registry) (distinct : (commands.map (·.name)).Nodup) :
    (registry.registerAll commands).Offers commands := by
  intro command member
  have found := (last_of_distinct_commands distinct command.name command).mpr ⟨member, rfl⟩
  rw [lookup_finds_the_last_registered, found]
  rfl

theorem answer_of_the_command (offers : registry.Offers commands) (member : command ∈ commands)
    (named : IsWord command.name) (other : command.name ≠ helpManual.name) (word : IsWord argument) :
    registry.answer? setting world s!"{command.name} {argument}" =
      some (command.run setting world [argument]).1 := by
  rw [answer?, Line.parse_of_one_argument named word, Option.map_some, run_of_found other (offers command member)]

end Registry

/-- A text is its lines, joined by line feeds. -/
theorem lines_determine_the_text {text other : String} (same : Text.lines text = Text.lines other) :
    text = other := by
  have pieces := congrArg (List.map String.toList) same
  simp only [Text.lines, List.map_map, Function.comp_def, String.toList_ofList, List.map_id'] at pieces
  rw [← String.toList_inj, ← Text.joined_pieces '\n' text.toList, pieces, Text.joined_pieces]

namespace Host

/-- What is told of a download. The length of the page is told in four places. -/
@[ext] structure Download where
  host : String
  address : Address
  port : Nat
  file : String
  announced : Nat
  transferred : Nat
  saved : Nat
  expected : Nat
  named : IsHostName host
  flat : '\n' ∉ file.toList

namespace Download

def lengths (download : Download) : List Nat :=
  [download.announced, download.transferred, download.saved, download.expected]

/-- The lines between the first and the last one. -/
def inner (download : Download) : List String := [
  s!"Resolving {download.host}... {download.address.text}",
  s!"Connecting to {download.host}|{download.address.text}|:{download.port}... connected.",
  "HTTP request sent, awaiting response... 200 OK",
  s!"Length: {download.announced} [text/html]",
  s!"Saving to: '{download.file}'",
  "",
  s!"{download.file}  100%[===================>]  {download.transferred}  --.-KB/s  in 0s",
  ""]

def text (download : Download) (clock url : String) : String :=
  "\n".intercalate (s!"--{clock}--  {url}" :: (download.inner ++
    [s!"{clock} - '{download.file}' saved [{download.saved}/{download.expected}]"]))

variable {download other : Download} {clock url : String}

theorem inner_lines_are_flat (download : Download) : ∀ line ∈ download.inner, '\n' ∉ line.toList := by
  have host : '\n' ∉ download.host.toList := other_character_is_not_in_a_name (by decide) download.named
  have address : '\n' ∉ download.address.text.toList :=
    other_character_is_not_in_a_name (by decide) (address_text_is_a_name download.address)
  have number : ∀ n : Nat, '\n' ∉ (toString n).toList := fun n =>
    other_character_is_not_in_a_label (by decide) (numeral_is_a_label n)
  have file := download.flat
  simp_all [inner, toString]

/-- Between the first line and the last one of a transcript stand the inner ones. -/
theorem lines_of_text (download : Download) (clock url : String) :
    Text.lines (download.text clock url) = Text.lines s!"--{clock}--  {url}" ++ (download.inner ++
      Text.lines s!"{clock} - '{download.file}' saved [{download.saved}/{download.expected}]") := by
  have alone : ∀ line ∈ download.inner, Text.lines line = [line] := fun line member =>
    Text.lines_of_flat (download.inner_lines_are_flat line member)
  rw [text, Text.lines_of_joined (List.cons_ne_nil _ _), List.flatMap_cons, List.flatMap_append,
    List.flatMap_congr alone, List.flatMap_singleton', List.flatMap_singleton]

theorem file_is_told (download : Download) (clock url : String) :
    s!"Saving to: '{download.file}'" ∈ Text.lines (download.text clock url) := by
  rw [lines_of_text]
  exact List.mem_append_right _ (List.mem_append_left _ (by simp [inner]))

/-- No two downloads are told in the same way. -/
theorem text_determines_the_download : download.text clock url = other.text clock url ↔ download = other := by
  constructor
  · intro same
    have lines := congrArg Text.lines same
    rw [lines_of_text, lines_of_text, List.append_cancel_left_eq] at lines
    obtain ⟨inner_lines, last_lines⟩ := List.append_inj lines rfl
    have last := lines_determine_the_text last_lines
    simp only [inner, List.cons.injEq] at inner_lines
    obtain ⟨-, connecting, -, length, saving, -, progress, -⟩ := inner_lines
    have file : download.file = other.file :=
      String.toList_injective (by simpa [toString] using congrArg String.toList saving)
    -- A file may have any name on one line. Once it is the same, it does not matter where it ends in the other lines.
    rw [file] at progress last
    have announced : download.announced = other.announced :=
      Text.numeral_determines_the_number (by simpa [toString] using congrArg String.toList length)
    have transferred : download.transferred = other.transferred :=
      Text.numeral_determines_the_number (by simpa [toString] using congrArg String.toList progress)
    have no_slash : ∀ n : Nat, '/' ∉ Nat.toDigits 10 n := fun n slash =>
      absurd (Nat.isDigit_of_mem_toDigits (by decide) (by decide) slash) (by decide)
    obtain ⟨saved, behind_saved⟩ := Text.text_up_to_separator (c := '/') (no_slash _) (no_slash _)
      (by simpa [toString] using congrArg String.toList last)
    have expected := List.append_cancel_right behind_saved
    have no_bar : ∀ {host : String}, IsHostName host → '|' ∉ host.toList :=
      other_character_is_not_in_a_name (by decide)
    obtain ⟨host, behind_host⟩ := Text.text_up_to_separator (c := '|') (no_bar download.named) (no_bar other.named)
      (by simpa [toString] using congrArg String.toList connecting)
    obtain ⟨address, behind_address⟩ := Text.text_up_to_separator (no_bar (address_text_is_a_name _))
      (no_bar (address_text_is_a_name _)) behind_host
    have port := List.append_cancel_right (List.cons.inj behind_address).2
    exact Download.ext (String.toList_injective host)
      (Address.text_determines_the_address (String.toList_injective address))
      (Text.numeral_determines_the_number port)
      file announced transferred (Text.numeral_determines_the_number saved)
      (Text.numeral_determines_the_number expected)
  · rintro rfl
    rfl

/-- What is shown for a page tells all that is said about it. -/
theorem reply_determines_the_download (download other : Download) :
    Reply.text (download.text clock url) = .text (other.text clock url) ↔ other = download := by
  rw [Reply.text.injEq, text_determines_the_download, eq_comm]

end Download

/-- What is shown of the echoes of a host that has the address. -/
def echo (setting : Setting) (host : String) (address : Address) : String :=
  "\n".intercalate (echoLines host address (min (max setting.config.pingCount 1) Config.maxPingCount))

/-- The echoes of a host show its address, and no other one. -/
theorem echo_determines_the_address {setting : Setting} {host : String} {address other : Address} :
    echo setting host address = echo setting host other ↔ address = other := by
  -- The address stands behind the host, which is the same in both, and the bracket ends it.
  have begins : ∀ address, ∃ rest, (echo setting host address).toList =
      "PING ".toList ++ host.toList ++ " (".toList ++ (address.text.toList ++ ')' :: rest) := by
    intro address
    obtain ⟨others, filled, lines⟩ : ∃ others, others ≠ [] ∧ echo setting host address =
        "\n".intercalate (s!"PING {host} ({address.text}) 56(84) bytes of data." :: others) :=
      ⟨_, List.append_ne_nil_of_right_ne_nil _ (List.cons_ne_nil _ _), rfl⟩
    obtain ⟨second, rest, rfl⟩ := List.exists_cons_of_ne_nil filled
    refine ⟨" 56(84) bytes of data.\n".toList ++ ("\n".intercalate (second :: rest)).toList, ?_⟩
    rw [lines]
    simp [toString]
  constructor
  · intro same
    obtain ⟨rest, one⟩ := begins address
    obtain ⟨rest', another⟩ := begins other
    rw [same, another, List.append_cancel_left_eq] at one
    have no_bracket : ∀ address : Address, ')' ∉ address.text.toList := fun address =>
      other_character_is_not_in_a_name (by decide) (address_text_is_a_name address)
    obtain ⟨text, -⟩ := Text.text_up_to_separator (no_bracket _) (no_bracket _) one
    exact (Address.text_determines_the_address (String.toList_injective text)).symm
  · rintro rfl
    rfl

/-- Whether a page is the one that a URL leads to. -/
structure Page.Serves (page : Page) (url : String) : Prop where
  parsed : PageUrl.parse url = some page.url
  resolved : resolve? page.url.host = some page.address

namespace Page

variable {page : Page} {url : String}

theorem Serves.fetched (serves : page.Serves url) (command : String) : fetch command url = .ok page := by
  unfold fetch
  simp only [serves.parsed, serves.resolved]

/-- A URL leads to a page, or it is refused for a reason that does not depend on the command. -/
theorem serves_or_refused (url : String) : (∃ page : Page, page.Serves url) ∨
    ∃ (fault : String → Error) (rest : String), ∀ command,
      fetch command url = .error (fault command) ∧ (fault command).message = command ++ rest := by
  unfold fetch
  cases parsed : PageUrl.parse url with
  | none =>
    refine .inr ⟨(.malformedUrl · url), ": URL using bad/illegal format: " ++ url, fun command => ⟨rfl, ?_⟩⟩
    have message : (Error.malformedUrl command url).message =
        s!"{command}: URL using bad/illegal format: {url}" := rfl
    rw [message]
    simp [toString, String.append_assoc]
  | some parts =>
    cases resolved : resolve? parts.host with
    | none =>
      refine .inr ⟨(.unresolvedHost · parts.host), ": could not resolve host: " ++ parts.host,
        fun command => ⟨?_, ?_⟩⟩
      · simp only [resolved]
      · have message : (Error.unresolvedHost command parts.host).message =
            s!"{command}: could not resolve host: {parts.host}" := rfl
        rw [message]
        simp [toString, String.append_assoc]
    | some address => exact .inl ⟨⟨parts, address⟩, parsed, resolved⟩

/-- A name that resolves leads to the page at the root of its host. -/
theorem root_serves {host : String} {address : Address} (resolved : resolve? host = some address) :
    Serves ⟨⟨false, host, none, "/"⟩, address⟩ host :=
  ⟨host_name_is_the_url_of_its_root ((resolves_iff_host_name host).mp ⟨address, resolved⟩), resolved⟩

theorem Serves.named (serves : page.Serves url) : IsHostName page.url.host :=
  (resolves_iff_host_name _).mp ⟨page.address, serves.resolved⟩

theorem Serves.flat (serves : page.Serves url) (word : IsWord url) : '\n' ∉ page.fileName.toList := by
  intro inside
  obtain ⟨begins, characters⟩ := path_begins_with_an_end serves.parsed
  by_cases other : page.fileName = "index.html"
  · rw [other] at inside
    exact absurd inside (by decide)
  · obtain ⟨-, ⟨front, rest, path, -⟩, -⟩ := file_name_is_a_last_segment begins other
    have in_path : '\n' ∈ page.url.path.toList := by
      rw [path]
      simp [inside]
    rcases characters '\n' in_path with slash | in_url
    · exact absurd slash (by decide)
    · exact Text.word_is_flat word in_url

/-- What is told of a page that is saved. -/
def download (page : Page) (serves : page.Serves url) (word : IsWord url) : Download where
  host := page.url.host
  address := page.address
  port := page.url.port
  file := page.fileName
  announced := page.body.utf8ByteSize
  transferred := page.body.utf8ByteSize
  saved := page.body.utf8ByteSize
  expected := page.body.utf8ByteSize
  named := serves.named
  flat := serves.flat word

/-- The transcript of a page is that of its download, so that both can be compared line by line. -/
theorem transcript_tells_of_the_download (serves : page.Serves url) (word : IsWord url) (clock : String) :
    page.transcript url clock = (page.download serves word).text clock url := by
  simp only [transcript, Download.text, Download.inner, download, List.cons_append, List.nil_append]

end Page

section Answers

variable {registry : Registry} {setting : Setting} {world : World} {host token : String} {page : Page}

theorem commands_are_named : ∀ command ∈ commands,
    IsWord command.name ∧ command.name ≠ Registry.helpManual.name := by
  decide

theorem command_answers {command : Command} (offers : registry.Offers commands) (member : command ∈ commands)
    (word : IsWord token) :
    registry.answer? setting world s!"{command.name} {token}" = some (command.run setting world [token]).1 := by
  obtain ⟨named, other⟩ := commands_are_named command member
  exact Registry.answer_of_the_command offers member named other word

theorem host_name_is_word (name : IsHostName host) : IsWord host := by
  have filled : host.toList ≠ [] := by
    rintro empty
    have size := name.size.1
    rw [String.toList_eq_nil_iff.mp empty] at size
    exact absurd size (by decide)
  refine Text.word_of_plain_characters filled fun c member => ?_
  rcases characters_of_a_name name c member with letter | rfl | rfl
  · simp [Text.isPlain, letter]
  · rfl
  · rfl

theorem ping_answers (offers : registry.Offers commands) (word : IsWord host) :
    registry.answer? setting world s!"ping {host}" =
      some ((resolve? host).elim (.error (.unknownHost host)) fun address =>
        .ok (.text (echo setting host address))) := by
  have member : ping ∈ commands := by simp [commands]
  refine (command_answers offers member word).trans ?_
  have parsed : pingManual.oneArgument [host] = .ok host := rfl
  simp only [ping, Command.reading, parsed]
  cases resolve? host <;> rfl

theorem curl_answers (offers : registry.Offers commands) (word : IsWord token) :
    registry.answer? setting world s!"curl {token}" =
      some ((Page.fetch "curl" token).map fun page => .text page.body) := by
  have member : curl ∈ commands := by simp [commands]
  refine (command_answers offers member word).trans ?_
  have parsed : curlManual.oneArgument [token] = .ok token := rfl
  simp only [curl, Command.reading, parsed]
  rfl

theorem wget_answers (offers : registry.Offers commands) (word : IsWord token) :
    registry.answer? setting world s!"wget {token}" =
      some ((Page.fetch "wget" token).map fun page => .text (page.transcript token setting.clock)) := by
  have member : wget ∈ commands := by simp [commands]
  refine (command_answers offers member word).trans ?_
  have parsed : wgetManual.oneArgument [token] = .ok token := rfl
  simp only [wget, Command.reading, parsed]
  rfl

theorem page_is_shown (offers : registry.Offers commands) (word : IsWord token) (serves : page.Serves token) :
    registry.answer? setting world s!"curl {token}" = some (.ok (.text page.body)) := by
  rw [curl_answers offers word, serves.fetched]
  rfl

theorem page_is_saved (offers : registry.Offers commands) (word : IsWord token) (serves : page.Serves token) :
    registry.answer? setting world s!"wget {token}" =
      some (.ok (.text ((page.download serves word).text setting.clock token))) := by
  rw [wget_answers offers word, serves.fetched, ← Page.transcript_tells_of_the_download]
  rfl

theorem echo_shows_an_address (offers : registry.Offers commands) (word : IsWord host) {echoed : Reply}
    (answered : registry.answer? setting world s!"ping {host}" = some (.ok echoed)) :
    ∃ address, resolve? host = some address ∧ echoed = .text (echo setting host address) := by
  rw [ping_answers offers word] at answered
  cases resolved : resolve? host with
  | none =>
    rw [resolved] at answered
    cases answered
  | some address =>
    rw [resolved] at answered
    cases answered
    exact ⟨address, rfl, rfl⟩

/-- Whatever is told of a URL is the download of some page that serves it. -/
theorem download_is_of_a_page (offers : registry.Offers commands) (word : IsWord token) {saved : Reply}
    (answered : registry.answer? setting world s!"wget {token}" = some (.ok saved)) :
    ∃ (page : Page) (serves : page.Serves token),
      saved = .text ((page.download serves word).text setting.clock token) := by
  rcases Page.serves_or_refused token with ⟨page, serves⟩ | ⟨fault, rest, refused⟩
  · rw [page_is_saved offers word serves] at answered
    cases answered
    exact ⟨page, serves, rfl⟩
  · rw [wget_answers offers word, (refused "wget").1] at answered
    cases answered

end Answers

/-- A host has an address exactly if it is a name, and texts that are read as addresses are names. An address
in dotted decimal has itself as its address, so that one that is shown can be used in turn, and is shown
again. -/
theorem shown_addresses_can_be_used (registry : Registry) (offers : registry.Offers Host.commands)
    (setting : Setting)
    (world : World) :
    let answer (command token : String) := registry.answer? setting world s!"{command} {token}"
    (∀ host, (∃ address, resolve? host = some address) ↔ IsHostName host) ∧
    (∀ text address, Address.ofText? text = some address → IsHostName text) ∧
    (∀ host address, resolve? host = some address → resolve? address.text = some address) ∧
    ∀ address : Address,
      answer "ping" address.text = some (.ok (.text (echo setting address.text address))) ∧
      ∃ download : Download,
        answer "wget" address.text = some (.ok (.text (download.text setting.clock address.text))) ∧
          download.host = address.text ∧ download.address = address := by
  intro answer
  refine ⟨resolves_iff_host_name, fun text address read => ?_,
    fun _ address _ => address_resolves_to_itself address, fun address => ?_⟩
  · rw [Address.address_is_read_iff_written.mp read]
    exact address_text_is_a_name address
  · have word : IsWord address.text := host_name_is_word (address_text_is_a_name address)
    have resolved := address_resolves_to_itself address
    refine ⟨(ping_answers offers word).trans ?_, _,
      page_is_saved offers word (Page.root_serves resolved), rfl, rfl⟩
    rw [resolved]
    rfl

/-- `localhost` is shown with an address under which it can be reached. -/
theorem address_of_the_own_host_can_be_used :
    let registry := ({} : Registry).registerAll Host.commands
    let setting : Setting := ⟨{}, "08:00"⟩
    let answer (command token : String) := registry.answer? setting (.ofSeed 0) s!"{command} {token}"
    registry.Offers Host.commands ∧ IsHostName "localhost" ∧ resolve? "127.0.0.1" = some .loopback ∧
      answer "ping" "localhost" = some (.ok (.text (echo setting "localhost" .loopback))) ∧
      answer "ping" "127.0.0.1" = some (.ok (.text (echo setting "127.0.0.1" .loopback))) := by
  intro registry setting answer
  have offers : registry.Offers Host.commands := Registry.registered_commands_are_offered {} (by decide)
  have own : resolve? "localhost" = some .loopback := by decide
  obtain ⟨names, -, again, shown⟩ := shown_addresses_can_be_used registry offers setting (.ofSeed 0)
  refine ⟨offers, (names "localhost").mp ⟨_, own⟩, again "localhost" .loopback own, ?_, (shown .loopback).1⟩
  exact (ping_answers offers (by decide)).trans (by rw [own]; rfl)

/-- For every URL either `curl` and `wget` both succeed, or both refuse it in words that differ in the name of
the command alone. If they succeed, all lengths that are told of the download are that of what `curl` shows in
bytes. They succeed for every host that `ping` finds, and the download comes from the address that the echoes
show. -/
theorem network_commands_agree (registry : Registry) (offers : registry.Offers Host.commands) (setting : Setting)
    (world : World) (token : String) (word : IsWord token) :
    let answer (command : String) := registry.answer? setting world s!"{command} {token}"
    ((∃ page saved, answer "curl" = some (.ok page) ∧ answer "wget" = some (.ok saved) ∧ ∃ download : Download,
        (∀ other : Download, saved = .text (other.text setting.clock token) ↔ other = download) ∧
          ∀ length ∈ download.lengths, length = page.rendered.utf8ByteSize) ∨
      ∃ e e' rest, answer "curl" = some (.error e) ∧ answer "wget" = some (.error e') ∧
        e.message = "curl" ++ rest ∧ e'.message = "wget" ++ rest) ∧
    ∀ echoed, answer "ping" = some (.ok echoed) → ∃ page saved, answer "curl" = some (.ok page) ∧
      answer "wget" = some (.ok saved) ∧ ∃ (address : Address) (download : Download),
        (∀ other, echoed = .text (echo setting token other) ↔ other = address) ∧
        (∀ other : Download, saved = .text (other.text setting.clock token) ↔ other = download) ∧
        download.address = address := by
  intro answer
  refine ⟨?_, fun echoed answered => ?_⟩
  · rcases Page.serves_or_refused token with ⟨page, serves⟩ | ⟨fault, rest, refused⟩
    · refine .inl ⟨_, _, page_is_shown offers word serves, page_is_saved offers word serves, _,
        Download.reply_determines_the_download _, ?_⟩
      simp [Download.lengths, Page.download, Reply.rendered]
    · obtain ⟨no_page, shown⟩ := refused "curl"
      obtain ⟨no_file, saved⟩ := refused "wget"
      refine .inr ⟨fault "curl", fault "wget", rest, ?_, ?_, shown, saved⟩
      · exact (curl_answers offers word).trans (by rw [no_page]; rfl)
      · exact (wget_answers offers word).trans (by rw [no_file]; rfl)
  · obtain ⟨address, resolved, rfl⟩ := echo_shows_an_address offers word answered
    have serves := Page.root_serves resolved
    refine ⟨_, _, page_is_shown offers word serves, page_is_saved offers word serves, address, _, fun other => ?_,
      Download.reply_determines_the_download _, rfl⟩
    rw [Reply.text.injEq, echo_determines_the_address, eq_comm]

/-- The host is an address, so that `ping` finds it. -/
theorem network_commands_agree_about_an_address :
    let registry := ({} : Registry).registerAll Host.commands
    let setting : Setting := ⟨{ pingCount := 1 }, "08:00"⟩
    let answer (command token : String) := registry.answer? setting (.ofSeed 0) s!"{command} {token}"
    registry.Offers Host.commands ∧ IsWord "10.0.0.7" ∧
      answer "ping" "10.0.0.7" = some (.ok (.text (echo setting "10.0.0.7" ⟨10, 0, 0, 7⟩))) ∧
      ∃ page saved, answer "curl" "10.0.0.7" = some (.ok page) ∧ answer "wget" "10.0.0.7" = some (.ok saved) ∧
        ∃ download : Download,
          (∀ other : Download, saved = .text (other.text "08:00" "10.0.0.7") ↔ other = download) ∧
            download.address = ⟨10, 0, 0, 7⟩ := by
  intro registry setting answer
  have offers : registry.Offers Host.commands := Registry.registered_commands_are_offered {} (by decide)
  have word : IsWord "10.0.0.7" := by decide
  have resolved : resolve? "10.0.0.7" = some ⟨10, 0, 0, 7⟩ := by decide
  have echoes : answer "ping" "10.0.0.7" = some (.ok (.text (echo setting "10.0.0.7" ⟨10, 0, 0, 7⟩))) :=
    (ping_answers offers word).trans (by rw [resolved]; rfl)
  obtain ⟨-, reached⟩ := network_commands_agree registry offers setting (.ofSeed 0) "10.0.0.7" word
  obtain ⟨page, saved, shown, stored, address, download, echoed, told, same⟩ := reached _ echoes
  refine ⟨offers, word, echoes, page, saved, shown, stored, download, told, ?_⟩
  rw [same]
  exact ((echoed _).mp rfl).symm

/-- The file of a download has a name without slashes, question marks and hashes, and not an empty one. It is
the last segment of the path in the URL, unless that is empty. So it may also be `.` or `..`, and is just
where these are the last segment. -/
theorem saved_file_is_named_by_the_path (registry : Registry) (offers : registry.Offers Host.commands)
    (setting : Setting) (world : World) (token : String) (word : IsWord token) (saved : Reply)
    (answered : registry.answer? setting world s!"wget {token}" = some (.ok saved)) :
    ∃ (url : PageUrl) (download : Download), PageUrl.parse token = some url ∧
      (∀ other : Download, saved = .text (other.text setting.clock token) ↔ other = download) ∧
      download.file ≠ "" ∧ (∀ c ∈ download.file.toList, c ≠ '/' ∧ c ≠ '?' ∧ c ≠ '#') ∧
      ∀ name, name ≠ "index.html" → (download.file = name ↔ name ≠ "" ∧ IsLastSegment name url.path) := by
  obtain ⟨page, serves, rfl⟩ := download_is_of_a_page offers word answered
  have begins := (path_begins_with_an_end serves.parsed).1
  have named : ∀ name, name ≠ "index.html" →
      (page.fileName = name ↔ name ≠ "" ∧ IsLastSegment name page.url.path) := by
    intro name other
    constructor
    · rintro rfl
      exact file_name_is_a_last_segment begins other
    · rintro ⟨filled, last⟩
      exact file_is_named_by_the_last_segment last filled
  obtain ⟨filled, clear⟩ := file_name_is_clear begins
  refine ⟨page.url, page.download serves word, serves.parsed,
    Download.reply_determines_the_download _, filled, ?_, named⟩
  intro c member
  simpa [PageUrl.isHostEnd, and_assoc] using clear c member

/-- The query does not count, although it holds slashes. -/
theorem file_of_a_page_with_a_query :
    let registry := ({} : Registry).registerAll Host.commands
    let setting : Setting := ⟨{}, "08:00"⟩
    let answer (command token : String) := registry.answer? setting (.ofSeed 0) s!"{command} {token}"
    let token := "http://10.0.0.7:8080/docs/report.txt?page=/a/b"
    registry.Offers Host.commands ∧ IsWord token ∧ ∃ saved, answer "wget" token = some (.ok saved) ∧
      ∃ download : Download, (∀ other : Download, saved = .text (other.text "08:00" token) ↔ other = download) ∧
        download.file = "report.txt" := by
  intro registry setting answer token
  have offers : registry.Offers Host.commands := Registry.registered_commands_are_offered {} (by decide)
  have word : IsWord token := by decide
  have parsed : PageUrl.parse token =
      some ⟨false, "10.0.0.7", some 8080, "/docs/report.txt?page=/a/b"⟩ := by decide
  have serves : Page.Serves ⟨_, ⟨10, 0, 0, 7⟩⟩ token := ⟨parsed, by decide⟩
  have answered : answer "wget" token = _ := page_is_saved offers word serves
  obtain ⟨url, download, same, told, -, -, named⟩ :=
    saved_file_is_named_by_the_path registry offers setting (.ofSeed 0) token word _ answered
  obtain rfl := Option.some.inj (parsed.symm.trans same)
  refine ⟨offers, word, _, answered, download, told, (named "report.txt" (by decide)).mpr ⟨by decide, ?_⟩⟩
  exact ⟨⟨"/docs", "?page=/a/b", by decide, by simp [isPathEnd], by simp [isPathEnd]⟩, by simp [PageUrl.isHostEnd]⟩

/-- The last segment may be that of the directory above. -/
theorem page_may_be_saved_as_the_directory_above :
    let registry := ({} : Registry).registerAll Host.commands
    let setting : Setting := ⟨{}, "08:00"⟩
    let answer (command token : String) := registry.answer? setting (.ofSeed 0) s!"{command} {token}"
    ∃ saved, answer "wget" "http://10.0.0.7/.." = some (.ok (.text saved)) ∧
      "Saving to: '..'" ∈ Text.lines saved := by
  intro registry setting answer
  have offers : registry.Offers Host.commands := Registry.registered_commands_are_offered {} (by decide)
  have serves : Page.Serves ⟨⟨false, "10.0.0.7", none, "/.."⟩, ⟨10, 0, 0, 7⟩⟩ "http://10.0.0.7/.." :=
    ⟨by decide, by decide⟩
  exact ⟨_, page_is_saved offers (by decide) serves,
    Download.file_is_told (Page.download _ serves (by decide)) _ _⟩

end Host

end CloudTerminal
