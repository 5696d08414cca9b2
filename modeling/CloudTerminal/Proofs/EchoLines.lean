import CloudTerminal.Host.Commands
import CloudTerminal.Proofs.HomeListing
import CloudTerminal.Proofs.HostNames

/-!
The lines that `ping` shows. No host that has an address brings a line feed with it, and neither do the
numerals and the times, so that the text falls into the lines that it was put together from
(`lines_of_echoes`). There is one of them for each echo request, numbered from one on, and five others
(`EchoesTold`), however many requests the settings ask for.
-/

namespace CloudTerminal

/-- A numeral with so many places behind the point. -/
def IsDecimal (places : Nat) (text : String) : Prop :=
  ∃ (whole : Nat) (fraction : List Char), text = toString whole ++ "." ++ String.ofList fraction ∧
    fraction.length = places ∧ ∀ c ∈ fraction, c.isDigit = true

/-- A number that is shown with a fixed count of decimal places is written in digits, with a point before the
last of them. -/
theorem fixed_is_decimal (places : Nat) (x : Float) : IsDecimal places (Decimal.fixed places x) := by
  refine ⟨_, _, rfl, Text.length_paddedDigits 10 places _, ?_⟩
  generalize Decimal.roundHalfEven _ _ = units
  induction places generalizing units with
  | zero => simp [Text.paddedDigits]
  | succ places ih =>
    rw [Text.paddedDigits]
    refine List.forall_mem_append.mpr ⟨ih _, List.forall_mem_singleton.mpr ?_⟩
    simpa using Nat.mod_lt units (by decide : 10 > 0)

theorem numeral_is_flat (n : Nat) : '\n' ∉ Nat.toDigits 10 n := fun inside =>
  absurd (Nat.isDigit_of_mem_toDigits (by decide) (by decide) inside) (by decide)

theorem decimal_is_flat {places : Nat} {text : String} (decimal : IsDecimal places text) : '\n' ∉ text.toList := by
  obtain ⟨whole, fraction, rfl, -, digits⟩ := decimal
  have places : '\n' ∉ fraction := fun inside => absurd (digits '\n' inside) (by decide)
  simp [numeral_is_flat, places]

namespace Host

/-- The time to live of an answer, which tells whether it comes from the own host. -/
def ttl (address : Address) : Nat := if address.first = 127 then 64 else 117

/-- What is told of the echoes of a host, line by line: how many requests are sent and where to, one answer
after the other, and the sums. -/
structure EchoesTold (host : String) (address : Address) (count : Nat) (lines : List String) : Prop where
  length : lines.length = count + 5
  header : lines[0]? = some s!"PING {host} ({address.text}) 56(84) bytes of data."
  replies : ∀ number, 1 ≤ number → number ≤ count → ∃ time, IsDecimal 1 time ∧
    lines[number]? = some (s!"64 bytes from {host} ({address.text}): icmp_seq={number} ttl={ttl address} " ++
      s!"time={time} ms")
  gap : lines[count + 1]? = some ""
  title : lines[count + 2]? = some s!"--- {host} ping statistics ---"
  counts : lines[count + 3]? =
    some s!"{count} packets transmitted, {count} received, 0% packet loss, time {(count - 1) * 1000}ms"
  times : ∃ least mean greatest deviation, (∀ time ∈ [least, mean, greatest, deviation], IsDecimal 3 time) ∧
    lines[count + 4]? = some s!"rtt min/avg/max/mdev = {least}/{mean}/{greatest}/{deviation} ms"

variable {host : String} {address : Address} {count : Nat}

/-- The lines behind the answers. -/
def echoSums (host : String) (count : Nat) (least mean greatest deviation : String) : List String := [
  "",
  s!"--- {host} ping statistics ---",
  s!"{count} packets transmitted, {count} received, 0% packet loss, time {(count - 1) * 1000}ms",
  s!"rtt min/avg/max/mdev = {least}/{mean}/{greatest}/{deviation} ms"]

/-- The lines in their order: one that names the host and its address, one for each echo, and the sums. -/
theorem echo_lines_in_parts (host : String) (address : Address) (count : Nat) :
    ∃ least mean greatest deviation, (∀ time ∈ [least, mean, greatest, deviation], IsDecimal 3 time) ∧
      echoLines host address count = s!"PING {host} ({address.text}) 56(84) bytes of data." ::
        ((List.range' 1 count).map (replyLine host address) ++
          echoSums host count least mean greatest deviation) := by
  let statistics := Statistics.ofTimes ((List.range' 1 count).map (latency host address))
  refine ⟨Decimal.fixed 3 statistics.least, Decimal.fixed 3 statistics.mean, Decimal.fixed 3 statistics.greatest,
    Decimal.fixed 3 statistics.deviation, ?_, ?_⟩
  · simp [fixed_is_decimal]
  · have joined : ∀ a b c d : String, "rtt min/avg/max/mdev = " ++ "/".intercalate [a, b, c, d] ++ " ms" =
        s!"rtt min/avg/max/mdev = {a}/{b}/{c}/{d} ms" := fun a b c d => by
      rw [← String.toList_inj]
      simp [toString]
    rw [echoSums, ← joined, echoLines, List.cons_append]
    rfl

theorem echo_lines_are_flat (named : IsHostName host) :
    ∀ line ∈ echoLines host address count, '\n' ∉ line.toList := by
  have flat_host : '\n' ∉ host.toList := other_character_is_not_in_a_name (by decide) named
  have flat_address : '\n' ∉ address.text.toList :=
    other_character_is_not_in_a_name (by decide) (address_text_is_a_name address)
  obtain ⟨least, mean, greatest, deviation, decimal, parts⟩ := echo_lines_in_parts host address count
  have flat_sums : ∀ time ∈ [least, mean, greatest, deviation], '\n' ∉ time.toList := fun time member =>
    decimal_is_flat (decimal time member)
  rw [parts, List.forall_mem_cons, List.forall_mem_append, List.forall_mem_map]
  refine ⟨?header, fun number _ => ?reply, ?sums⟩
  case header => simp [toString, flat_host, flat_address]
  case reply =>
    have flat := decimal_is_flat (fixed_is_decimal 1 (latency host address number))
    unfold replyLine
    generalize Decimal.fixed 1 (latency host address number) = time at flat ⊢
    simp [toString, flat_host, flat_address, flat, numeral_is_flat]
  case sums => simp_all [echoSums, toString, numeral_is_flat]

theorem lines_of_echoes (named : IsHostName host) :
    Text.lines ("\n".intercalate (echoLines host address count)) = echoLines host address count := by
  have alone : ∀ line ∈ echoLines host address count, Text.lines line = [line] := fun line member =>
    Text.lines_of_flat (echo_lines_are_flat named line member)
  have filled : echoLines host address count ≠ [] := List.cons_ne_nil _ _
  rw [Text.lines_of_joined filled, List.flatMap_congr alone, List.flatMap_singleton']

/-- The lines are what has to be told of so many echoes, whatever times are measured. -/
theorem echoes_are_told (host : String) (address : Address) (count : Nat) :
    EchoesTold host address count (echoLines host address count) := by
  obtain ⟨least, mean, greatest, deviation, decimal, parts⟩ := echo_lines_in_parts host address count
  rw [parts]
  have answers : ((List.range' 1 count).map (replyLine host address)).length = count := by simp
  have behind : ∀ place, ((List.range' 1 count).map (replyLine host address) ++
      echoSums host count least mean greatest deviation)[count + place]? =
        (echoSums host count least mean greatest deviation)[place]? := fun place => by
    rw [List.getElem?_append_right (by omega), answers, Nat.add_sub_cancel_left]
  constructor
  case length => simp [echoSums]
  case header => rfl
  case replies =>
    intro number first last
    refine ⟨_, fixed_is_decimal 1 (latency host address number), ?_⟩
    obtain ⟨before, rfl⟩ := Nat.exists_eq_add_of_le' first
    have asked : (List.range' 1 count)[before]? = some (before + 1) := by
      rw [List.getElem?_range' last, Nat.one_mul, Nat.add_comm]
    have lives : timeToLive address = ttl address := by simp [timeToLive, Address.isLoopback, ttl]
    rw [List.getElem?_cons_succ, List.getElem?_append_left (by omega), List.getElem?_map, asked, Option.map_some]
    unfold replyLine
    rw [lives]
  case gap => exact behind 0
  case title => exact behind 1
  case counts => exact behind 2
  case times => exact ⟨least, mean, greatest, deviation, decimal, behind 3⟩

variable {setting : Setting} {world : World}

/-- What `ping` shows of a host that has an address. -/
theorem ping_of_resolved (setting : Setting) (world : World) (resolved : resolve? host = some address) :
    ping.run setting world [host] = (.ok (.text ("\n".intercalate
      (echoLines host address (min (max setting.config.pingCount 1) Config.maxPingCount)))), world) := by
  have parsed : pingManual.oneArgument [host] = .ok host := rfl
  simp only [ping, Command.reading, parsed, resolved]

theorem pinged_host_has_an_address {echoed : Reply} (answered : (ping.run setting world [host]).1 = .ok echoed) :
    ∃ address, resolve? host = some address := by
  have parsed : pingManual.oneArgument [host] = .ok host := rfl
  simp only [ping, Command.reading, parsed] at answered
  split at answered
  · cases answered
  · exact ⟨_, by assumption⟩

/-- A count that the settings allow is not cut down to a bound. -/
theorem checked_count_is_kept {config : Config} (checked : config.check = .ok ()) :
    min (max config.pingCount 1) Config.maxPingCount = config.pingCount := by
  obtain ⟨-, -, -, least, greatest⟩ := config.check_eq_ok_iff.mp checked
  omega

/-- Every host that is found is told of in the same lines. There are as many answers as the settings ask for,
but at least one and at most twenty, so that settings that have been checked get exactly what they ask for. -/
theorem echoes_are_numbered_from_one (setting : Setting) (world : World) (host : String) (echoed : Reply)
    (answered : (ping.run setting world [host]).1 = .ok echoed) :
    let count := min (max setting.config.pingCount 1) 20
    (setting.config.check = .ok () → count = setting.config.pingCount) ∧
      ∃ address, resolve? host = some address ∧ EchoesTold host address count (Text.lines echoed.rendered) := by
  intro count
  obtain ⟨address, resolved⟩ := pinged_host_has_an_address answered
  have named : IsHostName host := (resolves_iff_host_name host).mp ⟨address, resolved⟩
  rw [ping_of_resolved setting world resolved] at answered
  cases answered
  refine ⟨checked_count_is_kept, address, resolved, ?_⟩
  rw [Reply.rendered, lines_of_echoes named]
  exact echoes_are_told host address count

/-- The settings ask for more echoes than are sent. -/
theorem own_host_echoes_twenty_times :
    let setting : Setting := ⟨{ pingCount := 4294967295 }, "08:00"⟩
    ∃ echoed, (ping.run setting (.ofSeed 0) ["localhost"]).1 = .ok echoed ∧
      EchoesTold "localhost" .loopback 20 (Text.lines echoed.rendered) := by
  intro setting
  have own : resolve? "localhost" = some .loopback := by decide
  have answered := congrArg Prod.fst (ping_of_resolved setting (.ofSeed 0) own)
  obtain ⟨-, address, resolved, told⟩ := echoes_are_numbered_from_one setting (.ofSeed 0) "localhost" _ answered
  obtain rfl := Option.some.inj (own.symm.trans resolved)
  exact ⟨_, answered, told⟩

end Host

end CloudTerminal
