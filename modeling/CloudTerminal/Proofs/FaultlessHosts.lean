import CloudTerminal.Host.Commands
import CloudTerminal.Proofs.AddressBlocks
import CloudTerminal.Proofs.Faults

/-!
The commands about hosts with their limits looked at: the bytes of digests, the octets of addresses, the times
of echo requests and the places at which URLs are cut. None of them is ever at fault, and what they answer is
what the commands answer (`ping_is_faultless`, `curl_is_faultless`, `wget_is_faultless`).
-/

namespace CloudTerminal.Guarded

open Host

def octet (digest : Vector UInt8 32) (place : Nat) : Guarded UInt8 := item digest.toList place

/-- The first octet of the address that a digest decides, in eight bits. -/
def firstOctet (digest : Vector UInt8 32) : Guarded Nat := do
  let start ← sum UInt8.size 1 (← remainder (← octet digest 0).toNat 222)
  if start = 10 ∨ start = 127 then sum UInt8.size start 1 else .ok start

def addressOfDigest (digest : Vector UInt8 32) : Guarded Address := do
  return {
    first := (← firstOctet digest).toUInt8
    second := ← octet digest 1
    third := ← octet digest 2
    fourth := max (← octet digest 3) 1 }

def resolve? (host : String) : Guarded (Option Address) :=
  match Address.ofText? host with
  | some address => .ok (some address)
  | none =>
    if host = "localhost" then .ok (some .loopback)
    else if isName host then (addressOfDigest (Digest.ofText host)).map some
    else .ok none

def latency (host : String) (address : Address) (number : Nat) : Guarded Float :=
  if address.isLoopback then do
    return 0.03 + (← remainder number 4).toFloat * 0.01
  else do
    let digest := Digest.ofText host
    let pair := (← octet digest 4).toNat * 256 + (← octet digest 5).toNat
    let place ← sum USize.size 6 (← remainder number 20)
    return 5 + (← remainder pair 80).toFloat + (← octet digest place).toNat.toFloat / 64

/-- What is shown of an answer that came in some time. -/
def answerLine (host : String) (address : Address) (number : Nat) (time : Float) : String :=
  s!"64 bytes from {host} ({address.text}): icmp_seq={number} ttl={timeToLive address} " ++
    s!"time={Decimal.fixed 1 time} ms"

/-- What is shown of the answers to `count` echo requests. -/
def echoReport (host : String) (address : Address) (count : Nat) (times : List Float) (statistics : Statistics)
    (duration : Nat) : List String :=
  let rtt := [statistics.least, statistics.mean, statistics.greatest, statistics.deviation]
  s!"PING {host} ({address.text}) 56(84) bytes of data." ::
    List.zipWith (answerLine host address) (List.range' 1 count) times ++
    ["", s!"--- {host} ping statistics ---",
      s!"{count} packets transmitted, {count} received, 0% packet loss, time {duration}ms",
      "rtt min/avg/max/mdev = " ++ "/".intercalate (rtt.map (Decimal.fixed 3)) ++ " ms"]

/-- The statistics of some times, which are divided by their number. -/
def statisticsOf (times : List Float) : Guarded Statistics := do
  let _ ← divisor times.length
  return .ofTimes times

def echoLines (host : String) (address : Address) (count : Nat) : Guarded (List String) := do
  let times ← (List.range' 1 count).mapM (latency host address)
  let statistics ← statisticsOf times
  let duration ← product UInt32.size (count - 1) 1000
  return echoReport host address count times statistics duration

def ping (setting : Setting) (arguments : List String) : Guarded (Except Error Reply) := do
  match ← oneArgument pingManual arguments with
  | .error e => return .error e
  | .ok host =>
    match ← resolve? host with
    | none => return .error (.unknownHost host)
    | some address =>
      let count := min (max setting.config.pingCount 1) Config.maxPingCount
      return .ok (.text ("\n".intercalate (← echoLines host address count)))

/-- The host and the path of a URL without its scheme, cut at the first character that ends a host. -/
def authorityAndPath (rest : List Char) : Guarded (List Char × List Char) :=
  match rest.findIdx? PageUrl.isHostEnd with
  | none => .ok (rest, ['/'])
  | some place => do return (← piece rest 0 place, ← piece rest place rest.length)

def parseUrl (url : String) : Guarded (Option PageUrl) := do
  let secure := (PageUrl.cutScheme url.toList).1
  let parts ← authorityAndPath (PageUrl.cutScheme url.toList).2
  let path := String.ofList parts.2
  let hostAndPort := Text.afterLast (· == '@') parts.1
  match Text.cutLast (· == ':') hostAndPort with
  | none => return some { secure, host := String.ofList hostAndPort, port? := none, path }
  | some (host, port) =>
    return (PageUrl.readPort? port).map fun port =>
      { secure, host := String.ofList host, port? := some port, path }

def fetch (command url : String) : Guarded (Except Error Page) := do
  match ← parseUrl url with
  | none => return .error (.malformedUrl command url)
  | some parsed =>
    match ← resolve? parsed.host with
    | none => return .error (.unresolvedHost command parsed.host)
    | some address => return .ok { url := parsed, address }

def curl (arguments : List String) : Guarded (Except Error Reply) := do
  match ← oneArgument curlManual arguments with
  | .error e => return .error e
  | .ok url => return (← fetch curlManual.name url).map fun page => .text page.body

def wget (setting : Setting) (arguments : List String) : Guarded (Except Error Reply) := do
  match ← oneArgument wgetManual arguments with
  | .error e => return .error e
  | .ok url => return (← fetch wgetManual.name url).map fun page => .text (page.transcript url setting.clock)

section Addresses

variable (digest : Vector UInt8 32) (host : String) (address : Address) (number count : Nat)

theorem octet_inside {place : Nat} (inside : place < 32) :
    octet digest place = .ok (Digest.byteAt digest place) := by
  rw [octet, item_inside (by simpa using inside), Digest.byteAt_of_lt digest inside]
  simp

/-- The first octet stays within a byte also when it steps over a block. -/
theorem first_octet_fits : firstOctet digest = .ok (Host.addressOfDigest digest).first.toNat := by
  have below : (Digest.byteAt digest 0).toNat % 222 < 222 := Nat.mod_lt _ (by decide)
  rw [first_octet_of_digest digest, firstOctet, octet_inside digest (by decide), go_on,
    remainder_by_positive (by decide), go_on, sum_below (by simp only [UInt8.size]; omega), go_on,
    sum_below (by simp only [UInt8.size]; omega)]
  split <;> rfl

/-- No octet of an address is computed beyond a byte. -/
theorem address_is_faultless : addressOfDigest digest = .ok (Host.addressOfDigest digest) := by
  rw [addressOfDigest, first_octet_fits, go_on, octet_inside digest (by decide), go_on,
    octet_inside digest (by decide), go_on, octet_inside digest (by decide), go_on]
  simp [Host.addressOfDigest]

theorem resolving_is_faultless : resolve? host = .ok (Host.resolve? host) := by
  unfold resolve? Host.resolve?
  cases Address.ofText? host with
  | some address => rfl
  | none =>
    rw [address_is_faultless]
    dsimp only
    split
    · rfl
    · split <;> rfl

/-- The places in the digest that a latency is taken from are within it, however large the number of the echo
is. -/
theorem latency_is_faultless : latency host address number = .ok (Host.latency host address number) := by
  unfold latency Host.latency
  split
  · rw [remainder_by_positive (by decide)]
    rfl
  · have last : number % 20 < 20 := Nat.mod_lt _ (by decide)
    have wide : 4294967296 ≤ USize.size := USize.le_size
    have place : sum USize.size 6 (number % 20) = .ok (6 + number % 20) := sum_below (by omega)
    dsimp only
    rw [octet_inside _ (by decide), go_on, octet_inside _ (by decide), go_on, remainder_by_positive (by decide),
      go_on, place, go_on, remainder_by_positive (by decide), go_on, octet_inside _ (by omega)]
    rfl

end Addresses

section Echoes

variable (host : String) (address : Address) {count : Nat}

theorem answer_lines_of_their_times (numbers : List Nat) :
    List.zipWith (answerLine host address) numbers (numbers.map (Host.latency host address)) =
      numbers.map (replyLine host address) := by
  rw [List.zipWith_map_right, List.zipWith_self]
  refine List.map_congr_left fun number _ => ?_
  unfold answerLine replyLine
  rfl

theorem report_of_the_times (count : Nat) :
    echoReport host address count ((List.range' 1 count).map (Host.latency host address))
      (.ofTimes ((List.range' 1 count).map (Host.latency host address))) ((count - 1) * 1000) =
        Host.echoLines host address count := by
  unfold echoReport
  rw [answer_lines_of_their_times]
  rfl

/-- The times of at least one echo request and of not too many have a mean, and their number of milliseconds
fits. -/
theorem echoes_are_faultless (some_reply : 1 ≤ count) (few : count ≤ Config.maxPingCount) :
    echoLines host address count = .ok (Host.echoLines host address count) := by
  have times : (List.range' 1 count).mapM (latency host address) =
      .ok ((List.range' 1 count).map (Host.latency host address)) :=
    mapM_of_ok fun number _ => latency_is_faultless host address number
  have replies : 0 < ((List.range' 1 count).map (Host.latency host address)).length := by
    simpa [Nat.lt_iff_add_one_le] using some_reply
  have fits : (count - 1) * 1000 < UInt32.size := by
    simp only [Config.maxPingCount] at few
    simp only [UInt32.size]
    omega
  rw [echoLines, times, go_on, statisticsOf, divisor_of_positive replies, go_on, finish, go_on,
    product_below fits, go_on, report_of_the_times]
  rfl

theorem ping_is_faultless (setting : Setting) (world : World) (arguments : List String) :
    ping setting arguments = .ok (Host.ping.run setting world arguments).1 := by
  simp only [ping, Host.ping, Command.reading, one_argument_is_found, go_on]
  cases pingManual.oneArgument arguments with
  | error e => rfl
  | ok host =>
    simp only [resolving_is_faultless, go_on]
    cases Host.resolve? host with
    | none => rfl
    | some address =>
      have range : 1 ≤ min (max setting.config.pingCount 1) Config.maxPingCount := by
        simp only [Config.maxPingCount]
        omega
      simp only [echoes_are_faultless host address range (Nat.min_le_right _ _), go_on, finish]

end Echoes

section Pages

variable (url command : String) (arguments : List String)

/-- The first character that ends a host has a place. -/
theorem authority_and_path_are_pieces (rest : List Char) :
    authorityAndPath rest = .ok (Text.beforeFirst PageUrl.isHostEnd rest,
      if (rest.drop (Text.beforeFirst PageUrl.isHostEnd rest).length).isEmpty then ['/']
      else rest.drop (Text.beforeFirst PageUrl.isHostEnd rest).length) := by
  unfold authorityAndPath
  cases found : rest.findIdx? PageUrl.isHostEnd with
  | none =>
    have clear : ∀ c ∈ rest, PageUrl.isHostEnd c = false := List.findIdx?_eq_none_iff.mp found
    have whole : Text.beforeFirst PageUrl.isHostEnd (rest ++ []) = rest := Text.beforeFirst_append clear (by simp)
    rw [List.append_nil] at whole
    simp [whole]
  | some place =>
    obtain ⟨inside, ends, clear⟩ := List.findIdx?_eq_some_iff_getElem.mp found
    have front : Text.beforeFirst PageUrl.isHostEnd rest = rest.take place := by
      have before : ∀ c ∈ rest.take place, PageUrl.isHostEnd c = false := by
        intro c member
        obtain ⟨earlier, within, rfl⟩ := List.getElem_of_mem member
        rw [List.length_take] at within
        rw [List.getElem_take]
        simpa using clear earlier (by omega)
      have behind : ∀ c ∈ (rest.drop place).head?, PageUrl.isHostEnd c = true := by
        rw [List.drop_eq_getElem_cons inside]
        simpa only [List.head?_cons, Option.mem_def, Option.some.injEq, forall_eq'] using ends
      have cut := Text.beforeFirst_append before behind
      rwa [List.take_append_drop] at cut
    have length : (rest.take place).length = place := by
      rw [List.length_take]
      omega
    have filled : (rest.drop place).isEmpty = false := by
      simpa using inside
    have back : (rest.drop place).take (rest.length - place) = rest.drop place := List.take_of_length_le (by simp)
    dsimp only
    rw [piece_inside (Nat.zero_le place) (Nat.le_of_lt inside),
      piece_inside (Nat.le_of_lt inside) (Nat.le_refl _), go_on,
      go_on, front, length, filled, List.drop_zero, Nat.sub_zero, back]
    rfl

/-- A URL is cut at places that lie within it and in order. -/
theorem parsing_is_faultless : parseUrl url = .ok (PageUrl.parse url) := by
  unfold parseUrl PageUrl.parse
  generalize PageUrl.cutScheme url.toList = scheme
  obtain ⟨secure, rest⟩ := scheme
  dsimp only
  rw [authority_and_path_are_pieces, go_on]
  dsimp only
  rw [apply_ite String.ofList]
  generalize Text.cutLast _ _ = cut
  cases cut <;> rfl

theorem fetching_is_faultless : fetch command url = .ok (Page.fetch command url) := by
  unfold fetch Page.fetch
  rw [parsing_is_faultless, go_on]
  cases PageUrl.parse url with
  | none => rfl
  | some parsed =>
    dsimp only
    rw [resolving_is_faultless, go_on]
    cases Host.resolve? parsed.host <;> rfl

theorem curl_is_faultless (setting : Setting) (world : World) :
    curl arguments = .ok (Host.curl.run setting world arguments).1 := by
  simp only [curl, Host.curl, Command.reading, one_argument_is_found, go_on]
  cases curlManual.oneArgument arguments with
  | error e => rfl
  | ok url => simp only [fetching_is_faultless, go_on, finish]

theorem wget_is_faultless (setting : Setting) (world : World) :
    wget setting arguments = .ok (Host.wget.run setting world arguments).1 := by
  simp only [wget, Host.wget, Command.reading, one_argument_is_found, go_on]
  cases wgetManual.oneArgument arguments with
  | error e => rfl
  | ok url => simp only [fetching_is_faultless, go_on, finish]

end Pages

end CloudTerminal.Guarded
