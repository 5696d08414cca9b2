import CloudTerminal.Decimal.FixedPlaces
import CloudTerminal.Host.Address

/-!
Echo requests to simulated hosts, with round-trip times that the digest of the host's name decides.
-/

namespace CloudTerminal.Host

/-- `latency_ms`: the round-trip time of an echo request in milliseconds, by its number. -/
def latency (host : String) (address : Address) (number : Nat) : Float :=
  if address.isLoopback then 0.03 + (number % 4).toFloat * 0.01
  else
    let digest := Digest.ofText host
    let base := 5 + (Digest.pairAt digest 4 % 80).toFloat
    base + (Digest.byteAt digest (6 + number % 20)).toNat.toFloat / 64

/-- The least, the mean and the greatest of some times, and their mean deviation. -/
structure Statistics where
  least : Float
  mean : Float
  greatest : Float
  deviation : Float

/-- The sum of some numbers, added from left to right. -/
def total (numbers : List Float) : Float := numbers.foldl (· + ·) 0

/-- The statistics of a list of times. -/
def Statistics.ofTimes (times : List Float) : Statistics :=
  let count := times.length.toFloat
  let mean := total times / count
  { least := times.foldl min (1 / 0)
    mean
    greatest := times.foldl max (-1 / 0)
    deviation := ((total (times.map fun time => (time - mean) * (time - mean))) / count).sqrt }

/-- The number of hops that an answer still may pass when it arrives. -/
def timeToLive (address : Address) : Nat := if address.isLoopback then 64 else 117

/-- What is shown of one answer. -/
def replyLine (host : String) (address : Address) (number : Nat) : String :=
  s!"64 bytes from {host} ({address.text}): icmp_seq={number} ttl={timeToLive address} " ++
    s!"time={Decimal.fixed 1 (latency host address number)} ms"

/-- What is shown of `count` echo requests to a host. -/
def echoLines (host : String) (address : Address) (count : Nat) : List String :=
  let numbers := List.range' 1 count
  let statistics := Statistics.ofTimes (numbers.map (latency host address))
  let rtt := [statistics.least, statistics.mean, statistics.greatest, statistics.deviation]
  s!"PING {host} ({address.text}) 56(84) bytes of data." ::
    numbers.map (replyLine host address) ++
    ["", s!"--- {host} ping statistics ---",
      s!"{count} packets transmitted, {count} received, 0% packet loss, time {(count - 1) * 1000}ms",
      "rtt min/avg/max/mdev = " ++ "/".intercalate (rtt.map (Decimal.fixed 3)) ++ " ms"]

end CloudTerminal.Host
