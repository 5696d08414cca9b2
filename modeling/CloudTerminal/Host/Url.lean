import CloudTerminal.Text.Numeral
import CloudTerminal.Text.Split

/-!
The URLs of pages: `[http[s]://][user@]host[:port][path]`. Without a scheme the transfer is not secure, and
without a path the page at the root is meant.
-/

namespace CloudTerminal.Host

/-- `Url`: what a URL says about a page. -/
structure PageUrl where
  secure : Bool
  host : String
  port? : Option Nat
  path : String
  deriving DecidableEq

namespace PageUrl

/-- Whether a character ends the host of a URL. -/
def isHostEnd (c : Char) : Bool := c == '/' || c == '?' || c == '#'

/-- Reads a port, a number from 1 to 65535. -/
def readPort? (text : List Char) : Option Nat :=
  match Text.readUnsigned? text with
  | some port => if 1 ≤ port ∧ port < 65536 then some port else none
  | none => none

/-- Takes the scheme off a URL, and tells whether it is the secure one. -/
def cutScheme (url : List Char) : Bool × List Char :=
  match "https://".toList.isPrefixOf? url with
  | some rest => (true, rest)
  | none => (false, ("http://".toList.isPrefixOf? url).getD url)

/-- `split_url`: reads a URL. It is malformed only if it has a port that is none. -/
def parse (url : String) : Option PageUrl :=
  let (secure, rest) := cutScheme url.toList
  let authority := Text.beforeFirst isHostEnd rest
  let path := rest.drop authority.length
  let path := if path.isEmpty then "/" else String.ofList path
  let hostAndPort := Text.afterLast (· == '@') authority
  match Text.cutLast (· == ':') hostAndPort with
  | none => some { secure, host := String.ofList hostAndPort, port? := none, path }
  | some (host, port) =>
    (readPort? port).map fun port => { secure, host := String.ofList host, port? := some port, path }

/-- `Url::port_or_default`, the port of the page: the one in the URL, or that of the scheme. -/
def port (url : PageUrl) : Nat := url.port?.getD (if url.secure then 443 else 80)

end PageUrl

end CloudTerminal.Host
