import CloudTerminal.Command
import CloudTerminal.Host.Echo
import CloudTerminal.Host.Page

/-!
The commands about the simulated network.
-/

namespace CloudTerminal.Host

def pingManual : Manual where
  name := "ping"
  summary := "Send ICMP echo requests to a host"
  usage := "ping <host>"
  category := "network"

/-- `PingCmd`: sends as many echo requests as the settings say, at least one and at most as many as are
allowed. -/
def ping : Command := .reading pingManual fun setting _ arguments =>
  match pingManual.oneArgument arguments with
  | .error e => .error e
  | .ok host =>
    match resolve? host with
    | none => .error (.unknownHost host)
    | some address =>
      let count := min (max setting.config.pingCount 1) Config.maxPingCount
      .ok (.text ("\n".intercalate (echoLines host address count)))

def ifconfigManual : Manual where
  name := "ifconfig"
  summary := "Show network interfaces"
  usage := "ifconfig"
  category := "network"

/-- `IFCONFIG_TEXT`: what is shown of the network interfaces. -/
def interfaces : List String := [
  "eth0: flags=4163<UP,BROADCAST,RUNNING,MULTICAST>  mtu 1500",
  "        inet 10.0.2.15  netmask 255.255.255.0  broadcast 10.0.2.255",
  "        ether 02:42:0a:00:02:0f  txqueuelen 1000  (Ethernet)",
  "        RX packets 18342  bytes 21876543 (20.8 MiB)",
  "        TX packets 9271  bytes 1204887 (1.1 MiB)",
  "",
  "lo: flags=73<UP,LOOPBACK,RUNNING>  mtu 65536",
  "        inet 127.0.0.1  netmask 255.0.0.0",
  "        loop  txqueuelen 1000  (Local Loopback)",
  "        RX packets 412  bytes 35120 (34.2 KiB)",
  "        TX packets 412  bytes 35120 (34.2 KiB)"]

def ifconfig : Command := .reading ifconfigManual fun _ _ arguments =>
  (ifconfigManual.noArgument arguments).map fun _ => .text ("\n".intercalate interfaces)

def netstatManual : Manual where
  name := "netstat"
  summary := "Show network connections"
  usage := "netstat"
  category := "network"

/-- `NetstatCmd`: the network connections. -/
def connections : List (List String) := [
  ["tcp", "0.0.0.0:22", "0.0.0.0:*", "LISTEN"],
  ["tcp", "127.0.0.1:5432", "0.0.0.0:*", "LISTEN"],
  ["tcp", "10.0.2.15:22", "10.0.2.2:51514", "ESTABLISHED"],
  ["tcp", "10.0.2.15:40312", "140.82.112.3:443", "TIME_WAIT"],
  ["udp", "0.0.0.0:68", "0.0.0.0:*", ""]]

def netstat : Command := .reading netstatManual fun _ _ arguments =>
  (netstatManual.noArgument arguments).map fun _ =>
    .table ["PROTO", "LOCAL ADDRESS", "FOREIGN ADDRESS", "STATE"] connections

def curlManual : Manual where
  name := "curl"
  summary := "Fetch a URL and print the response body"
  usage := "curl <url>"
  category := "network"

/-- `CurlCmd`: shows the content of a page. -/
def curl : Command := .reading curlManual fun _ _ arguments =>
  match curlManual.oneArgument arguments with
  | .error e => .error e
  | .ok url => (Page.fetch curlManual.name url).map fun page => .text page.body

def wgetManual : Manual where
  name := "wget"
  summary := "Download a URL"
  usage := "wget <url>"
  category := "network"

/-- `WgetCmd`: shows how a page is saved. -/
def wget : Command := .reading wgetManual fun setting _ arguments =>
  match wgetManual.oneArgument arguments with
  | .error e => .error e
  | .ok url =>
    (Page.fetch wgetManual.name url).map fun page => .text (page.transcript url setting.clock)

/-- `register_network_commands`: the commands about the network. -/
def commands : List Command := [ping, ifconfig, netstat, curl, wget]

end CloudTerminal.Host
