import CloudTerminal.Error
import CloudTerminal.Host.Address
import CloudTerminal.Host.Url

/-!
The pages that simulated hosts serve: one for every path of every host that has an address.
-/

namespace CloudTerminal.Host

/-- A page, with the address of the host that serves it. -/
structure Page where
  url : PageUrl
  address : Address

namespace Page

/-- `page_body`: the content of a page. -/
def body (page : Page) : String :=
  let { host, path, .. } := page.url
  "\n".intercalate ["<!DOCTYPE html>", "<html>", s!"<head><title>{host}</title></head>", "<body>",
    s!"<h1>{host}</h1>", s!"<p>Simulated response for {path}</p>", "</body>", "</html>"]

/-- `output_name`, the name of the file that a page is saved in: the last segment of its path, if it is not
empty. -/
def fileName (page : Page) : String :=
  let path := Text.beforeFirst (fun c => c == '?' || c == '#') page.url.path.toList
  let segment := Text.afterLast (· == '/') path
  if segment.isEmpty then "index.html" else String.ofList segment

/-- `fetch_target`: looks for the page of a URL; `command` is named in the error. -/
def fetch (command url : String) : Except Error Page :=
  match PageUrl.parse url with
  | none => .error (.malformedUrl command url)
  | some parsed =>
    match resolve? parsed.host with
    | none => .error (.unresolvedHost command parsed.host)
    | some address => .ok { url := parsed, address }

/-- What is shown of a page that is saved. -/
def transcript (page : Page) (url clock : String) : String :=
  let host := page.url.host
  let address := page.address.text
  let file := page.fileName
  let length := page.body.utf8ByteSize
  "\n".intercalate [s!"--{clock}--  {url}", s!"Resolving {host}... {address}",
    s!"Connecting to {host}|{address}|:{page.url.port}... connected.",
    "HTTP request sent, awaiting response... 200 OK", s!"Length: {length} [text/html]",
    s!"Saving to: '{file}'", "", s!"{file}  100%[===================>]  {length}  --.-KB/s  in 0s", "",
    s!"{clock} - '{file}' saved [{length}/{length}]"]

end Page

end CloudTerminal.Host
