import ChatBot.Console

/-!
# The command line and its surroundings

Which texts of the settings can be used depends on the libraries that the bot is built on, and the
bot is started with whatever these say (`Surroundings`). Here is what they say when it runs on a
command line: which addresses variables can be held behind, which addresses reports can be sent to,
and under which names fetches can be made. No answer of this bot fetches anything, so that its
client need not reach anything.
-/

set_option autoImplicit false

namespace ChatBot.CommandLine

/-! ## Servers -/

/-- Whether a host can be written in an address. -/
def isHost (cs : List Char) : Bool :=
  !cs.isEmpty && cs.all fun c =>
    !(c.toNat ≤ 0x20 || ['#', '<', '>', '?', '@', '[', '\\', ']', '^', '|'].contains c)

/-- Whether a text can stand behind the colon of a host: a number of sixteen bits, or nothing. -/
def isServiceNumber (text : String) : Bool :=
  text.isEmpty || (Number.readDigits? text.toList).any (· < 65536)

/-- Whether a text names a database: a whole number, or nothing. -/
def isDatabase (cs : List Char) : Bool :=
  let name := Text.dropEndWhile (· == '/') (cs.dropWhile (· == '/'))
  name.isEmpty || (Number.readInt? (String.ofList name)).isSome

/-- Whether the part of an address behind `redis://` can be read: a host with an optional number,
and a path that names a database. -/
def isServer (address : String) : Bool :=
  let cs := address.toList.takeWhile fun c => c != '?' && c != '#'
  let authority := cs.takeWhile (· != '/')
  let place := match Text.splitOnce (String.ofList authority) "@" with
    | some (_, place) => place
    | none => String.ofList authority
  let (host, number) := (Text.splitOnce place ":").getD (place, "")
  isHost host.toList && isServiceNumber number && isDatabase (cs.dropWhile (· != '/'))

/-- Whether an address of a server can be read. -/
def isServerUrl (url : String) : Bool :=
  match Text.after? url "redis://" with
  | some address => isServer address
  | none =>
    (Text.after? url "unix:///").isSome || (Text.after? url "redis+unix:///").isSome

/-! ## Endpoints -/

/-- The characters of an authority. -/
def isAuthorityChar (c : Char) : Bool :=
  Text.isAsciiAlnum c || "-._~:[]@!$&'()*+,;=".toList.contains c

/-- The characters of a path. -/
def isPathChar (c : Char) : Bool :=
  let n := c.toNat
  n == 0x21 || n == 0x22 || (0x24 ≤ n && n ≤ 0x3b) || n == 0x3d || (0x40 ≤ n && n ≤ 0x5f) ||
    (0x61 ≤ n && n ≤ 0x7e) || 0x7f < n

/-- The characters of a query. -/
def isQueryChar (c : Char) : Bool :=
  let n := c.toNat
  n == 0x21 || (0x24 ≤ n && n ≤ 0x3b) || n == 0x3d || (0x3f ≤ n && n ≤ 0x7e) || 0x7f < n

/-- The characters of a scheme. -/
def isSchemeChar (c : Char) : Bool :=
  Text.isAsciiAlnum c || c == '+' || c == '-' || c == '.'

/-- Whether characters are an authority: a host, with brackets in a pair and at most one colon
behind them, and with something behind a user's name. -/
def isAuthority (cs : List Char) : Bool :=
  let host := (cs.reverse.takeWhile (· != '@')).reverse
  let tail := (host.reverse.takeWhile (· != ']')).reverse
  cs.all isAuthorityChar && !host.isEmpty && cs.count '[' == cs.count ']' &&
    cs.count '[' ≤ 1 && tail.count ':' ≤ 1

/-- Whether characters are a path with an optional query; what follows a hash does not count. -/
def isPathAndQuery (cs : List Char) : Bool :=
  let cs := cs.takeWhile (· != '#')
  let path := cs.takeWhile (· != '?')
  let query := (cs.dropWhile (· != '?')).drop 1
  path.all isPathChar && query.all isQueryChar

/-- Whether characters are an authority and, behind it, a path. -/
def isHier (cs : List Char) : Bool :=
  let stops (c : Char) : Bool := c == '/' || c == '?' || c == '#'
  isAuthority (cs.takeWhile fun c => !stops c) && isPathAndQuery (cs.dropWhile fun c => !stops c)

/-- Whether reports can be sent to an address: it is a scheme and an authority with an optional
path, or an authority alone, or a path alone. -/
def isEndpoint (text : String) : Bool :=
  match text.toList with
  | [] => false
  | '/' :: rest => isPathAndQuery rest
  | ['*'] => true
  | cs =>
    match Text.splitOnce text "://" with
    | some (scheme, rest) =>
      if !scheme.isEmpty && scheme.toList.all isSchemeChar then isHier rest.toList
      else isAuthority cs
    | none => isAuthority cs

/-! ## Names -/

/-- Whether fetches can be made under a name: it holds no control but tabs. -/
def isAgent (name : String) : Bool :=
  name.toList.all fun c => c == '\t' || (0x20 ≤ c.toNat && c.toNat != 0x7f)

/-- The surroundings on a command line. -/
def surroundings : Surroundings where
  isServerUrl := isServerUrl
  isEndpoint := isEndpoint
  isAgent := isAgent
  client := Http.offline

end ChatBot.CommandLine
