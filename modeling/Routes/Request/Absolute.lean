import Routes.Request.Address
import Routes.Request.Domain
import Routes.Request.Path
/-!
Absolute URLs. Of one that is well formed only the path and the query are of interest; user names
and ports are checked and dropped, hosts are checked and dropped.
-/
namespace Routes.Request.Absolute

/-- Schemes of the web read a backslash as a slash and need a domain or an address as host. File
URLs may go without a host. -/
inductive SchemeKind where
  | web
  | file
  | other
deriving DecidableEq, Repr

def SchemeKind.ofName (name : List Char) : SchemeKind :=
  if ["http", "https", "ws", "wss", "ftp"].any (·.toList == name) then .web
  else if name == "file".toList then .file
  else .other

def SchemeKind.separates (k : SchemeKind) (c : Char) : Bool :=
  c == '/' || (c == '\\' && k != .other)

def isSchemeChar (c : Char) : Bool := c.isAlphanum || c == '+' || c == '-' || c == '.'

/-- The kind of the scheme in front of the first colon, and what follows it. -/
def cutScheme? (cs : List Char) : Option (SchemeKind × List Char) :=
  match Text.cut? ':' cs with
  | none => none
  | some (name, rest) =>
    if name.head?.any Char.isAlpha && name.all isSchemeChar then
      some (.ofName (Text.lower name), rest)
    else none

def isBlankEnd (c : Char) : Bool := c.toNat ≤ 0x20

/-- Without controls and spaces at the ends, and without tabs and line ends inside. -/
def clean (cs : List Char) : List Char :=
  let cs := ((cs.dropWhile isBlankEnd).reverse.dropWhile isBlankEnd).reverse
  cs.filter fun c => c != '\t' && c != '\n' && c != '\r'

/-- What stands in front of the last `@` and what stands behind it. -/
def cutUser (authority : List Char) : Option (List Char) × List Char :=
  match Text.cut? '@' authority.reverse with
  | some (host, user) => (some user.reverse, host.reverse)
  | none => (none, authority)

/-- A user part that holds nothing but perhaps a colon names nobody. -/
def namesUser (user : List Char) : Bool := user != [] && user != [':']

/-- The host, and the port with its colon. Colons inside brackets belong to the host. -/
def cutPort (inside : Bool) : List Char → List Char × List Char
  | [] => ([], [])
  | c :: cs =>
    if c = ':' ∧ !inside then ([], c :: cs)
    else
      let inside := if c = '[' then true else if c = ']' then false else inside
      let (host, port) := cutPort inside cs
      (c :: host, port)

/-- What follows the digits of a port that is not too large. -/
def afterPort? : List Char → Option (List Char)
  | ':' :: cs =>
    let ds := cs.takeWhile Char.isDigit
    if (Address.digits? 10 ds).any (· ≤ 65535) then some (cs.dropWhile Char.isDigit) else none
  | cs => some cs

/-- The characters that no host of another scheme holds. -/
def isForbiddenInHost (c : Char) : Bool :=
  ['\x00', '\t', '\n', '\r', ' ', '#', '/', ':', '<', '>', '?', '@', '[', '\\', ']', '^',
    '|'].contains c

/-- An address in brackets, if the host begins with one. -/
def bracketed? : List Char → Option Bool
  | '[' :: cs =>
    match cs.reverse with
    | ']' :: inner => some (Address.isVersion6 inner.reverse)
    | _ => some false
  | _ => none

def isDomainOrAddress (host : List Char) : Bool :=
  match bracketed? host with
  | some ok => ok
  | none =>
    match Domain.ofHost? host with
    | none => false
    | some domain => !Address.endsInNumber domain || Address.isVersion4 domain

def isOtherHost (host : List Char) : Bool :=
  (bracketed? host).getD (host.all (!isForbiddenInHost ·))

/-- Checks user, host and port of a web URL, given without the slashes around them. -/
def isWebAuthority (authority : List Char) : Bool :=
  let (_, rest) := cutUser authority
  let (host, port) := cutPort false rest
  !host.isEmpty && isDomainOrAddress host && afterPort? port == some []

/-- The path behind an authority of another scheme. An empty host goes with no port, with no user
who is named, and with no `@` alone when a path or a query follows. -/
def afterAuthority? (authority path : List Char) (followed : Bool) : Option (List Char) :=
  let (user, rest) := cutUser authority
  let (host, port) := cutPort false rest
  if user == some [] && rest.isEmpty && followed then none
  else if !isOtherHost host then none
  else if host.isEmpty && (!port.isEmpty || user.any namesUser) then none
  else
    match afterPort? port with
    | some [] => some path
    | some ('\\' :: cs) => some ('\\' :: cs ++ path)
    | _ => none

def segmentsPath (k : SchemeKind) (cs : List Char) : List Char :=
  let cs := match cs with
    | c :: rest => if k.separates c then rest else cs
    | [] => []
  Path.render (Path.resolve [] (Path.split k.separates cs))

def webPath? (cs : List Char) : Option (List Char) :=
  let cs := cs.dropWhile SchemeKind.web.separates
  let authority := cs.takeWhile (!SchemeKind.web.separates ·)
  if isWebAuthority authority then
    some (segmentsPath .web (cs.dropWhile (!SchemeKind.web.separates ·)))
  else none

/-- The path of a file URL never begins with more than one slash, and a bar after a drive letter at
its beginning is a colon. -/
def filePath (dropsFirst : Bool) (cs : List Char) : List Char :=
  let cs := match cs with
    | c :: rest => if dropsFirst && SchemeKind.file.separates c then rest else cs
    | [] => []
  let segments := match Path.split SchemeKind.file.separates cs with
    | [c, '|'] :: rest => (if c.isAlpha then [c, ':'] else [c, '|']) :: rest
    | ss => ss
  Path.render (match (Path.resolve [] segments).dropWhile (·.isEmpty) with
    | [] => [[]]
    | ss => ss)

def filePath? (cs : List Char) : Option (List Char) :=
  match cs with
  | a :: b :: rest =>
    if SchemeKind.file.separates a && SchemeKind.file.separates b then
      let host := rest.takeWhile (!SchemeKind.file.separates ·)
      let path := rest.dropWhile (!SchemeKind.file.separates ·)
      if Path.isDriveLetter host then some (filePath false rest)
      else if host.isEmpty then some (filePath false path)
      else if isDomainOrAddress host then
        some (filePath (Domain.ofHost? host != some "localhost".toList) path)
      else none
    else some (filePath true cs)
  | _ => some (filePath true cs)

def otherPath? (cs : List Char) (hasQuery : Bool) : Option (List Char) :=
  match cs with
  | '/' :: '/' :: rest =>
    let path := rest.dropWhile (· != '/')
    match afterAuthority? (rest.takeWhile (· != '/')) path (hasQuery || !path.isEmpty) with
    | some [] => some []
    | some path => some (segmentsPath .other path)
    | none => none
  | '/' :: rest => some (segmentsPath .other ('/' :: rest))
  | _ => some (Text.Percent.encode Path.keepsPlain cs)

/-- The characters that stand in a query as they are. Only another scheme has the apostrophe among
them. -/
def SchemeKind.keeps (k : SchemeKind) (c : Char) : Bool :=
  0x20 < c.toNat && c.toNat < 0x7F && !(['"', '#', '<', '>'].contains c) &&
    (c != '\'' || k == .other)

/-- The path and the query of an absolute URL without a fragment. -/
def parse? (url : List Char) : Option (List Char × Option (List Char)) :=
  match cutScheme? (clean url) with
  | none => none
  | some (kind, rest) =>
    let (before, query) := match Text.cut? '?' rest with
      | some (b, q) => (b, some q)
      | none => (rest, none)
    let path := match kind with
      | .web => webPath? before
      | .file => filePath? before
      | .other => otherPath? before query.isSome
    path.map (·, query.map (Text.Percent.encode kind.keeps))

end Routes.Request.Absolute
