import Eaves.Address.Host

/-!
# Addresses

An address in its parts: what it is an address of, who asks, which host, which service
there, and the path, query and fragment.  Reading one brings every part into its usual
form, so that two addresses of one thing are mostly the same.
-/

namespace Eaves

/-- An address. -/
structure Address where
  scheme : List Char
  user : List Char
  /-- The host, without brackets. -/
  host : List Char
  /-- The number of the service, where it is not the usual one. -/
  service : Option Int
  path : List Char
  query : Option (List Char)
  fragment : Option (List Char)
  deriving DecidableEq, Repr

namespace Address

/-! ## Parts -/

/-- The parts of a text, as they are written in it. -/
structure Parts where
  scheme : List Char := []
  authority : List Char := []
  path : List Char := []
  query : Option (List Char) := none
  fragment : Option (List Char) := none
  deriving DecidableEq, Repr

/-- A text up to the first of some marks, and the rest. -/
def upTo (marks cs : List Char) : List Char × List Char :=
  (cs.takeWhile fun c => !marks.contains c, cs.dropWhile fun c => !marks.contains c)

/-- Whether a text can be a scheme; none at all can. -/
def isScheme : List Char → Bool
  | [] => true
  | c :: cs => c.isAlpha && cs.all fun c => c.isAlphanum || c == '+' || c == '.' || c == '-'

/-- The scheme before the first colon, and the rest. -/
def splitScheme (cs : List Char) : List Char × List Char :=
  match upTo [':'] cs with
  | (scheme, _ :: rest) => if isScheme scheme then (scheme, rest) else ([], cs)
  | _ => ([], cs)

/-- What stands between two slashes and the path, and the rest. -/
def splitAuthority : List Char → List Char × List Char
  | '/' :: '/' :: cs => upTo ['/', '?', '#'] cs
  | cs => ([], cs)

/-- What stands behind a mark and before the next one, and the rest. -/
def splitMarked (mark : Char) (ends cs : List Char) : Option (List Char) × List Char :=
  match cs with
  | c :: rest =>
      if c = mark then
        let (part, rest) := upTo ends rest
        (some part, rest)
      else (none, cs)
  | [] => (none, [])

/-- The parts of a text. -/
def split (cs : List Char) : Parts :=
  let (scheme, cs) := splitScheme cs
  let (authority, cs) := splitAuthority cs
  let (path, cs) := upTo ['?', '#'] cs
  let (query, cs) := splitMarked '?' ['#'] cs
  let (fragment, _) := splitMarked '#' [] cs
  ⟨scheme, authority, path, query, fragment⟩

/-- The parts of an authority: the user before the last at sign, the host in brackets or up to
the first colon, and the service. -/
def splitHost (cs : List Char) : List Char × List Char × List Char :=
  let behind := (cs.reverse.takeWhile (· ≠ '@')).reverse
  let user := cs.take (cs.length - behind.length - 1)
  let bracketed := (behind.reverse.dropWhile (· ≠ ']')).reverse
  let host := if isBracketed bracketed then bracketed else behind.takeWhile (· ≠ ':')
  let service := behind.drop host.length
  (user, host, if service.head? = some ':' then service.drop 1 else service)

/-! ## Usual forms -/

/-- The usual number of a scheme's service. -/
def usualService? (scheme : List Char) : Option Int :=
  [("ftp", 21), ("http", 80), ("https", 443), ("ws", 80), ("wss", 443)].lookup
    (String.ofList scheme)

/-- A whole number with a sign or none, blanks around it and underscores inside. -/
def wholeNumber? (cs : List Char) : Option Int :=
  let (negative, digits) := Text.splitSign (Text.trim cs)
  if Text.digitLimit < (digits.filter Text.isDecimal).length then none
  else (Text.spelled? 10 digits).map fun n => if negative then -(n : Int) else n

/-- The number of a service, unless it is the usual one of the scheme. -/
def readService (scheme cs : List Char) : Except AddressFault (Option Int) :=
  if cs.isEmpty then .ok none
  else
    match wholeNumber? cs with
    | some n => .ok (if usualService? scheme = some n then none else some n)
    | none => .error (.invalidService (String.ofList cs))

/-- Goes a step of a path further: a full stop stays, two go back, but not behind the root. -/
def step (passed : List (List Char)) (part : List Char) : List (List Char) :=
  if part = ['.'] then passed
  else if part = ['.', '.'] then (if passed = [[]] then passed else passed.dropLast)
  else passed ++ [part]

/-- A path without steps that stay or go back. -/
def direct (path : List Char) : List Char :=
  ['/'].intercalate ((Text.splitOn ['/'] path).foldl step [])

/-- Refuses a path that would mean something else where it stands. -/
def checkPath (hasScheme hasHost : Bool) (path : List Char) : Except AddressFault Unit :=
  if hasHost then
    if path.isEmpty || Text.startsWith ['/'] path then .ok () else .error .pathWithoutSlash
  else if hasScheme then .ok ()
  else if Text.startsWith ['/', '/'] path then .error (.misleadingPath "//")
  else if Text.startsWith [':'] path then .error (.misleadingPath ":")
  else .ok ()

/-! ## Reading -/

/-- The address with some parts. -/
def ofParts (parts : Parts) : Except AddressFault Address := do
  let (user, host, service) := splitHost parts.authority
  let user := escaped userReserved user
  let host ← readHost host
  let service ← readService parts.scheme service
  let hasScheme := !parts.scheme.isEmpty
  let hasHost := !user.isEmpty || !host.isEmpty || service.isSome
  checkPath hasScheme hasHost parts.path
  let path := if hasScheme || hasHost then direct parts.path else parts.path
  return ⟨parts.scheme.map Char.toLower, user, host, service, escaped pathReserved path,
    parts.query.map (escaped queryReserved), parts.fragment.map (escaped fragmentReserved)⟩

/-- The most characters of an address. -/
def longest : Nat := 65536

/-- Whether a character is one of the control characters of ASCII. -/
def isControl (c : Char) : Bool :=
  decide (c.toNat < 0x20) || c.toNat == 0x7F

/-- The address that a text is. -/
def read (text : String) : Except AddressFault Address :=
  let cs := text.toList
  if longest < cs.length then .error .tooLong
  else
    match cs.find? isControl with
    | some c => .error (.control c (cs.takeWhile (· ≠ c)).length)
    | none => ofParts (split cs)

/-! ## Writing -/

/-- The host of an address with its service. -/
def site (address : Address) : List Char :=
  let host :=
    if address.host.contains ':' then '[' :: address.host ++ [']'] else address.host
  match address.service with
  | some n => host ++ ':' :: (toString n).toList
  | none => host

/-- User, host and service of an address. -/
def authority (address : Address) : List Char :=
  if address.user.isEmpty then address.site else address.user ++ '@' :: address.site

/-- What is asked of the host: the path, or the root where there is none, and the query. -/
def target (address : Address) : List Char :=
  let path := if address.path.isEmpty then ['/'] else address.path
  match address.query with
  | some query => path ++ '?' :: query
  | none => path

/-- An address as a text. -/
def text (address : Address) : String :=
  let authority := address.authority
  String.ofList <|
    (if address.scheme.isEmpty then [] else address.scheme ++ [':']) ++
    (if authority.isEmpty then [] else '/' :: '/' :: authority) ++ address.path ++
    (address.query.map fun query => '?' :: query).getD [] ++
    (address.fragment.map fun fragment => '#' :: fragment).getD []

/-- The address of something below an address. -/
def below (address : Address) (path : List Char) : Except AddressFault Address :=
  let root := address.target
  let whole := (if root.getLast? = some '/' then root else root ++ ['/']) ++ path
  let (path, rest) := upTo ['?'] whole
  ofParts ⟨address.scheme, address.authority, path,
    if rest.isEmpty then none else some (rest.drop 1), address.fragment⟩

/-- Whether the text of an address starts with a scheme, or with what looks like one. -/
def isTyped (address : Address) : Bool :=
  let (start, rest) := upTo [':', '/'] address.text.toList
  !start.isEmpty && rest.head? == some ':'

end Address

end Eaves
