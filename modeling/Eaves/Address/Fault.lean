import Eaves.Text.Quoted

/-!
# Faults of addresses

Why a text is the address of nothing, as causes; the wording is derived.
-/

namespace Eaves

/-- Why a text is the address of nothing. -/
inductive AddressFault where
  | tooLong
  /-- A control character, and where it stands. -/
  | control (c : Char) (position : Nat)
  /-- Four numbers that are not those of a host. -/
  | invalidIPv4 (host : String)
  | invalidIPv6 (host : String)
  /-- A name outside ASCII that is the name of no host. -/
  | invalidName (host : String)
  | invalidService (text : String)
  /-- A path does not start with a slash, though a host stands before it. -/
  | pathWithoutSlash
  /-- A path starts with a text that would make it something else. -/
  | misleadingPath (start : String)
  deriving DecidableEq, Repr

/-- The wording of an address fault. -/
def AddressFault.message : AddressFault → String
  | .tooLong => "URL too long"
  | .control c position =>
      "Invalid non-printable ASCII character in URL, " ++ Text.quoted (String.singleton c) ++
        " at position " ++ toString position ++ "."
  | .invalidIPv4 host => "Invalid IPv4 address: " ++ Text.quoted host
  | .invalidIPv6 host => "Invalid IPv6 address: " ++ Text.quoted host
  | .invalidName host => "Invalid IDNA hostname: " ++ Text.quoted host
  | .invalidService text => "Invalid port: " ++ Text.quoted text
  | .pathWithoutSlash => "For absolute URLs, path must be empty or begin with '/'"
  | .misleadingPath start =>
      "Relative URLs cannot have a path starting with " ++ Text.quoted start

end Eaves
