import Eaves.Command.Desk
import Eaves.Text.Numeral
import Eaves.Value.Json
import Std.Async.DNS
import Std.Async.TCP

/-!
# The controller

A payload is posted over plain HTTP, on a connection of its own.  What comes back is
read only as far as its head: the status, and the wait that the controller asks for.
Whatever keeps the request from being answered counts as an error of the network.
-/

namespace Eaves.Outside

open Command (Request)

/-- Where a request goes to. -/
structure Target where
  host : String
  site : String
  service : Nat
  path : String

/-- The target of a plain HTTP address. -/
def target? (address : Address) : Option Target :=
  let service := address.service.getD 80
  if String.ofList address.scheme == "http" && decide (0 < service ∧ service < 65536) then
    some ⟨String.ofList address.host, String.ofList address.site, service.toNat,
      String.ofList address.target⟩
  else none

/-- A request as it is sent. -/
def requestText (target : Target) (body : String) : String :=
  "POST " ++ target.path ++ " HTTP/1.1\r\n" ++
    "Host: " ++ target.site ++ "\r\n" ++
    "User-Agent: " ++ Address.agent ++ "\r\n" ++
    "Content-Type: application/json\r\n" ++
    "Content-Length: " ++ toString body.utf8ByteSize ++ "\r\n" ++
    "Connection: close\r\n\r\n" ++ body

/-- The value of a header line with a name in small letters. -/
def headerValue? (name : String) (line : List Char) : Option String :=
  let key := line.takeWhile (· ≠ ':')
  if String.ofList (key.map Char.toLower) == name then
    some (String.ofList (Text.trim (line.drop (key.length + 1))))
  else none

/-- The reply in the head of a response. -/
def replyOf (head : String) : Reply :=
  let lines := Text.splitOn ['\r', '\n'] head.toList
  let words := Text.splitOn [' '] (lines.headD [])
  match (words[1]?).bind Text.latinDigits? with
  | some code => .status code (lines.findSome? (headerValue? "retry-after"))
  | none => .networkError

/-- An address with the number of a service. -/
def socketAddress (service : UInt16) : Std.Net.IPAddr → Std.Net.SocketAddress
  | .v4 address => .v4 ⟨address, service⟩
  | .v6 address => .v6 ⟨address, service⟩

/-- The end of a head. -/
def headEnd : List Char := ['\r', '\n', '\r', '\n']

/-- Receives until the head is complete, at most a number of pieces. -/
def receiveHead (client : Std.Async.TCP.Socket.Client) : Nat → ByteArray →
    Std.Async.Async ByteArray
  | 0, bytes => return bytes
  | pieces + 1, bytes => do
      match ← client.recv? 4096 with
      | none => return bytes
      | some more =>
          let bytes := bytes ++ more
          match String.fromUTF8? bytes with
          | some text =>
              if Text.occursIn headEnd text.toList then return bytes
              else receiveHead client pieces bytes
          | none => receiveHead client pieces bytes

/-- Sends a request to a target and receives the head of the response. -/
def exchange (target : Target) (body : String) : Std.Async.Async String := do
  let found ← Std.Async.DNS.getAddrInfo target.host (toString target.service)
  let some address := found[0]? | throw (IO.userError "unknown host")
  let client ← Std.Async.TCP.Socket.Client.mk
  client.connect (socketAddress target.service.toUInt16 address)
  client.send (requestText target body).toUTF8
  let bytes ← receiveHead client 64 ByteArray.empty
  return (String.fromUTF8? bytes).getD ""

/-- Posts a request, and gives the reply to it. -/
def post (request : Request) : IO Reply := do
  match target? request.address with
  | none => return .networkError
  | some target =>
      let body := Json.render {} (.object request.payload.toEntries)
      try
        return replyOf (← (exchange target body).block)
      catch _ => return .networkError

end Eaves.Outside
