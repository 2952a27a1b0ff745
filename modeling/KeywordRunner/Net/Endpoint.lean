import KeywordRunner.Net.SocketAddress

/-!
# Net.Endpoint — where a text with a host and a port leads

A host may be written as a number, in the notation of socket addresses or in the older one that
`Endpoint.classicHost?` reads, or it has a name that others have to look up. `Endpoint.read` tells
these apart and says why a text is neither.
-/

namespace KeywordRunner

inductive Endpoint where
  | address (a : SocketAddress)
  /-- A host that has to be looked up. -/
  | named (host : String) (port : UInt16)
  deriving DecidableEq, Repr

inductive EndpointFault where
  /-- There is no colon before a port. -/
  | noPort
  /-- Behind the last colon is no number of 16 bits. -/
  | badPort
  /-- The host has a NUL character, with which nothing can be looked up. -/
  | nulCharacter
  /-- The host is no number, and no host can have it as its name. -/
  | badName
  deriving DecidableEq, Repr

/-- What looking up a host fails with. -/
def lookupFailure (reason : String) : String := "failed to lookup address information: " ++ reason

def EndpointFault.message : EndpointFault → String
  | .noPort => "invalid socket address"
  | .badPort => "invalid port value"
  | .nulCharacter => "file name contained an unexpected NUL byte"
  | .badName => lookupFailure "Name or service not known"

namespace Endpoint

open SocketAddress (host6? splitPort)

/-! ### Hosts in numbers -/

/-- A number in decimal, in octal after `0`, or in hexadecimal after `0x`. -/
def classicNumber? (cs : List Char) : Option Nat :=
  let digits := fun (base : Nat) (cs : List Char) =>
    if cs = [] then none
    else cs.foldlM (fun acc c =>
      (Text.hexValue? c).bind fun d => if d < base then some (acc * base + d) else none) 0
  match cs with
  | ['0'] => some 0
  | '0' :: x :: cs => if x = 'x' ∨ x = 'X' then digits 16 cs else digits 8 (x :: cs)
  | cs => digits 10 cs

/-- The four numbers of an IPv4 host in the classic notation: one to four numbers between dots, of
which the last one fills what the others leave of 32 bits. -/
def classicHost? (cs : List Char) (port : UInt16) : Option SocketAddress := do
  let numbers ← (Text.splitOn '.' cs).mapM classicNumber?
  let last ← numbers.getLast?
  let front := numbers.dropLast
  let left := 8 * (4 - front.length)
  if front.length ≤ 3 ∧ front.all (· < 256) ∧ last >>> left = 0 then
    let word := (front.foldl (fun acc n => acc * 256 + n) 0 <<< left) + last
    let byte := fun (i : Nat) => UInt8.ofNat (word >>> (8 * i))
    some (.v4 (byte 3) (byte 2) (byte 1) (byte 0) port)
  else none

/-- An IPv6 host, its scope behind a percent sign; nothing for other hosts. -/
def host6 (cs : List Char) (port : UInt16) : Option (Except EndpointFault SocketAddress) :=
  (host6? (cs.takeWhile (· != '%'))).map fun groups =>
    match cs.dropWhile (· != '%') with
    | [] => .ok (.v6 groups 0 port)
    | _ :: scope =>
      match SocketAddress.number? UInt32.size scope with
      | some n => .ok (.v6 groups (UInt32.ofNat n) port)
      | none => .error .badName

/-! ### Hosts by name -/

/-- A part of a name between dots. -/
def isLabel (cs : List Char) : Bool :=
  cs ≠ [] && cs.length ≤ 63 && cs.all fun c => c.isAlphanum || c == '-' || c == '_'

/-- Whether a host can have a name: labels between dots, the first of which starts with no hyphen.
A dot may follow the last one, or stand for the name of no labels. -/
def isName (cs : List Char) : Bool :=
  let stem := if cs.getLast? = some '.' then cs.dropLast else cs
  cs == ['.'] ||
    (stem.head? != some '-' && stem.length ≤ 253 && (Text.splitOn '.' stem).all isLabel)

/-- A host that is no socket address in its own notation, and a port. -/
def ofHost (host : List Char) (port : UInt16) : Except EndpointFault Endpoint :=
  if host.contains '\x00' then .error .nulCharacter
  else
    match classicHost? host port, host6 host port with
    | some a, _ => .ok (.address a)
    | none, some a => a.map .address
    | none, none => if isName host then .ok (.named (String.ofList host) port) else .error .badName

/-- The endpoint that a text stands for. The port of a host in any other than its numeric notation
may have a plus sign. -/
def read (s : String) : Except EndpointFault Endpoint :=
  match SocketAddress.read? s with
  | some a => .ok (.address a)
  | none =>
    if !s.toList.contains ':' then .error .noPort
    else
      let (host, port) := splitPort s.toList
      match Signed.readUnsigned? port with
      | none => .error .badPort
      | some n => if n < UInt16.size then ofHost host (UInt16.ofNat n) else .error .badPort

end Endpoint

end KeywordRunner
