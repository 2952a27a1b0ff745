import KeywordRunner.Numeral.Signed
import KeywordRunner.Text.Hex
import KeywordRunner.Text.Lines

/-!
# Net.SocketAddress — addresses of network peers

An address is an IPv4 or IPv6 host with a port. `SocketAddress.read?` takes the numeric notations
`a.b.c.d:port`, `[groups]:port` and `[groups%scope]:port`; `SocketAddress.text` writes the
canonical one, in which the longest run of at least two zero groups is shortened to `::` and a
scope of zero is left out.
-/

namespace KeywordRunner

inductive SocketAddress where
  | v4 (a b c d : UInt8) (port : UInt16)
  /-- Eight groups of 16 bits, and the network that a local host is on. -/
  | v6 (groups : Vector UInt16 8) (scope : UInt32) (port : UInt16)
  deriving DecidableEq, Repr

namespace SocketAddress

/-! ### Reading -/

/-- A number below `limit` of digits alone. -/
def number? (limit : Nat) (cs : List Char) : Option Nat :=
  if cs ≠ [] ∧ cs.all Char.isDigit ∧ Digits.value cs < limit then some (Digits.value cs) else none

/-- One of the four numbers of an IPv4 host, without leading zeros. -/
def octet? (cs : List Char) : Option UInt8 :=
  if cs.length ≠ 1 ∧ cs.head? = some '0' then none
  else (number? 256 cs).map UInt8.ofNat

def octets? (cs : List Char) : Option (List UInt8) :=
  let ps := Text.splitOn '.' cs
  if ps.length = 4 then ps.mapM octet? else none

/-- A group of one to four hexadecimal digits. -/
def group? (cs : List Char) : Option UInt16 :=
  if cs = [] ∨ 4 < cs.length then none
  else (cs.mapM Text.hexValue?).map fun ds => UInt16.ofNat (ds.foldl (fun acc d => 16 * acc + d) 0)

def groups? (cs : List Char) : Option (List UInt16) :=
  if cs = [] then some [] else (Text.splitOn ':' cs).mapM group?

/-- Groups that end a host: the last one may be an IPv4 host, which fills two groups. -/
def finalGroups? (cs : List Char) : Option (List UInt16) :=
  let ps := Text.splitOn ':' cs
  match octets? (ps.getLast?.getD []) with
  | some [a, b, c, d] =>
    (ps.dropLast.mapM group?).map fun gs =>
      gs ++ [a.toUInt16 * 256 + b.toUInt16, c.toUInt16 * 256 + d.toUInt16]
  | _ => groups? cs

/-- The text before and after the first `::`. -/
def splitGap? : List Char → Option (List Char × List Char)
  | ':' :: ':' :: cs => some ([], cs)
  | c :: cs => (splitGap? cs).map fun (before, after) => (c :: before, after)
  | [] => none

def ofGroups? (gs : List UInt16) : Option (Vector UInt16 8) :=
  if h : gs.toArray.size = 8 then some ⟨gs.toArray, h⟩ else none

/-- The eight groups of an IPv6 host. A gap stands for at least one group of zero. -/
def host6? (cs : List Char) : Option (Vector UInt16 8) :=
  match splitGap? cs with
  | none => (finalGroups? cs).bind ofGroups?
  | some (before, after) => do
    let front ← groups? before
    let back ← finalGroups? after
    let zeros := 8 - (front.length + back.length)
    if zeros = 0 then none else ofGroups? (front ++ List.replicate zeros 0 ++ back)

/-- The groups and the scope of an IPv6 host; no scope is scope zero. -/
def scopedHost6? (cs : List Char) : Option (Vector UInt16 8 × UInt32) := do
  let groups ← host6? (cs.takeWhile (· != '%'))
  match cs.dropWhile (· != '%') with
  | [] => some (groups, 0)
  | _ :: scope => (number? UInt32.size scope).map fun n => (groups, UInt32.ofNat n)

/-- The host and the port around the last colon. -/
def splitPort (cs : List Char) : List Char × List Char :=
  let back := cs.reverse
  ((back.dropWhile (· != ':')).drop 1 |>.reverse, (back.takeWhile (· != ':')).reverse)

def read? (s : String) : Option SocketAddress :=
  let cs := s.toList
  if !cs.contains ':' then none
  else
    let (host, port) := splitPort cs
    (number? UInt16.size port).bind fun port =>
      match host with
      | '[' :: inner =>
        if inner.getLast? = some ']' then
          (scopedHost6? inner.dropLast).map fun (groups, scope) =>
            .v6 groups scope (UInt16.ofNat port)
        else none
      | _ =>
        match octets? host with
        | some [a, b, c, d] => some (.v4 a b c d (UInt16.ofNat port))
        | _ => none

/-! ### Writing -/

def octetsText (ns : List Nat) : String := String.intercalate "." (ns.map Digits.text)

def groupsText (gs : List UInt16) : String :=
  String.intercalate ":" (gs.map fun g => String.ofList (Text.hex g.toNat))

/-- The length of the run of zero groups at the start. -/
def zeroRun (gs : List UInt16) : Nat := (gs.takeWhile (· == 0)).length

/-- The start and length of the longest run of zero groups, the first of equals. -/
def longestGap (gs : List UInt16) : Nat × Nat :=
  (List.range gs.length).foldl
    (fun best i => if best.2 < zeroRun (gs.drop i) then (i, zeroRun (gs.drop i)) else best) (0, 0)

def host6Text (gs : List UInt16) : String :=
  match gs with
  | [0, 0, 0, 0, 0, 0xFFFF, x, y] =>
    "::ffff:" ++ octetsText [x.toNat / 256, x.toNat % 256, y.toNat / 256, y.toNat % 256]
  | _ =>
    let (start, length) := longestGap gs
    if 1 < length then groupsText (gs.take start) ++ "::" ++ groupsText (gs.drop (start + length))
    else groupsText gs

/-- The scope of an IPv6 host, unless it is zero. -/
def scopeText (scope : UInt32) : String :=
  if scope = 0 then "" else "%" ++ Digits.text scope.toNat

def text : SocketAddress → String
  | .v4 a b c d port =>
    octetsText [a.toNat, b.toNat, c.toNat, d.toNat] ++ ":" ++ Digits.text port.toNat
  | .v6 groups scope port =>
    "[" ++ host6Text groups.toList ++ scopeText scope ++ "]:" ++ Digits.text port.toNat

end SocketAddress

end KeywordRunner
