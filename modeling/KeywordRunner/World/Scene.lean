import KeywordRunner.CommandLine.Program
import KeywordRunner.Net.Endpoint
import KeywordRunner.World.Disk

/-!
# World.Scene — a described world for the program

Everything that the program can observe or change, as a value: a disk, the environment, a machine
without a network and what has been printed. `Scene.host` runs the program in it. No device
ever connects there.
-/

namespace KeywordRunner.World

structure Scene where
  disk : Disk
  home : Place
  environment : List (String × String)
  /-- The printed lines, the latest first. -/
  printed : List String

namespace Scene

def output (s : Scene) : String := String.join (s.printed.reverse.map (· ++ "\n"))

/-! ### The network -/

/-- Ports that are not for everyone. -/
def isReserved (port : UInt16) : Bool := 0 < port && port < 1024

/-- Groups of hosts that many share. -/
def isMulticast (groups : List UInt16) : Bool :=
  groups.head?.any fun (g : UInt16) => g >>> 8 == 0xFF

/-- Groups of hosts that only the network of one interface knows. -/
def isLinkLocal (groups : List UInt16) : Bool :=
  groups.head?.any fun (g : UInt16) => g >>> 6 == 0x3FA

/-- Groups that any machine has: those of the unspecified host, and those that stand for an IPv4
host. -/
def isUniversal (groups : List UInt16) : Bool :=
  groups.all (· == 0) || groups.take 6 == [0, 0, 0, 0, 0, 0xFFFF]

/-- Why nothing can listen on an address. No network interface is up. As long as nobody has an IPv4
host all of them can be claimed, also where IPv6 groups stand for one; of the other IPv6 hosts only
the unspecified one can. A scope is the number of an interface, and there is one. -/
def claimFault? : SocketAddress → Option String
  | .v4 _ _ _ _ port => if isReserved port then some denied else none
  | .v6 groups scope port =>
    if isMulticast groups.toList then some invalid
    else if isReserved port then some denied
    else if isUniversal groups.toList then none
    else if !isLinkLocal groups.toList then some absent
    else some (if scope = 0 then invalid else if scope = 1 then absent else noDevice)
where
  denied := "Permission denied (os error 13)"
  noDevice := "No such device (os error 19)"
  invalid := "Invalid argument (os error 22)"
  absent := "Cannot assign requested address (os error 99)"

/-- Looks an endpoint up. One name is known, and there is nobody to ask for others. -/
def lookUp : Endpoint → Except String SocketAddress
  | .address a => .ok a
  | .named host port =>
    if host.toList.map Char.toLower = "localhost".toList then .ok (.v4 127 0 0 1 port)
    else .error (lookupFailure "Temporary failure in name resolution")

/-- Why nothing can listen where a text leads. -/
def listenFault? (text : String) : Option String :=
  match (Endpoint.read text).mapError EndpointFault.message >>= lookUp with
  | .error reason => some reason
  | .ok a => claimFault? a

/-- The program's way into the described world. -/
def host : CommandLine.Host (StateM Scene) where
  environment? name := do return Entries.find? name (← get).environment
  read path := do
    let s ← get
    return s.disk.read s.home path
  printLine text := modify fun s => { s with printed := text :: s.printed }
  listen address _ :=
    pure (match listenFault? address with
      | some reason => .error reason
      | none => .ok { awaitDevice := fun _ _ => pure none, shutdown := pure () })
  interrupted := pure ()

/-- Runs the program on its arguments: how it ends, and what it has printed. -/
def run (s : Scene) (args : List String) : CommandLine.Exit × String :=
  let (exit, s) := (CommandLine.launch host args).run s
  (exit, s.output)

end Scene

end KeywordRunner.World
