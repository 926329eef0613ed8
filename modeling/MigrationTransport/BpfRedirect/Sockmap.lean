import MigrationTransport.Lib.Runs

/-!
The two eBPF programs of `bpf_redirect` and the sockmap they share. `sockops_prog` puts
each passively established socket into a slot that its local port alone decides;
`sk_skb_stream_verdict_prog` runs on packets that arrive on sockets in the map and
redirects them to a slot. The kernel takes a closed socket out of the map.
-/
namespace Sockmap

def serverPort : UInt32 := 9999

def proxyPort : UInt32 := 8888

abbrev maxEntries : Nat := 32

structure Socket where
  id : Nat
  localPort : UInt32
  deriving DecidableEq

inductive SockOp where
  | passiveEstablished
  | other (op : UInt32)
  deriving DecidableEq

inductive Verdict where
  | pass
  | drop
  | redirect (target : Socket) (ingress : Bool)
  deriving DecidableEq

abbrev Slots := Fin maxEntries → Option Socket

/-- `established` lists every socket that was ever passively established, each once;
    `opened` those not closed since. -/
structure Kernel where
  sockmap : Slots
  established : List Socket
  opened : List Socket

def init : Kernel := ⟨fun _ => none, [], []⟩

/-- `bpf_sock_map_update(.., BPF_ANY)`, which replaces what the slot held. `err` is what
    the helper returns; the map is unchanged unless it is 0. -/
def sockMapUpdate (m : Slots) (key : Fin maxEntries) (sock : Socket) (err : UInt32) : Slots :=
  if err = 0 then Function.update m key (some sock) else m

def sockopsProg (m : Slots) (op : SockOp) (sock : Socket) (err : UInt32) : Slots :=
  match op with
  | .passiveEstablished =>
    if sock.localPort = proxyPort then sockMapUpdate m 1 sock err
    else if sock.localPort = serverPort then sockMapUpdate m 2 sock err
    else m
  | .other _ => m

/-- An empty slot makes the helper return `SK_DROP`. -/
def skRedirectMap (m : Slots) (key : Fin maxEntries) (ingress : Bool) : Verdict :=
  match m key with
  | some target => .redirect target ingress
  | none => .drop

def skSkbStreamVerdictProg (m : Slots) (localPort : UInt32) : Verdict :=
  if localPort = proxyPort then skRedirectMap m 2 true
  else if localPort = serverPort then skRedirectMap m 1 false
  else .pass

/-- What happens to a packet: `none` where the program does not run, because the socket is
    not in the map, and the socket itself receives the packet. -/
def packetArrives (m : Slots) (sock : Socket) : Option Verdict :=
  if ∃ key, m key = some sock then some (skSkbStreamVerdictProg m sock.localPort) else none

inductive Event where
  | sockOps (op : SockOp) (sock : Socket) (err : UInt32)
  | closed (sock : Socket)
  | packet (sock : Socket)
  deriving DecidableEq

def step (k : Kernel) : Event → Option Kernel
  | .sockOps .passiveEstablished sock err =>
    if sock ∈ k.established then none
    else some {
      sockmap := sockopsProg k.sockmap .passiveEstablished sock err
      established := sock :: k.established
      opened := sock :: k.opened }
  | .sockOps op sock err => some { k with sockmap := sockopsProg k.sockmap op sock err }
  | .closed sock =>
    if sock ∈ k.opened then
      some { k with
        sockmap := fun key => (k.sockmap key).filter (· ≠ sock)
        opened := k.opened.filter (· ≠ sock) }
    else none
  | .packet sock => if sock ∈ k.opened then some k else none

end Sockmap
