import MigrationTransport.BpfRedirect.EchoServer

/-!
`handle_client` of `s1.py` and `s2.py`, which differ in their names only. Whatever is raised,
by a call of the socket or by `decode`, ends the loop.
-/
namespace ReuseAddr
open ByteStream
open EchoServer (decode encode receiveSize)

inductive Recv where
  | received (data : Bytes)
  | empty
  | raises
  deriving DecidableEq

/-- `sends` is whether `sendall` returns, where the turn comes to it. -/
structure Turn where
  recv : Recv
  sends : Bool
  deriving DecidableEq

/-- `eof` is whether the loop has seen the end of the stream, `decoded` what `data.decode()`
    returned, and `sent` what `sendall` sent in the calls that returned. -/
structure Connection where
  running : Bool
  eof : Bool
  closed : Bool
  decoded : List String
  sent : Bytes
  deriving DecidableEq

def init : Connection where
  running := true
  eof := false
  closed := false
  decoded := []
  sent := []

def Connection.ends (s : Connection) : Connection :=
  { s with running := false, closed := true }

def response (server text : String) : String := server ++ " Echo: " ++ text

def answer (server : String) (s : Connection) (text : String) (sends : Bool) : Connection :=
  if sends then { s with sent := s.sent ++ encode (response server text) } else s.ends

def handleClient (server : String) (s : Connection) (turn : Turn) : Option Connection :=
  if s.running then
    match turn.recv with
    | .received data =>
      if 0 < data.length ∧ data.length ≤ receiveSize then
        match decode data with
        | some text =>
          some (answer server { s with decoded := s.decoded ++ [text] } text turn.sends)
        | none => some s.ends
      else none
    | .empty => some { s.ends with eof := true }
    | .raises => some s.ends
  else none

def s1HandleClient : Connection → Turn → Option Connection := handleClient "S1"

def s2HandleClient : Connection → Turn → Option Connection := handleClient "S2"

end ReuseAddr
