import Openheim.Library.Machine
import Openheim.Transport.FsSidecar

/-
This file follows `relay` of `src/transport/ws.rs`: the frames of one `/ws` connection go to its ACP
server or to its fs worker, and what these send goes back to the client. Here a request is one step;
`FsWorker` takes it apart.
-/

namespace Openheim.Transport
open Openheim.Tools

/-- A text frame from the client, as it is decoded. -/
inductive WsInbound where
  | agent (value : Json)
  | fs (envelope : FsRequestEnvelope)

/-- A text frame to the client. -/
inductive WsOutbound where
  | agent (value : Json)
  | fs (reply : FsReply)

/-- What the relay has from libraries: the JSON of ACP lines, and the decoding
of a frame or why it fails. -/
structure Codec where
  json : SerdeJson
  inbound : String → Except String WsInbound

/-- A message of the WebSocket; its end counts as a close. -/
inductive WsMessage where
  | text (text : String)
  | other
  | close

/-- What a watch reports. -/
abbrev WatchResult := Except String (String × List String)

/-- A request that was carried out, with the files that it found. -/
structure Answered where
  tree : Tree
  request : FsRequestEnvelope
  response : FsResponse

def Answered.reply (answered : Answered) : FsReply := ⟨answered.request.id, answered.response⟩

/-- The tasks and channels of one connection. The requests and replies so
far are kept for reference. -/
structure Connection where
  tree : Tree
  fs : FsState
  requests : List FsRequestEnvelope
  received : List FsRequestEnvelope
  answered : List Answered
  notified : Nat → List WatchResult
  fsOut : List FsReply
  acpIn : List String
  acpOut : List String
  acpEnded : Bool
  clientGone : Bool
  serving : Bool
  outbound : Bool
  frames : List WsOutbound

inductive RelayAction where
  | receive (message : WsMessage)
  | work
  | notify (result : WatchResult)
  | forwardEvent (watch : Nat)
  | acpWrites (line : String)
  | acpEnds
  | sendAgent
  | sendFs
  | clientLeaves
  | outside (tree : Tree)

def watchResponse : WatchResult → FsResponse
  | .ok (eventKind, paths) => .fsEvent eventKind paths
  | .error error => .error ("Watcher error: " ++ error)

namespace Connection

/-- Dispatches one frame; neither side is waited for. -/
def receive (codec : Codec) (c : Connection) : WsMessage → Connection
  | .text text =>
      match codec.inbound text with
      | .ok (.agent value) => if c.acpEnded then c
          else { c with acpIn := c.acpIn ++ [codec.json.print value] }
      | .ok (.fs envelope) =>
          { c with requests := c.requests ++ [envelope], received := c.received ++ [envelope] }
      | .error error =>
          { c with fsOut := c.fsOut ++ [.unsolicited (.error ("Invalid payload: " ++ error))] }
  | .other => c
  -- Also drops the watch.
  | .close => { c with serving := false, outbound := false, fs := { c.fs with watcher := none } }

/-- A failed send ends the outbound task. -/
def send (c : Connection) (frame : WsOutbound) : Connection :=
  if c.clientGone then { c with outbound := false } else { c with frames := c.frames ++ [frame] }

/-- The worker carries out its next request, while nobody else changes the files. -/
def work (host : Host) (c : Connection) : Option Connection :=
  match c.serving, c.requests with
  | true, envelope :: rest =>
      let handled := c.fs.handle host c.tree envelope.request
      some { c with
        tree := handled.tree
        fs := handled.state
        requests := rest
        answered := c.answered ++ [⟨c.tree, envelope, handled.response⟩]
        fsOut := c.fsOut ++ [⟨envelope.id, handled.response⟩] }
  | _, _ => none

/-- The outbound task takes the next line of the ACP server. A line that is no JSON is dropped, and
with the end of the server the task ends. -/
def sendAgent (codec : Codec) (c : Connection) : Option Connection :=
  match c.outbound, c.acpOut with
  | true, line :: rest =>
      match codec.json.parse line with
      | some value => some (send { c with acpOut := rest } (.agent value))
      | none => some { c with acpOut := rest }
  | true, [] => if c.acpEnded then some { c with outbound := false } else none
  | false, _ => none

def sendFs (c : Connection) : Option Connection :=
  match c.outbound, c.fsOut with
  | true, reply :: rest => some (send { c with fsOut := rest } (.fs reply))
  | _, _ => none

def step (codec : Codec) (host : Host) (c : Connection) : RelayAction → Option Connection
  | .receive message => if c.serving then some (c.receive codec message) else none
  | .work => c.work host
  | .notify result =>
      if c.fs.watcher.isSome then
        some { c with
          notified :=
            Function.update c.notified c.fs.watches (c.notified c.fs.watches ++ [result]) }
      else none
  | .forwardEvent watch =>
      match c.notified watch with
      | result :: rest => some { c with
          notified := Function.update c.notified watch rest
          fsOut := c.fsOut ++ [.unsolicited (watchResponse result)] }
      | [] => none
  | .acpWrites line => if c.acpEnded then none else some { c with acpOut := c.acpOut ++ [line] }
  | .acpEnds => some { c with acpEnded := true }
  | .sendAgent => c.sendAgent codec
  | .sendFs => c.sendFs
  | .clientLeaves => some { c with clientGone := true }
  | .outside tree => some { c with tree := tree }

end Connection

def greeting : FsReply := .unsolicited (.connected "Connected to Openheim")

/-- A connection just after it was accepted. -/
def Connection.initial (root : List FileName) (tree : Tree) : Connection where
  tree := tree
  fs := ⟨PathBuf.display ⟨true, root⟩, none, 0⟩
  requests := []
  received := []
  answered := []
  notified _ := []
  fsOut := [greeting]
  acpIn := []
  acpOut := []
  acpEnded := false
  clientGone := false
  serving := true
  outbound := true
  frames := []

/-- All runs of a connection whose work directory is given by its resolved location. -/
def relayMachine (codec : Codec) (host : Host) (root : List FileName) :
    Machine Connection RelayAction where
  start c := ∃ tree : Tree, tree.node root = some .directory ∧ c = .initial root tree
  step := Connection.step codec host

end Openheim.Transport
