import Openheim.Transport.SidecarSoundness

/-
This file proves what a client of one connection can rely on: its requests are answered once and in
order, and neither channel needs the other.
-/

namespace Openheim.Transport
open Openheim.Tools

/-- The fs frames among what was sent. -/
def fsFrames (frames : List WsOutbound) : List FsReply :=
  frames.filterMap fun frame => match frame with | .fs reply => some reply | .agent _ => none

/-- The agent frames among what was sent. -/
def agentFrames (frames : List WsOutbound) : List Json :=
  frames.filterMap fun frame => match frame with | .agent value => some value | .fs _ => none

def FsReply.identified (reply : FsReply) : Bool := reply.id.isSome

@[simp] theorem fsFrames_concat_fs (frames : List WsOutbound) (reply : FsReply) :
    fsFrames (frames ++ [.fs reply]) = fsFrames frames ++ [reply] := List.filterMap_append

@[simp] theorem fsFrames_concat_agent (frames : List WsOutbound) (value : Json) :
    fsFrames (frames ++ [.agent value]) = fsFrames frames :=
  List.filterMap_append.trans (List.append_nil _)

@[simp] theorem agentFrames_concat_agent (frames : List WsOutbound) (value : Json) :
    agentFrames (frames ++ [.agent value]) = agentFrames frames ++ [value] := List.filterMap_append

@[simp] theorem agentFrames_concat_fs (frames : List WsOutbound) (reply : FsReply) :
    agentFrames (frames ++ [.fs reply]) = agentFrames frames :=
  List.filterMap_append.trans (List.append_nil _)

/-- All fs messages so far. They are sent in order for as long as the outbound task runs. -/
structure Sends (c : Connection) (history : List FsReply) : Prop where
  sent : fsFrames c.frames <+: history
  queued : c.outbound = true → fsFrames c.frames ++ c.fsOut = history

/-- The requests are carried out in order, and the messages with an id are their replies. -/
structure Accounted (host : Host) (root : List FileName) (c : Connection) : Prop where
  workDir : c.fs.workDir = PathBuf.display ⟨true, root⟩
  received : c.received = c.answered.map Answered.request ++ c.requests
  carriedOut : ∀ answered ∈ c.answered, ∃ state : FsState,
    state.workDir = PathBuf.display ⟨true, root⟩ ∧
      answered.response = (state.handle host answered.tree answered.request.request).response
  replies : ∃ history, Sends c (greeting :: history) ∧
    history.filter FsReply.identified = (c.answered.map Answered.reply).filter FsReply.identified

section Steps
variable {codec : Codec} {host : Host} {root : List FileName} {c t : Connection}
  {history : List FsReply}

/-- Every request keeps the work directory. -/
theorem handle_workDir (host : Host) (tree : Tree) (state : FsState) (request : FsRequest) :
    (state.handle host tree request).state.workDir = state.workDir := by
  cases request with
  | watch path => exact (startWatching_keeps host tree state path).2
  | unwatch => rfl
  | list path recursive =>
      rw [FsState.handle]
      split <;> rfl
  | read path =>
      rw [FsState.handle]
      split
      · rfl
      · split <;> rfl
  | write path content =>
      rw [FsState.handle, FsState.write]
      split
      · rfl
      · split
        · rfl
        · split <;> rfl
  | mkdir path =>
      rw [FsState.handle, FsState.mkdir]
      split
      · rfl
      · split <;> rfl
  | delete path => rfl
  | rename fromPath toPath => rfl

/-- A message that is queued comes after all others. -/
theorem Sends.queue {reply : FsReply} (sends : Sends c history) (frames : t.frames = c.frames)
    (outbound : t.outbound = c.outbound) (fsOut : t.fsOut = c.fsOut ++ [reply]) :
    Sends t (history ++ [reply]) where
  sent := by
    rw [frames]
    exact sends.sent.trans (List.prefix_append history [reply])
  queued runs := by
    rw [frames, fsOut, ← List.append_assoc, sends.queued (outbound ▸ runs)]

/-- A step that leaves the replies where they are keeps what was sent. -/
theorem Sends.keep (sends : Sends c history) (frames : fsFrames t.frames = fsFrames c.frames)
    (outbound : t.outbound = true → c.outbound = true) (fsOut : t.fsOut = c.fsOut) :
    Sends t history where
  sent := by
    rw [frames]
    exact sends.sent
  queued runs := by
    rw [frames, fsOut]
    exact sends.queued (outbound runs)

/-- A step of the agent's side keeps the account of the requests. -/
theorem Accounted.keep (accounted : Accounted host root c)
    (frames : fsFrames t.frames = fsFrames c.frames)
    (outbound : t.outbound = true → c.outbound = true) (fsOut : t.fsOut = c.fsOut)
    (workDir : t.fs.workDir = c.fs.workDir) (received : t.received = c.received)
    (answered : t.answered = c.answered)
    (requests : t.requests = c.requests) : Accounted host root t := by
  obtain ⟨history, sends, replies⟩ := accounted.replies
  refine ⟨workDir.trans accounted.workDir, ?_, ?_, history, sends.keep frames outbound fsOut, ?_⟩
  · rw [received, answered, requests]
    exact accounted.received
  · rw [answered]
    exact accounted.carriedOut
  · rw [answered]
    exact replies

/-- An unsolicited message is no reply. -/
theorem Accounted.unsolicited (accounted : Accounted host root c) {response : FsResponse}
    (frames : t.frames = c.frames)
    (outbound : t.outbound = c.outbound) (fsOut : t.fsOut = c.fsOut ++ [.unsolicited response])
    (workDir : t.fs.workDir = c.fs.workDir) (received : t.received = c.received)
    (answered : t.answered = c.answered)
    (requests : t.requests = c.requests) : Accounted host root t := by
  obtain ⟨history, sends, replies⟩ := accounted.replies
  have more := sends.queue frames outbound fsOut
  rw [List.cons_append] at more
  refine ⟨workDir.trans accounted.workDir, ?_, ?_, _, more, ?_⟩
  · rw [received, answered, requests]
    exact accounted.received
  · rw [answered]
    exact accounted.carriedOut
  · rw [answered, List.filter_append, replies]
    exact List.append_nil _

/-- A message that arrives is put on the account. -/
theorem accounted_receive (accounted : Accounted host root c) (message : WsMessage) :
    Accounted host root (c.receive codec message) := by
  cases message with
  | text text =>
      rw [Connection.receive]
      split
      · split
        · exact accounted
        · exact accounted.keep rfl id rfl rfl rfl rfl rfl
      · next envelope _ =>
        obtain ⟨history, sends, replies⟩ := accounted.replies
        refine ⟨accounted.workDir, ?_, accounted.carriedOut, history,
          sends.keep rfl id rfl, replies⟩
        rw [accounted.received, List.append_assoc]
      · exact accounted.unsolicited rfl rfl rfl rfl rfl rfl rfl
  | other => exact accounted
  | close =>
      refine accounted.keep rfl ?_ rfl rfl rfl rfl rfl
      rintro ⟨⟩

/-- Serving a request moves it from the waiting ones to the answered ones. -/
theorem accounted_work (accounted : Accounted host root c) (worked : c.work host = some t) :
    Accounted host root t := by
  rw [Connection.work] at worked
  split at worked
  · next envelope rest serving requests =>
    cases worked
    obtain ⟨history, sends, replies⟩ := accounted.replies
    let answer : Answered := ⟨c.tree, envelope, (c.fs.handle host c.tree envelope.request).response⟩
    refine ⟨?_, ?_, ?_, history ++ [answer.reply], sends.queue rfl rfl rfl, ?_⟩
    · exact (handle_workDir host c.tree c.fs envelope.request).trans accounted.workDir
    · rw [accounted.received, requests, List.map_append, List.append_assoc]
      rfl
    · intro answered member
      rcases List.mem_append.mp member with before | last
      · exact accounted.carriedOut answered before
      · exact ⟨c.fs, accounted.workDir, List.mem_singleton.mp last ▸ rfl⟩
    · rw [List.filter_append, replies, List.map_append, List.filter_append]
      rfl
  · cases worked

/-- Sending a message of the agent leaves the account as it is. -/
theorem accounted_sendAgent (accounted : Accounted host root c)
    (sent : c.sendAgent codec = some t) : Accounted host root t := by
  have stopped : false = true → c.outbound = true := by rintro ⟨⟩
  rw [Connection.sendAgent] at sent
  split at sent
  · split at sent
    · cases sent
      rw [Connection.send]
      split
      · exact accounted.keep rfl stopped rfl rfl rfl rfl rfl
      · exact accounted.keep (fsFrames_concat_agent _ _) id rfl rfl rfl rfl rfl
    · cases sent
      exact accounted.keep rfl id rfl rfl rfl rfl rfl
  · obtain ⟨_, same⟩ := Option.ite_none_right_eq_some.mp sent
    cases same
    exact accounted.keep rfl stopped rfl rfl rfl rfl rfl
  · cases sent

/-- Sending a reply moves it into the frames. -/
theorem accounted_sendFs (accounted : Accounted host root c) (sent : c.sendFs = some t) :
    Accounted host root t := by
  rw [Connection.sendFs] at sent
  split at sent
  · next reply rest outbound fsOut =>
    cases sent
    obtain ⟨history, sends, replies⟩ := accounted.replies
    have whole := sends.queued outbound
    rw [fsOut, List.append_cons] at whole
    rw [Connection.send]
    split
    · refine ⟨accounted.workDir, accounted.received, accounted.carriedOut, history,
        ⟨sends.sent, ?_⟩, replies⟩
      rintro ⟨⟩
    · refine ⟨accounted.workDir, accounted.received, accounted.carriedOut, history,
        ⟨?_, fun _ => ?_⟩, replies⟩
      · rw [fsFrames_concat_fs, ← whole]
        exact List.prefix_append _ rest
      · rw [fsFrames_concat_fs]
        exact whole
  · cases sent

/-- The step lemma. -/
theorem accounted_step {action : RelayAction} (accounted : Accounted host root c)
    (stepped : c.step codec host action = some t) : Accounted host root t := by
  cases action with
  | receive message =>
      obtain ⟨_, same⟩ := Option.ite_none_right_eq_some.mp stepped
      cases same
      exact accounted_receive accounted message
  | work => exact accounted_work accounted stepped
  | notify result =>
      obtain ⟨_, same⟩ := Option.ite_none_right_eq_some.mp stepped
      cases same
      exact accounted.keep rfl id rfl rfl rfl rfl rfl
  | forwardEvent watch =>
      rw [Connection.step] at stepped
      split at stepped
      · cases stepped
        exact accounted.unsolicited rfl rfl rfl rfl rfl rfl rfl
      · cases stepped
  | acpWrites line =>
      obtain ⟨_, same⟩ := Option.ite_none_left_eq_some.mp stepped
      cases same
      exact accounted.keep rfl id rfl rfl rfl rfl rfl
  | acpEnds | clientLeaves | outside =>
      cases stepped
      exact accounted.keep rfl id rfl rfl rfl rfl rfl
  | sendAgent => exact accounted_sendAgent accounted stepped
  | sendFs => exact accounted_sendFs accounted stepped

end Steps

section Runs
variable {codec : Codec} {host : Host} {root : List FileName} {c : Connection}

/-- In every run each request is accounted for. -/
theorem accounted_reachable (reached : (relayMachine codec host root).Reachable c) :
    Accounted host root c := by
  refine reached.invariant ?_ fun s action t accounted _ stepped => accounted_step accounted stepped
  rintro _ ⟨tree, _, rfl⟩
  exact ⟨rfl, rfl, fun _ member => absurd member List.not_mem_nil, [],
    ⟨List.nil_prefix, fun _ => rfl⟩, rfl⟩

/-- The frames of the sample are named by what they ask for. -/
def sampleCodec : Codec where
  json := ⟨fun line => if line = "null" then some .null else none, fun _ => "null"⟩
  inbound text :=
    if text = "write" then .ok (.fs ⟨some (.number "7"), .write "l/x" "text"⟩)
    else if text = "list" then .ok (.fs ⟨none, .list "." none⟩)
    else if text = "read" then .ok (.fs ⟨some (.string "r"), .read "d/x"⟩)
    else if text = "prompt" then .ok (.agent .null)
    else .error "expected value"

/-- One request is answered and two wait, with a frame that is none between them. -/
def sampleTraffic : List RelayAction :=
  [.receive (.text "write"), .sendFs, .work, .receive (.text "list"), .receive (.text "torn"),
    .acpWrites "null", .receive (.text "read")]

end Runs

/-- The actions of the agent channel, and those that concern the whole connection. -/
def agentSide (codec : Codec) : RelayAction → Bool
  | .receive (.text text) => match codec.inbound text with | .ok (.agent _) => true | _ => false
  | .receive _ | .acpWrites _ | .acpEnds | .sendAgent | .clientLeaves => true
  | _ => false

/-- The actions of the fs channel, and those that concern the whole connection. -/
def fsSide (codec : Codec) : RelayAction → Bool
  | .receive (.text text) => match codec.inbound text with | .ok (.agent _) => false | _ => true
  | .receive _ | .work | .notify _ | .forwardEvent _ | .sendFs | .clientLeaves | .outside _ => true
  | _ => false

/-- Two connections that agree on the agent channel. The first may still send when
the second does not any more. -/
structure AgentAgrees (s t : Connection) : Prop where
  acpIn : s.acpIn = t.acpIn
  acpEnded : s.acpEnded = t.acpEnded
  clientGone : s.clientGone = t.clientGone
  serving : s.serving = t.serving
  frames : agentFrames s.frames = agentFrames t.frames
  outbound : t.outbound = true → s.outbound = true ∧ s.acpOut = t.acpOut

/-- Two connections that agree on the fs channel. -/
structure FsAgrees (s t : Connection) : Prop where
  tree : s.tree = t.tree
  fs : s.fs = t.fs
  requests : s.requests = t.requests
  received : s.received = t.received
  answered : s.answered = t.answered
  notified : s.notified = t.notified
  clientGone : s.clientGone = t.clientGone
  serving : s.serving = t.serving
  frames : fsFrames s.frames = fsFrames t.frames
  outbound : t.outbound = true → s.outbound = true ∧ s.fsOut = t.fsOut

section Channels
variable {codec : Codec} {host : Host} {s t u : Connection} {action : RelayAction}

/-- Where the agent has nothing to send, sending stops once it has ended. -/
theorem sendAgent_nil (runs : t.outbound = true) (queue : t.acpOut = []) :
    t.sendAgent codec = if t.acpEnded then some { t with outbound := false } else none := by
  rw [Connection.sendAgent, runs, queue]

/-- The agent's next line is sent if it is JSON, and dropped otherwise. -/
theorem sendAgent_cons {line : String} {rest : List String} (runs : t.outbound = true)
    (queue : t.acpOut = line :: rest) :
    t.sendAgent codec = some (match codec.json.parse line with
      | some value => Connection.send { t with acpOut := rest } (.agent value)
      | none => { t with acpOut := rest }) := by
  cases t
  cases runs
  cases queue
  rw [Connection.sendAgent]
  dsimp only
  cases codec.json.parse line <;> rfl

/-- The next reply is sent as it is. -/
theorem sendFs_cons {reply : FsReply} {rest : List FsReply} (runs : t.outbound = true)
    (queue : t.fsOut = reply :: rest) :
    t.sendFs = some (Connection.send { t with fsOut := rest } (.fs reply)) := by
  cases t
  cases runs
  cases queue
  rfl

/-- A reply does not touch the agent's side. -/
theorem AgentAgrees.send_fs (agrees : AgentAgrees s t) (reply : FsReply) :
    AgentAgrees s (t.send (.fs reply)) := by
  rw [Connection.send]
  split
  · refine ⟨agrees.acpIn, agrees.acpEnded, agrees.clientGone, agrees.serving, agrees.frames, ?_⟩
    rintro ⟨⟩
  · refine ⟨agrees.acpIn, agrees.acpEnded, agrees.clientGone, agrees.serving, ?_, agrees.outbound⟩
    rw [agentFrames_concat_fs]
    exact agrees.frames

/-- Sending the same value keeps the agent's sides alike. -/
theorem AgentAgrees.send_agent (agrees : AgentAgrees s t) (value : Json) :
    AgentAgrees (s.send (.agent value)) (t.send (.agent value)) := by
  rw [Connection.send, Connection.send, agrees.clientGone]
  split
  · refine ⟨agrees.acpIn, agrees.acpEnded, rfl, agrees.serving, agrees.frames, ?_⟩
    rintro ⟨⟩
  · refine ⟨agrees.acpIn, agrees.acpEnded, rfl, agrees.serving, ?_, agrees.outbound⟩
    rw [agentFrames_concat_agent, agentFrames_concat_agent, agrees.frames]

/-- What the fs channel does is nothing to the agent channel. -/
theorem agentAgrees_dropped (agrees : AgentAgrees s t) (other : agentSide codec action = false)
    (stepped : t.step codec host action = some u) : AgentAgrees s u := by
  obtain ⟨acpIn, acpEnded, clientGone, serving, frames, outbound⟩ := agrees
  cases action with
  | receive message =>
      obtain ⟨_, same⟩ := Option.ite_none_right_eq_some.mp stepped
      cases same
      cases message with
      | text text =>
          rw [agentSide] at other
          rw [Connection.receive]
          cases decoded : codec.inbound text with
          | error error => exact ⟨acpIn, acpEnded, clientGone, serving, frames, outbound⟩
          | ok inbound =>
              cases inbound with
              | agent value =>
                  rw [decoded] at other
                  cases other
              | fs envelope => exact ⟨acpIn, acpEnded, clientGone, serving, frames, outbound⟩
      | other => cases other
      | close => cases other
  | work =>
      rw [Connection.step, Connection.work] at stepped
      split at stepped
      · cases stepped
        exact ⟨acpIn, acpEnded, clientGone, serving, frames, outbound⟩
      · cases stepped
  | notify result =>
      obtain ⟨_, same⟩ := Option.ite_none_right_eq_some.mp stepped
      cases same
      exact ⟨acpIn, acpEnded, clientGone, serving, frames, outbound⟩
  | forwardEvent watch =>
      rw [Connection.step] at stepped
      split at stepped
      · cases stepped
        exact ⟨acpIn, acpEnded, clientGone, serving, frames, outbound⟩
      · cases stepped
  | sendFs =>
      rw [Connection.step, Connection.sendFs] at stepped
      split at stepped
      · next reply rest _ _ =>
        cases stepped
        have taken : AgentAgrees s { t with fsOut := rest } :=
          ⟨acpIn, acpEnded, clientGone, serving, frames, outbound⟩
        exact taken.send_fs reply
      · cases stepped
  | outside tree =>
      cases stepped
      exact ⟨acpIn, acpEnded, clientGone, serving, frames, outbound⟩
  | acpWrites | acpEnds | sendAgent | clientLeaves => cases other

/-- The agent channel can do the same without the fs channel. -/
theorem agentAgrees_kept (agrees : AgentAgrees s t) (own : agentSide codec action = true)
    (stepped : t.step codec host action = some u) :
    ∃ v, s.step codec host action = some v ∧ AgentAgrees v u := by
  obtain ⟨acpIn, acpEnded, clientGone, serving, frames, outbound⟩ := agrees
  cases action with
  | receive message =>
      obtain ⟨serves, same⟩ := Option.ite_none_right_eq_some.mp stepped
      cases same
      refine ⟨s.receive codec message, if_pos (serving.trans serves), ?_⟩
      cases message with
      | text text =>
          rw [agentSide] at own
          rw [Connection.receive, Connection.receive]
          cases decoded : codec.inbound text with
          | error error =>
              rw [decoded] at own
              cases own
          | ok inbound =>
              cases inbound with
              | agent value =>
                  dsimp only
                  rw [acpEnded]
                  split
                  · exact ⟨acpIn, acpEnded, clientGone, serving, frames, outbound⟩
                  · exact ⟨congrArg (· ++ [codec.json.print value]) acpIn, rfl, clientGone,
                      serving, frames, outbound⟩
              | fs envelope =>
                  rw [decoded] at own
                  cases own
      | other => exact ⟨acpIn, acpEnded, clientGone, serving, frames, outbound⟩
      | close =>
          refine ⟨acpIn, acpEnded, clientGone, rfl, frames, ?_⟩
          rintro ⟨⟩
  | acpWrites line =>
      obtain ⟨lives, same⟩ := Option.ite_none_left_eq_some.mp stepped
      cases same
      refine ⟨_, if_neg (acpEnded ▸ lives), acpIn, acpEnded, clientGone, serving, frames,
        fun runs => ?_⟩
      exact ⟨(outbound runs).1, congrArg (· ++ [line]) (outbound runs).2⟩
  | acpEnds =>
      cases stepped
      exact ⟨_, rfl, acpIn, rfl, clientGone, serving, frames, outbound⟩
  | clientLeaves =>
      cases stepped
      exact ⟨_, rfl, acpIn, acpEnded, rfl, serving, frames, outbound⟩
  | sendAgent =>
      rw [Connection.step] at stepped
      rw [Connection.step]
      cases runs : t.outbound with
      | false =>
          rw [Connection.sendAgent, runs] at stepped
          cases stepped
      | true =>
          obtain ⟨still, lines⟩ := outbound runs
          cases queue : t.acpOut with
          | nil =>
              rw [sendAgent_nil runs queue] at stepped
              rw [sendAgent_nil still (lines.trans queue)]
              obtain ⟨ended, same⟩ := Option.ite_none_right_eq_some.mp stepped
              cases same
              refine ⟨_, if_pos (acpEnded.trans ended), acpIn, acpEnded, clientGone, serving,
                frames, ?_⟩
              rintro ⟨⟩
          | cons line rest =>
              have taken : AgentAgrees { s with acpOut := rest } { t with acpOut := rest } :=
                ⟨acpIn, acpEnded, clientGone, serving, frames, fun runs => ⟨(outbound runs).1, rfl⟩⟩
              rw [sendAgent_cons runs queue] at stepped
              rw [sendAgent_cons still (lines.trans queue)]
              cases stepped
              refine ⟨_, rfl, ?_⟩
              cases codec.json.parse line with
              | none => exact taken
              | some value => exact taken.send_agent value
  | work | notify | forwardEvent | sendFs | outside => cases own

/-- A message of the agent does not touch the replies. -/
theorem FsAgrees.send_agent (agrees : FsAgrees s t) (value : Json) :
    FsAgrees s (t.send (.agent value)) := by
  obtain ⟨tree, fs, requests, received, answered, notified, clientGone, serving, frames,
    outbound⟩ := agrees
  rw [Connection.send]
  split
  · refine ⟨tree, fs, requests, received, answered, notified, clientGone, serving, frames, ?_⟩
    rintro ⟨⟩
  · refine ⟨tree, fs, requests, received, answered, notified, clientGone, serving, ?_, outbound⟩
    rw [fsFrames_concat_agent]
    exact frames

/-- Sending the same reply keeps the sides of the replies alike. -/
theorem FsAgrees.send_fs (agrees : FsAgrees s t) (reply : FsReply) :
    FsAgrees (s.send (.fs reply)) (t.send (.fs reply)) := by
  obtain ⟨tree, fs, requests, received, answered, notified, clientGone, serving, frames,
    outbound⟩ := agrees
  rw [Connection.send, Connection.send, clientGone]
  split
  · refine ⟨tree, fs, requests, received, answered, notified, rfl, serving, frames, ?_⟩
    rintro ⟨⟩
  · refine ⟨tree, fs, requests, received, answered, notified, rfl, serving, ?_, outbound⟩
    rw [fsFrames_concat_fs, fsFrames_concat_fs, frames]

/-- The same message is queued on both sides. -/
theorem FsAgrees.queue (agrees : FsAgrees s t) (reply : FsReply) :
    FsAgrees { s with fsOut := s.fsOut ++ [reply] } { t with fsOut := t.fsOut ++ [reply] } := by
  obtain ⟨tree, fs, requests, received, answered, notified, clientGone, serving, frames,
    outbound⟩ := agrees
  refine ⟨tree, fs, requests, received, answered, notified, clientGone, serving, frames,
    fun runs => ?_⟩
  exact ⟨(outbound runs).1, congrArg (· ++ [reply]) (outbound runs).2⟩

/-- What the agent channel does is nothing to the fs channel. -/
theorem fsAgrees_dropped (agrees : FsAgrees s t) (other : fsSide codec action = false)
    (stepped : t.step codec host action = some u) : FsAgrees s u := by
  obtain ⟨tree, fs, requests, received, answered, notified, clientGone, serving, frames,
    outbound⟩ := agrees
  cases action with
  | receive message =>
      obtain ⟨_, same⟩ := Option.ite_none_right_eq_some.mp stepped
      cases same
      cases message with
      | text text =>
          rw [fsSide] at other
          rw [Connection.receive]
          cases decoded : codec.inbound text with
          | error error =>
              rw [decoded] at other
              cases other
          | ok inbound =>
              cases inbound with
              | agent value =>
                  dsimp only
                  split <;>
                    exact ⟨tree, fs, requests, received, answered, notified, clientGone, serving,
                      frames, outbound⟩
              | fs envelope =>
                  rw [decoded] at other
                  cases other
      | other => cases other
      | close => cases other
  | acpWrites line =>
      obtain ⟨_, same⟩ := Option.ite_none_left_eq_some.mp stepped
      cases same
      exact ⟨tree, fs, requests, received, answered, notified, clientGone, serving,
        frames, outbound⟩
  | acpEnds =>
      cases stepped
      exact ⟨tree, fs, requests, received, answered, notified, clientGone, serving,
        frames, outbound⟩
  | sendAgent =>
      rw [Connection.step] at stepped
      cases runs : t.outbound with
      | false =>
          rw [Connection.sendAgent, runs] at stepped
          cases stepped
      | true =>
          cases queue : t.acpOut with
          | nil =>
              rw [sendAgent_nil runs queue] at stepped
              obtain ⟨_, same⟩ := Option.ite_none_right_eq_some.mp stepped
              cases same
              refine ⟨tree, fs, requests, received, answered, notified, clientGone, serving,
                frames, ?_⟩
              rintro ⟨⟩
          | cons line rest =>
              have taken : FsAgrees s { t with acpOut := rest } :=
                ⟨tree, fs, requests, received, answered, notified, clientGone, serving,
                  frames, outbound⟩
              rw [sendAgent_cons runs queue] at stepped
              cases stepped
              cases codec.json.parse line with
              | none => exact taken
              | some value => exact taken.send_agent value
  | work | notify | forwardEvent | sendFs | clientLeaves | outside => cases other

/-- The fs channel can do the same without the agent channel. -/
theorem fsAgrees_kept (agrees : FsAgrees s t) (own : fsSide codec action = true)
    (stepped : t.step codec host action = some u) :
    ∃ v, s.step codec host action = some v ∧ FsAgrees v u := by
  have whole := agrees
  obtain ⟨tree, fs, requests, received, answered, notified, clientGone, serving, frames,
    outbound⟩ := agrees
  cases action with
  | receive message =>
      obtain ⟨serves, same⟩ := Option.ite_none_right_eq_some.mp stepped
      cases same
      refine ⟨s.receive codec message, if_pos (serving.trans serves), ?_⟩
      cases message with
      | text text =>
          rw [fsSide] at own
          rw [Connection.receive, Connection.receive]
          cases decoded : codec.inbound text with
          | error error => exact whole.queue _
          | ok inbound =>
              cases inbound with
              | agent value =>
                  rw [decoded] at own
                  cases own
              | fs envelope =>
                  exact ⟨tree, fs, congrArg (· ++ [envelope]) requests,
                    congrArg (· ++ [envelope]) received, answered, notified, clientGone, serving,
                      frames, outbound⟩
      | other => exact whole
      | close =>
          refine ⟨tree, ?_, requests, received, answered, notified, clientGone, rfl, frames, ?_⟩
          · rw [Connection.receive, Connection.receive, fs]
          · rintro ⟨⟩
  | work =>
      rw [Connection.step, Connection.work] at stepped
      rw [Connection.step, Connection.work, serving, requests, tree, fs, answered]
      split at stepped
      · next envelope rest serves queue =>
        cases stepped
        refine ⟨_, rfl, rfl, rfl, rfl, received, rfl, notified, clientGone, rfl, frames,
          fun runs => ?_⟩
        exact ⟨(outbound runs).1, congrArg (· ++ [_]) (outbound runs).2⟩
      · cases stepped
  | notify result =>
      obtain ⟨watches, same⟩ := Option.ite_none_right_eq_some.mp stepped
      cases same
      refine ⟨_, if_pos (fs ▸ watches), tree, fs, requests, received, answered, ?_, clientGone,
        serving, frames, outbound⟩
      rw [notified, fs]
  | forwardEvent watch =>
      rw [Connection.step] at stepped
      rw [Connection.step, notified]
      split at stepped
      · next result rest queue =>
        cases stepped
        refine ⟨_, rfl, tree, fs, requests, received, answered, rfl, clientGone, serving, frames,
          fun runs => ?_⟩
        exact ⟨(outbound runs).1, congrArg (· ++ [_]) (outbound runs).2⟩
      · cases stepped
  | sendFs =>
      rw [Connection.step] at stepped
      rw [Connection.step]
      cases runs : t.outbound with
      | false =>
          rw [Connection.sendFs, runs] at stepped
          cases stepped
      | true =>
          obtain ⟨still, queued⟩ := outbound runs
          cases queue : t.fsOut with
          | nil =>
              rw [Connection.sendFs, runs, queue] at stepped
              cases stepped
          | cons reply rest =>
              have taken : FsAgrees { s with fsOut := rest } { t with fsOut := rest } :=
                ⟨tree, fs, requests, received, answered, notified, clientGone, serving, frames,
                  fun runs => ⟨(outbound runs).1, rfl⟩⟩
              rw [sendFs_cons runs queue] at stepped
              rw [sendFs_cons still (queued.trans queue)]
              cases stepped
              exact ⟨_, rfl, taken.send_fs reply⟩
  | clientLeaves =>
      cases stepped
      exact ⟨_, rfl, tree, fs, requests, received, answered, notified, rfl, serving,
        frames, outbound⟩
  | outside changed =>
      cases stepped
      exact ⟨_, rfl, rfl, fs, requests, received, answered, notified, clientGone, serving,
        frames, outbound⟩
  | acpWrites | acpEnds | sendAgent => cases own

/-- Neither channel needs the other: without all that the fs channel did, a run is still one, with
the same lines for the ACP server and the same agent frames; without all that the agent channel did,
the files, the answers and the fs frames are the same. -/
theorem channels_independent {root : List FileName} {c : Connection} {actions : List RelayAction}
    (executed : (relayMachine codec host root).exec c actions = some t) :
    (∃ s, (relayMachine codec host root).exec c (actions.filter (agentSide codec)) = some s ∧
        s.acpIn = t.acpIn ∧
      agentFrames s.frames = agentFrames t.frames) ∧
    ∃ s, (relayMachine codec host root).exec c (actions.filter (fsSide codec)) = some s ∧
      s.tree = t.tree ∧
      s.answered = t.answered ∧ fsFrames s.frames = fsFrames t.frames := by
  constructor
  · have before : AgentAgrees c c := ⟨rfl, rfl, rfl, rfl, rfl, fun runs => ⟨runs, rfl⟩⟩
    obtain ⟨s, run, agrees⟩ :=
      @Machine.exec_filter _ _ (relayMachine codec host root) AgentAgrees (agentSide codec)
      (fun _ _ _ _ agrees own stepped => agentAgrees_kept agrees own stepped)
      (fun _ _ _ _ agrees other stepped => agentAgrees_dropped agrees other stepped) c c t actions
        before executed
    exact ⟨s, run, agrees.acpIn, agrees.frames⟩
  · have before : FsAgrees c c :=
      ⟨rfl, rfl, rfl, rfl, rfl, rfl, rfl, rfl, rfl, fun runs => ⟨runs, rfl⟩⟩
    obtain ⟨s, run, agrees⟩ :=
      @Machine.exec_filter _ _ (relayMachine codec host root) FsAgrees (fsSide codec)
      (fun _ _ _ _ agrees own stepped => fsAgrees_kept agrees own stepped)
      (fun _ _ _ _ agrees other stepped => fsAgrees_dropped agrees other stepped) c c t actions
        before executed
    exact ⟨s, run, agrees.tree, agrees.answered, agrees.frames⟩

/-- A request and its answer, and lines to and from the ACP server, mixed. -/
def mixedTraffic : List RelayAction :=
  [.receive (.text "write"), .acpWrites "null", .receive (.text "prompt"), .work, .sendAgent,
    .sendFs, .sendFs]

/-- Each channel comes through without the other. -/
theorem channels_independent_sample :
    (∃ s, (relayMachine sampleCodec sampleHost [workName]).exec (.initial [workName] sampleTree)
        [.acpWrites "null", .receive (.text "prompt"), .sendAgent] = some s ∧ s.acpIn = ["null"] ∧
          agentFrames s.frames = [.null]) ∧
      ∃ s t, (relayMachine sampleCodec sampleHost [workName]).exec (.initial [workName] sampleTree)
          mixedTraffic =
          some t ∧
        (relayMachine sampleCodec sampleHost [workName]).exec (.initial [workName] sampleTree)
          [.receive (.text "write"), .work, .sendFs, .sendFs] = some s ∧ s.tree = t.tree ∧
          s.answered = t.answered ∧
        fsFrames s.frames = [greeting, ⟨some (.number "7"), .writeSuccess "l/x"⟩] := by
  obtain ⟨t, executed⟩ : ∃ t, (relayMachine sampleCodec sampleHost [workName]).exec
      (.initial [workName] sampleTree)
      mixedTraffic = some t := ⟨_, rfl⟩
  obtain ⟨⟨agent, agentRun, lines, agentSame⟩, fs, fsRun, tree, answered, fsSame⟩ :=
    @channels_independent sampleCodec sampleHost t [workName] (.initial [workName] sampleTree)
      mixedTraffic executed
  refine ⟨⟨agent, agentRun, ?_, ?_⟩, fs, t, executed, fsRun, tree, answered, ?_⟩
  · cases executed
    exact lines
  · cases executed
    exact agentSame
  · cases executed
    exact fsSame

end Channels

end Openheim.Transport
