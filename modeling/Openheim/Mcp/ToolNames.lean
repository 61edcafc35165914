import Openheim.Library.Hex
import Openheim.Library.SortedMap
import Openheim.Library.Utf8
import Openheim.Runtime.ToolScopes

/-
This file follows `exposed_tool_name` of `src/mcp/mod.rs` and the registry of `src/tools/mod.rs`, in
which the tools of the MCP servers stand beside the built-in ones.
-/

namespace Openheim.Mcp

/-- The longest tool name that every provider accepts. -/
def maxToolNameLen : Nat := 64

/-- The 64-bit FNV-1a hash. -/
def fnv1a (bytes : List UInt8) : UInt64 :=
  bytes.foldl (fun hash byte => (hash ^^^ byte.toUInt64) * 0x100000001b3) 0xcbf29ce484222325

/-- Other characters than ASCII letters, digits and those that are kept become underscores. -/
def clean (keep : Char → Bool) (text : List Char) : List Char :=
  text.map fun char => if char.isAlphanum || keep char then char else '_'

/-- The clean names of the server and the tool, with an underscore in front of a digit. -/
def fullName (server tool : String) : List Char :=
  let name := clean (fun char => char = '_') server.toList ++ ['_', '_'] ++
    clean (fun char => char = '_' || char = '-') tool.toList
  if name.head?.any Char.isDigit then '_' :: name else name

/-- The low half of the hash of the names as they are, in hexadecimal digits. -/
def nameHash (server tool : String) : List Char :=
  '_' :: Hex.write 8
    (fnv1a (Utf8.encode (server.toList ++ ['_', '_'] ++ tool.toList))).toUInt32.toNat

/-- The name under which the tool of a server is offered. -/
def exposedToolName (server tool : String) : String :=
  let name := fullName server tool
  if name.length > maxToolNameLen then
    String.ofList (name.take (maxToolNameLen - (nameHash server tool).length) ++
      nameHash server tool)
  else String.ofList name

/-- A tool as its server lists it. -/
structure McpTool where
  name : String
  description : Option String
  inputSchema : String
  deriving DecidableEq, Repr

/-- The servers that connected, in the order of their names, with their tools. -/
structure McpServers where
  servers : List (String × List McpTool)
  ordered : (servers.map Prod.fst).Pairwise (· < ·)
  distinct : ∀ entry ∈ servers, (entry.2.map McpTool.name).Nodup

/-- The handler of a tool: calls go to the server under the tool's own name, and
the model is shown the rest. -/
structure McpToolHandler where
  client : String
  toolName : String
  prefixedName : String
  description : String
  schema : String
  deriving DecidableEq, Repr

def McpToolHandler.new (client : String) (tool : McpTool) (prefixedName : String) :
    McpToolHandler :=
  { client, toolName := tool.name, prefixedName, description := tool.description.getD "",
    schema := tool.inputSchema }

/-- The handlers of the tools of one server. -/
def connectServer (server : String) (tools : List McpTool) : List McpToolHandler :=
  tools.map fun tool => McpToolHandler.new server tool (exposedToolName server tool.name)

/-- The handlers of all servers, one server after the other. -/
def loadMcpTools (configured : McpServers) : List McpToolHandler :=
  configured.servers.flatMap fun entry => connectServer entry.1 entry.2

inductive Registered where
  | builtin (tool : Tools.Tool)
  | mcp (handler : McpToolHandler)
  deriving DecidableEq, Repr

def Registered.name : Registered → String
  | .builtin tool => tool.name
  | .mcp handler => handler.prefixedName

/-- A handler of the same name is overwritten. -/
def register (executor : List (String × Registered)) (handler : Registered) :
    List (String × Registered) :=
  SortedMap.insert handler.name handler executor

def build (allowShell : Bool) (configured : McpServers) : List (String × Registered) :=
  ((Runtime.builtinTools allowShell).map Registered.builtin ++ (loadMcpTools configured).map
    Registered.mcp).foldl
    register []

end Openheim.Mcp
