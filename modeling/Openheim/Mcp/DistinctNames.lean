import Openheim.Mcp.ToolNames

/-
This file shows when the tools of all MCP servers keep distinct names, so that every tool is
reached.
-/

namespace Openheim.Mcp

/-- Every provider accepts the name. -/
def Acceptable (name : String) : Prop :=
  1 ≤ name.toList.length ∧ name.toList.length ≤ maxToolNameLen ∧
    (∀ first ∈ name.toList.head?, first.isAlpha = true ∨ first = '_') ∧
      ∀ char ∈ name.toList, char.isAlphanum = true ∨ char = '_' ∨ char = '-'

/-- The first part of a name that is too long. -/
def shortened (pair : String × String) : List Char := (fullName pair.1 pair.2).take 55

/-- Two tools clash if their clean names are the same and not too long; if both are too
long, with the same first part and the same hash; or if the clean name of one is the first
part of the other and its hash. -/
def Clash (a b : String × String) : Prop :=
  let long (pair : String × String) := maxToolNameLen < (fullName pair.1 pair.2).length
  (¬ long a ∧ ¬ long b ∧ fullName a.1 a.2 = fullName b.1 b.2) ∨
    (long a ∧ long b ∧ shortened a = shortened b ∧ nameHash a.1 a.2 = nameHash b.1 b.2) ∨
      (¬ long a ∧ long b ∧ fullName a.1 a.2 = shortened b ++ nameHash b.1 b.2) ∨
        (long a ∧ ¬ long b ∧ shortened a ++ nameHash a.1 a.2 = fullName b.1 b.2)

/-- The pairs of a server and one of its tools. -/
def McpServers.pairs (configured : McpServers) : List (String × String) :=
  configured.servers.flatMap fun entry => entry.2.map fun tool => (entry.1, tool.name)

/-- The names are acceptable and distinct, and a call under the name of a tool
reaches the handler of that tool. -/
structure KeepsNames (allowShell : Bool) (configured : McpServers) : Prop where
  acceptable : ∀ pair ∈ configured.pairs, Acceptable (exposedToolName pair.1 pair.2)
  distinct : ∀ a ∈ configured.pairs, ∀ b ∈ configured.pairs, a ≠ b →
    exposedToolName a.1 a.2 ≠ exposedToolName b.1 b.2
  reached : ∀ entry ∈ configured.servers, ∀ tool ∈ entry.2,
    (build allowShell configured).lookup (exposedToolName entry.1 tool.name) =
      some (.mcp (McpToolHandler.new entry.1 tool (exposedToolName entry.1 tool.name)))

section Names
variable {server tool : String}

theorem nameHash_length (server tool : String) : (nameHash server tool).length = 9 := by
  rw [nameHash, List.length_cons, Hex.write_length]

/-- The characters that a provider accepts. -/
def isNameChar (char : Char) : Bool := char.isAlphanum || char = '_' || char = '-'

theorem isNameChar_of_mem_clean {keep : Char → Bool}
    (kept : ∀ char, keep char = true → isNameChar char = true)
    {text : List Char} {char : Char} (member : char ∈ clean keep text) :
    isNameChar char = true := by
  obtain ⟨old, _, rfl⟩ := List.mem_map.mp member
  split
  · next accepted =>
    rcases Bool.or_eq_true_iff.mp accepted with plain | own
    · simp [isNameChar, plain]
    · exact kept old own
  · rfl

/-- The full name has at least the two underscores, its characters are accepted, and it starts with
a letter or an underscore. -/
theorem fullName_chars (server tool : String) :
    (∀ char ∈ fullName server tool, isNameChar char = true) ∧ 2 ≤ (fullName server tool).length ∧
      ∀ first ∈ (fullName server tool).head?, first.isAlpha = true ∨ first = '_' := by
  have chars : ∀ char ∈ clean (fun char => char = '_') server.toList ++ ['_', '_'] ++
      clean (fun char => char = '_' || char = '-') tool.toList, isNameChar char = true := by
    intro char member
    rcases List.mem_append.mp member with front | last
    · rcases List.mem_append.mp front with own | separator
      · exact isNameChar_of_mem_clean (by simp [isNameChar]) own
      · simp only [List.mem_cons, List.not_mem_nil, or_false, or_self] at separator
        rw [separator]
        rfl
    · exact isNameChar_of_mem_clean (by simp [isNameChar]) last
  rw [fullName]
  split
  · refine ⟨List.forall_mem_cons.mpr ⟨rfl, chars⟩, ?_, ?_⟩
    · simp only [List.length_cons, List.length_append]
      omega
    · rintro first ⟨⟩
      exact .inr rfl
  · next plain =>
    refine ⟨chars, ?_, fun first present => ?_⟩
    · simp only [List.length_append, List.length_cons]
      omega
    · rw [Option.mem_def] at present
      have digitless : first.isDigit = false := by
        rw [present] at plain
        simpa using plain
      cases letters : server.toList with
      | nil =>
          simp only [letters, clean, List.map_nil, List.nil_append, List.cons_append,
            List.head?_cons, Option.some.injEq] at present
          exact .inr present.symm
      | cons letter rest =>
          simp only [letters, clean, List.map_cons, List.cons_append, List.head?_cons,
            Option.some.injEq] at present
          split at present
          · next accepted =>
            subst present
            simp only [Char.isAlphanum, digitless, Bool.or_false, Bool.or_eq_true,
              decide_eq_true_eq] at accepted
            exact accepted
          · exact .inr present.symm

theorem isNameChar_of_mem_nameHash {char : Char} (member : char ∈ nameHash server tool) :
    isNameChar char = true := by
  rcases List.mem_cons.mp member with rfl | digit
  · rfl
  · obtain ⟨low, small, rfl⟩ := Hex.mem_write digit
    interval_cases low <;> decide

theorem shortened_length {pair : String × String}
    (long : maxToolNameLen < (fullName pair.1 pair.2).length) :
    (shortened pair).length = 55 := by
  rw [shortened, List.length_take]
  rw [maxToolNameLen] at long
  omega

/-- Too long names are cut so that their hash fits. -/
theorem exposedToolName_toList (server tool : String) :
    (exposedToolName server tool).toList =
      if maxToolNameLen < (fullName server tool).length then
        shortened (server, tool) ++ nameHash server tool
      else fullName server tool := by
  rw [exposedToolName]
  split
  · rw [String.toList_ofList, nameHash_length]
    rfl
  · rw [String.toList_ofList]

theorem exposedToolName_acceptable (server tool : String) :
    Acceptable (exposedToolName server tool) := by
  obtain ⟨chars, many, first⟩ := fullName_chars server tool
  have accepted {char : Char} (name : isNameChar char = true) :
      char.isAlphanum = true ∨ char = '_' ∨ char = '-' := by
    simpa [isNameChar, or_assoc] using name
  rw [Acceptable, exposedToolName_toList]
  split
  · next long =>
    have head : (shortened (server, tool) ++ nameHash server tool).head? =
        (fullName server tool).head? := by
      cases name : fullName server tool with
      | nil => simp [name] at many
      | cons first rest => simp [shortened, name]
    rw [List.length_append, @shortened_length (server, tool) long, nameHash_length]
    refine ⟨by decide, by decide, head ▸ first, fun char member => accepted ?_⟩
    rcases List.mem_append.mp member with front | last
    · exact chars char (List.mem_of_mem_take front)
    · exact isNameChar_of_mem_nameHash last
  · next fits =>
      exact ⟨Nat.le_of_succ_le many, Nat.le_of_not_lt fits, first,
        fun char member => accepted (chars char member)⟩

/-- Two tools get the same name exactly when they clash. -/
theorem exposedToolName_eq_iff (a b : String × String) :
    exposedToolName a.1 a.2 = exposedToolName b.1 b.2 ↔ Clash a b := by
  rw [← String.toList_inj, exposedToolName_toList, exposedToolName_toList, Clash]
  by_cases first : maxToolNameLen < (fullName a.1 a.2).length
  · by_cases second : maxToolNameLen < (fullName b.1 b.2).length
    · simp only [first, second, if_true, not_true_eq_false, false_and, true_and, or_false, false_or]
      constructor
      · exact fun same =>
          List.append_inj same ((shortened_length first).trans (shortened_length second).symm)
      · exact fun ⟨part, hash⟩ => by rw [part, hash]
    · simp [first, second]
  · by_cases second : maxToolNameLen < (fullName b.1 b.2).length
    · simp [first, second]
    · simp [first, second]

end Names

section Registry
variable {executor : List (String × Registered)} {handlers : List Registered}

theorem lookup_foldl_register_of_ne {called : String}
    (others : ∀ handler ∈ handlers, handler.name ≠ called) :
    (handlers.foldl register executor).lookup called = executor.lookup called := by
  induction handlers generalizing executor with
  | nil => rfl
  | cons handler rest ih =>
      obtain ⟨first, others⟩ := List.forall_mem_cons.mp others
      rw [List.foldl_cons, ih others]
      exact SortedMap.lookup_insert_of_ne first.symm _ _

/-- Handlers with distinct names are all reached. -/
theorem lookup_foldl_register (distinct : (handlers.map Registered.name).Nodup)
    {handler : Registered}
    (member : handler ∈ handlers) :
    (handlers.foldl register executor).lookup handler.name = some handler := by
  induction handlers generalizing executor with
  | nil => cases member
  | cons first rest ih =>
      obtain ⟨fresh, distinct⟩ := List.nodup_cons.mp distinct
      rw [List.foldl_cons]
      rcases List.mem_cons.mp member with rfl | later
      · rw [lookup_foldl_register_of_ne fun other inside same =>
          fresh (List.mem_map.mpr ⟨other, inside, same⟩)]
        exact SortedMap.lookup_insert_self _ _ _
      · exact ih distinct later

variable (configured : McpServers)

/-- No tool is there twice. -/
theorem pairs_nodup : configured.pairs.Nodup := by
  refine List.nodup_flatMap.mpr ⟨fun entry member => ?_, ?_⟩
  · have named : entry.2.map (fun tool => (entry.1, tool.name)) =
        (entry.2.map McpTool.name).map fun name => (entry.1, name) := (List.map_map).symm
    rw [named]
    exact (configured.distinct entry member).map fun one other same => (Prod.mk.inj same).2
  · refine (List.pairwise_map.mp configured.ordered).imp fun {one other} before => ?_
    intro pair inFirst inSecond
    obtain ⟨_, _, rfl⟩ := List.mem_map.mp inFirst
    obtain ⟨_, _, same⟩ := List.mem_map.mp inSecond
    exact String.lt_irrefl _ ((Prod.mk.inj same).1 ▸ before)

theorem names_loadMcpTools : ((loadMcpTools configured).map Registered.mcp).map Registered.name =
    configured.pairs.map fun pair => exposedToolName pair.1 pair.2 := by
  rw [loadMcpTools, McpServers.pairs, List.map_map, List.map_flatMap, List.map_flatMap]
  refine List.flatMap_congr fun entry _ => ?_
  rw [connectServer, List.map_map, List.map_map]
  rfl

/-- The tools of all servers have acceptable and distinct names and are all reached exactly when no
two of them clash. -/
theorem keepsNames_iff (allowShell : Bool) :
    KeepsNames allowShell configured ↔ ∀ a ∈ configured.pairs, ∀ b ∈ configured.pairs, a ≠ b →
      ¬ Clash a b := by
  constructor
  · intro keeps a first b second different clash
    exact keeps.distinct a first b second different ((exposedToolName_eq_iff a b).mpr clash)
  · intro apart
    have distinct : ∀ a ∈ configured.pairs, ∀ b ∈ configured.pairs, a ≠ b →
        exposedToolName a.1 a.2 ≠ exposedToolName b.1 b.2 :=
      fun a first b second different same =>
        apart a first b second different ((exposedToolName_eq_iff a b).mp same)
    refine ⟨fun pair _ => exposedToolName_acceptable pair.1 pair.2, distinct,
      fun entry member tool listed => ?_⟩
    have names : (((loadMcpTools configured).map Registered.mcp).map Registered.name).Nodup := by
      rw [names_loadMcpTools]
      exact (pairs_nodup configured).map_on fun a first b second same => by_contra fun different =>
        distinct a first b second different same
    rw [build, List.foldl_append]
    have handled : McpToolHandler.new entry.1 tool (exposedToolName entry.1 tool.name) ∈
        loadMcpTools configured :=
      List.mem_flatMap.mpr ⟨entry, member, List.mem_map_of_mem listed⟩
    exact lookup_foldl_register names (List.mem_map_of_mem handled)

/-- Two servers whose names and tools meet at the separator. -/
def meetingServers : McpServers where
  servers := [("a", [⟨"b__c", none, ""⟩]), ("a__b", [⟨"c", none, ""⟩])]
  ordered := by decide
  distinct := by decide

/-- The tool of the first server is replaced by that of the second one. -/
theorem meetingServers_clash : ¬ KeepsNames false meetingServers := by
  intro keeps
  exact keeps.distinct ("a", "b__c") (by decide) ("a__b", "c") (by decide) (by decide) (by decide)

end Registry

end Openheim.Mcp
