import Mathlib.Data.List.Perm.Subperm
import Openheim.Rag.CurrentVectors
import Openheim.Rag.Search
import Openheim.Rag.StoreKeys

/-
This file shows when a search returns each note at most once, whatever other calls do between its
queries.
-/

namespace Openheim.Rag

variable {V Score : Type}

/-- The hits of one query: each note once, found by one method. -/
structure Finds (method : SearchMethod) (hits : List (MemoryHit Score)) : Prop where
  distinct : (hits.map fun hit => hit.record.id).Nodup
  found : ∀ hit ∈ hits, hit.method = method

/-- Distinct rows stay distinct in a query that returns each of them at most once. -/
theorem nodup_of_subperm {A B : Type} {result table : List A} (sub : result.Subperm table)
    {key : A → B} (distinct : (table.map key).Nodup) : (result.map key).Nodup := by
  obtain ⟨rows, same, inside⟩ := sub
  exact (same.map key).nodup_iff.mp (distinct.sublist (inside.map key))

namespace VectorStore
variable {engine : SearchEngine V Score} {store : VectorStore V}

/-- A keyword query finds notes once, and on request none that has a vector. -/
theorem keyword_finds (lawful : engine.Lawful) (keyed : store.Keyed) (query : String) (k : Nat)
    (only : Bool) :
    Finds .keyword (store.keyword engine query k only) ∧
      (store.keyword engine query k only).length ≤ k ∧
      (only = true → ∀ hit ∈ store.keyword engine query k only,
          store.isEmbedded hit.record.id = false) := by
  unfold VectorStore.keyword
  cases ftsQuery engine.isAlphanumeric query with
  | none => exact ⟨⟨List.nodup_nil, nofun⟩, Nat.zero_le _, nofun⟩
  | some expression =>
      dsimp only
      split
      · exact ⟨⟨List.nodup_nil, nofun⟩, Nat.zero_le _, nofun⟩
      refine ⟨⟨?_, fun hit member => ?_⟩, ?_, fun wanted hit member => ?_⟩
      · rw [List.map_map]
        have rows := nodup_of_subperm (lawful.matching expression store.memories) keyed.memories
        rw [List.map_map] at rows
        exact rows.sublist (((List.take_sublist _ _).trans List.filter_sublist).map _)
      · obtain ⟨found, _, rfl⟩ := List.mem_map.mp member
        rfl
      · rw [List.length_map]
        exact List.length_take_le _ _
      · obtain ⟨found, inside, rfl⟩ := List.mem_map.mp member
        have kept := (List.mem_filter.mp (List.mem_of_mem_take inside)).2
        cases present : store.vectors with
        | none => simp [isEmbedded, present]
        | some rows => simpa [wanted, present] using kept

/-- A vector query finds notes once, and only notes that have a vector. -/
theorem searchSemantic_finds (lawful : engine.Lawful) (keyed : store.Keyed) (query : V) (k : Nat) :
    Finds .semantic (store.searchSemantic engine query k) ∧
      ∀ hit ∈ store.searchSemantic engine query k, store.isEmbedded hit.record.id = true := by
  unfold VectorStore.searchSemantic
  cases present : store.vectors with
  | none => exact ⟨⟨List.nodup_nil, nofun⟩, nofun⟩
  | some rows =>
      dsimp only
      split
      · exact ⟨⟨List.nodup_nil, nofun⟩, nofun⟩
      have distinct := keyed.vectors
      rw [present, Option.getD_some] at distinct
      have nearest : ((engine.nearest query k rows).map Prod.fst).Nodup := by
        obtain ⟨kept, same, inside⟩ := lawful.nearest query k rows
        exact same.nodup_iff.mp (distinct.sublist inside)
      have hit_id {found : Nat × Score} {hit : MemoryHit Score}
          (joined : ((store.memories.find? fun record => record.id = found.1).map fun record =>
            (⟨record, found.2, .semantic⟩ : MemoryHit Score)) = some hit) :
          hit.record.id = found.1 ∧ hit.method = .semantic := by
        obtain ⟨record, present, rfl⟩ := Option.map_eq_some_iff.mp joined
        exact ⟨by simpa using List.find?_some present, rfl⟩
      refine ⟨⟨?_, fun hit member => ?_⟩, fun hit member => ?_⟩
      · refine List.pairwise_map.mpr
          (List.pairwise_filterMap.mpr ((List.pairwise_map.mp nearest).imp ?_))
        intro first second apart one found other also
        rw [(hit_id found).1, (hit_id also).1]
        exact apart
      · obtain ⟨found, _, joined⟩ := List.mem_filterMap.mp member
        exact (hit_id joined).2
      · obtain ⟨found, inside, joined⟩ := List.mem_filterMap.mp member
        have listed :=
          List.Subperm.subset (lawful.nearest query k rows) (List.mem_map_of_mem inside)
        obtain ⟨row, stored, same⟩ := List.mem_map.mp listed
        simp only [isEmbedded, present, Option.getD_some]
        exact List.any_eq_true.mpr ⟨row, stored, decide_eq_true (same.trans (hit_id joined).1.symm)⟩

end VectorStore

/-- The search has at most `k` hits, each note once, and the hits by keyword come first. When hits
by vector follow, the notes of the others have no vector. -/
structure Returned.Once (returned : Returned V Score) : Prop where
  few : returned.found.hits.length ≤ returned.k
  distinct : (returned.found.hits.map fun hit => hit.record.id).Nodup
  ordered : ∃ keyword semantic, returned.found.hits = keyword ++ semantic ∧
    (∀ hit ∈ keyword, hit.method = .keyword) ∧ (∀ hit ∈ semantic, hit.method = .semantic) ∧
      (semantic ≠ [] → ∀ hit ∈ keyword, returned.store.isEmbedded hit.record.id = false)

namespace SearchedMemory
variable {engine : SearchEngine V Score} {embedder : Option (Embedder V)}
  {w t : SearchedMemory V Score}

/-- When a search asks for the nearest vectors, no note that it found by keyword got a vector in the
meantime, or there is no place left for another hit. -/
def FoundStayUnembedded (w : SearchedMemory V Score) : MemoryAction → Prop
  | .advance number _ true => ∀ query k vector unindexed hits,
      w.memory.calls number = some ⟨.search query k, .storing (some vector)⟩ →
        w.progress number = .vectors unindexed hits → hits.length < k →
          ∀ hit ∈ hits, w.memory.store.isEmbedded hit.record.id = false
  | _ => True

/-- The tables keep their keys, and every search holds and returns each note at most once. -/
structure SearchInvariant (w : SearchedMemory V Score) : Prop where
  store : w.memory.store.Keyed
  progress : ∀ number unindexed hits, w.progress number = .vectors unindexed hits →
    Finds .keyword hits
  returned : ∀ returned ∈ w.returned, returned.Once

theorem SearchInvariant.progressed (inv : SearchInvariant w) {number : Nat}
    {next : SearchProgress Score}
    (finds : ∀ unindexed hits, next = .vectors unindexed hits → Finds .keyword hits) :
    ∀ other unindexed hits, Function.update w.progress number next other = .vectors unindexed hits →
      Finds .keyword hits := by
  intro other unindexed hits at_
  rw [Function.update_apply] at at_
  split at at_
  · exact finds unindexed hits at_
  · exact inv.progress other unindexed hits at_

/-- A search that returns each note at most once keeps the invariant. -/
theorem SearchInvariant.answer (inv : SearchInvariant w) {number k : Nat}
    {found : MemorySearch Score}
    (once : Returned.Once ⟨k, found, w.memory.store⟩) :
    SearchInvariant (w.answer number k found) := by
  have counting : ∀ unindexed hits, (.counting : SearchProgress Score) = .vectors unindexed hits →
      Finds .keyword hits := nofun
  refine ⟨inv.store, inv.progressed counting, ?_⟩
  exact List.forall_mem_append.mpr ⟨inv.returned, List.forall_mem_singleton.mpr once⟩

/-- The hits by keyword and then those by vector, up to the bound. -/
theorem once_of_finds (lawful : engine.Lawful) {store : VectorStore V} (keyed : store.Keyed)
    {k unindexed : Nat} {vector : V} {hits : List (MemoryHit Score)} (finds : Finds .keyword hits)
    (stay : hits.length < k → ∀ hit ∈ hits, store.isEmbedded hit.record.id = false) :
    Returned.Once ⟨k, ⟨(hits ++ store.searchSemantic engine vector k).take k, false, unindexed⟩,
        store⟩ := by
  obtain ⟨semantic, embedded⟩ := VectorStore.searchSemantic_finds lawful keyed vector k
  refine ⟨List.length_take_le _ _, ?_, ?_⟩
  · by_cases room : hits.length < k
    · refine List.Nodup.sublist ((List.take_sublist _ _).map _) ?_
      rw [List.map_append]
      refine List.nodup_append.mpr ⟨finds.distinct, semantic.distinct, ?_⟩
      intro id inFirst other inSecond same
      obtain ⟨first, member, rfl⟩ := List.mem_map.mp inFirst
      obtain ⟨second, also, rfl⟩ := List.mem_map.mp inSecond
      have without := stay room first member
      rw [same, embedded second also] at without
      cases without
    · rw [List.take_append_of_le_length (Nat.le_of_not_lt room)]
      exact finds.distinct.sublist ((List.take_sublist _ _).map _)
  · refine ⟨hits.take k, (store.searchSemantic engine vector k).take (k - hits.length),
      List.take_append, ?_, ?_, ?_⟩
    · exact fun hit member => finds.found hit (List.mem_of_mem_take member)
    · exact fun hit member => semantic.found hit (List.mem_of_mem_take member)
    · intro follow hit member
      refine stay ?_ hit (List.mem_of_mem_take member)
      by_contra full
      rw [Nat.sub_eq_zero_of_le (Nat.le_of_not_lt full)] at follow
      exact follow rfl

/-- A step that only moves the memory keeps the invariant. -/
theorem SearchInvariant.moved (inv : SearchInvariant w) {action : MemoryAction}
    {memory : LongTermMemory V}
    (stepped : LongTermMemory.memoryStep embedder w.memory action = some memory) :
    SearchInvariant { w with memory } := by
  obtain ⟨size, moves⟩ := LongTermMemory.memoryStep_moves stepped
  exact ⟨inv.store.moves moves, inv.progress, inv.returned⟩

/-- A query of a search keeps the invariant if the notes that it found have no vector yet. -/
theorem SearchInvariant.advanceSearch (lawful : engine.Lawful) (inv : SearchInvariant w)
    {number k : Nat} {query : String} {vector : Option V}
    (stay : ∀ given unindexed hits, vector = some given →
      w.progress number = .vectors unindexed hits →
      hits.length < k → ∀ hit ∈ hits, w.memory.store.isEmbedded hit.record.id = false) :
    SearchInvariant (w.advanceSearch engine embedder number query k vector) := by
  cases vector with
  | none =>
      obtain ⟨finds, few, -⟩ := VectorStore.keyword_finds lawful inv.store query k false
      exact inv.answer ⟨few, finds.distinct, _, [], (List.append_nil _).symm, finds.found, nofun,
        fun absent => absurd rfl absent⟩
  | some given =>
      simp only [SearchedMemory.advanceSearch]
      split
      · refine ⟨inv.store, inv.progressed fun unindexed hits at_ => ?_, inv.returned⟩
        split at at_
        · cases at_
        · cases at_
          exact ⟨List.nodup_nil, nofun⟩
      · refine ⟨inv.store, inv.progressed fun unindexed hits at_ => ?_, inv.returned⟩
        cases at_
        exact (VectorStore.keyword_finds lawful inv.store query k true).1
      · next unindexed hits at_ =>
        exact inv.answer (once_of_finds lawful inv.store (inv.progress _ _ _ at_)
          (stay given unindexed hits rfl at_))

theorem SearchInvariant.step (lawful : engine.Lawful) (inv : SearchInvariant w)
    {action : MemoryAction}
    (permitted : w.FoundStayUnembedded action)
    (stepped : searchStep engine embedder w action = some t) :
    SearchInvariant t := by
  unfold searchStep at stepped
  split at stepped
  · next number query k =>
    obtain ⟨memory, moved, rfl⟩ := Option.map_eq_some_iff.mp stepped
    have kept := inv.moved moved
    split
    · refine ⟨kept.store, kept.progress,
        List.forall_mem_append.mpr ⟨inv.returned, List.forall_mem_singleton.mpr ?_⟩⟩
      exact ⟨Nat.zero_le _, List.nodup_nil, [], [], rfl, nofun, nofun, nofun⟩
    · exact ⟨kept.store, inv.progressed nofun, inv.returned⟩
  · next number answer =>
    split at stepped
    · next query k vector running =>
      cases stepped
      refine inv.advanceSearch lawful fun given unindexed hits present at_ => ?_
      exact permitted query k given unindexed hits (present ▸ running) at_
    · obtain ⟨memory, moved, rfl⟩ := Option.map_eq_some_iff.mp stepped
      exact inv.moved moved
  · obtain ⟨memory, moved, rfl⟩ := Option.map_eq_some_iff.mp stepped
    exact inv.moved moved

/-- In every run in which no note gets a vector between the two queries that both find it,
every search returns at most as many hits as it was asked for, each note once, and first
those that it found by keyword. -/
theorem search_once (lawful : engine.Lawful)
    (reached : (searchMachine engine embedder).ReachableUnder FoundStayUnembedded w) :
    ∀ returned ∈ w.returned, returned.Once := by
  have inv : SearchInvariant w := by
    apply reached.invariant
    · intro first start
      obtain ⟨-, memories, vectors, counting, fresh⟩ := start
      refine ⟨⟨memories, vectors⟩, fun number unindexed hits at_ => ?_, fresh ▸ nofun⟩
      rw [counting number] at at_
      cases at_
    · intro before action after inv permitted stepped
      exact inv.step lawful permitted stepped
  exact inv.returned

/-- In the sample runs every note matches, and the vectors are found in the order of their rows. -/
def plainEngine : SearchEngine (List Nat) Unit where
  isAlphanumeric := Char.isAlphanum
  matching _ memories := memories.map fun record => (record, ())
  nearest _ count rows := (rows.take count).map fun row => (row.1, ())

theorem plainEngine_lawful : plainEngine.Lawful where
  matching _ memories := by
    simp only [plainEngine, List.map_map, Function.comp_def, List.map_id_fun', id]
    exact List.Subperm.refl _
  nearest _ count rows := by
    simp only [plainEngine, List.map_map]
    exact ((List.take_sublist count rows).map Prod.fst).subperm
  few _ count rows := by
    rw [plainEngine, List.length_map]
    exact List.length_take_le _ _

def emptySearchedMemory : SearchedMemory (List Nat) Unit :=
  ⟨LongTermMemory.emptyMemory, fun _ => .counting, []⟩

theorem emptySearchedMemory_start :
    (searchMachine plainEngine (some LongTermMemory.lengthEmbedder)).start emptySearchedMemory :=
  ⟨LongTermMemory.emptyMemory_start, List.nodup_nil, List.nodup_nil, fun _ => rfl, rfl⟩

/-- A note is saved while the provider fails. A search finds it by keyword. -/
def foundByKeyword : List MemoryAction :=
  [.start 0 (.remember "tea"), .advance 0 .transient true, .advance 0 .transient true,
    .start 1 (.search "tea" 5), .advance 1 .vectors true, .advance 1 .vectors true,
    .advance 1 .vectors true, .advance 1 .vectors true,
    .advance 1 .transient true, .advance 1 .vectors true, .advance 1 .vectors true]

theorem search_once_sample : ∃ w : SearchedMemory (List Nat) Unit,
    (w.returned.map fun returned => returned.found) =
      [⟨[⟨⟨1, "tea", 0⟩, (), .keyword⟩], false, 1⟩] ∧
      ∀ returned ∈ w.returned, returned.Once := by
  have executed : (searchMachine plainEngine (some LongTermMemory.lengthEmbedder)).exec
    emptySearchedMemory
    (foundByKeyword ++ [.advance 1 .vectors true]) = some _ := rfl
  have permitted : (searchMachine plainEngine (some LongTermMemory.lengthEmbedder)).Permits
      FoundStayUnembedded
      emptySearchedMemory (foundByKeyword ++ [.advance 1 .vectors true]) := by
    repeat
      refine Machine.permits_cons ?_ rfl ?_
      · first
        | trivial
        | intro query k vector unindexed hits running at_
          cases at_
    refine ⟨fun query k vector unindexed hits running at_ room hit member => ?_, fun _ _ => trivial⟩
    cases at_
    rw [List.mem_singleton.mp member]
    rfl
  exact ⟨_, rfl, search_once plainEngine_lawful
    ⟨_, emptySearchedMemory_start, Machine.exec_runs permitted executed⟩⟩

/-- Between the two queries another search back-fills the note, and it is found a second time. -/
theorem search_finds_twice :
    ∃ w, (searchMachine plainEngine (some LongTermMemory.lengthEmbedder)).Reachable w ∧
      ∃ returned ∈ w.returned, ¬ returned.Once := by
  have executed : (searchMachine plainEngine (some LongTermMemory.lengthEmbedder)).exec
    emptySearchedMemory
    (foundByKeyword ++ [.start 2 (.search "drinks" 5), .advance 2 .vectors true,
      .advance 2 .vectors true, .advance 2 .vectors true, .advance 2 .vectors true,
      .advance 2 .vectors true, .advance 2 .vectors true,
      .advance 1 .vectors true]) = some _ := rfl
  refine ⟨_, Machine.reachable_of_exec emptySearchedMemory_start executed, _,
    List.mem_singleton_self _, fun once => ?_⟩
  exact absurd once.distinct (by decide)

end SearchedMemory

end Openheim.Rag
