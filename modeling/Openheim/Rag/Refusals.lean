import Openheim.Rag.CurrentVectors

/-
This file shows when the back-fill of a long-term memory skips a note only for a refusal of its own
text.
-/

namespace Openheim.Rag

namespace VectorStore
variable {V : Type} {size : V → Nat} {store after : VectorStore V}

/-- The note waits for a vector. -/
def Pending (store : VectorStore V) (note : MemoryRecord) : Prop :=
  note ∈ store.memories ∧ store.isEmbedded note.id = false

theorem isEmbedded_insertVector {id : Nat} {vector : V}
    (stored : store.insertVector size id vector = .ok after)
    (other : Nat) : after.isEmbedded other = (store.isEmbedded other || decide (id = other)) := by
  obtain ⟨-, rows, before, rest⟩ := insertVector_eq stored
  rw [isEmbedded, isEmbedded, before, rest, Option.getD_some, Option.getD_some, List.any_append]
  simp

theorem isEmbedded_deleteVector {id other : Nat} (different : other ≠ id) :
    (store.deleteVector id).isEmbedded other = store.isEmbedded other := by
  cases present : store.vectors with
  | none => simp [isEmbedded, deleteVector, present]
  | some rows =>
      simp only [isEmbedded, deleteVector, present, Option.map_some, Option.getD_some,
        List.any_filter]
      congr 1
      funext row
      by_cases same : row.1 = other <;> simp [same, different]

/-- Only the vector space of another model or dimension takes notes their vectors. -/
theorem Pending.of_ensureEmbeddingSpace {model : String} {dimensions : Nat} {switched : Bool}
    {note : MemoryRecord}
    (pending : after.Pending note)
    (ensured : store.ensureEmbeddingSpace model dimensions = .ok (switched, after)) :
    store.Pending note ∨ (note ∈ store.memories ∧ store.isEmbedded note.id = true ∧
      (store.model ≠ some model ∨ store.dimensions ≠ some dimensions)) := by
  unfold ensureEmbeddingSpace at ensured
  split at ensured
  · cases ensured
  · split at ensured
    · cases ensured
      exact .inl pending
    · next other =>
      cases ensured
      cases embedded : store.isEmbedded note.id with
      | false => exact .inl ⟨pending.1, embedded⟩
      | true =>
          have table : store.vectors.isSome := by
            cases present : store.vectors with
            | none => simp [isEmbedded, present] at embedded
            | some rows => rfl
          refine .inr ⟨pending.1, rfl, ?_⟩
          by_contra same
          rw [not_or, not_not, not_not] at same
          exact other ⟨same.1, same.2, table⟩

/-- A note that waits after a vector was stored is another one, which waited before. -/
theorem Pending.of_insertVector {id : Nat} {vector : V} {note : MemoryRecord}
    (pending : after.Pending note) (stored : store.insertVector size id vector = .ok after) :
    note ∈ store.memories ∧ store.isEmbedded note.id = false ∧ note.id ≠ id := by
  have embedded := isEmbedded_insertVector stored note.id
  rw [pending.2, eq_comm, Bool.or_eq_false_iff, decide_eq_false_iff_not] at embedded
  exact ⟨(insertVector_eq stored).1 ▸ pending.1, embedded.1, Ne.symm embedded.2⟩

theorem Pending.of_setEmbedding {id : Nat} {vector : V} {note : MemoryRecord}
    (pending : after.Pending note)
    (stored : store.setEmbedding size id vector = .ok after) : store.Pending note := by
  unfold setEmbedding at stored
  split at stored
  · cases stored
  · obtain ⟨member, embedded, other⟩ := pending.of_insertVector stored
    rw [isEmbedded_deleteVector other] at embedded
    exact ⟨member, embedded⟩

/-- A note that is stored with its vector does not wait for one. -/
theorem Pending.of_insert {now : Instant} {content : String} {embedding : Option V}
    {record note : MemoryRecord}
    (pending : after.Pending note)
    (stored : store.insert size now content embedding = .ok (record, after)) :
    store.Pending note ∨ (embedding = none ∧ note.id = store.nextId ∧ note.content = content) := by
  rcases insert_cases stored with ⟨bare, rfl⟩ | ⟨vector, rfl, written⟩
  · rcases List.mem_append.mp pending.1 with old | new
    · exact .inl ⟨old, pending.2⟩
    · rw [List.mem_singleton.mp new]
      exact .inr ⟨bare, rfl, rfl⟩
  · obtain ⟨member, embedded, other⟩ := pending.of_insertVector written
    rcases List.mem_append.mp member with old | new
    · exact .inl ⟨old, embedded⟩
    · rw [List.mem_singleton.mp new] at other
      exact absurd rfl other

/-- A note that is rewritten with its vector does not wait for one. -/
theorem Pending.of_update {id : Nat} {content : String} {embedding : Option V}
    {result : Option MemoryRecord} {note : MemoryRecord} (pending : after.Pending note)
    (stored : store.update size id content embedding = .ok (result, after)) :
    store.Pending note ∨ (embedding = none ∧ note.id = id ∧ note.content = content) := by
  have written (member : note ∈ (store.withContent id content).memories)
      (embedded : ((store.withContent id content).deleteVector id).isEmbedded note.id = false) :
      store.Pending note ∨ (note.id = id ∧ note.content = content) := by
    obtain ⟨record, present, rfl⟩ := List.mem_map.mp member
    by_cases own : record.id = id
    · exact .inr (by simp [own])
    · simp only [if_neg own] at embedded ⊢
      rw [isEmbedded_deleteVector own] at embedded
      exact .inl ⟨present, embedded⟩
  rcases update_cases stored with rfl | ⟨found, -, -, ⟨bare, rfl⟩ | ⟨vector, rfl, inserted⟩⟩
  · exact .inl pending
  · exact (written pending.1 pending.2).imp_right fun own => ⟨bare, own⟩
  · obtain ⟨member, embedded, other⟩ := pending.of_insertVector inserted
    refine (written member embedded).imp_right fun own => ?_
    exact absurd own.1 other

theorem Pending.of_delete {id : Nat} {note : MemoryRecord}
    (pending : (store.delete id).2.Pending note) :
    store.Pending note := by
  obtain ⟨member, embedded⟩ := pending
  obtain ⟨present, different⟩ := List.mem_filter.mp member
  refine ⟨present, ?_⟩
  rw [VectorStore.delete, isEmbedded_deleteVector (by simpa using different)] at embedded
  exact embedded

end VectorStore

/-- The refused notes that a call saw before it reads the notes that it back-fills. -/
def Stage.seenRejected {V : Type} : Stage V → List Nat
  | .reading _ rejected => rejected
  | _ => []

/-- The text that the provider refuses in the next step of a call. -/
def Call.refusal {V : Type} (call : Call V) (answer : Answer) : Option String :=
  match call.stage, answer with
  | .embedding, .refused => call.request.text
  | .singles _ (record :: _) _ _, .refused => some record.content
  | _, _ => none

/-- A memory, and the texts that its provider refused since it was opened. -/
structure WatchedMemory (V : Type) where
  memory : LongTermMemory V
  refused : List String

namespace LongTermMemory
variable {V : Type}

/-- A back-fill that is about to read the notes saw the id among the refused ones. -/
def Sees (calls : Nat → Option (Call V)) (id : Nat) : Prop :=
  ∃ number call, calls number = some call ∧ id ∈ call.stage.seenRejected

/-- A back-fill that is under way, or that starts now, skips the id. -/
def Skips (s : LongTermMemory V) (id : Nat) : Prop := id ∈ s.rejected ∨ Sees s.calls id

/-- The texts that the provider refuses in a step. -/
def refusals (s : LongTermMemory V) : MemoryAction → List String
  | .advance number answer _ => ((s.calls number).bind fun call => call.refusal answer).toList
  | _ => []

section Skips
variable {s : LongTermMemory V} {number id : Nat} {request : Request} {call : Call V}
  {answer : Answer} {dbOk : Bool}

theorem sees_update {calls : Nat → Option (Call V)} {changed : Option (Call V)}
    (sees : Sees (Function.update calls number changed) id) :
    (∃ call ∈ changed, id ∈ call.stage.seenRejected) ∨ Sees calls id := by
  obtain ⟨other, call, running, seen⟩ := sees
  simp only [Function.update_apply] at running
  split at running
  · exact .inl ⟨call, running, seen⟩
  · exact .inr ⟨other, call, running, seen⟩

theorem skips_setStage {store : VectorStore V} {rejected : List Nat} {stage : Stage V}
    (skips : ({ s with store, rejected }.setStage number request stage).Skips id) :
    id ∈ rejected ∨ id ∈ stage.seenRejected ∨ Sees s.calls id := by
  rcases skips with now | sees
  · exact .inl now
  · rcases sees_update sees with ⟨call, ⟨⟩, seen⟩ | before
    · exact .inr (.inl seen)
    · exact .inr (.inr before)

theorem skips_finish {store : VectorStore V} {outcome : Except Error Outcome}
    (skips : ({ s with store }.finish number outcome).Skips id) : s.Skips id := by
  rcases skips with now | sees
  · exact .inl now
  · rcases sees_update sees with ⟨call, ⟨⟩, -⟩ | before
    exact .inr before

/-- A call that starts skips nothing, and an edit gives its note another chance. -/
theorem skips_startCall {embedder : Option (Embedder V)}
    (skips : (startCall embedder s number request).Skips id) :
    s.Skips id := by
  unfold startCall at skips
  split at skips
  · exact skips
  · rcases skips_setStage skips with now | seen | before
    · cases request with
      | edit other content => exact .inl (List.mem_filter.mp now).1
      | remember content => exact .inl now
      | forget other => exact .inl now
      | search query topK => exact .inl now
    · split at seen <;> cases seen
    · exact .inr before

/-- A step skips no other ids than before, except for a note that the provider refuses. -/
theorem advanceWith_skips {embedder : Embedder V}
    (skips : (advanceWith embedder s number call answer dbOk).Skips id) :
    s.Skips id ∨ ∃ vector record todo embedded rest,
      call.stage = .singles vector (record :: todo) embedded rest ∧
      answer = .refused ∧ id = record.id := by
  have idle {store : VectorStore V} {stage : Stage V} (quiet : ∀ other ∈ stage.seenRejected,
      other ∈ s.rejected)
      (skips : ({ s with store }.setStage number call.request stage).Skips id) : s.Skips id := by
    rcases skips_setStage skips with now | seen | before
    · exact .inl now
    · exact .inl (quiet id seen)
    · exact .inr before
  obtain ⟨request, stage⟩ := call
  cases stage with
  | embedding =>
      refine .inl ?_
      simp only [advanceWith] at skips
      split at skips <;> exact idle (by simp [Stage.seenRejected]) skips
  | ensuring vector =>
      refine .inl ?_
      simp only [advanceWith] at skips
      split at skips <;> exact idle (by simp [Stage.seenRejected]) skips
  | snapshot vector =>
      refine .inl (idle ?_ skips)
      exact fun _ seen => seen
  | reading vector rejected =>
      refine .inl ?_
      simp only [advanceWith] at skips
      split at skips <;> exact idle (by simp [Stage.seenRejected]) skips
  | batches vector pending =>
      refine .inl ?_
      simp only [advanceWith] at skips
      split at skips
      · exact idle (by simp [Stage.seenRejected]) skips
      · cases answer <;> exact idle (by simp [Stage.seenRejected]) skips
  | singles vector todo embedded rest =>
      cases todo with
      | nil => exact .inl (idle (by simp [Stage.seenRejected]) skips)
      | cons record todo =>
          cases answer with
          | vectors => exact .inl (idle (by simp [Stage.seenRejected]) skips)
          | transient => exact .inl (idle (by simp [Stage.seenRejected]) skips)
          | refused =>
              rcases skips_setStage skips with now | seen | before
              · rcases List.mem_insert_iff.mp now with new | old
                · exact .inr ⟨_, _, _, _, _, rfl, rfl, new⟩
                · exact .inl (.inl old)
              · cases seen
              · exact .inl (.inr before)
  | saving vector queue failed rest =>
      refine .inl ?_
      cases queue with
      | nil =>
          refine idle ?_ skips
          split <;> simp [Stage.seenRejected]
      | cons pair queue =>
          simp only [advanceWith] at skips
          split at skips <;> exact idle (by simp [Stage.seenRejected]) skips
  | storing vector =>
      refine .inl ?_
      simp only [advanceWith] at skips
      split at skips <;> exact skips_finish skips

end Skips

section Pending
variable {s : LongTermMemory V} {number : Nat} {call : Call V} {answer : Answer} {dbOk : Bool}
  {note : MemoryRecord}

/-- A note comes to wait for a vector in the transaction of a call without one. -/
theorem storeRequest_pending {size : V → Nat} {vector : Option V} {request : Request}
    {outcome : Outcome} {store : VectorStore V} (pending : store.Pending note)
    (stored : storeRequest size s vector request = .ok (outcome, store)) :
    s.store.Pending note ∨
      (vector = none ∧ (request = .remember note.content ∧ note.id = s.store.nextId ∨
      request = .edit note.id note.content)) := by
  cases request with
  | remember content =>
      obtain ⟨result, written, equal⟩ := VectorStore.map_eq_ok stored
      cases equal
      rcases pending.of_insert written with before | ⟨bare, fresh, rfl⟩
      · exact .inl before
      · exact .inr ⟨bare, .inl ⟨rfl, fresh⟩⟩
  | edit id content =>
      obtain ⟨result, written, equal⟩ := VectorStore.map_eq_ok stored
      cases equal
      rcases pending.of_update written with before | ⟨bare, rfl, rfl⟩
      · exact .inl before
      · exact .inr ⟨bare, .inr rfl⟩
  | forget id =>
      cases stored
      exact .inl pending.of_delete
  | search query topK =>
      cases stored
      exact .inl pending

/-- A note comes to wait for a vector when the vector space is switched, or in a
transaction without a vector. -/
theorem advanceWith_pending {embedder : Embedder V}
    (pending : (advanceWith embedder s number call answer dbOk).store.Pending note) :
    s.store.Pending note ∨
      (∃ vector, call.stage = .ensuring vector ∧ dbOk = true ∧ note ∈ s.store.memories ∧
        s.store.isEmbedded note.id = true ∧
        (s.store.model ≠ some embedder.model ∨ s.store.dimensions ≠ some (embedder.size vector))) ∨
      (call.stage = .storing none ∧ dbOk = true ∧
        (call.request = .remember note.content ∧ note.id = s.store.nextId ∨
          call.request = .edit note.id note.content)) := by
  obtain ⟨request, stage⟩ := call
  rcases advanceWith_moves embedder s number request stage answer dbOk with
    ⟨store, rejected, next, same, moved⟩ | ⟨store, outcome, same, stored⟩
  · have waits := pending
    rw [same] at waits
    cases moved with
    | embed asked => exact .inl waits
    | @ensure vector _ _ ensured =>
        cases dbOk with
        | false => exact .inl pending
        | true =>
            rcases waits.of_ensureEmbeddingSpace ensured with before | dropped
            · exact .inl before
            · exact .inr (.inl ⟨vector, rfl, rfl, dropped⟩)
    | save enough saved => exact .inl (waits.of_setEmbedding saved)
    | carry own queued => exact .inl waits
  · rw [same] at pending
    rcases stored with rfl | ⟨vector, result, rfl, enough, stored⟩
    · exact .inl pending
    · rcases storeRequest_pending pending stored with before | ⟨rfl, own⟩
      · exact .inl before
      · exact .inr (.inr ⟨rfl, enough, own⟩)

end Pending

end LongTermMemory

namespace WatchedMemory
variable {V : Type}

/-- Every note that waits for a vector and is skipped has a text that was refused. -/
def SkipsRefused (w : WatchedMemory V) : Prop :=
  ∀ note, w.memory.store.Pending note → w.memory.Skips note.id → note.content ∈ w.refused

/-- A note that a step leaves without a vector has an id that is not skipped, or a text that was
refused: a note that is stored without a vector, one whose refused text is not its text any more, or
one whose vector is dropped with the vector space. -/
def LeavesNoStaleId (embedder : Option (Embedder V)) (w : WatchedMemory V) : MemoryAction → Prop
  | .advance number answer dbOk => ∀ call, w.memory.calls number = some call →
      match call.stage with
      | .storing none => dbOk →
          match call.request with
          | .remember content => w.memory.Skips w.memory.store.nextId → content ∈ w.refused
          | .edit id content => w.memory.Skips id → content ∈ w.refused
          | _ => True
      | .singles _ (record :: _) _ _ => answer = .refused →
          ∀ note, w.memory.store.Pending note → note.id = record.id →
            note.content = record.content ∨ note.content ∈ w.refused
      | .ensuring vector => dbOk → ∀ given ∈ embedder,
          w.memory.store.model ≠ some given.model ∨
            w.memory.store.dimensions ≠ some (given.size vector) →
            ∀ note ∈ w.memory.store.memories, w.memory.store.isEmbedded note.id →
              w.memory.Skips note.id → note.content ∈ w.refused
      | _ => True
  | _ => True

/-- A memory is watched from its opening on. -/
def watchedMachine (embedder : Option (Embedder V)) : Machine (WatchedMemory V) MemoryAction where
  start w := (LongTermMemory.memoryMachine embedder).start w.memory ∧ w.memory.rejected = [] ∧
    w.refused = []
  step w action := (LongTermMemory.memoryStep embedder w.memory action).map fun memory =>
    ⟨memory, w.memory.refusals action ++ w.refused⟩

section Invariant
variable {embedder : Option (Embedder V)} {w t : WatchedMemory V}

/-- Nothing is skipped without an embedder, and otherwise only notes whose texts were refused. -/
structure RefusalInvariant (embedder : Option (Embedder V)) (w : WatchedMemory V) : Prop where
  notes : w.SkipsRefused
  without : embedder = none → ∀ id, ¬ w.memory.Skips id

/-- A step that neither skips more nor lets more notes wait keeps the invariant. -/
theorem RefusalInvariant.quiet (inv : RefusalInvariant embedder w) {memory : LongTermMemory V}
    {refused : List String} (skips : ∀ id, memory.Skips id → w.memory.Skips id)
    (pending : ∀ note, memory.store.Pending note → w.memory.store.Pending note) :
    RefusalInvariant embedder ⟨memory, refused ++ w.refused⟩ where
  notes note waits skipped :=
    List.mem_append_right _ (inv.notes note (pending note waits) (skips _ skipped))
  without missing id skipped := inv.without missing id (skips id skipped)

/-- A step of a call that leaves no stale id skips only notes whose texts were refused. -/
theorem RefusalInvariant.advanceWith {given : Embedder V} (inv : RefusalInvariant (some given) w)
    {number : Nat}
    {call : Call V} {answer : Answer} {dbOk : Bool} (running : w.memory.calls number = some call)
    (permitted : LeavesNoStaleId (some given) w (.advance number answer dbOk)) :
    SkipsRefused ⟨LongTermMemory.advanceWith given w.memory number call answer dbOk,
      (call.refusal answer).toList ++ w.refused⟩ := by
  intro note waits skipped
  have allowed := permitted call running
  obtain ⟨request, stage⟩ := call
  rcases LongTermMemory.advanceWith_pending waits with
    before | ⟨vector, rfl, rfl, present, embedded, other⟩ |
    ⟨rfl, rfl, own⟩
  · rcases LongTermMemory.advanceWith_skips skipped with
      earlier | ⟨vector, record, todo, embedded, rest, rfl, rfl, named⟩
    · exact List.mem_append_right _ (inv.notes note before earlier)
    · rcases allowed rfl note before named with same | refused
      · exact List.mem_append_left _ (by simp [Call.refusal, same])
      · exact List.mem_append_right _ refused
  · rcases LongTermMemory.advanceWith_skips skipped with earlier | ⟨_, _, _, _, _, mismatch, -⟩
    · exact List.mem_append_right _ (allowed rfl given rfl other note present embedded earlier)
    · cases mismatch
  · rcases LongTermMemory.advanceWith_skips skipped with earlier | ⟨_, _, _, _, _, mismatch, -⟩
    · refine List.mem_append_right _ ?_
      rcases own with ⟨rfl, fresh⟩ | rfl
      · exact allowed rfl (fresh ▸ earlier)
      · exact allowed rfl earlier
    · cases mismatch

theorem RefusalInvariant.step (inv : RefusalInvariant embedder w) {action : MemoryAction}
    (permitted : LeavesNoStaleId embedder w action)
    (stepped : (watchedMachine embedder).step w action = some t) :
    RefusalInvariant embedder t := by
  obtain ⟨memory, moved, rfl⟩ := Option.map_eq_some_iff.mp stepped
  cases action with
  | start number request =>
      simp only [LongTermMemory.memoryStep] at moved
      split at moved
      · cases moved
      · cases moved
        refine inv.quiet (fun id skipped => LongTermMemory.skips_startCall skipped)
          fun note waits => ?_
        simp only [LongTermMemory.startCall] at waits
        split at waits <;> exact waits
  | advance number answer dbOk =>
      obtain ⟨call, running, same⟩ := Option.map_eq_some_iff.mp moved
      cases embedder with
      | none =>
          subst same
          have idle {id : Nat}
              (skipped : (LongTermMemory.advanceWithout w.memory number call dbOk).Skips id) :
              w.memory.Skips id := by
            simp only [LongTermMemory.advanceWithout] at skipped
            split at skipped <;> exact LongTermMemory.skips_finish skipped
          exact ⟨fun note _ skipped => absurd (idle skipped) (inv.without rfl note.id),
            fun _ id skipped => inv.without rfl id (idle skipped)⟩
      | some given =>
          subst same
          refine ⟨?_, fun missing => absurd missing (Option.some_ne_none given)⟩
          have noted : w.memory.refusals (.advance number answer dbOk) =
              (call.refusal answer).toList := by
            simp [LongTermMemory.refusals, running]
          rw [noted]
          exact inv.advanceWith running permitted
  | abandon number =>
      simp only [LongTermMemory.memoryStep] at moved
      split at moved
      · cases moved
        refine inv.quiet (fun id skipped => skipped.imp_right fun sees => ?_) fun _ waits => waits
        rcases LongTermMemory.sees_update sees with ⟨call, ⟨⟩, -⟩ | before
        exact before
      · cases moved
  | tick =>
      cases moved
      exact inv.quiet (fun _ skipped => skipped) fun _ waits => waits

/-- In a run that leaves no stale id, a note that waits for a vector is skipped only
for a refusal of its own text. -/
theorem skips_own_refusal
    (reached : (watchedMachine embedder).ReachableUnder (LeavesNoStaleId embedder) w) :
    ∀ note, w.memory.store.Pending note → w.memory.Skips note.id → note.content ∈ w.refused := by
  have inv : RefusalInvariant embedder w := by
    apply reached.invariant
    · rintro first ⟨⟨-, idle⟩, empty, -⟩
      have nothing (id : Nat) : ¬ first.memory.Skips id := by
        rintro (now | ⟨number, call, running, -⟩)
        · rw [empty] at now
          cases now
        · rw [idle] at running
          cases running
      exact ⟨fun note _ skipped => absurd skipped (nothing note.id), fun _ => nothing⟩
    · intro before action after inv permitted stepped
      exact inv.step permitted stepped
  exact inv.notes

end Invariant

/-- This embedder of the sample runs gives every text the same vector. -/
def unitEmbedder : Embedder Unit := ⟨"unit", fun _ => (), fun _ => 1⟩

/-- A memory that is opened on an empty file. -/
def opened : WatchedMemory Unit := ⟨⟨⟨[], none, none, none⟩, [], fun _ => none, none, 0⟩, []⟩

theorem opened_start : (watchedMachine (some unitEmbedder)).start opened :=
  ⟨⟨fun _ _ => ⟨List.nodup_nil, nofun⟩, fun _ => rfl⟩, rfl, rfl⟩

/-- The provider refuses a text, which is saved as a note, and refuses it again when a search
back-fills the note. -/
def refusedNote : List MemoryAction :=
  [.start 0 (.remember "bad"), .advance 0 .refused true, .advance 0 .vectors true,
    .start 1 (.search "drinks" 5), .advance 1 .vectors true, .advance 1 .vectors true,
    .advance 1 .vectors true, .advance 1 .vectors true, .advance 1 .refused true,
      .advance 1 .refused true]

/-- The refused note itself is skipped for its own text. -/
theorem skips_own_refusal_sample : ∃ w : WatchedMemory Unit, w.memory.store.Pending ⟨1, "bad", 0⟩ ∧
    w.memory.Skips 1 ∧ ∀ note, w.memory.store.Pending note → w.memory.Skips note.id →
      note.content ∈ w.refused := by
  have executed : (watchedMachine (some unitEmbedder)).exec opened refusedNote = some _ := rfl
  have permitted :
      (watchedMachine (some unitEmbedder)).Permits (LeavesNoStaleId (some unitEmbedder)) opened
      refusedNote := by
    refine Machine.permits_cons trivial rfl ?_
    refine Machine.permits_cons (fun _ running => (by cases running; trivial)) rfl ?_
    refine Machine.permits_cons (fun _ running => ?_) rfl ?_
    · cases running
      exact fun _ _ => List.mem_singleton_self _
    refine Machine.permits_cons trivial rfl ?_
    refine Machine.permits_cons (fun _ running => (by cases running; trivial)) rfl ?_
    refine Machine.permits_cons (fun _ running => ?_) rfl ?_
    · cases running
      exact fun _ _ _ _ note member _ _ => List.mem_singleton.mp member ▸ List.mem_singleton_self _
    refine Machine.permits_cons (fun _ running => (by cases running; trivial)) rfl ?_
    refine Machine.permits_cons (fun _ running => (by cases running; trivial)) rfl ?_
    refine Machine.permits_cons (fun _ running => (by cases running; trivial)) rfl ?_
    refine ⟨fun _ running => ?_, fun _ _ => trivial⟩
    cases running
    exact fun _ note waits _ => .inl (List.mem_singleton.mp waits.1 ▸ rfl)
  exact ⟨_, ⟨List.mem_singleton_self _, rfl⟩, .inl (List.mem_singleton_self _),
    skips_own_refusal ⟨opened, opened_start, Machine.exec_runs permitted executed⟩⟩

/-- The search ends, the note is forgotten, and another one is saved while the provider fails. -/
def reusedId : List MemoryAction :=
  refusedNote ++ [.advance 1 .vectors true, .advance 1 .vectors true, .advance 1 .vectors true,
    .advance 1 .vectors true, .start 2 (.forget 1), .advance 2 .vectors true,
    .start 3 (.remember "good"), .advance 3 .transient true, .advance 3 .vectors true]

/-- The new note has the id of the forgotten one and is skipped, although the
provider never refused its text. -/
theorem reused_id_skipped : ∃ w, (watchedMachine (some unitEmbedder)).Reachable w ∧
    w.memory.store.memories = [⟨1, "good", 0⟩] ∧ w.memory.store.Pending ⟨1, "good", 0⟩ ∧
    w.memory.Skips 1 ∧
    w.refused = ["bad", "bad"] ∧ LongTermMemory.pendingNotes w.memory.store
      w.memory.rejected = [] := by
  obtain ⟨w, ran, notes, waits, rejected, refused, passed⟩ : ∃ w,
      (watchedMachine (some unitEmbedder)).exec opened reusedId = some w ∧
      w.memory.store.memories = [⟨1, "good", 0⟩] ∧ w.memory.store.isEmbedded 1 = false ∧
      w.memory.rejected = [1] ∧ w.refused = ["bad", "bad"] ∧
          LongTermMemory.pendingNotes w.memory.store w.memory.rejected = [] :=
    ⟨_, rfl, rfl, rfl, rfl, rfl, by decide⟩
  refine ⟨w, Machine.reachable_of_exec opened_start ran, notes, ⟨?_, waits⟩, .inl ?_,
    refused, passed⟩
  · rw [notes]
    exact List.mem_singleton_self _
  · rw [rejected]
    exact List.mem_singleton_self _

end WatchedMemory

end Openheim.Rag
