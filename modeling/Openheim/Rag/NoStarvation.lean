import Openheim.Rag.Backfill

/-
This file shows which notes a back-fill tries when it runs alone, and what becomes of them.
-/

namespace Openheim.Rag

namespace VectorStore
variable {V : Type}

/-- The rows of the vector table. -/
def rows (store : VectorStore V) : List (Nat × V) := store.vectors.getD []

/-- The vector table takes vectors of the given dimension. -/
def Takes (store : VectorStore V) (dimensions : Nat) : Prop :=
  store.vectors.isSome = true ∧ store.dimensions = some dimensions

end VectorStore

namespace Backfill
variable {V : Type}

/-- The note has the vector of its text. -/
def Embedded (embed : String → V) (s : Backfill V) (note : MemoryRecord) : Prop :=
  (note.id, embed note.content) ∈ s.store.rows

/-- The provider refused the text of the note in a request of its own, and
the note is noted as refused. -/
def RefusedAlone (timeoutOrConnect : String → Bool) (s : Backfill V) (note : MemoryRecord) : Prop :=
  note.id ∈ s.rejected ∧
    ∃ request ∈ s.asked, request.inputs = [note.content] ∧
      EmbeddingClient.Refused timeoutOrConnect request

/-- A request asks for the texts of some of the notes. -/
def AsksFor (notes : List MemoryRecord) (request : Asked V) : Prop :=
  request.inputs ≠ [] ∧ ∀ text ∈ request.inputs, ∃ note ∈ notes, note.content = text

/-- The last request asked for some of the notes and failed for now. -/
def StoppedAt (timeoutOrConnect : String → Bool) (s : Backfill V) (notes : List MemoryRecord)
    (error : Error) : Prop :=
  error.isRetryable timeoutOrConnect = true ∧
    ∃ earlier last, s.asked = earlier ++ [last] ∧ last.answer = .error error ∧ AsksFor notes last

/-- The requests between two states are for the given notes, and only notes that were
refused alone are newly noted. -/
structure Requests (timeoutOrConnect : String → Bool) (notes : List MemoryRecord)
    (s t : Backfill V) : Prop where
  asked : ∃ new, t.asked = s.asked ++ new ∧ ∀ request ∈ new, AsksFor notes request
  remembered : ∀ id ∈ s.rejected, id ∈ t.rejected
  refused : ∀ id ∈ t.rejected, id ∈ s.rejected ∨ ∃ note ∈ notes, note.id = id ∧
    RefusedAlone timeoutOrConnect t note

/-- The vectors that come between two states are those of the given notes, and no
vector of another note goes. -/
structure Saves (embed : String → V) (dimensions : Nat) (notes : List MemoryRecord)
    (s t : VectorStore V) : Prop where
  memories : t.memories = s.memories
  takes : t.Takes dimensions
  rows : ∀ row ∈ t.rows, row ∈ s.rows ∨ ∃ note ∈ notes, row = (note.id, embed note.content)
  kept : ∀ row ∈ s.rows, row ∈ t.rows ∨ ∃ note ∈ notes, note.id = row.1

/-- What a back-fill of the notes does. Without a failure each note gets the vector of its text
or is refused by itself; a transient failure stops it at one batch, and the notes of the
batches before are finished. -/
structure Fills (timeoutOrConnect : String → Bool) (embed : String → V) (dimensions : Nat)
    (notes : List MemoryRecord)
    (s : Backfill V) (outcome : Except Error Unit) (t : Backfill V) : Prop where
  requests : Requests timeoutOrConnect notes s t
  saves : Saves embed dimensions notes s.store t.store
  finished : outcome = .ok () → ∀ note ∈ notes, t.Embedded embed note ∨
    RefusedAlone timeoutOrConnect t note
  stopped : ∀ error, outcome = .error error → ∃ count,
    (∀ note ∈ notes.take (maxBatch * count), t.Embedded embed note ∨
      RefusedAlone timeoutOrConnect t note) ∧
        t.StoppedAt timeoutOrConnect ((notes.drop (maxBatch * count)).take maxBatch) error

section Saving
variable {embed : String → V} {size : V → Nat} {dimensions : Nat} {store : VectorStore V}

/-- A vector of the right dimension replaces the one of its id. -/
theorem setEmbedding_takes {id : Nat} {vector : V} (takes : store.Takes dimensions)
    (fits : size vector = dimensions) :
    ∃ after, store.setEmbedding size id vector = .ok after ∧ after.memories = store.memories ∧
      after.Takes dimensions ∧
      after.rows = store.rows.filter (fun row => row.1 ≠ id) ++ [(id, vector)] := by
  obtain ⟨present, same⟩ := takes
  obtain ⟨rows, table⟩ := Option.isSome_iff_exists.mp present
  have free : ((rows.filter fun row => row.1 ≠ id).any fun row => row.1 = id) = false := by
    simp
  refine ⟨{ store with vectors := some (rows.filter (fun row => row.1 ≠ id) ++ [(id, vector)]) },
    ?_, rfl, ⟨rfl, same⟩, ?_⟩
  · simp only [VectorStore.setEmbedding, table, VectorStore.deleteVector, VectorStore.insertVector,
      Option.map_some, free, same, fits, Option.isNone_some, Bool.false_eq_true, ne_eq,
        not_true_eq_false, if_false]
  · simp [VectorStore.rows, table]

omit store in
/-- The vector space of a dimension takes vectors of that dimension, and it has the same notes. -/
theorem ensureEmbeddingSpace_takes {before after : VectorStore V} {model : String} {switched : Bool}
    (ensured : before.ensureEmbeddingSpace model dimensions = .ok (switched, after)) :
    after.memories = before.memories ∧ after.Takes dimensions := by
  unfold VectorStore.ensureEmbeddingSpace at ensured
  split at ensured
  · simp at ensured
  · split at ensured
    · rename_i same
      cases ensured
      exact ⟨rfl, same.2.2, same.2.1⟩
    · cases ensured
      exact ⟨rfl, rfl, rfl⟩

/-- Vectors of the right dimension are all saved. -/
theorem saveVectors_takes {pairs : List (Nat × V)} (takes : store.Takes dimensions)
    (fits : ∀ pair ∈ pairs, size pair.2 = dimensions) :
    ∃ after, saveVectors size store pairs = (.ok (), after) ∧ after.memories = store.memories ∧
      after.Takes dimensions ∧
      (∀ row ∈ after.rows, row ∈ store.rows ∨ row ∈ pairs) ∧
      (∀ row ∈ store.rows, row ∈ after.rows ∨ ∃ pair ∈ pairs, pair.1 = row.1) ∧
      ((pairs.map Prod.fst).Nodup → ∀ pair ∈ pairs, pair ∈ after.rows) := by
  induction pairs generalizing store with
  | nil => exact ⟨store, rfl, rfl, takes, fun _ => .inl, fun _ => .inl, nofun⟩
  | cons pair rest ih =>
      obtain ⟨id, vector⟩ := pair
      obtain ⟨first, others⟩ := List.forall_mem_cons.mp fits
      obtain ⟨middle, stored, sameNotes, open_, rows⟩ :=
        @setEmbedding_takes _ size _ store id vector takes first
      obtain ⟨after, saved, notes, final, new, old, all⟩ := ih open_ others
      refine ⟨after, ?_, notes.trans sameNotes, final, fun row member => ?_, fun row member => ?_,
        fun distinct => ?_⟩
      · simp only [saveVectors, stored, saved]
      · rcases new row member with before | later
        · rw [rows] at before
          rcases List.mem_append.mp before with kept | own
          · exact .inl (List.mem_filter.mp kept).1
          · exact .inr (List.mem_singleton.mp own ▸ List.mem_cons_self)
        · exact .inr (List.mem_cons_of_mem _ later)
      · by_cases same : row.1 = id
        · exact .inr ⟨_, List.mem_cons_self, same.symm⟩
        · have kept : row ∈ middle.rows := by
            rw [rows]
            exact List.mem_append_left _ (List.mem_filter.mpr ⟨member, by simpa using same⟩)
          exact (old row kept).imp_right fun ⟨pair, later, equal⟩ =>
            ⟨pair, List.mem_cons_of_mem _ later, equal⟩
      · obtain ⟨fresh, distinct⟩ := List.nodup_cons.mp distinct
        have own : (id, vector) ∈ middle.rows :=
          rows ▸ List.mem_append_right _ (List.mem_singleton_self _)
        refine List.forall_mem_cons.mpr ⟨?_, all distinct⟩
        rcases old _ own with kept | ⟨pair, later, equal⟩
        · exact kept
        · exact absurd (List.mem_map.mpr ⟨pair, later, equal⟩) fresh

end Saving

section Requests
variable {timeoutOrConnect : String → Bool} {embed : String → V} {dimensions : Nat}
  {s t u : Backfill V}
  {notes others : List MemoryRecord} {note : MemoryRecord}

/-- A note that was refused alone stays so. -/
theorem RefusedAlone.mono (refused : RefusedAlone timeoutOrConnect s note)
    (requests : Requests timeoutOrConnect notes s t) :
    RefusedAlone timeoutOrConnect t note := by
  obtain ⟨noted, request, member, alone⟩ := refused
  obtain ⟨new, same, _⟩ := requests.asked
  exact ⟨requests.remembered _ noted, request, same ▸ List.mem_append_left _ member, alone⟩

/-- A request for some notes is one for more notes. -/
theorem AsksFor.mono {request : Asked V} (asks : AsksFor notes request) (subset : notes ⊆ others) :
    AsksFor others request := by
  refine ⟨asks.1, fun text member => ?_⟩
  obtain ⟨note, inside, same⟩ := asks.2 text member
  exact ⟨note, subset inside, same⟩

/-- A request whose texts are those of notes asks for them. -/
theorem AsksFor.of_inputs {inputs : List String} {request : Asked V} (present : inputs ≠ [])
    (texts : ∀ text ∈ inputs, ∃ note ∈ notes, note.content = text)
    (same : request.inputs = inputs) :
    AsksFor notes request := by
  rw [AsksFor, same]
  exact ⟨present, texts⟩

/-- A pass that stopped at some notes stopped among more notes. -/
theorem StoppedAt.mono {error : Error} (stopped : s.StoppedAt timeoutOrConnect notes error)
    (subset : notes ⊆ others) :
    s.StoppedAt timeoutOrConnect others error := by
  obtain ⟨retryable, earlier, last, at_, answered, asks⟩ := stopped
  exact ⟨retryable, earlier, last, at_, answered, asks.mono subset⟩

/-- A transient failure of the last request stops the back-fill. -/
theorem StoppedAt.ask {error : Error} {tries : List (Asked V)} {last : Asked V}
    (retryable : error.isRetryable timeoutOrConnect = true) (failed : last.answer = .error error)
    (asks : AsksFor notes last) (s : Backfill V) :
    StoppedAt timeoutOrConnect { s with asked := s.asked ++ (tries ++ [last]) } notes error :=
  ⟨retryable, s.asked ++ tries, last, (List.append_assoc _ _ _).symm, failed, asks⟩

theorem Requests.refl (notes : List MemoryRecord) (s : Backfill V) :
    Requests timeoutOrConnect notes s s :=
  ⟨⟨[], (List.append_nil _).symm, nofun⟩, fun _ => id, fun _ => .inl⟩

/-- Requests for some notes are requests for more notes. -/
theorem Requests.mono (requests : Requests timeoutOrConnect notes s t) (subset : notes ⊆ others) :
    Requests timeoutOrConnect others s t := by
  obtain ⟨⟨new, same, asks⟩, remembered, refused⟩ := requests
  refine ⟨⟨new, same, fun request member => (asks request member).mono subset⟩, remembered,
    fun id noted => ?_⟩
  exact (refused id noted).imp_right fun ⟨note, inside, rest⟩ => ⟨note, subset inside, rest⟩

/-- Requests of two passes follow each other. -/
theorem Requests.trans (first : Requests timeoutOrConnect notes s t)
    (second : Requests timeoutOrConnect notes t u) :
    Requests timeoutOrConnect notes s u := by
  obtain ⟨new, same, asks⟩ := first.asked
  obtain ⟨later, equal, others⟩ := second.asked
  refine ⟨⟨new ++ later, by rw [equal, same, List.append_assoc], ?_⟩, ?_, fun id noted => ?_⟩
  · exact List.forall_mem_append.mpr ⟨asks, others⟩
  · exact fun id noted => second.remembered id (first.remembered id noted)
  · rcases second.refused id noted with before | now
    · exact (first.refused id before).imp_right fun ⟨note, inside, named, alone⟩ =>
        ⟨note, inside, named, alone.mono second⟩
    · exact .inr now

theorem Saves.refl {store : VectorStore V} (notes : List MemoryRecord)
    (takes : store.Takes dimensions) :
    Saves embed dimensions notes store store :=
  ⟨rfl, takes, fun _ => .inl, fun _ => .inl⟩

/-- What is saved of some notes is saved of more notes. -/
theorem Saves.mono {before after : VectorStore V}
    (saves : Saves embed dimensions notes before after)
    (subset : notes ⊆ others) : Saves embed dimensions others before after := by
  obtain ⟨memories, takes, rows, kept⟩ := saves
  refine ⟨memories, takes, fun row member => ?_, fun row member => ?_⟩
  · exact (rows row member).imp_right fun ⟨note, inside, same⟩ => ⟨note, subset inside, same⟩
  · exact (kept row member).imp_right fun ⟨note, inside, same⟩ => ⟨note, subset inside, same⟩

/-- What two passes save is saved together. -/
theorem Saves.trans {before middle after : VectorStore V}
    (first : Saves embed dimensions notes before middle)
    (second : Saves embed dimensions notes middle after) :
    Saves embed dimensions notes before after := by
  refine ⟨second.memories.trans first.memories, second.takes, fun row member => ?_,
    fun row member => ?_⟩
  · exact (second.rows row member).elim (first.rows row) .inr
  · exact (first.kept row member).elim (second.kept row) .inr

/-- The vectors of some of the notes are saved. -/
theorem saveVectors_notes {size : V → Nat} {store : VectorStore V}
    (sized : ∀ text, size (embed text) = dimensions)
    (takes : store.Takes dimensions) {worked : List MemoryRecord} (subset : worked ⊆ notes)
    (distinct : (worked.map MemoryRecord.id).Nodup) :
    ∃ after, saveVectors size store (worked.map fun note => (note.id, embed note.content)) =
      (.ok (), after) ∧
      Saves embed dimensions notes store after ∧ ∀ note ∈ worked,
        (note.id, embed note.content) ∈ after.rows := by
  obtain ⟨after, saved, memories, open_, new, old, all⟩ :=
    @saveVectors_takes _ size dimensions store
    (worked.map fun note => (note.id, embed note.content)) takes (by
      intro pair member
      obtain ⟨note, _, rfl⟩ := List.mem_map.mp member
      exact sized _)
  refine ⟨after, saved, ⟨memories, open_, fun row member => ?_, fun row member => ?_⟩,
    fun note member => ?_⟩
  · refine (new row member).imp_right fun fresh => ?_
    obtain ⟨note, inside, same⟩ := List.mem_map.mp fresh
    exact ⟨note, subset inside, same.symm⟩
  · refine (old row member).imp_right fun ⟨pair, fresh, same⟩ => ?_
    obtain ⟨note, inside, rfl⟩ := List.mem_map.mp fresh
    exact ⟨note, subset inside, same⟩
  · refine all ?_ _ (List.mem_map_of_mem member)
    rw [List.map_map]
    exact distinct

/-- Requests for some of the notes are made, and nothing else changes. -/
theorem Requests.ask {inputs : List String} (present : inputs ≠ [])
    (texts : ∀ text ∈ inputs, ∃ note ∈ notes, note.content = text) {tries : List (Asked V)}
    {last : Asked V}
    (same : ∀ request ∈ tries, request.inputs = inputs) (also : last.inputs = inputs)
    (s : Backfill V) :
    Requests timeoutOrConnect notes s { s with asked := s.asked ++ (tries ++ [last]) } := by
  refine ⟨⟨_, rfl, ?_⟩, fun _ => id, fun _ => .inl⟩
  exact List.forall_mem_append.mpr ⟨fun request member =>
    .of_inputs present texts (same request member),
      List.forall_mem_singleton.mpr (.of_inputs present texts also)⟩

end Requests

section Notes
variable {timeoutOrConnect : String → Bool} {client : EmbeddingClient V} {embed : String → V}

/-- One at a time, each note is embedded or refused, until a transient failure. -/
theorem embedOneByOne_eq (embeds : client.Embeds embed) (notes : List MemoryRecord)
    (s : Backfill V) :
    ∃ (worked : List MemoryRecord) (outcome : Except Error Unit) (t : Backfill V),
      embedOneByOne timeoutOrConnect client notes s =
        ((worked.map fun note => (note.id, embed note.content), outcome), t) ∧
      t.store = s.store ∧ worked.Sublist notes ∧ Requests timeoutOrConnect notes s t ∧
      (outcome = .ok () → ∀ note ∈ notes, note ∈ worked ∨ RefusedAlone timeoutOrConnect t note) ∧
      ∀ error, outcome = .error error → t.StoppedAt timeoutOrConnect notes error := by
  induction notes generalizing s with
  | nil => exact ⟨[], .ok (), s, rfl, rfl, .slnil, .refl _ _, nofun, nofun⟩
  | cons record rest ih =>
      have texts : ∀ text ∈ [record.content], ∃ note ∈ record :: rest, note.content = text :=
        List.forall_mem_singleton.mpr ⟨record, List.mem_cons_self, rfl⟩
      obtain ⟨tries, last, result, same, also, requested, answer⟩ :=
        @EmbeddingClient.embedBatched_cases _ timeoutOrConnect client _ embeds [record.content]
          (List.cons_ne_nil _ _) (by simp [maxBatch]) s.asked
      have asked :=
        @Requests.ask _ timeoutOrConnect _ _ (List.cons_ne_nil _ _) texts _ _ same also s
      rw [embedOneByOne, requested]
      rcases answer with rfl | ⟨error, rfl, ⟨retryable, failed⟩ | ⟨final, refused⟩⟩
      · obtain ⟨worked, outcome, t, continued, store, sublist, requests, finished, stopped⟩ :=
          ih { s with asked := s.asked ++ (tries ++ [last]) }
        refine ⟨record :: worked, outcome, t, ?_, store, sublist.cons_cons _,
          asked.trans (requests.mono (List.subset_cons_self _ _)), fun ended => ?_,
            fun error failed => ?_⟩
        · simp only [continued]
          rfl
        · refine List.forall_mem_cons.mpr ⟨.inl List.mem_cons_self, fun note member => ?_⟩
          exact (finished ended note member).imp_left (List.mem_cons_of_mem _)
        · exact (stopped error failed).mono (List.subset_cons_self _ _)
      · refine ⟨[], .error error, { s with asked := s.asked ++ (tries ++ [last]) },
          by simp only [if_pos retryable]; rfl, rfl, List.nil_sublist _, asked, nofun, ?_⟩
        rintro _ ⟨⟩
        exact .ask retryable failed (.of_inputs (List.cons_ne_nil _ _) texts also) s
      · obtain ⟨worked, outcome, t, continued, store, sublist, requests, finished, stopped⟩ :=
          ih { s with
            asked := s.asked ++ (tries ++ [last]), rejected := s.rejected.insert record.id }
        have noted : Requests timeoutOrConnect (record :: rest) s
            { s with
                asked := s.asked ++ (tries ++ [last]),
                rejected := s.rejected.insert record.id } := by
          refine ⟨asked.asked, fun _ old => List.mem_insert_iff.mpr (.inr old), fun id member => ?_⟩
          rcases List.mem_insert_iff.mp member with rfl | old
          · refine .inr ⟨record, List.mem_cons_self, rfl, List.mem_insert_iff.mpr (.inl rfl), last,
              ?_, also, refused⟩
            exact List.mem_append_right _ (List.mem_append_right _ (List.mem_singleton_self _))
          · exact .inl old
        refine ⟨worked, outcome, t, ?_, store, sublist.cons _,
          noted.trans (requests.mono (List.subset_cons_self _ _)), fun ended => ?_,
            fun error failed => ?_⟩
        · simp only [final, Bool.false_eq_true, if_false, continued]
        · refine List.forall_mem_cons.mpr ⟨.inr ?_, finished ended⟩
          refine RefusedAlone.mono ⟨List.mem_insert_iff.mpr (.inl rfl), last, ?_, also,
            refused⟩ requests
          exact List.mem_append_right _ (List.mem_append_right _ (List.mem_singleton_self _))
        · exact (stopped error failed).mono (List.subset_cons_self _ _)

variable {size : V → Nat} {dimensions : Nat} {s : Backfill V} (embeds : client.Embeds embed)
  (sized : ∀ text, size (embed text) = dimensions)
include embeds sized

/-- A batch is embedded as a whole, or one note at a time. -/
theorem embedBatch_eq {batch : List MemoryRecord} (present : batch ≠ [])
    (fits : batch.length ≤ maxBatch)
    (distinct : (batch.map MemoryRecord.id).Nodup) (takes : s.store.Takes dimensions) :
    ∃ outcome t, embedBatch timeoutOrConnect client size batch s = (outcome, t) ∧
      Requests timeoutOrConnect batch s t ∧ Saves embed dimensions batch s.store t.store ∧
      (outcome = .ok () → ∀ note ∈ batch, t.Embedded embed note ∨
          RefusedAlone timeoutOrConnect t note) ∧
      ∀ error, outcome = .error error → t.StoppedAt timeoutOrConnect batch error := by
  have some : batch.map MemoryRecord.content ≠ [] := by simpa using present
  have texts : ∀ text ∈ batch.map MemoryRecord.content, ∃ note ∈ batch, note.content = text :=
    fun text member => List.mem_map.mp member
  obtain ⟨tries, last, result, same, also, requested, answer⟩ :=
    @EmbeddingClient.embedBatched_cases _ timeoutOrConnect client _ embeds _
      some (by simpa using fits) s.asked
  have asked := @Requests.ask _ timeoutOrConnect _ _ some texts _ _ same also s
  rw [embedBatch, requested]
  rcases answer with rfl | ⟨error, rfl, ⟨retryable, failed⟩ | ⟨final, -⟩⟩
  · obtain ⟨after, saved, saves, all⟩ :=
      saveVectors_notes sized takes (List.Subset.refl batch) distinct
    have pairs : (batch.map MemoryRecord.id).zip ((batch.map MemoryRecord.content).map embed) =
        batch.map fun note => (note.id, embed note.content) := by
      rw [List.map_map, List.zip_map']
      rfl
    refine ⟨.ok (), { s with store := after, asked := s.asked ++ (tries ++ [last]) },
      by simp only [pairs, saved], ⟨asked.asked, asked.remembered,
        asked.refused⟩, saves, fun _ note member => .inl (all note member), nofun⟩
  · refine ⟨.error error, { s with asked := s.asked ++ (tries ++ [last]) },
      by simp only [if_pos retryable], asked, .refl _ takes, nofun, ?_⟩
    rintro _ ⟨⟩
    exact .ask retryable failed (.of_inputs some texts also) s
  · obtain ⟨worked, outcome, t, continued, store, sublist, requests, finished, stopped⟩ :=
      @embedOneByOne_eq _ timeoutOrConnect _ _ embeds batch { s with
        asked := s.asked ++ (tries ++ [last]) }
    obtain ⟨after, saved, saves, all⟩ :=
      saveVectors_notes sized (store ▸ takes : t.store.Takes dimensions)
      sublist.subset (distinct.sublist (sublist.map _))
    have made := asked.trans requests
    refine ⟨outcome, { t with store := after }, ?_, ⟨made.asked, made.remembered, made.refused⟩,
      store ▸ saves, fun ended note member => ?_, stopped⟩
    · simp only [final, Bool.false_eq_true, if_false, continued, saved]
    · exact (finished ended note member).imp_left (all note)

omit embeds sized in
/-- The vector of a note stays while vectors of other notes are saved. -/
theorem Embedded.stays {t : Backfill V} {notes : List MemoryRecord} {note : MemoryRecord}
    (embedded : s.Embedded embed note) (saves : Saves embed dimensions notes s.store t.store)
    (other : note.id ∉ notes.map MemoryRecord.id) : t.Embedded embed note :=
  (saves.kept _ embedded).resolve_right fun ⟨_, member, same⟩ =>
    other (List.mem_map.mpr ⟨_, member, same⟩)

/-- The batches of a list of notes are filled one after the other. -/
theorem embedPending_fills (notes : List MemoryRecord)
    (distinct : (notes.map MemoryRecord.id).Nodup) (takes : s.store.Takes dimensions) :
    ∃ outcome t, embedPending timeoutOrConnect client size (Batches.batches maxBatch notes)
      s = (outcome, t) ∧
      Fills timeoutOrConnect embed dimensions notes s outcome t := by
  induction count : notes.length using Nat.strong_induction_on generalizing notes s with
  | _ _ ih =>
    by_cases some : notes = []
    · subst some
      exact ⟨.ok (), s, rfl, .refl _ _, .refl _ takes, nofun, nofun⟩
    have split : notes.take maxBatch ++ notes.drop maxBatch = notes := List.take_append_drop _ _
    have apart := distinct
    rw [← split, List.map_append, List.nodup_append] at apart
    obtain ⟨firstDistinct, restDistinct, disjoint⟩ := apart
    have present : notes.take maxBatch ≠ [] := by simpa [maxBatch] using some
    obtain ⟨outcome, middle, first, requests, saves, finished, stopped⟩ :=
      @embedBatch_eq _ timeoutOrConnect _ _ _ _ s embeds sized _ present (List.length_take_le _ _)
        firstDistinct takes
    have before := requests.mono (List.take_subset maxBatch notes)
    have stored := saves.mono (List.take_subset maxBatch notes)
    rw [Batches.batches_of_ne_nil (by decide) some, embedPending, first]
    cases outcome with
    | error error =>
        refine ⟨.error error, middle, rfl, before, stored, nofun, ?_⟩
        rintro _ ⟨⟩
        exact ⟨0, nofun, stopped error rfl⟩
    | ok =>
        have shorter : (notes.drop maxBatch).length < notes.length := by
          have positive := List.length_pos_of_ne_nil some
          rw [List.length_drop, maxBatch]
          omega
        obtain ⟨outcome, t, continued, fills⟩ :=
          ih _ (count ▸ shorter) _ restDistinct saves.takes rfl
        have kept (note : MemoryRecord) (member : note ∈ notes.take maxBatch) :
            t.Embedded embed note ∨ RefusedAlone timeoutOrConnect t note := by
          refine (finished rfl note member).imp (fun embedded => ?_) fun refused =>
            refused.mono fills.requests
          exact embedded.stays fills.saves fun later =>
            disjoint _ (List.mem_map_of_mem member) _ later rfl
        refine ⟨outcome, t, continued, before.trans (fills.requests.mono (List.drop_subset _ _)),
          stored.trans (fills.saves.mono (List.drop_subset _ _)), fun ended note member => ?_,
            fun error failed => ?_⟩
        · rw [← split] at member
          exact (List.mem_append.mp member).elim (kept note) (fills.finished ended note)
        · obtain ⟨number, done_, at_⟩ := fills.stopped error failed
          refine ⟨number + 1, fun note member => ?_, ?_⟩
          · rw [Nat.mul_succ, Nat.add_comm, List.take_add] at member
            exact (List.mem_append.mp member).elim (kept note) (done_ note)
          · rw [Nat.mul_succ, Nat.add_comm, ← List.drop_drop]
            exact at_

end Notes

section Pending
variable {store : VectorStore V} {rejected : List Nat}

/-- The notes without a vector that were not refused, in the order of their ids. -/
def waiting (store : VectorStore V) (rejected : List Nat) : List MemoryRecord :=
  store.memories.filter fun note => !store.isEmbedded note.id && note.id ∉ rejected

/-- The refused notes do not take places of the others. -/
theorem pendingNotes_eq (distinct : (store.memories.map MemoryRecord.id).Nodup) :
    LongTermMemory.pendingNotes store rejected = (waiting store rejected).take maxBackfill := by
  have few : ((store.memories.filter fun note => !store.isEmbedded note.id).filter fun note =>
      !decide (note.id ∉ rejected)).length ≤ rejected.length := by
    have sublist :=
      ((List.filter_sublist (p := fun note : MemoryRecord => !decide (note.id ∉ rejected))).trans
      (List.filter_sublist (p := fun note => !store.isEmbedded note.id) (l := store.memories))).map
        MemoryRecord.id
    rw [← List.length_map]
    refine ((distinct.sublist sublist).subperm fun id member => ?_).length_le
    obtain ⟨note, inside, rfl⟩ := List.mem_map.mp member
    simpa using (List.mem_filter.mp inside).2
  rw [LongTermMemory.pendingNotes, VectorStore.unembeddedUpTo, Batches.take_filter_take few,
    List.filter_filter, waiting]
  refine congrArg _ (List.filter_congr fun note _ => ?_)
  rw [Bool.and_comm]

/-- A back-fill that runs alone tries the oldest waiting notes up to its bound. Each of them gets
the vector of its text or is refused by itself, unless a transient failure stops it; that keeps the
vectors of the batches before. -/
theorem backfill_starves_none {timeoutOrConnect : String → Bool} {client : EmbeddingClient V}
    {embed : String → V}
    {size : V → Nat} {dimensions : Nat} (embeds : client.Embeds embed)
    (sized : ∀ text, size (embed text) = dimensions)
    {before : VectorStore V} {switched : Bool}
    (ordered : before.memories.Pairwise fun older newer => older.id < newer.id)
    (ensured : before.ensureEmbeddingSpace client.model dimensions = .ok (switched, store))
    (asked : List (Asked V)) :
    let tried := (waiting store rejected).take maxBackfill
    tried.length = min maxBackfill (waiting store rejected).length ∧
      (∀ note ∈ waiting store rejected, note ∉ tried → ∀ older ∈ tried, older.id < note.id) ∧
      ∃ outcome t, tryBackfill timeoutOrConnect client size ⟨store, rejected,
        asked⟩ = (outcome, t) ∧ Fills timeoutOrConnect embed dimensions tried ⟨store, rejected,
            asked⟩ outcome t := by
  intro tried
  obtain ⟨memories, takes⟩ := ensureEmbeddingSpace_takes ensured
  rw [← memories] at ordered
  have inOrder : (waiting store rejected).Pairwise fun older newer => older.id < newer.id :=
    ordered.filter _
  have distinct : (store.memories.map MemoryRecord.id).Nodup := by
    refine (List.pairwise_map.mpr (ordered.imp fun {older newer} less => ?_))
    exact Nat.ne_of_lt less
  refine ⟨List.length_take, fun note member left older attempted => ?_, ?_⟩
  · rw [← List.take_append_drop maxBackfill (waiting store rejected)] at inOrder member
    refine (List.pairwise_append.mp inOrder).2.2 _ attempted _ ?_
    exact (List.mem_append.mp member).resolve_left left
  · have triedDistinct : (tried.map MemoryRecord.id).Nodup := by
      refine distinct.sublist (List.Sublist.map _ ?_)
      exact (List.take_sublist _ _).trans List.filter_sublist
    rw [tryBackfill, pendingNotes_eq distinct]
    exact embedPending_fills embeds sized tried triedDistinct takes

end Pending

/-- A provider that gives a text its length, and refuses every request with a certain text. -/
def refusingClient : EmbeddingClient (List Nat) where
  model := "length"
  embed _ inputs :=
    if "bad" ∈ inputs then .error (.apiError "refused")
    else .ok (inputs.map fun text => [text.length])

/-- The sample client embeds a text by its length. -/
theorem refusingClient_embeds : refusingClient.Embeds fun text => [text.length] := by
  intro count inputs vectors answered _
  simp only [refusingClient] at answered
  split at answered
  · simp at answered
  · exact (Except.ok.inj answered).symm

/-- Three notes without vectors, one of which the provider refuses. -/
def threeNotes : VectorStore (List Nat) :=
  ⟨[⟨1, "old", 0⟩, ⟨2, "bad", 0⟩, ⟨4, "newest", 0⟩], some [], some "length", some 1⟩

/-- Of three notes the client refuses one, and the other two get their vectors. -/
theorem backfill_starves_none_sample :
    (∃ outcome t, tryBackfill (fun _ => false) refusingClient List.length ⟨threeNotes, [], []⟩ =
        (outcome, t) ∧
      Fills (fun _ => false) (fun text => [text.length]) 1 threeNotes.memories
        ⟨threeNotes, [], []⟩ outcome t) ∧
    (tryBackfill (fun _ => false) refusingClient List.length ⟨threeNotes, [], []⟩).2.store.vectors =
      some [(1, [3]), (4, [6])] ∧
    (tryBackfill (fun _ => false) refusingClient List.length ⟨threeNotes, [], []⟩).2.rejected =
      [2] := by
  have filled :=
    @backfill_starves_none _ threeNotes [] (fun _ => false) refusingClient _ List.length 1
    refusingClient_embeds (fun _ => rfl) threeNotes false (by decide) rfl []
  exact ⟨filled.2.2, by decide, by decide⟩

end Backfill

end Openheim.Rag
