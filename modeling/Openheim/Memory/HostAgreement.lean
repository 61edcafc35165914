import Openheim.Memory.HostId

/-
This file proves that the calls of `fallback_host_id` on one host return one id as long as no read
falls between the creation of the id file and the end of its writing.
-/

namespace Openheim.Memory

section Files
variable {Host : Type*} {place : Nat → Host} {draw : Nat → Uuid} {s t : HostIdState Host}

theorem calls_setCall {number other : Nat} {call found : HostIdCall}
    (holds : (s.setCall number call).calls other = found) :
    other = number ∧ call = found ∨ other ≠ number ∧ s.calls other = found := by
  by_cases own : other = number
  · subst own
    exact .inl ⟨rfl, by simpa using holds⟩
  · exact .inr ⟨own, by simpa [own] using holds⟩

/-- What is known of the id files, given the files that were there at the start. -/
structure Agreement (place : Nat → Host) (draw : Nat → Uuid) (old : Host → IdFile)
    (s : HostIdState Host) : Prop where
  alone : ∀ number rest, s.calls number = .writing rest →
    ∀ other, other ≠ number → place other = place number → (s.calls other).isWaiting = true
  part : ∀ number rest, s.calls number = .writing rest →
    ∃ content, s.files (place number) = .text content ∧ content ++ rest = freshHostId (draw number)
  named : ∀ number id, s.calls number = .returned id → (s.files (place number)).read = some id
  origin : ∀ host, Settled place s host →
    s.files host = old host ∨ ∃ number, place number = host ∧
      s.files host = .text (freshHostId (draw number))

variable {old : Host → IdFile}

/-- A call that neither creates nor writes leaves the files as they are. -/
theorem Agreement.keep (agreement : Agreement place draw old s) {number : Nat} {call : HostIdCall}
    (before : (s.calls number).isWaiting = true) (quiet : ∀ rest, call ≠ .writing rest)
    (taken : ∀ id, call = .returned id →
      (s.files (place number)).read = some id ∧ Settled place s (place number)) :
    Agreement place draw old (s.setCall number call) := by
  refine ⟨fun writer rest writes other different near => ?_, fun writer rest writes => ?_,
    fun holder id returned => ?_, fun host settled =>
      agreement.origin host fun writer rest writes => ?_⟩
  · rcases calls_setCall writes with ⟨_, same⟩ | ⟨apart, still⟩
    · exact absurd same (quiet rest)
    · by_cases own : other = number
      · subst own
        rw [HostIdState.setCall_calls, Function.update_self]
        cases call with
        | returned id => exact absurd near.symm ((taken id rfl).2 writer rest still)
        | writing left => exact absurd rfl (quiet left)
        | idle | reading | creating | rereading => rfl
      · rw [HostIdState.setCall_calls, Function.update_of_ne own]
        exact agreement.alone writer rest still other different near
  · rcases calls_setCall writes with ⟨_, same⟩ | ⟨apart, still⟩
    · exact absurd same (quiet rest)
    · exact agreement.part writer rest still
  · rcases calls_setCall returned with ⟨rfl, same⟩ | ⟨apart, still⟩
    · exact (taken id same).1
    · exact agreement.named holder id still
  · refine settled writer rest ?_
    have apart : writer ≠ number := by
      rintro rfl
      rw [writes] at before
      cases before
    rw [HostIdState.setCall_calls, Function.update_of_ne apart]
    exact writes

/-- A name that a call returned is no part of an id that is still being written. -/
theorem Agreement.settled (agreement : Agreement place draw old s) {number : Nat} {id : String}
    (returned : s.calls number = .returned id) : Settled place s (place number) := by
  intro writer rest writes near
  have different : number ≠ writer := by
    rintro rfl
    rw [returned] at writes
    cases writes
  have waiting := agreement.alone writer rest writes number different near.symm
  rw [returned] at waiting
  cases waiting

/-- Calls on one host return the name that its file has. -/
theorem Agreement.same (agreement : Agreement place draw old s) {first second : Nat}
    {id other : String}
    (returned : s.calls first = .returned id) (also : s.calls second = .returned other)
    (near : place first = place second) : id = other := by
  have read := agreement.named first id returned
  rw [near, agreement.named second other also] at read
  exact (Option.some.inj read).symm

/-- The hosts have no id in common: neither the files at the start nor the
draws give one to two of them. -/
structure HostsApart (place : Nat → Host) (draw : Nat → Uuid) (old : Host → IdFile) : Prop where
  files : ∀ host other id, (old host).read = some id → (old other).read = some id → host = other
  fresh : ∀ host number, place number ≠ host →
    (old host).read ≠ some (String.ofList (freshHostId (draw number)))
  draws : ∀ first second, place first ≠ place second → draw first ≠ draw second

/-- A returned name is that of the file at the start, or fresh. -/
theorem Agreement.source (agreement : Agreement place draw old s) {number : Nat} {id : String}
    (returned : s.calls number = .returned id) :
    (old (place number)).read = some id ∨
      ∃ creator, place creator = place number ∧
        id = String.ofList (freshHostId (draw creator)) := by
  have read := agreement.named number id returned
  rcases agreement.origin (place number) (agreement.settled returned) with
    kept | ⟨creator, near, file⟩
  · exact .inl (kept ▸ read)
  · rw [file, IdFile.read, nonEmpty_freshHostId] at read
    exact .inr ⟨creator, near, (Option.some.inj read).symm⟩

theorem Agreement.differ (agreement : Agreement place draw old s)
    (apart : HostsApart place draw old)
    {first second : Nat} {id other : String} (returned : s.calls first = .returned id)
    (also : s.calls second = .returned other) (far : place first ≠ place second) : id ≠ other := by
  rintro rfl
  rcases agreement.source returned with kept | ⟨creator, near, fresh⟩
  · rcases agreement.source also with keptToo | ⟨creator, near, fresh⟩
    · exact far (apart.files _ _ id kept keptToo)
    · exact apart.fresh (place first) creator (fun same => far (same.symm.trans near))
        (fresh ▸ kept)
  · rcases agreement.source also with kept | ⟨maker, nearToo, freshToo⟩
    · exact apart.fresh (place second) creator (fun same => far (near.symm.trans same))
        (fresh ▸ kept)
    · refine apart.draws creator maker (fun same => far (near.symm.trans (same.trans nearToo))) ?_
      exact freshHostId_injective (String.ofList_injective (fresh.symm.trans freshToo))

end Files

section Moves
variable {Host : Type*} [DecidableEq Host] {place : Nat → Host} {draw : Nat → Uuid}
  {s t : HostIdState Host}
  {action : HostIdAction} {old : Host → IdFile}

/-- What a step does in a run without a torn read. -/
inductive HostIdMove (place : Nat → Host) (draw : Nat → Uuid) (s : HostIdState Host) :
    HostIdState Host → Prop where
  | wait (number : Nat) (call : HostIdCall) (before : (s.calls number).isWaiting = true)
      (after : call.isWaiting = true) : HostIdMove place draw s (s.setCall number call)
  | take (number : Nat) (id : String) (before : (s.calls number).isWaiting = true)
      (read : (s.files (place number)).read = some id) (settled : Settled place s (place number)) :
      HostIdMove place draw s (s.setCall number (.returned id))
  | create (number : Nat) (before : (s.calls number).isWaiting = true)
      (absent : s.files (place number) = .absent) :
      HostIdMove place draw s
        ((s.setFile (place number) (.text [])).setCall number
          (.writing (freshHostId (draw number))))
  | write (number count : Nat) (rest : List Char) (writes : s.calls number = .writing rest)
      (more : count < rest.length) : HostIdMove place draw s
        ((s.setFile (place number) ((s.files (place number)).append (rest.take count))).setCall
          number
          (.writing (rest.drop count)))
  | finish (number count : Nat) (rest : List Char) (writes : s.calls number = .writing rest)
      (last : rest.length ≤ count) : HostIdMove place draw s
        ((s.setFile (place number) ((s.files (place number)).append (rest.take count))).setCall
          number
          (.returned (String.ofList (freshHostId (draw number)))))

theorem hostId_advance {number : Nat} (permitted : ReadsWhole place s (.advance number))
    (stepped : advanceHostId place draw s number = some t) : HostIdMove place draw s t := by
  unfold advanceHostId at stepped
  unfold ReadsWhole at permitted
  split at stepped
  · next reads =>
    have before : (s.calls number).isWaiting = true := by rw [reads]; rfl
    simp only [reads] at permitted
    split at stepped
    · next id found =>
      cases stepped
      exact .take number id before found (permitted (by rw [found]; rfl))
    · cases stepped
      exact .wait number .creating before rfl
  · next creates =>
    have before : (s.calls number).isWaiting = true := by rw [creates]; rfl
    split at stepped
    · next absent =>
      cases stepped
      exact .create number before absent
    · cases stepped
      exact .wait number .rereading before rfl
  · next rereads =>
    have before : (s.calls number).isWaiting = true := by rw [rereads]; rfl
    simp only [rereads] at permitted
    obtain ⟨id, found⟩ := Option.isSome_iff_exists.mp permitted.1
    rw [found] at stepped
    cases stepped
    exact .take number id before found permitted.2
  · cases stepped
  · cases stepped
  · cases stepped

theorem hostId_move (permitted : ReadsWhole place s action)
    (stepped : hostIdStep place draw s action = some t) :
    HostIdMove place draw s t := by
  cases action with
  | fallbackHostId number =>
      obtain ⟨idle, moved⟩ := Option.ite_none_right_eq_some.mp stepped
      cases moved
      exact .wait number .reading (by rw [idle]; rfl) rfl
  | advance number => exact hostId_advance permitted stepped
  | writeSome number count =>
      simp only [hostIdStep, writeHostId] at stepped
      split at stepped
      · next rest writes =>
        split at stepped
        · next more =>
          cases stepped
          exact .write number count rest writes more
        · next last =>
          cases stepped
          exact .finish number count rest writes (Nat.not_lt.mp last)
      · cases stepped
  | ioError number => exact permitted.elim

/-- The creator is alone on its host with the calls that wait, and the file has
the part that it has written. -/
theorem Agreement.put (agreement : Agreement place draw old s) {number : Nat}
    {content rest : List Char} {call : HostIdCall}
    (alone : ∀ other, other ≠ number → place other = place number →
      (s.calls other).isWaiting = true)
    (part : content ++ rest = freshHostId (draw number))
    (follows : call = .writing rest ∨ rest = [] ∧
      call = .returned (String.ofList (freshHostId (draw number)))) :
    Agreement place draw old ((s.setFile (place number) (.text content)).setCall number call) := by
  have apart {other : Nat} {found : HostIdCall} (different : other ≠ number)
      (still : s.calls other = found)
      (busy : found.isWaiting = false) : place other ≠ place number := by
    intro near
    have waiting := alone other different near
    rw [still, busy] at waiting
    cases waiting
  refine ⟨fun writer left writes other different near => ?_, fun writer left writes => ?_,
    fun holder id returned => ?_, fun host settled => ?_⟩
  · rcases calls_setCall writes with ⟨rfl, _⟩ | ⟨own, still⟩
    · rw [HostIdState.setCall_calls, Function.update_of_ne different]
      exact alone other different near
    · have far := apart own still rfl
      have moved : other ≠ number := fun same => far (same ▸ near.symm)
      rw [HostIdState.setCall_calls, Function.update_of_ne moved]
      exact agreement.alone writer left still other different near
  · rcases calls_setCall writes with ⟨rfl, same⟩ | ⟨own, still⟩
    · rcases follows with writing | ⟨_, returned⟩
      · rw [writing] at same
        cases same
        exact ⟨content, by simp, part⟩
      · rw [returned] at same
        cases same
    · obtain ⟨found, file, whole⟩ := agreement.part writer left still
      exact ⟨found, by simpa [apart own still rfl] using file, whole⟩
  · rcases calls_setCall returned with ⟨rfl, same⟩ | ⟨own, still⟩
    · rcases follows with writing | ⟨rfl, returned⟩
      · rw [writing] at same
        cases same
      · have own := HostIdCall.returned.inj (returned.symm.trans same)
        rw [List.append_nil] at part
        simp only [HostIdState.setCall_files, HostIdState.setFile_files, Function.update_self,
          IdFile.read, part]
        rw [← own]
        exact nonEmpty_freshHostId (draw holder)
    · simpa [apart own still rfl] using agreement.named holder id still
  · by_cases near : host = place number
    · subst near
      rcases follows with rfl | ⟨rfl, _⟩
      · exact absurd rfl (settled number rest (by simp))
      · rw [List.append_nil] at part
        exact .inr ⟨number, rfl, by simp [part]⟩
    · have before : Settled place s host := by
        intro writer left writes same
        have different : writer ≠ number := fun equal => near (equal ▸ same.symm)
        exact settled writer left (by simpa [different] using writes) same
      simpa [near] using agreement.origin host before

theorem Agreement.move (agreement : Agreement place draw old s)
    (moved : HostIdMove place draw s t) :
    Agreement place draw old t := by
  cases moved with
  | wait number call before after =>
      refine agreement.keep before (fun rest same => ?_) fun id same => ?_
      · rw [same] at after
        cases after
      · rw [same] at after
        cases after
  | take number id before read settled =>
      refine agreement.keep before (fun rest same => by cases same) fun other same => ?_
      cases same
      exact ⟨read, settled⟩
  | create number before absent =>
      refine agreement.put (fun other different near => ?_) (List.nil_append _) (.inl rfl)
      -- a file that is absent is neither being written nor read for a name
      cases call : s.calls other with
      | writing rest =>
          obtain ⟨content, file, _⟩ := agreement.part other rest call
          rw [near, absent] at file
          cases file
      | returned id =>
          have read := agreement.named other id call
          rw [near, absent] at read
          cases read
      | idle | reading | creating | rereading => rfl
  | write number count rest writes more =>
      obtain ⟨content, file, whole⟩ := agreement.part number rest writes
      rw [file]
      exact agreement.put (agreement.alone number rest writes)
        (by rw [List.append_assoc, List.take_append_drop, whole]) (.inl rfl)
  | finish number count rest writes last =>
      obtain ⟨content, file, whole⟩ := agreement.part number rest writes
      rw [file]
      refine agreement.put (agreement.alone number rest writes) ?_ (.inr ⟨rfl, rfl⟩)
      rw [List.take_of_length_le last, List.append_nil, whole]

theorem Agreement.run (run : (hostIdMachine place draw).Runs (ReadsWhole place) s t)
    (started : (hostIdMachine place draw).start s) : Agreement place draw s.files t := by
  have first : Agreement place draw s.files s := by
    have idle (number : Nat) (call : HostIdCall) (holds : s.calls number = call) : call = .idle :=
      holds.symm.trans (started number)
    refine ⟨fun number rest writes => ?_, fun number rest writes => ?_,
      fun number id returned => ?_, fun host _ => .inl rfl⟩
    · cases idle number _ writes
    · cases idle number _ writes
    · cases idle number _ returned
  exact run.preserves first fun _ _ _ agreement permitted stepped =>
    agreement.move (hostId_move permitted stepped)

end Moves

/-- In a run without a torn read, the calls on one host return one id, and calls on hosts that have
no id in common return different ones. A live holder of the first kind keeps its lease; one of the
second is judged by age. -/
theorem hosts_agree {Host : Type*} [DecidableEq Host] {place : Nat → Host} {draw : Nat → Uuid}
    {s t : HostIdState Host}
    (run : (hostIdMachine place draw).Runs (ReadsWhole place) s t)
    (started : (hostIdMachine place draw).start s)
    {holder caller : Nat} {held own : String} (first : t.calls holder = .returned held)
    (second : t.calls caller = .returned own) :
    (place holder = place caller → held = own ∧ ∀ leases pid aged, leases.alive pid = true →
      isStale own leases ⟨pid, held⟩ aged = false) ∧
    (HostsApart place draw s.files → place holder ≠ place caller → held ≠ own ∧ ∀ leases pid aged,
      isStale own leases ⟨pid, held⟩ aged = leases.olderThan aged) := by
  have agreement := Agreement.run run started
  refine ⟨fun near => ?_, fun apart far => ?_⟩
  · have same := agreement.same first second near
    refine ⟨same, fun leases pid aged live => ?_⟩
    rw [isStale, if_pos same, live]
    rfl
  · have different := agreement.differ apart first second far
    refine ⟨different, fun leases pid aged => ?_⟩
    rw [isStale, if_neg different]

section Samples

/-- All processes of the samples run on one host. -/
def onlyHost (_ : Nat) : Unit := ()

def sampleDraw (number : Nat) : Uuid := BitVec.ofNat 128 number

def untouchedHost : HostIdState Unit := ⟨fun _ => .absent, fun _ => .idle⟩

/-- The second process asks when the first has written its id. -/
theorem hosts_agree_sample : ∃ t held own,
    (hostIdMachine onlyHost sampleDraw).Runs (ReadsWhole onlyHost) untouchedHost t ∧
      t.calls 0 = .returned held ∧ t.calls 1 = .returned own ∧ held = own := by
  obtain ⟨t, ran, first, second⟩ : ∃ t, (hostIdMachine onlyHost sampleDraw).exec untouchedHost
      [.fallbackHostId 0, .advance 0, .advance 0, .writeSome 0 5, .writeSome 0 36,
        .fallbackHostId 1, .advance 1] =
        some t ∧ t.calls 0 = .returned (String.ofList (freshHostId 0)) ∧
        t.calls 1 = .returned (String.ofList (freshHostId 0)) := ⟨_, rfl, rfl, rfl⟩
  have run : (hostIdMachine onlyHost sampleDraw).Runs (ReadsWhole onlyHost) untouchedHost t := by
    refine Machine.exec_runs ?_ ran
    refine Machine.permits_cons trivial rfl ?_
    refine Machine.permits_cons (fun found => (by cases found)) rfl ?_
    refine Machine.permits_cons trivial rfl ?_
    refine Machine.permits_cons trivial rfl ?_
    refine Machine.permits_cons trivial rfl ?_
    refine Machine.permits_cons trivial rfl ?_
    refine ⟨fun _ number rest writes => ?_, fun _ _ => trivial⟩
    match number with
    | 0 => cases writes
    | 1 => cases writes
    | number + 2 => cases writes
  exact ⟨t, _, _, run, first, second, ((hosts_agree run (fun _ => rfl) first second).1 rfl).1⟩

/-- The second process reads the id file when the first has created it and written nothing. It takes
an old lease of the first, which is alive, for stale. -/
theorem torn_host_id :
    ∃ t held own leases, (hostIdMachine onlyHost sampleDraw).start untouchedHost ∧
    (hostIdMachine onlyHost sampleDraw).Runs Machine.free untouchedHost t ∧
    t.calls 0 = .returned held ∧ t.calls 1 = .returned own ∧ held ≠ own ∧
    leases.lease = some ⟨7, held⟩ ∧ leases.alive 7 = true ∧
      isStale own leases ⟨7, held⟩ true = true := by
  obtain ⟨t, ran, first, second⟩ : ∃ t, (hostIdMachine onlyHost sampleDraw).exec untouchedHost
      [.fallbackHostId 0, .fallbackHostId 1, .advance 0, .advance 0, .advance 1, .advance 1,
        .advance 1, .writeSome 0 41] = some t ∧
        t.calls 0 = .returned (String.ofList (freshHostId (sampleDraw 0))) ∧
        t.calls 1 = .returned (String.ofList (freshHostId (sampleDraw 1))) := ⟨_, rfl, rfl, rfl⟩
  have run := Machine.exec_runs (Machine.permits_free _ _ _) ran
  have different : String.ofList (freshHostId (sampleDraw 0)) ≠
      String.ofList (freshHostId (sampleDraw 1)) := by
    intro same
    have drawn : sampleDraw 0 = sampleDraw 1 := freshHostId_injective (String.ofList_injective same)
    exact absurd drawn (by decide)
  let leases : LeaseState :=
    ⟨some ⟨0, some ⟨7, String.ofList (freshHostId (sampleDraw 0))⟩⟩, 0, fun _ => true,
    fun _ => .idle⟩
  refine ⟨t, _, _, leases, fun _ => rfl, run, first, second, different, rfl, rfl, ?_⟩
  rw [isStale, if_neg different]
  rfl

end Samples

end Openheim.Memory
