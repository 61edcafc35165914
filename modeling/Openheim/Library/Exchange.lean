import Mathlib.Data.List.TakeWhile

/-
This library describes a sequence of items in which some items make calls, by an id each, and some
items hold the results of calls.
-/

/-- What one reads off an item: the calls that it makes and the results that it holds. -/
structure Exchange (Item Id : Type*) where
  calls : Item → List Id
  results : Item → List Id

namespace Exchange
variable {Item Id : Type*}

/-- Every call has its result in the very next item. -/
def AnsweredNext (view : Exchange Item Id) : List Item → Prop
  | [] => True
  | item :: rest => (∀ id ∈ view.calls item, ∃ next ∈ rest.head?, id ∈ view.results next) ∧
      view.AnsweredNext rest

/-- Every call has its result among the items right after it that satisfy the predicate. -/
def AnsweredFirst (view : Exchange Item Id) (isResult : Item → Bool) : List Item → Prop
  | [] => True
  | item :: rest =>
      (∀ id ∈ view.calls item, ∃ answer ∈ rest.takeWhile isResult, id ∈ view.results answer) ∧
        view.AnsweredFirst isResult rest

/-- Every result belongs to a call that was seen before. -/
def Called (view : Exchange Item Id) : List Id → List Item → Prop
  | _, [] => True
  | seen, item :: rest => (∀ id ∈ view.results item, id ∈ seen) ∧
      view.Called (seen ++ view.calls item) rest

variable {view : Exchange Item Id} {isResult : Item → Bool} {first second : List Item}

theorem AnsweredNext.append (one : view.AnsweredNext first) (two : view.AnsweredNext second) :
    view.AnsweredNext (first ++ second) := by
  induction first with
  | nil => exact two
  | cons item rest ih =>
      refine ⟨fun id called => ?_, ih one.2⟩
      obtain ⟨next, follows, answered⟩ := one.1 id called
      cases rest with
      | nil => cases follows
      | cons other rest => exact ⟨next, follows, answered⟩

theorem AnsweredFirst.append (one : view.AnsweredFirst isResult first)
    (two : view.AnsweredFirst isResult second) :
    view.AnsweredFirst isResult (first ++ second) := by
  induction first with
  | nil => exact two
  | cons item rest ih =>
      refine ⟨fun id called => ?_, ih one.2⟩
      obtain ⟨answer, among, answered⟩ := one.1 id called
      refine ⟨answer, ?_, answered⟩
      show answer ∈ (rest ++ second).takeWhile isResult
      rw [List.takeWhile_append]
      split
      · exact List.mem_append_left _ (List.takeWhile_subset _ among)
      · exact among

/-- What follows a part of a sequence is answered by itself. -/
theorem AnsweredFirst.right (whole : view.AnsweredFirst isResult (first ++ second)) :
    view.AnsweredFirst isResult second := by
  induction first with
  | nil => exact whole
  | cons item rest ih => exact ih whole.2

theorem Called.mono {seen more : List Id} (called : view.Called seen first) (grows : seen ⊆ more) :
    view.Called more first := by
  induction first generalizing seen more with
  | nil => trivial
  | cons item rest ih =>
      have both : seen ++ view.calls item ⊆ more ++ view.calls item :=
        List.append_subset.mpr ⟨List.subset_append_of_subset_left _ grows,
          List.subset_append_right _ _⟩
      exact ⟨fun id result => grows (called.1 id result), ih called.2 both⟩

theorem Called.append {seen : List Id} (one : view.Called seen first)
    (two : view.Called seen second) :
    view.Called seen (first ++ second) := by
  induction first generalizing seen with
  | nil => exact two
  | cons item rest ih =>
      exact ⟨one.1, ih one.2 (two.mono (List.subset_append_left _ _))⟩

/-- Items that only hold results of seen calls belong to them. -/
theorem called_of_results {seen : List Id}
    (results : ∀ item ∈ first, ∀ id ∈ view.results item, id ∈ seen) :
    view.Called seen first := by
  induction first generalizing seen with
  | nil => trivial
  | cons item rest ih =>
      refine ⟨results item List.mem_cons_self, ih fun other member id result => ?_⟩
      exact List.mem_append_left _ (results other (List.mem_cons_of_mem _ member) id result)

/-- Items that make no call need no answer. -/
theorem answeredFirst_of_no_calls (silent : ∀ item ∈ first, view.calls item = []) :
    view.AnsweredFirst isResult first := by
  induction first with
  | nil => trivial
  | cons item rest ih =>
      refine ⟨fun id called => ?_, ih fun other member =>
        silent other (List.mem_cons_of_mem _ member)⟩
      rw [silent item List.mem_cons_self] at called
      cases called

theorem answeredNext_of_no_calls (silent : ∀ item ∈ first, view.calls item = []) :
    view.AnsweredNext first := by
  induction first with
  | nil => trivial
  | cons item rest ih =>
      refine ⟨fun id called => ?_, ih fun other member =>
        silent other (List.mem_cons_of_mem _ member)⟩
      rw [silent item List.mem_cons_self] at called
      cases called

theorem called_of_no_results {seen : List Id} (silent : ∀ item ∈ first, view.results item = []) :
    view.Called seen first :=
  called_of_results fun item member id result => by
    rw [silent item member] at result
    cases result

/-- Calls and their results may stand in two neighbouring items. -/
theorem of_pair {caller answer : Item} (no_results : view.results caller = [])
    (no_calls : view.calls answer = [])
    (same : ∀ id, id ∈ view.calls caller ↔ id ∈ view.results answer) :
    view.AnsweredNext [caller, answer] ∧ view.Called [] [caller, answer] := by
  refine ⟨⟨fun id called => ⟨answer, rfl, (same id).mp called⟩, by simp [no_calls], trivial⟩, ?_,
    ?_, trivial⟩
  · simp [no_results]
  · simpa using fun id => (same id).mpr

/-- The results of a call may be spread over the items right after it. -/
theorem of_answers {caller : Item} (no_results : view.results caller = [])
    (no_calls : ∀ item ∈ first, view.calls item = []) (kind : ∀ item ∈ first, isResult item = true)
    (same : ∀ id, id ∈ view.calls caller ↔ ∃ item ∈ first, id ∈ view.results item) :
    view.AnsweredFirst isResult (caller :: first) ∧ view.Called [] (caller :: first) := by
  refine ⟨⟨fun id called => ?_, answeredFirst_of_no_calls no_calls⟩, by simp [no_results], ?_⟩
  · rw [List.takeWhile_eq_self_iff.mpr kind]
    exact (same id).mp called
  · exact called_of_results fun item member id result => (same id).mpr ⟨item, member, result⟩

end Exchange
