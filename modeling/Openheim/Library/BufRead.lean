import Mathlib.Data.List.Basic

/-
This library describes a buffered reader, whose input arrives in chunks of any size, and the lines
of an input. A line has the element that ends it; the last line may lack it.
-/

namespace BufRead
variable {α : Type*}

/-- The chunks in which the rest of the input will arrive. -/
structure Reader (α : Type*) where
  chunks : List (List α)
  filled : ∀ chunk ∈ chunks, chunk ≠ []

/-- The chunks after some elements of them are consumed. -/
def consumeChunks : Nat → List (List α) → List (List α)
  | _, [] => []
  | count, chunk :: rest =>
      if count < chunk.length then chunk.drop count :: rest
      else consumeChunks (count - chunk.length) rest

/-- Consuming leaves no empty chunk. -/
theorem consumeChunks_filled (count : Nat) (chunks : List (List α))
    (filled : ∀ chunk ∈ chunks, chunk ≠ []) :
    ∀ chunk ∈ consumeChunks count chunks, chunk ≠ [] := by
  induction chunks generalizing count with
  | nil => exact fun chunk member => absurd member List.not_mem_nil
  | cons first rest ih =>
      obtain ⟨_, others⟩ := List.forall_mem_cons.mp filled
      rw [consumeChunks]
      split
      · next inside =>
        refine List.forall_mem_cons.mpr ⟨fun empty => ?_, others⟩
        exact absurd (List.drop_eq_nil_iff.mp empty) (Nat.not_le.mpr inside)
      · exact ih _ others

/-- Consuming drops as much of the input. -/
theorem flatten_consumeChunks (count : Nat) (chunks : List (List α)) :
    (consumeChunks count chunks).flatten = chunks.flatten.drop count := by
  induction chunks generalizing count with
  | nil => rw [consumeChunks, List.flatten_nil, List.drop_nil]
  | cons first rest ih =>
      rw [consumeChunks, List.flatten_cons, List.drop_append]
      split
      · next inside =>
        rw [List.flatten_cons, Nat.sub_eq_zero_of_le (Nat.le_of_lt inside), List.drop_zero]
      · next past => rw [ih, List.drop_of_length_le (Nat.not_lt.mp past), List.nil_append]

namespace Reader

/-- The rest of the input. -/
def left (reader : Reader α) : List α := reader.chunks.flatten

/-- The buffer holds the first chunk; it is empty at the end of the input. -/
def fillBuf (reader : Reader α) : List α := reader.chunks.headD []

def consume (reader : Reader α) (count : Nat) : Reader α :=
  ⟨consumeChunks count reader.chunks, consumeChunks_filled count reader.chunks reader.filled⟩

/-- The reader of a list has all of it in its buffer. -/
def ofList (list : List α) : Reader α :=
  if nonempty : list = [] then ⟨[], by simp⟩ else ⟨[list], by simpa using nonempty⟩

@[simp] theorem left_ofList (list : List α) : (ofList list).left = list := by
  unfold ofList left
  split
  · next empty => exact empty.symm
  · exact List.flatten_singleton

@[simp] theorem left_consume (reader : Reader α) (count : Nat) :
    (reader.consume count).left = reader.left.drop count :=
  flatten_consumeChunks count reader.chunks

/-- What is buffered is the front of the input that is left. -/
theorem fillBuf_prefix (reader : Reader α) : reader.fillBuf <+: reader.left := by
  unfold fillBuf left
  cases reader.chunks with
  | nil => exact List.nil_prefix
  | cons chunk rest => exact List.prefix_append chunk rest.flatten

@[simp] theorem fillBuf_eq_nil (reader : Reader α) : reader.fillBuf = [] ↔ reader.left = [] := by
  constructor
  · intro empty
    obtain ⟨chunks, filled⟩ := reader
    cases chunks with
    | nil => rfl
    | cons chunk rest => exact absurd empty (filled chunk (List.mem_cons_self ..))
  · intro none
    exact List.prefix_nil.mp (none ▸ reader.fillBuf_prefix)

end Reader

section Lines
variable [DecidableEq α] (newline : α)

/-- The first line of an input, with its end. -/
def firstLine : List α → List α
  | [] => []
  | first :: rest => if first = newline then [first] else first :: firstLine rest

/-- What follows the first line. -/
def afterLine : List α → List α
  | [] => []
  | first :: rest => if first = newline then rest else afterLine rest

def lines : List α → List (List α)
  | [] => []
  | first :: rest =>
      if first = newline then [first] :: lines rest
      else
        match lines rest with
        | [] => [[first]]
        | line :: more => (first :: line) :: more

/-- A read up to a newline takes a limited number of elements. -/
def Reader.readUntil (reader : Reader α) (limit : Nat) : List α × Reader α :=
  let read := (firstLine newline reader.left).take limit
  (read, reader.consume read.length)

variable {newline}

/-- The first line and what follows it are the input. -/
theorem firstLine_append_afterLine (input : List α) :
    firstLine newline input ++ afterLine newline input = input := by
  induction input with
  | nil => rfl
  | cons first rest ih =>
      rw [firstLine, afterLine]
      split
      · rfl
      · rw [List.cons_append, ih]

/-- The first line of an input has at least one element. -/
theorem firstLine_ne_nil {input : List α} (nonempty : input ≠ []) :
    firstLine newline input ≠ [] := by
  cases input with
  | nil => exact absurd rfl nonempty
  | cons first rest =>
      rw [firstLine]
      split
      · exact List.cons_ne_nil _ _
      · exact List.cons_ne_nil _ _

/-- Behind the first line there is less input. -/
theorem afterLine_length_lt {input : List α} (nonempty : input ≠ []) :
    (afterLine newline input).length < input.length := by
  have whole := congrArg List.length (@firstLine_append_afterLine _ _ newline input)
  have some_ := List.length_pos_of_ne_nil (@firstLine_ne_nil _ _ newline _ nonempty)
  rw [List.length_append] at whole
  omega

/-- A line goes on through what has no newline. -/
theorem firstLine_append {before : List α} (plain : newline ∉ before) (after : List α) :
    firstLine newline (before ++ after) = before ++ firstLine newline after ∧
      afterLine newline (before ++ after) = afterLine newline after := by
  induction before with
  | nil => exact ⟨rfl, rfl⟩
  | cons first before ih =>
      obtain ⟨different, plain⟩ := List.ne_and_not_mem_of_not_mem_cons plain
      rw [List.cons_append, firstLine, afterLine, if_neg (Ne.symm different),
        if_neg (Ne.symm different), (ih plain).1, (ih plain).2]
      exact ⟨rfl, rfl⟩

/-- A newline in front is a line by itself. -/
theorem firstLine_newline (rest : List α) :
    firstLine newline (newline :: rest) = [newline] ∧
      afterLine newline (newline :: rest) = rest := by
  rw [firstLine, afterLine, if_pos rfl, if_pos rfl]
  exact ⟨rfl, rfl⟩

/-- A line has its newline at most at its end. -/
theorem not_mem_take_firstLine {input : List α} {count : Nat}
    (short : count < (firstLine newline input).length) :
    newline ∉ (firstLine newline input).take count := by
  induction input generalizing count with
  | nil => exact absurd short (Nat.not_lt_zero _)
  | cons first rest ih =>
      rw [firstLine] at short ⊢
      split at short
      · next ends =>
        rw [if_pos ends, Nat.lt_one_iff.mp short]
        exact List.not_mem_nil
      · next goes =>
        rw [if_neg goes]
        cases count with
        | zero => exact List.not_mem_nil
        | succ count =>
            rw [List.take_succ_cons]
            exact List.not_mem_cons_of_ne_of_not_mem (Ne.symm goes)
              (ih (Nat.lt_of_succ_lt_succ short))

/-- A line without a newline is the last one. -/
theorem firstLine_ended {input : List α} (nonempty : input ≠ []) :
    (firstLine newline input).getLast? = some newline ∨ afterLine newline input = [] := by
  induction input with
  | nil => exact absurd rfl nonempty
  | cons first rest ih =>
      rw [firstLine, afterLine]
      split
      · next ends => exact .inl (by rw [ends]; rfl)
      · by_cases empty : rest = []
        · rw [empty]
          exact .inr rfl
        · rcases ih empty with ends | last
          · rw [List.getLast?_cons, ends]
            exact .inl rfl
          · exact .inr last

/-- The first newline of a buffer has none before it. -/
theorem split_of_idxOf? {buffer : List α} {index : Nat}
    (found : buffer.idxOf? newline = some index) :
    ∃ before after, buffer = before ++ newline :: after ∧ before.length = index ∧
      newline ∉ before := by
  obtain ⟨inside, here, earlier⟩ := List.idxOf?_eq_some_iff.mp found
  refine ⟨buffer.take index, buffer.drop (index + 1), ?_,
    List.length_take_of_le (Nat.le_of_lt inside), fun member => ?_⟩
  · rw [← here, ← List.drop_eq_getElem_cons inside, List.take_append_drop]
  · obtain ⟨position, small, same⟩ := List.mem_iff_getElem.mp member
    rw [List.length_take_of_le (Nat.le_of_lt inside)] at small
    rw [List.getElem_take] at same
    exact earlier position small same

theorem lines_eq_nil {input : List α} : lines newline input = [] ↔ input = [] := by
  cases input with
  | nil => simp [lines]
  | cons first rest =>
      rw [lines]
      split
      · simp
      · split
        · simp
        · simp

/-- The lines are the first one and those behind it. -/
theorem lines_of_ne_nil {input : List α} (nonempty : input ≠ []) :
    lines newline input = firstLine newline input :: lines newline (afterLine newline input) := by
  induction input with
  | nil => exact absurd rfl nonempty
  | cons first rest ih =>
      rw [lines, firstLine, afterLine]
      split
      · rfl
      · by_cases empty : rest = []
        · rw [empty]
          rfl
        · rw [ih empty]

@[simp] theorem flatten_lines (input : List α) : (lines newline input).flatten = input := by
  induction input with
  | nil => rfl
  | cons first rest ih =>
      rw [lines]
      split
      · rw [List.flatten_cons, ih, List.singleton_append]
      · split
        · next empty => rw [lines_eq_nil.mp empty, List.flatten_singleton]
        · next line more split =>
          rw [split, List.flatten_cons] at ih
          rw [List.flatten_cons, List.cons_append, ih]

/-- Dropping whole lines leaves the others. -/
theorem lines_flatten_drop (input : List α) (count : Nat) :
    lines newline ((lines newline input).drop count).flatten =
      (lines newline input).drop count := by
  induction count generalizing input with
  | zero => rw [List.drop_zero, flatten_lines]
  | succ count ih =>
      by_cases empty : input = []
      · rw [empty]
        rfl
      · rw [lines_of_ne_nil empty, List.drop_succ_cons]
        exact ih _

/-- A line with its newline is the first one, whatever follows. -/
theorem lines_terminated {input : List α} (ends : (firstLine newline input).getLast? = some newline)
    (after : List α) :
    lines newline (firstLine newline input ++ after) = firstLine newline input ::
      lines newline after := by
  obtain ⟨before, line⟩ := List.getLast?_eq_some_iff.mp ends
  have plain : newline ∉ before := by
    have short : before.length < (firstLine newline input).length := by
      rw [line, List.length_append]
      exact Nat.lt_succ_self _
    have front := not_mem_take_firstLine short
    rwa [line, List.take_left] at front
  have some_ : before ++ newline :: after ≠ [] :=
    List.append_ne_nil_of_right_ne_nil _ (List.cons_ne_nil _ _)
  rw [line, List.append_assoc, List.singleton_append, lines_of_ne_nil some_,
    (firstLine_append plain _).1, (firstLine_append plain _).2, (firstLine_newline after).1,
      (firstLine_newline after).2]

/-- Taking whole lines takes those. -/
theorem lines_flatten_take (input : List α) (count : Nat) :
    lines newline ((lines newline input).take count).flatten =
      (lines newline input).take count := by
  induction count generalizing input with
  | zero => rfl
  | succ count ih =>
      by_cases empty : input = []
      · rw [empty]
        rfl
      · rw [lines_of_ne_nil empty, List.take_succ_cons, List.flatten_cons]
        rcases @firstLine_ended _ _ newline _ empty with ends | last
        · rw [lines_terminated ends, ih]
        · have line : firstLine newline input = input := by
            have whole := @firstLine_append_afterLine _ _ newline input
            rwa [last, List.append_nil] at whole
          rw [last]
          simp only [lines, List.take_nil, List.flatten_nil, List.append_nil]
          rw [line, lines_of_ne_nil empty, last, line]
          rfl

/-- What is left of a first line is the first line of what is left. -/
theorem firstLine_drop {input : List α} {size : Nat}
    (inside : size < (firstLine newline input).length) :
    firstLine newline (input.drop size) = (firstLine newline input).drop size ∧
      afterLine newline (input.drop size) = afterLine newline input := by
  have split : input = (firstLine newline input).take size ++ input.drop size := by
    have front : (firstLine newline input).take size = input.take size := by
      have whole := congrArg (List.take size) (@firstLine_append_afterLine _ _ newline input)
      rwa [List.take_append_of_le_length (Nat.le_of_lt inside)] at whole
    rw [front, List.take_append_drop]
  obtain ⟨first, after⟩ := firstLine_append (not_mem_take_firstLine inside) (input.drop size)
  rw [← split] at first after
  refine ⟨?_, after.symm⟩
  have dropped := congrArg (List.drop size) first
  rw [List.drop_append_of_le_length
    (Nat.le_of_eq (List.length_take_of_le (Nat.le_of_lt inside)).symm),
    List.drop_of_length_le (List.length_take_le _ _), List.nil_append] at dropped
  exact dropped.symm

section Read
variable {reader : Reader α} {limit : Nat}

/-- What was read was left before. -/
theorem left_of_readUntil (some_ : (reader.readUntil newline limit).1 ≠ []) : reader.left ≠ [] := by
  intro empty
  apply some_
  rw [Reader.readUntil, empty]
  exact List.take_nil

/-- A line within the limit is read whole, up to its newline or the end of the input. -/
theorem readUntil_whole (fits : (firstLine newline reader.left).length ≤ limit) :
    (reader.readUntil newline limit).1 = firstLine newline reader.left ∧
      (reader.readUntil newline limit).2.left = afterLine newline reader.left := by
  have read : (reader.readUntil newline limit).1 = firstLine newline reader.left :=
    List.take_of_length_le fits
  refine ⟨read, ?_⟩
  have left : (reader.readUntil newline limit).2.left =
      reader.left.drop (reader.readUntil newline limit).1.length :=
    Reader.left_consume reader _
  have after : reader.left.drop (firstLine newline reader.left).length =
      afterLine newline reader.left := by
    have split := congrArg (List.drop (firstLine newline reader.left).length)
      (@firstLine_append_afterLine _ _ newline reader.left)
    rw [List.drop_left] at split
    exact split.symm
  rw [left, read, after]

/-- A line that fits is read to its newline or to the end of the input. -/
theorem readUntil_ended (nonempty : reader.left ≠ [])
    (fits : (firstLine newline reader.left).length ≤ limit) :
    (reader.readUntil newline limit).1.getLast? = some newline ∨
      (reader.readUntil newline limit).2.fillBuf = [] := by
  obtain ⟨read, left⟩ := readUntil_whole fits
  rw [read, Reader.fillBuf_eq_nil, left]
  exact firstLine_ended nonempty

/-- A longer line is torn: its newline and more of the input are left. -/
theorem readUntil_torn (long : limit < (firstLine newline reader.left).length) :
    (reader.readUntil newline limit).1 = (firstLine newline reader.left).take limit ∧
      (reader.readUntil newline limit).2.left =
        (firstLine newline reader.left).drop limit ++ afterLine newline reader.left ∧
      ¬ ((reader.readUntil newline limit).1.getLast? = some newline ∨
        (reader.readUntil newline limit).2.fillBuf = []) := by
  have read : (reader.readUntil newline limit).1 = (firstLine newline reader.left).take limit := rfl
  have left : (reader.readUntil newline limit).2.left =
      (firstLine newline reader.left).drop limit ++ afterLine newline reader.left := by
    have dropped : (reader.readUntil newline limit).2.left =
        reader.left.drop ((firstLine newline reader.left).take limit).length :=
          Reader.left_consume reader _
    rw [dropped, List.length_take_of_le (Nat.le_of_lt long)]
    have split := congrArg (List.drop limit) (@firstLine_append_afterLine _ _ newline reader.left)
    rw [List.drop_append_of_le_length (Nat.le_of_lt long)] at split
    exact split.symm
  refine ⟨read, left, ?_⟩
  rintro (ends | none)
  · rw [read] at ends
    exact not_mem_take_firstLine long (List.mem_of_getLast? ends)
  · rw [Reader.fillBuf_eq_nil, left] at none
    exact absurd (List.drop_eq_nil_iff.mp (List.append_eq_nil_iff.mp none).1) (Nat.not_le.mpr long)

end Read

end Lines

end BufRead
