import Openheim.Tools.ReadFile

/-
This file says which lines of its input each loop of `src/tools/read_file.rs` passes over, takes or
counts.
-/

namespace Openheim.Tools
open BufRead

theorem skipLine_spec (reader : Reader UInt8) (budget : Nat) :
    Skipped false reader budget (skipLine reader budget) := skipLineFrom_spec false reader budget

/-- With a budget for the whole input, all lines before the first one asked for are passed over. -/
theorem skipTo_spec (first begun : Nat) (reader : Reader UInt8) (budget : Nat)
    (enough : reader.left.length ≤ budget) :
    (skipTo first begun reader budget).1 =
      begun + min (first - 1 - begun) (lines newline reader.left).length ∧
      lines newline (skipTo first begun reader budget).2.left =
        (lines newline reader.left).drop (first - 1 - begun) := by
  fun_induction skipTo first begun reader budget with
  | case1 begun reader budget more rest budget' skipped ih =>
      have spec := skipLine_spec reader budget
      rw [skipped] at spec
      cases spec with
      | line _ nonempty fits after =>
          have whole := congrArg List.length (@firstLine_append_afterLine _ _ newline reader.left)
          rw [List.length_append] at whole
          obtain ⟨count, left⟩ := ih (by rw [after]; omega)
          rw [after] at count left
          have step : first - 1 - begun = first - 1 - (begun + 1) + 1 := by omega
          rw [count, left, lines_of_ne_nil nonempty, step, List.drop_succ_cons, List.length_cons]
          exact ⟨by omega, rfl⟩
  | case2 begun reader budget more found stuck remaining failed skipped =>
      have spec := skipLine_spec reader budget
      rw [skipped] at spec
      cases spec with
      | ended empty =>
          rw [empty]
          simp [lines]
      | line _ _ _ _ => exact absurd rfl failed
      | short _ _ long =>
          have whole := congrArg List.length (@firstLine_append_afterLine _ _ newline reader.left)
          rw [List.length_append] at whole
          omega
  | case3 begun reader budget past =>
      have zero : first - 1 - begun = 0 := by omega
      rw [zero, Nat.zero_min, Nat.add_zero, List.drop_zero]
      exact ⟨rfl, rfl⟩

/-- A count of the rest is right when there is one. -/
theorem countRest_spec {count total : Nat} {reader : Reader UInt8} {budget : Nat}
    (counted : countRest count reader budget = some total) :
    total = count + (lines newline reader.left).length := by
  fun_induction countRest count reader budget with
  | case1 count reader budget rest budget' skipped ih =>
      have spec := skipLine_spec reader budget
      rw [skipped] at spec
      cases spec with
      | line _ nonempty fits after =>
          rw [ih counted, after, lines_of_ne_nil nonempty, List.length_cons]
          omega
  | case2 count reader budget rest budget' skipped =>
      have spec := skipLine_spec reader budget
      rw [skipped] at spec
      cases spec with
      | ended empty =>
          rw [empty]
          exact (Option.some.inj counted).symm
  | case3 count reader budget rest budget' skipped => cases counted

/-- What the loop over the lines comes to: whole lines, a first line that was cut, or whole lines
before one that does not fit. -/
inductive Scanned (limit : Option Nat) (maxBytes : Nat) (out : List UInt8) (shown begun : Nat)
    (input : List (List UInt8)) : Scan → Prop where
  | whole (block rest : List (List UInt8)) (reader : Reader UInt8) (split : input = block ++ rest)
      (left : lines newline reader.left = rest)
      (some_ : block = [] → rest = [] ∨ ¬ (limit.all (shown < ·) ∧ out.length < maxBytes)) :
      Scanned limit maxBytes out shown begun input
        ⟨out ++ block.flatten, shown + block.length, begun + block.length, false, false, reader⟩
  | cut (line : List UInt8) (more : List (List UInt8)) (reader : Reader UInt8)
      (split : input = line :: more)
      (first : shown = 0) (long : maxBytes - out.length < line.length)
      (left : reader.left = line.drop (maxBytes - out.length) ++ more.flatten) :
      Scanned limit maxBytes out shown begun input
        ⟨out ++ line.take (maxBytes - out.length), shown, begun + 1, true, true, reader⟩
  | kept (block : List (List UInt8)) (line : List UInt8) (more : List (List UInt8))
      (reader : Reader UInt8) (size : Nat)
      (split : input = block ++ line :: more) (some_ : 0 < shown + block.length)
      (inside : size < line.length)
      (left : reader.left = line.drop size ++ more.flatten) :
      Scanned limit maxBytes out shown begun input
        ⟨out ++ block.flatten, shown + block.length, begun + block.length + 1, false, true, reader⟩

/-- One more whole line in front of what is scanned. -/
theorem Scanned.cons {limit : Option Nat} {maxBytes shown begun : Nat} {out line : List UInt8}
    {input : List (List UInt8)} {scan : Scan}
    (scanned : Scanned limit maxBytes (out ++ line) (shown + 1) (begun + 1) input scan) :
    Scanned limit maxBytes out shown begun (line :: input) scan := by
  have sum (start : Nat) (block : List (List UInt8)) :
      start + 1 + block.length = start + (line :: block).length := by
    rw [List.length_cons]
    omega
  have joined (block : List (List UInt8)) : out ++ line ++ block.flatten =
      out ++ (line :: block).flatten := by
    rw [List.flatten_cons, List.append_assoc]
  cases scanned with
  | whole block rest reader split left some_ =>
      rw [sum, sum, joined]
      exact .whole (line :: block) rest reader (by rw [split, List.cons_append]) left
        fun empty => absurd empty (List.cons_ne_nil _ _)
  | cut next more reader split first long left => exact absurd first (Nat.succ_ne_zero shown)
  | kept block next more reader size split some_ inside left =>
      rw [sum, sum, joined]
      exact .kept (line :: block) next more reader size (by rw [split, List.cons_append])
        (by rw [List.length_cons]; omega) inside left

theorem readLines_spec (limit : Option Nat) (maxBytes : Nat) (out : List UInt8) (shown begun : Nat)
    (reader : Reader UInt8) :
    Scanned limit maxBytes out shown begun (lines newline reader.left)
      (readLines limit maxBytes out shown begun reader) := by
  fun_induction readLines limit maxBytes out shown begun reader with
  | case1 out shown begun reader room read ended =>
      have empty : reader.left = [] := by
        by_contra nonempty
        have some_ := List.length_pos_of_ne_nil (@firstLine_ne_nil _ _ newline _ nonempty)
        have taken := congrArg List.length ended
        simp only [read, Reader.readUntil, List.length_take, List.length_nil] at taken
        omega
      have after : read.2.left = [] := by
        rw [show read.2.left = reader.left.drop read.1.length from Reader.left_consume reader _,
          empty, List.drop_nil]
      have spec :=
        @Scanned.whole limit maxBytes out shown begun (lines newline reader.left) [] [] read.2
        (by rw [empty]; rfl) (by rw [after]; rfl) fun _ => .inl rfl
      rwa [List.flatten_nil, List.append_nil, List.length_nil, Nat.add_zero, Nat.add_zero] at spec
  | case2 out shown begun reader room read goes whole ih =>
      have nonempty := left_of_readUntil goes
      have fits : (firstLine newline reader.left).length ≤ maxBytes - out.length := by
        by_contra long
        exact (readUntil_torn (Nat.not_le.mp long)).2.2 whole
      obtain ⟨line, after⟩ := readUntil_whole fits
      rw [show read.1 = firstLine newline reader.left from line,
        show read.2.left = afterLine newline reader.left from after] at ih
      rw [lines_of_ne_nil nonempty]
      rw [show read.1 = firstLine newline reader.left from line]
      exact ih.cons
  | case3 out begun reader read goes torn room =>
      have nonempty := left_of_readUntil goes
      have long : maxBytes - out.length < (firstLine newline reader.left).length := by
        by_contra fits
        exact torn (readUntil_ended nonempty (Nat.not_lt.mp fits))
      obtain ⟨line, after, _⟩ := readUntil_torn long
      rw [lines_of_ne_nil nonempty,
        show read.1 = (firstLine newline reader.left).take (maxBytes - out.length) from line]
      exact .cut _ _ read.2 rfl rfl long (by rw [flatten_lines]; exact after)
  | case4 out shown begun reader room read goes torn later =>
      have nonempty := left_of_readUntil goes
      have long : maxBytes - out.length < (firstLine newline reader.left).length := by
        by_contra fits
        exact torn (readUntil_ended nonempty (Nat.not_lt.mp fits))
      obtain ⟨line, after, _⟩ := readUntil_torn long
      have spec := @Scanned.kept limit maxBytes out shown begun (lines newline reader.left) []
        (firstLine newline reader.left) (lines newline (afterLine newline reader.left)) read.2
          (maxBytes - out.length)
        (lines_of_ne_nil nonempty) (Nat.pos_of_ne_zero later) long
          (by rw [flatten_lines]; exact after)
      rwa [List.flatten_nil, List.append_nil, List.length_nil, Nat.add_zero, Nat.add_zero] at spec
  | case5 out shown begun reader full =>
      have spec :=
        @Scanned.whole limit maxBytes out shown begun (lines newline reader.left) [] _ reader
        (List.nil_append _).symm rfl fun _ => .inr full
      rwa [List.flatten_nil, List.append_nil, List.length_nil, Nat.add_zero, Nat.add_zero] at spec

theorem readLines_length (limit : Option Nat) (maxBytes : Nat) (out : List UInt8)
    (shown begun : Nat) (reader : Reader UInt8) (fits : out.length ≤ maxBytes) :
    (readLines limit maxBytes out shown begun reader).out.length ≤ maxBytes := by
  have read (out : List UInt8) (reader : Reader UInt8) :
      (reader.readUntil newline (maxBytes - out.length)).1.length ≤ maxBytes - out.length :=
        List.length_take_le _ _
  fun_induction readLines limit maxBytes out shown begun reader with
  | case1 out shown begun reader room next ended => exact fits
  | case2 out shown begun reader room next goes whole ih =>
      refine ih ?_
      have more : next.1.length ≤ maxBytes - out.length := read out reader
      rw [List.length_append]
      omega
  | case3 out begun reader next goes torn room =>
      have more : next.1.length ≤ maxBytes - out.length := read out reader
      rw [List.length_append]
      omega
  | case4 out shown begun reader room next goes torn later => exact fits
  | case5 out shown begun reader full => exact fits

/-- The count of a file is right when there is one, also from the
middle of a line that was begun. -/
theorem countLines_spec {reader : Reader UInt8} {begun total : Nat} {midLine : Bool}
    (counted : countLines reader begun midLine = some total) :
    (midLine = false → total = begun + (lines newline reader.left).length) ∧
      ∀ input size, midLine = true → size < (firstLine newline input).length →
        reader.left = input.drop size →
        total + 1 = begun + (lines newline input).length := by
  rw [countLines] at counted
  cases midLine with
  | false => exact ⟨fun _ => countRest_spec counted, fun _ _ no => (by cases no)⟩
  | true =>
      refine ⟨fun no => (by cases no), fun input size _ inside left => ?_⟩
      have spec := skipLine_spec reader maxCountScanBytes
      generalize skipLine reader maxCountScanBytes = skip at spec counted
      obtain ⟨line, after⟩ := firstLine_drop inside
      have some_ : input.drop size ≠ [] := by
        intro empty
        rw [empty] at line
        exact absurd (List.drop_eq_nil_iff.mp line.symm) (Nat.not_le.mpr inside)
      cases spec with
      | ended empty => exact absurd (left.symm.trans empty) some_
      | short _ _ _ => cases counted
      | line rest _ _ same =>
          have nonempty : input ≠ [] := by
            intro empty
            rw [empty, List.drop_nil] at some_
            exact some_ rfl
          rw [countRest_spec counted, same, left, after, lines_of_ne_nil nonempty, List.length_cons]
          omega

end Openheim.Tools
