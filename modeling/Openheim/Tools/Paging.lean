import Openheim.Tools.ExcerptLines

/-
This file proves that calls of `read_file` that follow the offset in each note show every line of
the file once.
-/

namespace Openheim.Tools
open BufRead

section Text

/-- No other character has the byte of a newline. -/
theorem newline_not_mem {char : Char} (other : char ≠ '\n') :
    newline ∉ String.utf8EncodeChar char := by
  intro member
  have code := Utf8.toNat_of_mem_ascii member (by decide)
  exact other (Char.ext (UInt32.toNat_inj.mp code.symm))

/-- The bytes of a line are the line of the bytes. -/
theorem firstLine_encode (text : List Char) :
    firstLine newline (Utf8.encode text) = Utf8.encode (firstLine '\n' text) ∧
      afterLine newline (Utf8.encode text) = Utf8.encode (afterLine '\n' text) := by
  induction text with
  | nil => exact ⟨rfl, rfl⟩
  | cons char text ih =>
      rw [Utf8.encode_cons, firstLine, afterLine]
      by_cases ends : char = '\n'
      · rw [if_pos ends, if_pos ends, ends]
        have byte : String.utf8EncodeChar '\n' = [newline] := by decide
        rw [byte, List.singleton_append, (firstLine_newline _).1, (firstLine_newline _).2]
        exact ⟨rfl, rfl⟩
      · rw [if_neg ends, if_neg ends, (firstLine_append (newline_not_mem ends) _).1,
          (firstLine_append (newline_not_mem ends) _).2, ih.1, ih.2]
        exact ⟨rfl, rfl⟩

/-- The bytes split into lines as the text does. -/
theorem lines_encode (text : List Char) :
    lines newline (Utf8.encode text) = (lines '\n' text).map Utf8.encode := by
  induction size : text.length using Nat.strongRecOn generalizing text with
  | _ _ ih =>
    by_cases empty : text = []
    · rw [empty]
      rfl
    · have some_ : Utf8.encode text ≠ [] := List.ne_nil_of_length_pos (Utf8.encode_length_pos empty)
      rw [lines_of_ne_nil some_, lines_of_ne_nil empty, List.map_cons, (firstLine_encode text).1,
        (firstLine_encode text).2, ih _ (size ▸ afterLine_length_lt empty) _ rfl]

/-- The lines are encoded one by one. -/
theorem flatten_encode (block : List (List Char)) :
    (block.map Utf8.encode).flatten = Utf8.encode block.flatten := by
  induction block with
  | nil => rfl
  | cons line block ih =>
    rw [List.map_cons, List.flatten_cons, List.flatten_cons, ih, Utf8.encode_append]

end Text

/-- How a page shows a line: whole, or the characters at its front that fit into the byte cap. -/
def shownLine (line : List Char) : List Char :=
  if (Utf8.encode line).length ≤ maxReadBytes then line else Utf8.takeBytes maxReadBytes line

/-- What a page shows of the lines of a file: a block of them from its first line on, and what it
says about the rest. -/
structure Shows (all : List (List Char)) (first : Nat) (page : Excerpt)
    (block rest : List (List Char)) : Prop where
  split : all.drop (first - 1) = block ++ rest
  text : page.text = block.flatMap shownLine
  start : page.first = first
  cut : page.cutLine = true → block.length = 1 ∧ page.more = true
  shown : page.cutLine = false → page.shown = block.length
  goes : page.more = true → block ≠ []
  ended : page.more = false → rest = []
  size : (Utf8.encode page.text).length ≤ maxReadBytes
  total : ∀ total, page.total = some total → total = all.length

section Pages
variable {all block rest : List (List Char)} {first : Nat} {page : Excerpt}

/-- A line within the cap is shown in full. -/
theorem shownLine_fits {line : List Char} (fits : (Utf8.encode line).length ≤ maxReadBytes) :
    shownLine line = line :=
  if_pos fits

/-- Lines that fit together are shown whole. -/
theorem flatMap_shownLine (fits : (Utf8.encode block.flatten).length ≤ maxReadBytes) :
    block.flatMap shownLine = block.flatten := by
  induction block with
  | nil => rfl
  | cons line block ih =>
      rw [List.flatten_cons, Utf8.encode_append, List.length_append] at fits
      rw [List.flatMap_cons, List.flatten_cons, shownLine_fits (by omega), ih (by omega)]

/-- The lines before the first one asked for are passed over. -/
theorem skipTo_first (reader : Reader UInt8) (first : Nat)
    (skips : first ≤ 1 ∨ reader.left.length < 2 ^ 64) :
    (skipTo first 0 reader (2 ^ 64 - 1)).1 = min (first - 1) (lines newline reader.left).length ∧
      lines newline (skipTo first 0 reader (2 ^ 64 - 1)).2.left =
        (lines newline reader.left).drop (first - 1) := by
  rcases skips with atStart | small
  · rw [skipTo, if_neg (by omega), Nat.sub_eq_zero_of_le atStart, Nat.zero_min, List.drop_zero]
    exact ⟨rfl, rfl⟩
  · have spec := skipTo_spec first 0 reader (2 ^ 64 - 1) (by omega)
    rwa [Nat.zero_add, Nat.sub_zero] at spec

/-- What is left from a line on begins with that line. -/
theorem firstLine_of_drop {input : List UInt8} {count : Nat} {line : List UInt8}
    {more : List (List UInt8)} (split : (lines newline input).drop count = line :: more) :
    firstLine newline (line :: more).flatten = line ∧
      lines newline (line :: more).flatten = line :: more := by
  have whole := @lines_flatten_drop _ _ newline input count
  rw [split] at whole
  have nonempty : (line :: more).flatten ≠ [] := by
    intro empty
    rw [empty] at whole
    cases whole
  have first := whole
  rw [lines_of_ne_nil nonempty] at first
  exact ⟨(List.cons.inj first).1, whole⟩

/-- What the excerpt is made of once the loop over the lines has ended. -/
def Scan.toExcerpt (scan : Scan) (text : List Char) (first : Nat) (countAll : Bool) : Excerpt where
  text := text
  first := first
  shown := scan.shown
  cutLine := scan.cutLine
  more := scan.midLine || !scan.reader.fillBuf.isEmpty
  total := if countAll then countLines scan.reader scan.begun scan.midLine else none

/-- A page that counts the lines has counted to the end of the file. -/
theorem total_of_count {scan : Scan} {text : List Char} {countAll : Bool} {total : Nat}
    (counted : (scan.toExcerpt text first countAll).total = some total) :
    countLines scan.reader scan.begun scan.midLine = some total := by
  cases countAll with
  | false => cases counted
  | true => exact counted

/-- The count from the middle of a line has that line once. -/
theorem total_of_torn {text line : List Char} {more : List (List Char)} {reader : Reader UInt8}
    {begun size total : Nat} (split : (lines '\n' text).drop (first - 1) = block ++ line :: more)
    (count : begun = min (first - 1) (lines '\n' text).length)
    (inside : size < (Utf8.encode line).length)
    (left : reader.left = (Utf8.encode line).drop size ++ (more.map Utf8.encode).flatten)
    (counted : countLines reader (begun + block.length + 1) true = some total) :
    total = (lines '\n' text).length := by
  have tail : (lines newline (Utf8.encode text)).drop (first - 1 + block.length) =
      Utf8.encode line :: more.map Utf8.encode := by
    rw [lines_encode, ← List.map_drop, ← List.drop_drop, split, List.drop_left, List.map_cons]
  obtain ⟨front, whole⟩ := firstLine_of_drop tail
  have after : reader.left = (Utf8.encode line :: more.map Utf8.encode).flatten.drop size := by
    rw [left, List.flatten_cons, List.drop_append_of_le_length (Nat.le_of_lt inside)]
  have sum := (countLines_spec counted).2 _ size rfl (front.symm ▸ inside) after
  have length := congrArg List.length split
  rw [List.length_drop, List.length_append, List.length_cons] at length
  rw [whole, List.length_cons, List.length_map] at sum
  omega

/-- What was scanned becomes a page that shows the lines from the first one on. -/
theorem scan_shows {text : List Char} {begun : Nat} {limit : Option Nat} {scan : Scan}
    (spec : Scanned limit maxReadBytes [] 0 begun
      (((lines '\n' text).drop (first - 1)).map Utf8.encode) scan)
    (size : scan.out.length ≤ maxReadBytes) (some_ : limit.all (0 < ·))
    (count : begun = min (first - 1) (lines '\n' text).length) (countAll : Bool) :
    ∃ shown block rest, decodeScan scan = .ok shown ∧
      Shows (lines '\n' text) first (scan.toExcerpt shown first countAll) block rest := by
  have room : limit.all (0 < ·) ∧ ([] : List UInt8).length < maxReadBytes := ⟨some_, by decide⟩
  have length : (lines '\n' text).length = begun + ((lines '\n' text).drop (first - 1)).length := by
    rw [List.length_drop, count]
    omega
  cases spec with
  | whole block rest reader whole left progress =>
      obtain ⟨block, rest, split, rfl, rfl⟩ := List.map_eq_append_iff.mp whole
      rw [List.nil_append, flatten_encode] at size ⊢
      refine ⟨block.flatten, block, rest, by rw [decodeScan, Utf8.decode_encode], ?_⟩
      refine { split, text := (flatMap_shownLine size).symm, start := rfl,
               cut := fun no => (by cases no)
               shown := fun _ => by
                 simp [Scan.toExcerpt], goes := ?_, ended := ?_, size, total := ?_ }
      · rintro goes rfl
        rcases progress rfl with last | full
        · rw [List.map_eq_nil_iff.mp last, List.map_nil, lines_eq_nil] at left
          simp [Scan.toExcerpt, left] at goes
        · exact full room
      · intro ends
        have empty : reader.left = [] := by simpa [Scan.toExcerpt] using ends
        rw [empty] at left
        exact List.map_eq_nil_iff.mp left.symm
      · intro total counted
        rw [(countLines_spec (total_of_count counted)).1 rfl, left, length, split,
          List.length_append, List.length_map, List.length_map, Nat.add_assoc]
  | cut line more reader whole atStart long left =>
      obtain ⟨line, more, split, rfl, rfl⟩ := List.map_eq_cons_iff.mp whole
      rw [List.nil_append, List.length_nil, Nat.sub_zero] at *
      obtain ⟨same, torn, cut⟩ := Utf8.decode_cut maxReadBytes line
      have shown : shownLine line = Utf8.takeBytes maxReadBytes line := if_neg (Nat.not_le.mpr long)
      refine ⟨Utf8.takeBytes maxReadBytes line, [line], more, ?_, ?_⟩
      · rw [decodeScan]
        cases decoded : Utf8.decode ((Utf8.encode line).take maxReadBytes) with
        | some read => rw [same read decoded]
        | none => simp only [torn, cut, and_self, if_true]
      · refine { split, text := by simp [Scan.toExcerpt, shown], start := rfl,
                 cut := fun _ => ⟨rfl, rfl⟩
                 shown := fun no => (by cases no), goes := fun _ => List.cons_ne_nil _ _
                 ended := fun no => (by cases no)
                 size := Utf8.takeBytes_length maxReadBytes line, total := fun total counted => ?_ }
        exact @total_of_torn [] first text line more reader begun maxReadBytes total split
          count long left
          (total_of_count counted)
  | kept block line more reader extent whole progress inside left =>
      obtain ⟨block, tail, split, rfl, next⟩ := List.map_eq_append_iff.mp whole
      obtain ⟨line, more, rfl, rfl, rfl⟩ := List.map_eq_cons_iff.mp next
      rw [List.nil_append, flatten_encode] at size ⊢
      refine ⟨block.flatten, block, line :: more, by rw [decodeScan, Utf8.decode_encode], ?_⟩
      refine { split, text := (flatMap_shownLine size).symm, start := rfl,
               cut := fun no => (by cases no)
               shown := fun _ => by
                 simp [Scan.toExcerpt], goes := ?_, ended := fun no => (by cases no), size
               total := ?_ }
      · rintro _ rfl
        exact absurd progress (by simp)
      · intro total counted
        have from_ := total_of_count counted
        rw [List.length_map] at from_
        exact total_of_torn split count inside left from_

/-- Reading a file in chunks gives a page that shows its lines from the first one on. -/
theorem readExcerpt_shows (reader : Reader UInt8) (text : List Char)
    (left : reader.left = Utf8.encode text)
    (first : Nat) (skips : first ≤ 1 ∨ (Utf8.encode text).length < 2 ^ 64) (limit : Option Nat)
    (some_ : limit.all (0 < ·)) (countAll : Bool) :
    ∃ page block rest, readExcerpt reader first limit maxReadBytes countAll = .ok page ∧
      Shows (lines '\n' text) first page block rest := by
  obtain ⟨count, from_⟩ := skipTo_first reader first (left ▸ skips)
  rw [left, lines_encode, List.length_map] at count
  rw [left, lines_encode, ← List.map_drop] at from_
  unfold readExcerpt
  generalize skipTo first 0 reader (2 ^ 64 - 1) = start at count from_
  obtain ⟨begun, rest⟩ := start
  dsimp only at count from_ ⊢
  have spec := readLines_spec limit maxReadBytes [] 0 begun rest
  have size := readLines_length limit maxReadBytes [] 0 begun rest (Nat.zero_le _)
  rw [from_] at spec
  generalize readLines limit maxReadBytes [] 0 begun rest = scan at spec size
  obtain ⟨shown, block, after, decoded, shows_⟩ := scan_shows spec size some_ count countAll
  refine ⟨_, block, after, ?_, shows_⟩
  rw [decoded]
  rfl

/-- A page that need not count the lines does not. -/
theorem readExcerpt_uncounted {reader : Reader UInt8} {limit : Option Nat} {maxBytes : Nat}
    (read : readExcerpt reader first limit maxBytes false = .ok page) : page.total = none := by
  unfold readExcerpt at read
  dsimp only at read
  generalize readLines limit maxBytes [] 0 _ _ = scan at read
  cases decoded : decodeScan scan with
  | error reason =>
      rw [decoded] at read
      cases read
  | ok text =>
      rw [decoded] at read
      cases read
      rfl

/-- The offset that a page says to go on from. -/
def Excerpt.next (page : Excerpt) : Option Nat := page.note.bind Note.offset

/-- A page goes on after the lines that it shows, and where it names no offset nothing is left. -/
theorem Shows.next (shows_ : Shows all first page block rest) (positive : 0 < first) :
    (page.next = some (first + block.length) ∧ block ≠ []) ∨ (page.next = none ∧ rest = []) := by
  have ended := shows_.ended
  unfold Excerpt.next Excerpt.note
  rw [shows_.start]
  split
  · next nothing => exact .inr ⟨rfl, ended nothing.2.1⟩
  · split
    · next cut =>
      obtain ⟨one, goes⟩ := shows_.cut cut
      split
      · exact .inl ⟨by rw [one]; rfl, shows_.goes goes⟩
      · next last =>
        refine .inr ⟨rfl, ?_⟩
        obtain ⟨total, counted, few⟩ : ∃ total, page.total = some total ∧ total ≤ first := by
          cases counted : page.total with
          | none => simp [counted] at last
          | some total => exact ⟨total, rfl, by simpa [counted] using last⟩
        have length := congrArg List.length shows_.split
        rw [List.length_drop, List.length_append, one, ← shows_.total total counted] at length
        exact List.length_eq_zero_iff.mp (by omega)
    · next whole =>
      split
      · next goes =>
        have some_ := shows_.goes goes
        have size := shows_.shown (Bool.eq_false_iff.mpr whole)
        refine .inl ⟨?_, some_⟩
        have filled := List.length_pos_of_ne_nil some_
        rw [size]
        simp only [Option.bind_some, Note.offset, Option.some.injEq]
        omega
      · next stops => exact .inr ⟨rfl, ended (Bool.eq_false_iff.mpr stops)⟩

end Pages

/-- A file of UTF-8 text. Its size is a 64-bit number, and its lines have 32-bit ones. -/
structure TextFile where
  text : List Char
  size : (Utf8.encode text).length < 2 ^ 64
  short : (lines '\n' text).length < 2 ^ 32

def TextFile.lines (file : TextFile) : List (List Char) := BufRead.lines '\n' file.text

/-- What a call of `read_file` meets: its limit, the file in chunks, and a client
that may answer in its place. -/
structure ReadCall where
  limit : Option Nat
  refusal : String
  reader : Reader UInt8
  client : Option Nat → Option Nat → Option (Except Error (List Char))

/-- The limit is one that a call can have, the chunks are those of the file, and the client answers
with the lines that it is asked for. -/
structure ReadCall.Serves (file : TextFile) (call : ReadCall) : Prop where
  positive : call.limit ≠ some 0
  small : ∀ limit, call.limit = some limit → limit < 2 ^ 32
  chunks : call.reader.left = Utf8.encode file.text
  answers : ∀ offset limit result, call.client (some offset) limit = some result →
    result = .ok ((file.lines.drop (offset - 1)).take (limit.getD file.lines.length)).flatten

/-- The pages of the calls that follow the notes from an offset on, until a page
names no offset or a call fails. -/
def paging (calls : Nat → ReadCall) : Nat → Nat → Nat → Option (List Excerpt)
  | 0, _, _ => none
  | fuel + 1, number, offset =>
      match readPage (calls number).client (calls number).reader ⟨some offset, (calls number).limit,
          (calls number).refusal⟩ with
      | .error _ => some []
      | .ok page =>
          match page.next with
          | none => some [page]
          | some next => (paging calls fuel (number + 1) next).map (page :: ·)

section Calls
variable {file : TextFile} {call : ReadCall}

/-- The offset of a note is accepted. -/
theorem ReadCall.Serves.parse (serves : call.Serves file) {offset : Nat} (small : offset < 2 ^ 32) :
    (ReadFileArgs.mk (some offset) call.limit call.refusal).parse =
      .ok ⟨some offset, call.limit, call.refusal⟩ := by
  have fits : ((some offset).toList ++ call.limit.toList).find? (2 ^ 32 ≤ ·) = none := by
    rw [List.find?_eq_none]
    intro number member
    rcases List.mem_append.mp member with own | limit
    · have same : some offset = some number := Option.mem_toList.mp own
      simpa [← Option.some.inj same] using small
    · simpa using serves.small number (Option.mem_toList.mp limit)
  rw [ReadFileArgs.parse]
  dsimp only
  rw [fits]

/-- What a client was asked for is lines of the file. -/
theorem lines_of_range (file : TextFile) (skip count : Nat) :
    lines '\n' ((file.lines.drop skip).take count).flatten = (file.lines.drop skip).take count := by
  have dropped : lines '\n' (file.lines.drop skip).flatten = file.lines.drop skip :=
    lines_flatten_drop file.text skip
  have taken := @lines_flatten_take _ _ '\n' (file.lines.drop skip).flatten count
  rwa [dropped] at taken

/-- A page of the lines that a client answered is a page of the file. -/
theorem Shows.of_client {offset : Nat} {asked : Option Nat} {page : Excerpt}
    {block rest : List (List Char)}
    (shows_ : Shows ((file.lines.drop (offset - 1)).take (asked.getD file.lines.length)) 1 page
      block rest)
    (positive : asked ≠ some 0) (uncounted : page.total = none) :
    Shows file.lines offset { page with
      first := offset, more := page.more || asked.any (page.shown = ·) } block
      (rest ++ (file.lines.drop (offset - 1)).drop (asked.getD file.lines.length)) := by
  have split := shows_.split
  rw [Nat.sub_self, List.drop_zero] at split
  refine { split := ?_, text := shows_.text, start := rfl, cut := fun cut => ?_,
           shown := shows_.shown, goes := ?_
           ended := ?_, size := shows_.size
           total := fun total counted => (by rw [uncounted] at counted; cases counted) }
  · rw [← List.append_assoc, ← split, List.take_append_drop]
  · obtain ⟨one, goes⟩ := shows_.cut cut
    exact ⟨one, by rw [goes]; rfl⟩
  · rintro goes rfl
    rcases Bool.or_eq_true_iff.mp goes with own | full
    · exact shows_.goes own rfl
    · cases asked with
      | none => cases full
      | some limit =>
          have size : page.shown = limit := by simpa using full
          cases cut : page.cutLine with
          | true => exact absurd (shows_.cut cut).1 (Nat.zero_ne_one)
          | false =>
              rw [shows_.shown cut] at size
              exact positive (by rw [← size]; rfl)
  · intro ends
    obtain ⟨own, short⟩ := Bool.or_eq_false_iff.mp ends
    obtain rfl := shows_.ended own
    rw [List.nil_append, List.drop_eq_nil_iff]
    cases asked with
    | none =>
        rw [List.length_drop]
        exact Nat.sub_le _ _
    | some limit =>
        have cut : page.cutLine = false := by
          cases cut : page.cutLine with
          | false => rfl
          | true => exact (shows_.cut cut).2.symm.trans own
        have size : page.shown ≠ limit := by simpa using short
        rw [List.append_nil] at split
        have length := congrArg List.length split
        rw [List.length_take, ← shows_.shown cut] at length
        simp only [Option.getD_some] at length ⊢
        omega

/-- A call at an offset shows the lines from there on, whoever answers it. -/
theorem readPage_shows (serves : call.Serves file) {offset : Nat} (positive : 0 < offset)
    (small : offset < 2 ^ 32) :
    ∃ page block rest, readPage call.client call.reader ⟨some offset, call.limit,
        call.refusal⟩ = .ok page ∧
      Shows file.lines offset page block rest := by
  have allowed : ¬ (some offset = some 0 ∨ call.limit = some 0) := by
    rintro (zero | zero)
    · exact absurd (Option.some.inj zero) (Nat.ne_of_gt positive)
    · exact serves.positive zero
  simp only [readPage, serves.parse small, bind, Except.bind, if_neg allowed, Option.getD_some]
  cases answer : call.client (some offset) call.limit with
  | none =>
      have some_ : call.limit.all (0 < ·) = true := by
        cases limit : call.limit with
        | none => rfl
        | some count =>
            have nonzero : count ≠ 0 := fun zero => serves.positive (by rw [limit, zero])
            simpa using Nat.pos_of_ne_zero nonzero
      exact readExcerpt_shows call.reader file.text serves.chunks offset (.inr file.size)
        call.limit some_ true
  | some result =>
      rw [serves.answers offset call.limit result answer]
      obtain ⟨page, block, rest, read, shows_⟩ := readExcerpt_shows
        (.ofList
          (Utf8.encode ((file.lines.drop (offset - 1)).take
              (call.limit.getD file.lines.length)).flatten)) _
        (Reader.left_ofList _) 1 (.inl (Nat.le_refl 1)) none rfl false
      rw [lines_of_range] at shows_
      dsimp only
      rw [read]
      exact ⟨_, block, _, rfl, shows_.of_client serves.positive (readExcerpt_uncounted read)⟩

/-- An offset that is no 32-bit number is refused. -/
theorem readPage_refuses (call : ReadCall) {offset : Nat} (large : 2 ^ 32 ≤ offset) :
    ∃ reason, readPage call.client call.reader ⟨some offset, call.limit, call.refusal⟩ =
      .error reason := by
  have found : ((some offset).toList ++ call.limit.toList).find? (2 ^ 32 ≤ ·) = some offset :=
    List.find?_cons_of_pos (decide_eq_true large)
  have refused : ∃ reason, (ReadFileArgs.mk (some offset) call.limit call.refusal).parse =
      .error reason := by
    rw [ReadFileArgs.parse]
    dsimp only
    rw [found]
    exact ⟨_, rfl⟩
  obtain ⟨reason, refused⟩ := refused
  refine ⟨reason, ?_⟩
  rw [readPage, refused]
  rfl

/-- What holds of each page: its text is at most the cap, a count is that of the file, and the
number of the last line shown is no less than zero. -/
structure PageBounds (file : TextFile) (page : Excerpt) : Prop where
  size : (Utf8.encode page.text).length ≤ maxReadBytes
  total : ∀ total, page.total = some total → total = file.lines.length
  last : 1 ≤ page.first + page.shown

/-- What is returned of a page: its text, and behind it the note, if there is one, on a line of its
own. A note that goes on names the next offset. -/
structure Returned (page : Excerpt) (returned : List Char) : Prop where
  whole : page.note = none → returned = page.text
  noted : ∀ note, page.note = some note → ∃ newline,
    returned = page.text ++ newline ++ note.toText.toList ∧
    (newline = [] ∧ (page.text = [] ∨ page.text.getLast? = some '\n') ∨
      newline = ['\n'] ∧ page.text ≠ [] ∧ page.text.getLast? ≠ some '\n')
  next : ∀ offset, page.next = some offset → ∃ before after,
    returned = page.text ++ before ++ ("call again with offset=" ++ toString offset).toList ++ after

/-- The printed note names its offset. -/
theorem Note.toText_offset {note : Note} {offset : Nat} (names : note.offset = some offset) :
    ∃ before after, note.toText = before ++ ("call again with offset=" ++ toString offset) ++
      after := by
  cases note with
  | pastEnd => cases names
  | cut first total next =>
      have next : next = some offset := names
      have cut : (Note.cut first total (some offset)).toText =
          "[line " ++ toString first ++ ofTotal total ++ " is longer than " ++
            toString maxReadBytes ++ " bytes; only its start is shown" ++
            ("; call again with offset=" ++ toString offset ++ " for the lines after it") ++ "]" :=
              rfl
      have call : "; call again with offset=" = "; " ++ "call again with offset=" := by decide
      refine ⟨"[line " ++ toString first ++ ofTotal total ++ " is longer than " ++
        toString maxReadBytes ++ " bytes; only its start is shown" ++ "; ",
          " for the lines after it" ++ "]", ?_⟩
      rw [next, cut, call]
      simp only [String.append_assoc]
  | more first last total next =>
      have next : next = offset := Option.some.inj names
      have more : (Note.more first last total offset).toText =
          "[lines " ++ toString first ++ "–" ++ toString last ++ ofTotal total ++
            " shown; call again with offset=" ++ toString offset ++ " to read on]" := rfl
      have call : " shown; call again with offset=" = " shown; " ++ "call again with offset=" := by
        decide
      refine ⟨"[lines " ++ toString first ++ "–" ++ toString last ++ ofTotal total ++ " shown; ",
        " to read on]", ?_⟩
      rw [next, more, call]
      simp only [String.append_assoc]

/-- What is rendered of a page is its text with its note. -/
theorem render_returned (page : Excerpt) : Returned page (render page) := by
  have noted (note : Note) (has : page.note = some note) : ∃ newline,
      render page = page.text ++ newline ++ note.toText.toList ∧
        (newline = [] ∧ (page.text = [] ∨ page.text.getLast? = some '\n') ∨
          newline = ['\n'] ∧ page.text ≠ [] ∧ page.text.getLast? ≠ some '\n') := by
    rw [render, has]
    dsimp only
    split
    · next fresh => exact ⟨[], by rw [List.append_nil], .inl ⟨rfl, fresh⟩⟩
    · next unfinished =>
      obtain ⟨some_, open_⟩ := not_or.mp unfinished
      exact ⟨['\n'], by rw [List.append_assoc, List.singleton_append], .inr ⟨rfl, some_, open_⟩⟩
  refine ⟨fun none => by rw [render, none], noted, fun offset next => ?_⟩
  obtain ⟨note, has, names⟩ := Option.bind_eq_some_iff.mp next
  obtain ⟨newline, whole, -⟩ := noted note has
  obtain ⟨before, after, text⟩ := Note.toText_offset names
  refine ⟨newline ++ before.toList, after.toList, ?_⟩
  rw [whole, text, String.toList_append, String.toList_append]
  simp only [List.append_assoc]

/-- What a call from an offset on returns. -/
def ReadCall.execute (call : ReadCall) (offset : Nat) : Except Error (List Char) :=
  executeReadFile call.client call.reader ⟨some offset, call.limit, call.refusal⟩

/-- A page that shows lines is within the bounds. -/
theorem Shows.bounds {offset : Nat} {page : Excerpt} {block rest : List (List Char)}
    (shows_ : Shows file.lines offset page block rest) (positive : 0 < offset) :
    PageBounds file page where
  size := shows_.size
  total := shows_.total
  last := by
    rw [shows_.start]
    omega

/-- The pages from an offset on show the lines from there on. -/
theorem paging_from {calls : Nat → ReadCall} (serves : ∀ number, (calls number).Serves file)
    (number offset : Nat) (positive : 0 < offset) (inside : offset ≤ file.lines.length + 1) :
    ∃ fuel pages, ∃ blocks : List (List (List Char)), paging calls fuel number offset = some pages ∧
      blocks.flatten = file.lines.drop (offset - 1) ∧
      pages.map Excerpt.text = blocks.map (List.flatMap shownLine) ∧
      (∀ page ∈ pages, PageBounds file page) ∧
      ∀ index page, pages[index]? = some page →
        ∃ returned, (calls (number + index)).execute page.first = .ok returned ∧
          Returned page returned := by
  induction remaining : file.lines.length + 1 - offset using
      Nat.strongRecOn generalizing number offset with
  | _ _ ih =>
    rcases Nat.lt_or_ge offset (2 ^ 32) with small | large
    · obtain ⟨page, block, rest, read, shows_⟩ := readPage_shows (serves number) positive small
      have bounds := shows_.bounds positive
      have split := shows_.split
      have returns : (calls number).execute page.first = .ok (render page) := by
        rw [ReadCall.execute, executeReadFile, shows_.start, read]
        rfl
      rcases shows_.next positive with ⟨next, some_⟩ | ⟨last, rfl⟩
      · have filled := List.length_pos_of_ne_nil some_
        have length := congrArg List.length split
        rw [List.length_drop, List.length_append] at length
        obtain ⟨fuel, pages, blocks, ran, whole, texts, each, later⟩ :=
          ih (file.lines.length + 1 - (offset + block.length))
          (by omega) (number + 1) (offset + block.length) (by omega) (by omega) rfl
        refine ⟨fuel + 1, page :: pages, block :: blocks, ?_, ?_, ?_,
          List.forall_mem_cons.mpr ⟨bounds, each⟩, ?_⟩
        · simp only [paging, read, next, ran, Option.map_some]
        · have dropped : file.lines.drop (offset + block.length - 1) = rest := by
            rw [show offset + block.length - 1 = offset - 1 + block.length by
              omega, ← List.drop_drop, split, List.drop_left]
          rw [List.flatten_cons, whole, dropped, split]
        · rw [List.map_cons, List.map_cons, shows_.text, texts]
        · intro index shown found
          cases index with
          | zero =>
              cases found
              exact ⟨_, returns, render_returned page⟩
          | succ index =>
              rw [Nat.add_comm index 1, ← Nat.add_assoc]
              exact later index shown found
      · refine ⟨1, [page], [block], ?_, ?_, ?_, by simpa using bounds, ?_⟩
        · simp only [paging, read, last]
        · rw [split, List.flatten_singleton, List.append_nil]
        · rw [List.map_singleton, List.map_singleton, shows_.text]
        · intro index shown found
          cases index with
          | zero =>
              cases found
              exact ⟨_, returns, render_returned page⟩
          | succ index => cases found
    · -- only the offset after the last possible line is no 32-bit number
      obtain ⟨reason, refused⟩ := readPage_refuses (calls number) large
      have short := file.short
      have end_ : file.lines.drop (offset - 1) = [] := by
        rw [List.drop_eq_nil_iff, TextFile.lines]
        omega
      refine ⟨1, [], [], ?_, end_.symm, rfl, fun page member => absurd member List.not_mem_nil, ?_⟩
      swap
      · rintro _ _ ⟨⟩
      simp only [paging, refused]

end Calls

/-- What is shown of a line is the start of it. -/
theorem shownLine_starts (line : List Char) : shownLine line <+: line := by
  unfold shownLine
  split
  · exact List.prefix_rfl
  · exact Utf8.takeBytes_prefix maxReadBytes line

/-- The pages from the first line on end, and they show consecutive blocks of lines that make up the
file. Each call returns the text of its page with the note behind it. -/
theorem paging_shows_all (file : TextFile) (calls : Nat → ReadCall)
    (serves : ∀ number, (calls number).Serves file) :
    ∃ fuel pages, ∃ blocks : List (List (List Char)), paging calls fuel 0 1 = some pages ∧
      blocks.flatten = file.lines ∧
      pages.map Excerpt.text = blocks.map (List.flatMap shownLine) ∧
      (∀ line ∈ file.lines, shownLine line <+: line ∧
        ((Utf8.encode line).length ≤ maxReadBytes → shownLine line = line)) ∧
      (∀ page ∈ pages, PageBounds file page) ∧
      ∀ number page, pages[number]? = some page →
        ∃ returned, (calls number).execute page.first = .ok returned ∧ Returned page returned := by
  obtain ⟨fuel, pages, blocks, ran, whole, texts, each, returned⟩ :=
    paging_from serves 0 1 Nat.one_pos (Nat.le_add_left 1 _)
  refine ⟨fuel, pages, blocks, ran, whole, texts,
    fun line _ => ⟨shownLine_starts line, shownLine_fits⟩, each, ?_⟩
  intro number page found
  obtain ⟨text, executed, is⟩ := returned number page found
  exact ⟨text, by rwa [Nat.zero_add] at executed, is⟩

section Samples

def sampleFile : TextFile := ⟨"ab\ncd".toList, by decide, by decide⟩

/-- The chunks end in the middle of lines. -/
def sampleCall : ReadCall where
  limit := some 1
  refusal := ""
  reader := ⟨[[97], [98, 10, 99], [100]], by decide⟩
  client _ _ := none

/-- The sample call reads the sample file. -/
theorem sampleCall_serves : sampleCall.Serves sampleFile where
  positive := by decide
  small limit asked := by
    cases asked
    decide
  chunks := by decide
  answers _ _ _ answer := by cases answer

/-- Two lines are shown by calls of one line each. -/
theorem paging_shows_all_sample : ∃ fuel pages, ∃ blocks : List (List (List Char)),
    paging (fun _ => sampleCall) fuel 0 1 = some pages ∧
      blocks.flatten = ["ab\n".toList, "cd".toList] ∧
      pages.map Excerpt.text = blocks.map (List.flatMap shownLine) := by
  obtain ⟨fuel, pages, blocks, ran, whole, texts, _⟩ :=
    paging_shows_all sampleFile (fun _ => sampleCall) fun _ => sampleCall_serves
  exact ⟨fuel, pages, blocks, ran, whole, texts⟩

end Samples

end Openheim.Tools
