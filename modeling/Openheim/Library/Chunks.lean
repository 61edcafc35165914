import Mathlib.Data.List.Perm.Basic

/-
A stream of text arrives in chunks of several kinds with other items between them. Only the text
counts, not how it was cut into chunks, and some items may change places with their neighbours.
-/

namespace Chunks

/-- A piece of a stream. -/
inductive Piece (Kind Item : Type*) where
  | chunk (kind : Kind) (text : String)
  | item (item : Item)
  deriving DecidableEq, Repr

/-- Two lists are the same up to the order of neighbours that are free to move. -/
inductive SameUpTo {α : Type*} (free : α → Prop) : List α → List α → Prop where
  | nil : SameUpTo free [] []
  | cons (head : α) {first second : List α} (rest : SameUpTo free first second) :
      SameUpTo free (head :: first) (head :: second)
  | swap {one two : α} (rest : List α) (left : free one) (right : free two) :
      SameUpTo free (one :: two :: rest) (two :: one :: rest)
  | trans {first second third : List α} (left : SameUpTo free first second)
      (right : SameUpTo free second third) :
      SameUpTo free first third

section Same
variable {α β : Type*} {free : α → Prop} {first second rest : List α}

/-- A list is the same as itself, with nothing moved. -/
theorem SameUpTo.refl (list : List α) : SameUpTo free list list := by
  induction list with
  | nil => exact .nil
  | cons head list ih => exact ih.cons head

/-- What stands in front keeps its place. -/
theorem SameUpTo.append_left (before : List α) (same : SameUpTo free first second) :
    SameUpTo free (before ++ first) (before ++ second) := by
  induction before with
  | nil => exact same
  | cons head before ih => exact ih.cons head

/-- What follows keeps its place. -/
theorem SameUpTo.append_right (same : SameUpTo free first second) (after : List α) :
    SameUpTo free (first ++ after) (second ++ after) := by
  induction same with
  | nil => exact .refl _
  | cons head _ ih => exact ih.cons head
  | swap rest left right => exact .swap _ left right
  | trans _ _ left right => exact left.trans right

/-- Two parts may each be moved within themselves. -/
theorem SameUpTo.append {third fourth : List α} (left : SameUpTo free first second)
    (right : SameUpTo free third fourth) : SameUpTo free (first ++ third) (second ++ fourth) :=
  (left.append_right third).trans (right.append_left second)

/-- A permutation only of free elements. -/
theorem SameUpTo.of_perm (moved : first.Perm second) (free_ : ∀ a ∈ first, free a) :
    SameUpTo free first second := by
  induction moved with
  | nil => exact .nil
  | cons head _ ih => exact (ih fun a member => free_ a (List.mem_cons_of_mem _ member)).cons head
  | swap one two rest => exact .swap rest (free_ two (by simp)) (free_ one (by simp))
  | trans first _ left right =>
    exact (left free_).trans (right fun a member => free_ a (first.mem_iff.mpr member))

end Same

section Merge
variable {Kind Item : Type*} [DecidableEq Kind]

/-- A chunk joins one of its kind. -/
def prepend (kind : Kind) (text : String) : List (Piece Kind Item) → List (Piece Kind Item)
  | .chunk other more :: rest =>
      if kind = other then .chunk kind (text ++ more) :: rest
      else .chunk kind text :: .chunk other more :: rest
  | rest => .chunk kind text :: rest

/-- Puts a piece before pieces that are merged; an empty chunk disappears. -/
def push (piece : Piece Kind Item) (rest : List (Piece Kind Item)) : List (Piece Kind Item) :=
  match piece with
  | .item item => .item item :: rest
  | .chunk kind text => if text = "" then rest else prepend kind text rest

/-- Adjacent chunks of one kind are merged, and empty ones are left out. -/
def merge (pieces : List (Piece Kind Item)) : List (Piece Kind Item) := pieces.foldr push []

variable {first second third fourth : List (Piece Kind Item)}

@[simp] theorem merge_nil : merge ([] : List (Piece Kind Item)) = [] := rfl

@[simp] theorem merge_cons (piece : Piece Kind Item) (rest : List (Piece Kind Item)) :
    merge (piece :: rest) = push piece (merge rest) := rfl

@[simp] theorem push_item (item : Item) (rest : List (Piece Kind Item)) :
    push (.item item) rest = .item item :: rest := rfl

@[simp] theorem push_empty (kind : Kind) (rest : List (Piece Kind Item)) :
    push (.chunk kind "") rest = rest := rfl

/-- A chunk with text is joined to what follows it. -/
theorem push_chunk (kind : Kind) {text : String} (nonempty : text ≠ "")
    (rest : List (Piece Kind Item)) :
    push (.chunk kind text) rest = prepend kind text rest := if_neg nonempty

theorem append_ne_empty {text : String} (nonempty : text ≠ "") (more : String) :
    text ++ more ≠ "" := by
  intro same
  have both : text = "" ∧ more = "" := by simpa using congrArg String.toList same
  exact nonempty both.1

/-- Two chunks of one kind are one. -/
theorem push_push (kind : Kind) (text more : String) (rest : List (Piece Kind Item)) :
    push (.chunk kind text) (push (.chunk kind more) rest) =
      push (.chunk kind (text ++ more)) rest := by
  by_cases none : text = ""
  · rw [none, push_empty, String.empty_append]
  · by_cases empty : more = ""
    · rw [empty, push_empty, String.append_empty]
    · rw [push_chunk kind none, push_chunk kind empty, push_chunk kind (append_ne_empty none more)]
      cases rest with
      | nil => simp [prepend]
      | cons piece rest =>
          cases piece with
          | item item => simp [prepend]
          | chunk other last =>
              by_cases same : kind = other
              · simp [prepend, same, String.append_assoc]
              · simp [prepend, same]

/-- A merge that is not complete can be completed. -/
theorem foldr_push_push (rest : List (Piece Kind Item)) (piece : Piece Kind Item)
    (pieces : List (Piece Kind Item)) :
    (push piece pieces).foldr push rest = push piece (pieces.foldr push rest) := by
  cases piece with
  | item item => rfl
  | chunk kind text =>
      by_cases none : text = ""
      · rw [none, push_empty, push_empty]
      · rw [push_chunk kind none]
        cases pieces with
        | nil => rfl
        | cons piece pieces =>
            cases piece with
            | item item => rfl
            | chunk other more =>
                rw [prepend]
                split
                · next same =>
                  subst same
                  exact (push_push kind text more _).symm
                · rfl

/-- Merging first what is merged again afterwards changes nothing. -/
theorem foldr_push_merge (rest pieces : List (Piece Kind Item)) :
    (merge pieces).foldr push rest = pieces.foldr push rest := by
  induction pieces with
  | nil => rfl
  | cons piece pieces ih => rw [merge_cons, foldr_push_push, ih, List.foldr_cons]

/-- Streams that are the same once they are merged are so in any surroundings. -/
theorem merge_append_congr (left : merge first = merge second)
    (right : merge third = merge fourth) :
    merge (first ++ third) = merge (second ++ fourth) := by
  have split (before after : List (Piece Kind Item)) :
      merge (before ++ after) = (merge before).foldr push (merge after) := by
    rw [foldr_push_merge, merge, List.foldr_append]
    rfl
  rw [split, split, left, right]

end Merge

section Free
variable {Kind Item : Type*} (free : Item → Bool)

/-- Only items can be free to move. -/
def IsFree : Piece Kind Item → Prop
  | .chunk _ _ => False
  | .item item => free item

variable [DecidableEq Kind] {free} {first second : List (Piece Kind Item)}

/-- A piece in front does not hinder the free items behind it. -/
theorem SameUpTo.push (same : SameUpTo (IsFree free) first second) (piece : Piece Kind Item) :
    SameUpTo (IsFree free) (Chunks.push piece first) (Chunks.push piece second) := by
  cases piece with
  | item item => exact same.cons _
  | chunk kind text =>
      by_cases none : text = ""
      · rw [none, push_empty, push_empty]
        exact same
      · rw [push_chunk kind none, push_chunk kind none]
        induction same with
        | nil => exact .refl _
        | cons head rest ih =>
            cases head with
            | item item => exact (rest.cons _).cons _
            | chunk other more =>
                rw [prepend, prepend]
                split
                · exact rest.cons _
                · exact (rest.cons _).cons _
        | @swap one two rest left right =>
            cases one with
            | chunk => exact left.elim
            | item =>
                cases two with
                | chunk => exact right.elim
                | item => exact (SameUpTo.swap rest left right).cons _
        | trans _ _ left right => exact left.trans right

/-- Free items move before or after the merge. -/
theorem SameUpTo.merge (same : SameUpTo (IsFree free) first second) :
    SameUpTo (IsFree free) (Chunks.merge first) (Chunks.merge second) := by
  induction same with
  | nil => exact .nil
  | cons head _ ih => exact ih.push head
  | @swap one two rest left right =>
      cases one with
      | chunk => exact left.elim
      | item =>
          cases two with
          | chunk => exact right.elim
          | item => exact .swap _ left right
  | trans _ _ left right => exact left.trans right

end Free

section Gaps
variable {Kind Item : Type*} (free : Item → Bool)

/-- The characters before, between and after the items that are not free. -/
def gaps : Nat → List (Piece Kind Item) → List Nat
  | carry, [] => [carry]
  | carry, .chunk _ text :: rest => gaps (carry + text.length) rest
  | carry, .item item :: rest => if free item then gaps carry rest else carry :: gaps 0 rest

variable {free} {first second : List (Piece Kind Item)}

/-- The gaps of what follows decide those of the whole, whatever is in front. -/
theorem gaps_congr (before : List (Piece Kind Item))
    (same : ∀ carry, gaps free carry first = gaps free carry second)
    (carry : Nat) : gaps free carry (before ++ first) = gaps free carry (before ++ second) := by
  induction before generalizing carry with
  | nil => exact same carry
  | cons piece before ih =>
      cases piece with
      | chunk kind text => exact ih _
      | item item =>
          rw [List.cons_append, List.cons_append, gaps, gaps, ih, ih]

/-- Moving free items leaves the gaps as they are. -/
theorem gaps_sameUpTo (same : SameUpTo (IsFree free) first second) (carry : Nat) :
    gaps free carry first = gaps free carry second := by
  induction same generalizing carry with
  | nil => rfl
  | cons head _ ih => exact gaps_congr [head] ih carry
  | @swap one two rest left right =>
      cases one with
      | chunk => exact left.elim
      | item one =>
          cases two with
          | chunk => exact right.elim
          | item two =>
              have free_ : free one = true ∧ free two = true := ⟨left, right⟩
              simp only [gaps, free_.1, free_.2, ↓reduceIte]
  | trans _ _ left right => exact (left carry).trans (right carry)

/-- Free items leave no gap. -/
theorem gaps_free {items : List (Piece Kind Item)} (free_ : ∀ piece ∈ items, IsFree free piece)
    (rest : List (Piece Kind Item)) (carry : Nat) :
    gaps free carry (items ++ rest) = gaps free carry rest := by
  induction items with
  | nil => rfl
  | cons piece items ih =>
      obtain ⟨head, others⟩ := List.forall_mem_cons.mp free_
      cases piece with
      | chunk => exact head.elim
      | item item =>
          have moves : free item = true := head
          rw [List.cons_append, gaps, if_pos moves]
          exact ih others

variable [DecidableEq Kind]

/-- Joining a chunk to the next one leaves the gaps as they are. -/
theorem gaps_push (piece : Piece Kind Item) (pieces : List (Piece Kind Item)) (carry : Nat) :
    gaps free carry (push piece pieces) = gaps free carry (piece :: pieces) := by
  cases piece with
  | item item => rfl
  | chunk kind text =>
      by_cases none : text = ""
      · rw [none, push_empty]
        rfl
      · rw [push_chunk kind none]
        cases pieces with
        | nil => rfl
        | cons piece pieces =>
            cases piece with
            | item item => rfl
            | chunk other more =>
                rw [prepend]
                split
                · simp only [gaps, String.length_append, Nat.add_assoc]
                · rfl

/-- The gaps do not depend on how the text is cut into chunks. -/
theorem gaps_merge (pieces : List (Piece Kind Item)) (carry : Nat) :
    gaps free carry (merge pieces) = gaps free carry pieces := by
  induction pieces generalizing carry with
  | nil => rfl
  | cons piece pieces ih =>
      rw [merge_cons, gaps_push]
      exact gaps_congr [piece] ih carry

end Gaps

section Order
variable {Kind Item : Type*}

def isChunk : Piece Kind Item → Bool
  | .chunk _ _ => true
  | .item _ => false

def isItem : Piece Kind Item → Bool
  | .chunk _ _ => false
  | .item _ => true

/-- A chunk that is not empty can be seen. -/
def isVisible : Piece Kind Item → Bool
  | .chunk _ text => text ≠ ""
  | .item _ => false

/-- No text can be seen behind an item. -/
def textFirst : List (Piece Kind Item) → Bool
  | [] => true
  | .chunk _ _ :: rest => textFirst rest
  | .item _ :: rest => rest.all fun piece => !isVisible piece

/-- The chunks before the items. -/
def arrange (pieces : List (Piece Kind Item)) : List (Piece Kind Item) :=
  pieces.filter isChunk ++ pieces.filter isItem

variable {free : Item → Bool} {pieces first second : List (Piece Kind Item)}

/-- Chunks that cannot be seen leave no gap. -/
theorem gaps_invisible (hidden : ∀ piece ∈ pieces, isVisible piece = false) (carry : Nat) :
    gaps free carry (pieces ++ first) = gaps free carry (pieces.filter isItem ++ first) := by
  induction pieces generalizing carry with
  | nil => rfl
  | cons piece pieces ih =>
      obtain ⟨head, rest⟩ := List.forall_mem_cons.mp hidden
      cases piece with
      | chunk kind text =>
          have empty : text = "" := by simpa [isVisible] using head
          rw [List.filter_cons_of_neg (by simp [isItem]), List.cons_append, gaps, empty]
          exact ih rest carry
      | item item =>
          rw [List.filter_cons_of_pos rfl]
          exact gaps_congr [.item item] (fun carry => ih rest carry) carry

/-- Before the first item there are all characters of the chunks, and these are
none only if none can be seen. -/
theorem gaps_chunks (pieces : List (Piece Kind Item)) (carry : Nat) : ∃ total,
    (∀ rest, gaps free carry (pieces.filter isChunk ++ rest) = gaps free (carry + total) rest) ∧
      (total = 0 → ∀ piece ∈ pieces, isVisible piece = false) := by
  induction pieces generalizing carry with
  | nil => exact ⟨0, fun rest => rfl, by simp⟩
  | cons piece pieces ih =>
      cases piece with
      | chunk kind text =>
          obtain ⟨total, same, hidden⟩ := ih (carry + text.length)
          refine ⟨text.length + total, fun rest => ?_, fun none => ?_⟩
          · rw [List.filter_cons_of_pos rfl, List.cons_append, gaps, same, Nat.add_assoc]
          · have empty : text = "" := by
              rw [← String.length_eq_zero_iff]
              omega
            exact List.forall_mem_cons.mpr ⟨by simp [isVisible, empty], hidden (by omega)⟩
      | item item =>
          obtain ⟨total, same, hidden⟩ := ih carry
          refine ⟨total, fun rest => ?_, fun none => List.forall_mem_cons.mpr ⟨rfl, hidden none⟩⟩
          rw [List.filter_cons_of_neg (by simp [isChunk])]
          exact same rest

/-- Items that are not free can be taken off. -/
theorem gaps_items (fixed : ∀ item, .item item ∈ pieces → free item = false)
    (same : gaps free 0 (pieces.filter isItem ++ first) =
      gaps free 0 (pieces.filter isItem ++ second)) :
    gaps free 0 first = gaps free 0 second := by
  induction pieces with
  | nil => exact same
  | cons piece pieces ih =>
      have later : ∀ item, .item item ∈ pieces → free item = false :=
        fun item member => fixed item (List.mem_cons_of_mem _ member)
      cases piece with
      | chunk kind text =>
          rw [List.filter_cons_of_neg (by simp [isItem])] at same
          exact ih later same
      | item item =>
          rw [List.filter_cons_of_pos rfl, List.cons_append, List.cons_append, gaps, gaps,
            fixed item List.mem_cons_self] at same
          exact ih later (List.cons.inj same).2

/-- Pieces with the gaps that they have with their chunks in front have
them there, whatever follows. -/
theorem textFirst_of_gaps (fixed : ∀ item, .item item ∈ pieces → free item = false) (carry : Nat)
    (same : gaps free carry (arrange pieces ++ first) = gaps free carry (pieces ++ second)) :
    textFirst pieces ∧ ∃ carry, gaps free carry first = gaps free carry second := by
  induction pieces generalizing carry with
  | nil => exact ⟨rfl, carry, same⟩
  | cons piece pieces ih =>
      have later : ∀ item, .item item ∈ pieces → free item = false :=
        fun item member => fixed item (List.mem_cons_of_mem _ member)
      cases piece with
      | chunk kind text =>
          rw [arrange, List.filter_cons_of_pos rfl,
            List.filter_cons_of_neg (by simp [isItem])] at same
          exact ih later _ same
      | item item =>
          have calls := fixed item List.mem_cons_self
          obtain ⟨total, chunks, hidden⟩ := @gaps_chunks Kind Item free pieces carry
          rw [arrange, List.filter_cons_of_neg (by simp [isChunk]), List.filter_cons_of_pos rfl,
            List.append_assoc, chunks, List.cons_append, List.cons_append, gaps, gaps,
              calls] at same
          obtain ⟨none, rest⟩ := List.cons.inj same
          have unseen := hidden (by omega)
          refine ⟨List.all_eq_true.mpr fun piece member => by simp [unseen piece member], 0, ?_⟩
          rw [gaps_invisible unseen] at rest
          exact gaps_items later rest

variable [DecidableEq Kind]

/-- Of pieces whose chunks cannot be seen, the merge keeps the items alone. -/
theorem merge_invisible (hidden : ∀ piece ∈ pieces, isVisible piece = false) :
    merge pieces = merge (pieces.filter isItem) ∧ merge (pieces.filter isChunk) = [] := by
  induction pieces with
  | nil => exact ⟨rfl, rfl⟩
  | cons piece pieces ih =>
      obtain ⟨head, rest⟩ := List.forall_mem_cons.mp hidden
      obtain ⟨items, chunks⟩ := ih rest
      cases piece with
      | chunk kind text =>
          have empty : text = "" := by simpa [isVisible] using head
          rw [empty, merge_cons, push_empty, List.filter_cons_of_neg (by simp [isItem]),
            List.filter_cons_of_pos rfl, merge_cons, push_empty]
          exact ⟨items, chunks⟩
      | item item =>
          rw [merge_cons, List.filter_cons_of_pos rfl, List.filter_cons_of_neg (by simp [isChunk]),
            merge_cons, items]
          exact ⟨rfl, chunks⟩

/-- Pieces without text behind an item are arranged already. -/
theorem merge_arrange (ordered : textFirst pieces) : merge (arrange pieces) = merge pieces := by
  induction pieces with
  | nil => rfl
  | cons piece pieces ih =>
      cases piece with
      | chunk kind text =>
          rw [arrange, List.filter_cons_of_pos rfl, List.filter_cons_of_neg (by simp [isItem]),
            List.cons_append, merge_cons, merge_cons]
          exact congrArg (push _) (ih ordered)
      | item item =>
          have hidden : ∀ piece ∈ pieces, isVisible piece = false := fun piece member => by
            simpa using List.all_eq_true.mp ordered piece member
          obtain ⟨items, chunks⟩ := merge_invisible hidden
          have none : merge (pieces.filter isChunk) = merge ([] : List (Piece Kind Item)) := chunks
          rw [arrange, List.filter_cons_of_neg (by simp [isChunk]), List.filter_cons_of_pos rfl,
            merge_append_congr none (rfl : merge (.item item :: pieces.filter isItem) = _),
            List.nil_append, merge_cons, merge_cons, items]

end Order

/-- A part of a stream: the chunks that were sent, the pieces that are stored in their place, and
the free items that were sent and are stored after them. -/
structure Part (Kind Item : Type*) where
  streamed : List (Piece Kind Item)
  stored : List (Piece Kind Item)
  sentItems : List (Piece Kind Item)
  storedItems : List (Piece Kind Item)

namespace Part
variable {Kind Item : Type*}

/-- The items of the stored pieces are sent behind the chunks. -/
def sent (part : Part Kind Item) : List (Piece Kind Item) :=
  part.streamed ++ part.stored.filter isItem ++ part.sentItems

def kept (part : Part Kind Item) : List (Piece Kind Item) := part.stored ++ part.storedItems

variable [DecidableEq Kind]

/-- The chunks give the stored text, the stored items are fixed, and the
others are free and in any order. -/
structure Faithful (free : Item → Bool) (part : Part Kind Item) : Prop where
  streamed : merge part.streamed = merge (part.stored.filter isChunk)
  fixed : ∀ item, .item item ∈ part.stored → free item = false
  moved : part.sentItems.Perm part.storedItems
  free_ : ∀ piece ∈ part.sentItems, IsFree free piece

variable {free : Item → Bool} {parts : List (Part Kind Item)}

/-- The pieces that are kept, with the chunks of each part in front. -/
def arranged (part : Part Kind Item) : List (Piece Kind Item) :=
  arrange part.stored ++ part.storedItems

/-- The stored items of a part are free, since they are the sent ones in another order. -/
theorem Faithful.freeStored {part : Part Kind Item} (faithful : part.Faithful free) :
    ∀ piece ∈ part.storedItems, IsFree free piece :=
  fun piece member => faithful.free_ piece (faithful.moved.mem_iff.mpr member)

/-- What was sent is, up to the cuts and the order of the free items, what is
kept with the chunks in front. -/
theorem merge_sent (faithful : ∀ part ∈ parts, part.Faithful free) :
    SameUpTo (IsFree free) (merge (parts.flatMap Part.sent))
      (merge (parts.flatMap Part.arranged)) := by
  have cuts : merge (parts.flatMap Part.sent) =
      merge (parts.flatMap fun part => arrange part.stored ++ part.sentItems) := by
    induction parts with
    | nil => rfl
    | cons part parts ih =>
        obtain ⟨head, rest⟩ := List.forall_mem_cons.mp faithful
        rw [List.flatMap_cons, List.flatMap_cons, Part.sent, arrange]
        exact merge_append_congr (merge_append_congr (merge_append_congr head.streamed rfl) rfl)
          (ih rest)
  have moves :
      SameUpTo (IsFree free) (parts.flatMap fun part => arrange part.stored ++ part.sentItems)
      (parts.flatMap Part.arranged) := by
    clear cuts
    induction parts with
    | nil => exact .nil
    | cons part parts ih =>
        obtain ⟨head, rest⟩ := List.forall_mem_cons.mp faithful
        have items := SameUpTo.of_perm head.moved head.free_
        exact (items.append_left (arrange part.stored)).append (ih rest)
  rw [cuts]
  exact moves.merge

/-- Parts that store no text behind an item are kept as they would be arranged. -/
theorem merge_kept (ordered : ∀ part ∈ parts, textFirst part.stored) :
    merge (parts.flatMap Part.arranged) = merge (parts.flatMap Part.kept) := by
  induction parts with
  | nil => rfl
  | cons part parts ih =>
      obtain ⟨head, rest⟩ := List.forall_mem_cons.mp ordered
      exact merge_append_congr (merge_append_congr (merge_arrange head) rfl) (ih rest)

/-- Only parts that store no text behind an item can be kept as they are arranged. -/
theorem textFirst_of_arranged (faithful : ∀ part ∈ parts, part.Faithful free) (carry : Nat)
    (same : gaps free carry (parts.flatMap Part.arranged) =
      gaps free carry (parts.flatMap Part.kept)) :
    ∀ part ∈ parts, textFirst part.stored := by
  induction parts generalizing carry with
  | nil => simp
  | cons part parts ih =>
      obtain ⟨head, rest⟩ := List.forall_mem_cons.mp faithful
      rw [List.flatMap_cons, List.flatMap_cons, arranged, kept, List.append_assoc,
        List.append_assoc] at same
      obtain ⟨ordered, later, tail⟩ := textFirst_of_gaps head.fixed carry same
      rw [gaps_free head.freeStored, gaps_free head.freeStored] at tail
      exact List.forall_mem_cons.mpr ⟨ordered, ih rest later tail⟩

/-- A faithful stream shows what is kept, up to the order of the free items, exactly when no text is
kept behind an item of its part. -/
theorem sameUpTo_iff (faithful : ∀ part ∈ parts, part.Faithful free) :
    SameUpTo (IsFree free) (merge (parts.flatMap Part.sent)) (merge (parts.flatMap Part.kept)) ↔
      ∀ part ∈ parts, textFirst part.stored := by
  constructor
  · intro same
    apply textFirst_of_arranged faithful 0
    have shown := gaps_sameUpTo (merge_sent faithful) 0
    have kept := gaps_sameUpTo same 0
    rw [gaps_merge, gaps_merge] at shown kept
    exact shown.symm.trans kept
  · intro ordered
    rw [← merge_kept ordered]
    exact merge_sent faithful

end Part

section Map
variable {Kind Item Other : Type*} {change : Item → Other}

/-- Changes the items and keeps the chunks. -/
def Piece.map (change : Item → Other) : Piece Kind Item → Piece Kind Other
  | .chunk kind text => .chunk kind text
  | .item old => .item (change old)

/-- Changing the items does not change how chunks join. -/
theorem push_map [DecidableEq Kind] (piece : Piece Kind Item) (rest : List (Piece Kind Item)) :
    push (piece.map change) (rest.map (Piece.map change)) =
      (push piece rest).map (Piece.map change) := by
  cases piece with
  | item item => rfl
  | chunk kind text =>
      by_cases none : text = ""
      · rw [none, push_empty, Piece.map, push_empty]
      · rw [Piece.map, push_chunk kind none, push_chunk kind none]
        cases rest with
        | nil => rfl
        | cons next rest =>
            cases next with
            | item item => rfl
            | chunk other more =>
                rw [List.map_cons, Piece.map, prepend, prepend]
                split <;> rfl

/-- The items may be changed before or after the merge. -/
theorem merge_map [DecidableEq Kind] (pieces : List (Piece Kind Item)) :
    merge (pieces.map (Piece.map change)) = (merge pieces).map (Piece.map change) := by
  induction pieces with
  | nil => rfl
  | cons piece pieces ih => rw [List.map_cons, merge_cons, merge_cons, ih, push_map]

/-- A changed item is an item. -/
theorem filter_isItem_map (pieces : List (Piece Kind Item)) :
    (pieces.map (Piece.map change)).filter isItem =
      (pieces.filter isItem).map (Piece.map change) := by
  rw [List.filter_map]
  congr 2
  funext piece
  cases piece <;> rfl

/-- Changing the items leaves the chunks. -/
theorem filter_isChunk_map (pieces : List (Piece Kind Item)) :
    (pieces.map (Piece.map change)).filter isChunk =
      (pieces.filter isChunk).map (Piece.map change) := by
  rw [List.filter_map]
  congr 2
  funext piece
  cases piece <;> rfl

/-- Whether text follows an item does not depend on what the items are. -/
theorem textFirst_map (pieces : List (Piece Kind Item)) :
    textFirst (pieces.map (Piece.map change)) = textFirst pieces := by
  induction pieces with
  | nil => rfl
  | cons piece pieces ih =>
      cases piece with
      | chunk => exact ih
      | item item =>
          rw [List.map_cons, Piece.map, textFirst, textFirst, List.all_map]
          congr 1
          funext piece
          cases piece <;> rfl

namespace Part

/-- The same part with other items. -/
def map (change : Item → Other) (part : Part Kind Item) : Part Kind Other where
  streamed := part.streamed.map (Piece.map change)
  stored := part.stored.map (Piece.map change)
  sentItems := part.sentItems.map (Piece.map change)
  storedItems := part.storedItems.map (Piece.map change)

/-- What is sent of a changed part are the changed pieces. -/
theorem map_sent (part : Part Kind Item) :
    (part.map change).sent = part.sent.map (Piece.map change) := by
  rw [sent, sent, map, filter_isItem_map, List.map_append, List.map_append]

/-- What is kept of a changed part are the changed pieces. -/
theorem map_kept (part : Part Kind Item) :
    (part.map change).kept = part.kept.map (Piece.map change) := by
  rw [kept, kept, map, List.map_append]

/-- A part stays faithful when its items are changed and the same ones stay free. -/
theorem Faithful.map [DecidableEq Kind] {part : Part Kind Item} {free : Item → Bool}
    {other : Other → Bool}
    (faithful : part.Faithful free) (same : ∀ item, other (change item) = free item) :
    (part.map change).Faithful other where
  streamed := by rw [Part.map, merge_map, faithful.streamed, filter_isChunk_map, merge_map]
  fixed item member := by
    obtain ⟨piece, inside, is⟩ := List.mem_map.mp member
    cases piece with
    | chunk => cases is
    | item old =>
        cases is
        rw [same]
        exact faithful.fixed old inside
  moved := faithful.moved.map _
  free_ piece member := by
    obtain ⟨old, inside, rfl⟩ := List.mem_map.mp member
    have moves := faithful.free_ old inside
    cases old with
    | chunk => exact moves.elim
    | item item => exact (same item).trans moves

end Part

end Map

end Chunks
