import Mathlib.Data.List.Sort

/-
An ordered map is the list of its entries in the order of their keys, and it is read with
`List.lookup`.
-/

namespace SortedMap
variable {Key Value : Type*} [DecidableEq Key] [LT Key] [DecidableLT Key]

/-- A new key goes to its place in the order, and a known key gets the new value. -/
def insert (key : Key) (value : Value) : List (Key × Value) → List (Key × Value)
  | [] => [(key, value)]
  | (first, old) :: rest =>
      if first = key then (key, value) :: rest
      else if key < first then (key, value) :: (first, old) :: rest
      else (first, old) :: insert key value rest

@[simp] theorem lookup_insert_self (key : Key) (value : Value) (entries : List (Key × Value)) :
    (insert key value entries).lookup key = some value := by
  induction entries with
  | nil => simp [insert]
  | cons entry rest ih =>
      rw [insert]
      split
      · simp
      · next different =>
        split
        · simp
        · rw [List.lookup_cons, beq_false_of_ne (Ne.symm different)]
          exact ih

/-- Inserting a key leaves the others. -/
theorem lookup_insert_of_ne {other key : Key} (different : other ≠ key) (value : Value)
    (entries : List (Key × Value)) :
    (insert key value entries).lookup other = entries.lookup other := by
  induction entries with
  | nil =>
      rw [insert, List.lookup_cons, beq_false_of_ne different]
  | cons entry rest ih =>
      rw [insert]
      split
      · next same =>
        rw [List.lookup_cons, List.lookup_cons, same, beq_false_of_ne different]
      · split
        · rw [List.lookup_cons, beq_false_of_ne different]
        · rw [List.lookup_cons, List.lookup_cons, ih]


/-- A known key gets a changed value. -/
def modify (key : Key) (change : Value → Value) (entries : List (Key × Value)) :
    List (Key × Value) :=
  match entries.lookup key with
  | some value => insert key (change value) entries
  | none => entries

@[simp] theorem lookup_modify_self (key : Key) (change : Value → Value)
    (entries : List (Key × Value)) :
    (modify key change entries).lookup key = (entries.lookup key).map change := by
  unfold modify
  split
  · next found => simp [found]
  · next missing => simp [missing]

/-- Changing a key leaves the others. -/
theorem lookup_modify_of_ne {other key : Key} (different : other ≠ key) (change : Value → Value)
    (entries : List (Key × Value)) :
    (modify key change entries).lookup other = entries.lookup other := by
  unfold modify
  split
  · exact lookup_insert_of_ne different _ entries
  · rfl

end SortedMap

namespace SortedMap
variable {Key Value : Type*} [LinearOrder Key]

/-- The keys stand in order, each of them once. -/
def Ordered (entries : List (Key × Value)) : Prop :=
  entries.Pairwise fun first second => first.1 < second.1

/-- After an insertion there is the new entry and those from before. -/
theorem mem_of_mem_insert {key : Key} {value : Value} {entries : List (Key × Value)}
    {entry : Key × Value}
    (member : entry ∈ insert key value entries) : entry = (key, value) ∨ entry ∈ entries := by
  induction entries with
  | nil => exact .inl (List.mem_singleton.mp member)
  | cons head rest ih =>
      rw [insert] at member
      split at member
      · exact (List.mem_cons.mp member).imp_right (List.mem_cons_of_mem _)
      · split at member
        · exact List.mem_cons.mp member
        · rcases List.mem_cons.mp member with rfl | later
          · exact .inr List.mem_cons_self
          · exact (ih later).imp_right (List.mem_cons_of_mem _)

/-- An insertion keeps the keys in order. -/
theorem Ordered.insert {entries : List (Key × Value)} (ordered : Ordered entries) (key : Key)
    (value : Value) :
    Ordered (SortedMap.insert key value entries) := by
  induction entries with
  | nil => exact List.pairwise_singleton _ _
  | cons head rest ih =>
      obtain ⟨least, tail⟩ := List.pairwise_cons.mp ordered
      rw [SortedMap.insert]
      split
      · next same =>
          exact List.pairwise_cons.mpr ⟨fun entry member => same ▸ least entry member, tail⟩
      · next different =>
        split
        · next first =>
          refine List.pairwise_cons.mpr ⟨fun entry member => ?_, ordered⟩
          rcases List.mem_cons.mp member with rfl | later
          · exact first
          · exact first.trans (least entry later)
        · next second =>
          refine List.pairwise_cons.mpr ⟨fun entry member => ?_, ih tail⟩
          rcases mem_of_mem_insert member with rfl | later
          · exact lt_of_le_of_ne (not_lt.mp second) different
          · exact least entry later

/-- A change keeps the keys in order. -/
theorem Ordered.modify {entries : List (Key × Value)} (ordered : Ordered entries) (key : Key)
    (change : Value → Value) : Ordered (SortedMap.modify key change entries) := by
  unfold SortedMap.modify
  split
  · exact ordered.insert key _
  · exact ordered

/-- The entries are what the map is read as. -/
theorem Ordered.mem_iff {entries : List (Key × Value)} (ordered : Ordered entries) {key : Key}
    {value : Value} :
    (key, value) ∈ entries ↔ entries.lookup key = some value := by
  induction entries with
  | nil => simp
  | cons head rest ih =>
      obtain ⟨least, tail⟩ := List.pairwise_cons.mp ordered
      by_cases same : key = head.1
      · subst same
        have once : (head.1, value) ∉ rest := fun later => (least _ later).false
        rw [List.mem_cons, List.lookup_cons_self, or_iff_left once, Option.some_inj]
        exact ⟨fun equal => (congrArg Prod.snd equal).symm, fun equal => equal ▸ rfl⟩
      · rw [List.mem_cons, List.lookup_cons, beq_false_of_ne same, ← ih tail]
        exact or_iff_right fun equal => same (congrArg Prod.fst equal)

/-- No key comes twice. -/
theorem Ordered.nodup {entries : List (Key × Value)} (ordered : Ordered entries) : entries.Nodup :=
  ordered.imp fun before => ne_of_apply_ne Prod.fst before.ne

/-- A key after all others goes to the end. -/
theorem insert_last {key : Key} {entries : List (Key × Value)}
    (last : ∀ entry ∈ entries, entry.1 < key)
    (value : Value) : insert key value entries = entries ++ [(key, value)] := by
  induction entries with
  | nil => rfl
  | cons head rest ih =>
      obtain ⟨before, later⟩ := List.forall_mem_cons.mp last
      rw [insert, if_neg before.ne, if_neg before.not_gt, ih later]
      rfl

/-- A new value of the last key stays at the end. -/
theorem insert_known_last {key : Key} {entries : List (Key × Value)}
    (last : ∀ entry ∈ entries, entry.1 < key)
    (old value : Value) :
    insert key value (entries ++ [(key, old)]) = entries ++ [(key, value)] := by
  induction entries with
  | nil => rw [List.nil_append, insert, if_pos rfl, List.nil_append]
  | cons head rest ih =>
      obtain ⟨before, later⟩ := List.forall_mem_cons.mp last
      rw [List.cons_append, insert, if_neg before.ne, if_neg before.not_gt, ih later]
      rfl

/-- A key behind all others is found. -/
theorem lookup_last {key : Key} {entries : List (Key × Value)}
    (last : ∀ entry ∈ entries, entry.1 < key)
    (value : Value) : (entries ++ [(key, value)]).lookup key = some value := by
  induction entries with
  | nil => rw [List.nil_append, List.lookup_cons_self]
  | cons head rest ih =>
      obtain ⟨before, later⟩ := List.forall_mem_cons.mp last
      rw [List.cons_append, List.lookup_cons, beq_false_of_ne before.ne']
      exact ih later

/-- Changing the last key leaves those before it. -/
theorem modify_last {key : Key} {entries : List (Key × Value)}
    (last : ∀ entry ∈ entries, entry.1 < key) (change : Value → Value) (value : Value) :
    modify key change (entries ++ [(key, value)]) = entries ++ [(key, change value)] := by
  rw [modify, lookup_last last]
  exact insert_known_last last value (change value)

/-- Two maps with the same entries are equal. -/
theorem Ordered.eq_of_mem_iff {first second : List (Key × Value)} (one : Ordered first)
    (other : Ordered second) (same : ∀ entry, entry ∈ first ↔ entry ∈ second) : first = second := by
  refine List.Perm.eq_of_pairwise (fun a b _ _ before after => absurd before (lt_asymm after))
    one other ?_
  exact (List.perm_ext_iff_of_nodup one.nodup other.nodup).mpr same

end SortedMap
