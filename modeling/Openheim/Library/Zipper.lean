import Mathlib.Data.List.Basic

/-
This library describes a list with a place in it, by what stands before and after the place.
-/

@[ext]
structure Zipper (Item : Type*) where
  before : List Item
  after : List Item
  deriving DecidableEq, Repr

namespace Zipper
variable {Item : Type*}

def empty : Zipper Item := ⟨[], []⟩

/-- The list without the place. -/
def whole (zipper : Zipper Item) : List Item := zipper.before ++ zipper.after

/-- Puts items before the place. -/
def insert (zipper : Zipper Item) (items : List Item) : Zipper Item :=
  ⟨zipper.before ++ items, zipper.after⟩

def deleteBefore (zipper : Zipper Item) : Zipper Item := ⟨zipper.before.dropLast, zipper.after⟩

def deleteAfter (zipper : Zipper Item) : Zipper Item := ⟨zipper.before, zipper.after.tail⟩

def moveLeft (zipper : Zipper Item) : Zipper Item :=
  ⟨zipper.before.dropLast, zipper.before.getLast?.toList ++ zipper.after⟩

def moveRight (zipper : Zipper Item) : Zipper Item :=
  ⟨zipper.before ++ zipper.after.head?.toList, zipper.after.tail⟩

def moveToStart (zipper : Zipper Item) : Zipper Item := ⟨[], zipper.whole⟩

def moveToEnd (zipper : Zipper Item) : Zipper Item := ⟨zipper.whole, []⟩

theorem whole_moveToEnd (zipper : Zipper Item) : zipper.moveToEnd.whole = zipper.whole :=
  List.append_nil _

end Zipper
