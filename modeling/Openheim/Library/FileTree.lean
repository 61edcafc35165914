import Mathlib.Data.List.Infix

/-
This library describes a tree of directories, files and symbolic links, and how an operating system
looks paths up in it. A location is the list of names from the root.
-/

/-- One step of a path; a slash at the end of a path counts as a step to the current directory. -/
inductive PathStep (Name : Type*) where
  | current
  | parent
  | entry (name : Name)
  deriving DecidableEq, Repr

/-- What stands at a location. A link holds the path that it points to. -/
inductive TreeNode (Name Content : Type*) where
  | directory
  | file (content : Content)
  | link (absolute : Bool) (target : List (PathStep Name))
  deriving DecidableEq, Repr

/-- A tree has a root directory, and everything else stands in a directory. -/
structure FileTree (Name Content : Type*) where
  node : List Name → Option (TreeNode Name Content)
  root : node [] = some .directory
  parent : ∀ location, location ≠ [] → (node location).isSome →
    node location.dropLast = some .directory

/-- The tree in which nothing but the root stands. -/
def FileTree.rootOnly {Name Content : Type*} [DecidableEq Name] : FileTree Name Content where
  node location := if location = [] then some .directory else none
  root := rfl
  parent location proper stands := by simp [proper] at stands

/-- Why a path leads nowhere. -/
inductive LookupError where
  | notFound
  | notADirectory
  | tooManyLinks
  deriving DecidableEq, Repr

/-- How far one gets without following a link. -/
inductive Advance (Name : Type*) where
  | arrived (location : List Name)
  | absent (directory : List Name) (name : Name)
  | failed (error : LookupError)
  | link (start : List Name) (steps : List (PathStep Name))
  deriving DecidableEq, Repr

/-- Where a path leads, with the number of links that may still be followed. A last name that is
missing from its directory is told apart from other failures, because a file can be made there. -/
inductive Lookup (Name : Type*) where
  | found (location : List Name) (left : Nat)
  | absent (directory : List Name) (name : Name)
  | failed (error : LookupError)
  deriving DecidableEq, Repr

namespace FileTree
variable {Name Content : Type*}

section Lookups
variable [DecidableEq Name] [DecidableEq Content]

/-- Takes steps up to the first link. -/
def advance (tree : FileTree Name Content) : List Name → List (PathStep Name) → Advance Name
  | location, [] => .arrived location
  | location, step :: rest =>
      if tree.node location = some .directory then
        match step with
        | .current => tree.advance location rest
        | .parent => tree.advance location.dropLast rest
        | .entry name =>
            match tree.node (location ++ [name]) with
            | none => if rest.isEmpty then .absent location name else .failed .notFound
            | some (.link absolute target) =>
                .link (if absolute then [] else location) (target ++ rest)
            | some _ => tree.advance (location ++ [name]) rest
      else .failed .notADirectory

/-- Looks a path up and follows at most the given number of links. -/
def lookup (tree : FileTree Name Content) (links : Nat) (location : List Name)
    (steps : List (PathStep Name)) :
    Lookup Name :=
  match tree.advance location steps with
  | .arrived found => .found found links
  | .absent directory name => .absent directory name
  | .failed error => .failed error
  | .link start rest =>
      match links with
      | 0 => .failed .tooManyLinks
      | left + 1 => tree.lookup left start rest

end Lookups

/-- A location is real when something other than a link stands there. -/
def Real (tree : FileTree Name Content) (location : List Name) : Prop :=
  ∃ node, tree.node location = some node ∧ ∀ absolute target, node ≠ .link absolute target

/-- A larger tree has everything that a tree has. -/
def Extends (tree larger : FileTree Name Content) : Prop :=
  ∀ location node, tree.node location = some node → larger.node location = some node

section Structure
variable {tree larger : FileTree Name Content} {location first second : List Name}

/-- A directory is real. -/
theorem Real.directory (directory : tree.node location = some .directory) : tree.Real location :=
  ⟨.directory, directory, fun _ _ => by simp⟩

/-- Every location on the way to something is a directory. -/
theorem directory_of_prefix (stands : (tree.node (first ++ second)).isSome) (proper : second ≠ []) :
    tree.node first = some .directory := by
  induction second using List.reverseRecOn with
  | nil => exact absurd rfl proper
  | append_singleton rest name ih =>
      rw [← List.append_assoc] at stands
      have above := tree.parent _ (by simp) stands
      rw [List.dropLast_concat] at above
      cases rest with
      | nil => simpa using above
      | cons next rest => exact ih (by rw [above]; rfl) (by simp)

/-- Above a real place there are directories. -/
theorem Real.directory_above (real : tree.Real (first ++ second)) (proper : second ≠ []) :
    tree.node first = some .directory := by
  obtain ⟨node, stands, _⟩ := real
  exact directory_of_prefix (by rw [stands]; rfl) proper

/-- What is above a real place is real. -/
theorem Real.above (real : tree.Real (first ++ second)) : tree.Real first := by
  by_cases proper : second = []
  · rw [proper, List.append_nil] at real
    exact real
  · exact .directory (real.directory_above proper)

/-- What is above a directory is real. -/
theorem Real.parent (directory : tree.node location = some .directory) :
    tree.Real location.dropLast := by
  by_cases top : location = []
  · exact .directory (by rw [top]; exact tree.root)
  · exact .directory (tree.parent location top (by rw [directory]; rfl))

section Insert
variable [DecidableEq Name] {node : TreeNode Name Content}

/-- A node may be put into a directory, in the place of anything but a directory. -/
def insert (tree : FileTree Name Content) (location : List Name) (node : TreeNode Name Content)
    (inside : location ≠ [] ∧ tree.node location.dropLast = some .directory)
    (free : tree.node location ≠ some .directory) : FileTree Name Content where
  node other := if other = location then some node else tree.node other
  root := by
    rw [if_neg inside.1.symm]
    exact tree.root
  parent other proper stands := by
    have above : other.dropLast ≠ location → (if other.dropLast = location then some node else
        tree.node other.dropLast) = tree.node other.dropLast := fun apart => if_neg apart
    by_cases same : other = location
    · rw [above, same]
      · exact inside.2
      · intro loop
        have shorter := congrArg List.length loop
        rw [same, List.length_dropLast] at shorter
        have nonempty := List.length_pos_iff.mpr inside.1
        omega
    · rw [if_neg same] at stands
      have directory := tree.parent other proper stands
      rw [above]
      · exact directory
      · intro below
        exact free (below ▸ directory)

variable {inside : location ≠ [] ∧ tree.node location.dropLast = some .directory}
  {free : tree.node location ≠ some .directory}

theorem insert_node (other : List Name) :
    (tree.insert location node inside free).node other =
      if other = location then some node else tree.node other := rfl

/-- A new entry extends the tree. -/
theorem extends_insert (absent : tree.node location = none) :
    tree.Extends (tree.insert location node inside free) := by
  intro other old stands
  rw [insert_node, if_neg]
  · exact stands
  · rintro rfl
    rw [absent] at stands
    cases stands

/-- Nothing stands below a location that was missing. -/
theorem insert_below (absent : tree.node location = none) (name : Name) :
    (tree.insert location node inside free).node (location ++ [name]) = none := by
  rw [insert_node, if_neg (by simp)]
  cases stands : tree.node (location ++ [name]) with
  | none => rfl
  | some below =>
      have directory := directory_of_prefix (by rw [stands]; rfl) (List.cons_ne_nil name [])
      rw [absent] at directory
      cases directory

end Insert

theorem Extends.refl (tree : FileTree Name Content) : tree.Extends tree := fun _ _ stands => stands

/-- What extends an extension extends the tree. -/
theorem Extends.trans {largest : FileTree Name Content} (grows : tree.Extends larger)
    (more : larger.Extends largest) : tree.Extends largest :=
  fun location node stands => more location node (grows location node stands)

end Structure

section Walks
variable [DecidableEq Name] [DecidableEq Content] {tree larger : FileTree Name Content}
  {location found : List Name} {steps : List (PathStep Name)} {links left : Nat}

/-- One step is taken in a directory, and no step outside of one. -/
theorem advance_cons (tree : FileTree Name Content) (location : List Name) (step : PathStep Name)
    (rest : List (PathStep Name)) :
    tree.advance location (step :: rest) =
      if tree.node location = some .directory then
        match step with
        | .current => tree.advance location rest
        | .parent => tree.advance location.dropLast rest
        | .entry name =>
            match tree.node (location ++ [name]) with
            | none => if rest.isEmpty then .absent location name else .failed .notFound
            | some (.link absolute target) =>
                .link (if absolute then [] else location) (target ++ rest)
            | some _ => tree.advance (location ++ [name]) rest
      else .failed .notADirectory := rfl

/-- The next name is an entry of the directory, or missing. -/
theorem advance_entry (directory : tree.node location = some .directory) (name : Name)
    (rest : List (PathStep Name)) :
    tree.advance location (.entry name :: rest) =
      match tree.node (location ++ [name]) with
      | none => if rest.isEmpty then .absent location name else .failed .notFound
      | some (.link absolute target) => .link (if absolute then [] else location) (target ++ rest)
      | some _ => tree.advance (location ++ [name]) rest := by
  rw [advance_cons, if_pos directory]

/-- Steps are taken one part after the other. -/
theorem advance_append (tree : FileTree Name Content) (location : List Name)
    (first second : List (PathStep Name)) :
    tree.advance location (first ++ second) =
      match tree.advance location first with
      | .arrived middle => tree.advance middle second
      | .absent directory name => if second.isEmpty then .absent directory name
          else .failed .notFound
      | .failed error => .failed error
      | .link start rest => .link start (rest ++ second) := by
  induction first generalizing location with
  | nil => rfl
  | cons step rest ih =>
      rw [List.cons_append, advance_cons, advance_cons tree location step rest]
      split
      · cases step with
        | current => exact ih location
        | parent => exact ih location.dropLast
        | entry name =>
            dsimp only
            cases tree.node (location ++ [name]) with
            | none => cases rest <;> cases second <;> rfl
            | some node =>
                cases node with
                | link absolute target => simp
                | directory => exact ih _
                | file content => exact ih _
      · rfl

/-- A path is looked up one part after the other; the second part needs a location to start from. -/
theorem lookup_append (tree : FileTree Name Content) (links : Nat) (location : List Name)
    (first second : List (PathStep Name)) :
    tree.lookup links location (first ++ second) =
      match tree.lookup links location first with
      | .found middle left => tree.lookup left middle second
      | .absent directory name => if second.isEmpty then .absent directory name
          else .failed .notFound
      | .failed error => .failed error := by
  induction links generalizing location first with
  | zero =>
      rw [lookup, advance_append]
      conv_rhs => rw [lookup]
      cases tree.advance location first with
      | arrived middle =>
          change _ = tree.lookup _ middle second
          rw [lookup]
      | absent directory name => cases second <;> rfl
      | failed error => rfl
      | link start rest => rfl
  | succ links ih =>
      rw [lookup, advance_append]
      conv_rhs => rw [lookup]
      cases tree.advance location first with
      | arrived middle =>
          change _ = tree.lookup _ middle second
          rw [lookup]
      | absent directory name => cases second <;> rfl
      | failed error => rfl
      | link start rest => exact ih start rest

/-- Looking up a path that leads somewhere only needs what is on the way. -/
theorem Extends.advance (grows : tree.Extends larger) :
    (∀ found, tree.advance location steps = .arrived found →
        larger.advance location steps = .arrived found) ∧
      ∀ start rest, tree.advance location steps = .link start rest →
        larger.advance location steps = .link start rest := by
  induction steps generalizing location with
  | nil => exact ⟨fun _ arrived => arrived, fun _ _ linked => linked⟩
  | cons step rest ih =>
      rw [advance_cons, advance_cons]
      by_cases directory : tree.node location = some .directory
      · rw [if_pos directory, if_pos (grows location _ directory)]
        cases step with
        | current => exact ih
        | parent => exact ih
        | entry name =>
            dsimp only
            cases stands : tree.node (location ++ [name]) with
            | none =>
              cases rest <;> exact ⟨fun _ arrived => (nomatch arrived),
                fun _ _ linked => (nomatch linked)⟩
            | some node =>
                rw [grows _ node stands]
                cases node with
                | link absolute target => exact ⟨fun _ arrived => arrived, fun _ _ linked => linked⟩
                | directory => exact ih
                | file content => exact ih
      · rw [if_neg directory]
        exact ⟨fun _ arrived => (nomatch arrived), fun _ _ linked => (nomatch linked)⟩

/-- A path that leads somewhere gets there at once, or it follows a link first. -/
theorem found_induction {motive : Nat → List Name → List (PathStep Name) → Prop}
    (leads : tree.lookup links location steps = .found found left)
    (arrived : ∀ location steps, tree.advance location steps = .arrived found →
      motive left location steps)
    (link : ∀ links location steps start rest, tree.advance location steps = .link start rest →
      tree.lookup links start rest = .found found left → motive links start rest →
        motive (links + 1) location steps) :
    motive links location steps := by
  induction links generalizing location steps with
  | zero =>
      rw [lookup] at leads
      cases result : tree.advance location steps with
      | arrived middle =>
          rw [result] at leads
          cases leads
          exact arrived location steps result
      | absent directory name => rw [result] at leads; cases leads
      | failed error => rw [result] at leads; cases leads
      | link start rest => rw [result] at leads; cases leads
  | succ links ih =>
      rw [lookup] at leads
      cases result : tree.advance location steps with
      | arrived middle =>
          rw [result] at leads
          cases leads
          exact arrived location steps result
      | absent directory name => rw [result] at leads; cases leads
      | failed error => rw [result] at leads; cases leads
      | link start rest =>
          rw [result] at leads
          exact link links location steps start rest result leads (ih leads)

/-- A path without links leads where its steps lead. -/
theorem lookup_of_arrived (result : tree.advance location steps = .arrived found) (links : Nat) :
    tree.lookup links location steps = .found found links := by
  rw [lookup.eq_def, result]

/-- A link is followed, and counted. -/
theorem lookup_of_link {start : List Name} {rest : List (PathStep Name)}
    (result : tree.advance location steps = .link start rest) (links : Nat) :
    tree.lookup (links + 1) location steps = tree.lookup links start rest := by
  rw [lookup, result]

/-- A path leads to the same place in a larger tree. -/
theorem Extends.lookup (grows : tree.Extends larger)
    (leads : tree.lookup links location steps = .found found left) :
    larger.lookup links location steps = .found found left := by
  refine found_induction leads (motive := fun links location steps =>
    larger.lookup links location steps = .found found left) ?_ ?_
  · intro location steps result
    exact lookup_of_arrived (grows.advance.1 found result) left
  · intro links location steps start rest result _ ih
    rw [lookup_of_link (grows.advance.2 start rest result)]
    exact ih

/-- More links to spend are left over. -/
theorem lookup_add (leads : tree.lookup links location steps = .found found left) (more : Nat) :
    tree.lookup (links + more) location steps = .found found (left + more) := by
  refine found_induction leads (motive := fun links location steps =>
    tree.lookup (links + more) location steps = .found found (left + more)) ?_ ?_
  · intro location steps result
    exact lookup_of_arrived result (left + more)
  · intro links location steps start rest result _ ih
    rw [Nat.add_right_comm, lookup_of_link result]
    exact ih

/-- Where a path leads does not depend on how many links may be followed. -/
theorem lookup_unique {others other_left : Nat} {other : List Name}
    (leads : tree.lookup links location steps = .found found left)
    (again : tree.lookup others location steps = .found other other_left) : found = other := by
  have one := lookup_add leads others
  rw [Nat.add_comm, lookup_add again links, Lookup.found.injEq] at one
  exact one.1.symm

/-- From a real location one gets to real locations only. -/
theorem advance_real (start : tree.Real location) :
    (∀ found, tree.advance location steps = .arrived found → tree.Real found) ∧
      ∀ start rest, tree.advance location steps = .link start rest → tree.Real start := by
  induction steps generalizing location with
  | nil =>
      refine ⟨fun found arrived => ?_, fun _ _ linked => (nomatch linked)⟩
      cases arrived
      exact start
  | cons step rest ih =>
      rw [advance_cons]
      by_cases directory : tree.node location = some .directory
      · rw [if_pos directory]
        cases step with
        | current => exact ih start
        | parent => exact ih (.parent directory)
        | entry name =>
            dsimp only
            cases stands : tree.node (location ++ [name]) with
            | none =>
              cases rest <;> exact ⟨fun _ arrived => (nomatch arrived),
                fun _ _ linked => (nomatch linked)⟩
            | some node =>
                cases node with
                | link absolute target =>
                    refine ⟨fun _ arrived => (nomatch arrived), fun _ _ linked => ?_⟩
                    cases linked
                    split
                    · exact .directory tree.root
                    · exact start
                | directory => exact ih (.directory stands)
                | file content => exact ih ⟨_, stands, fun _ _ => by simp⟩
      · rw [if_neg directory]
        exact ⟨fun _ arrived => (nomatch arrived), fun _ _ linked => (nomatch linked)⟩

/-- A path from a real place leads to a real place. -/
theorem lookup_real (start : tree.Real location)
    (leads : tree.lookup links location steps = .found found left) :
    tree.Real found := by
  revert start
  refine found_induction leads (motive := fun _ location _ => tree.Real location →
    tree.Real found) ?_ ?_
  · exact fun location steps result start => (advance_real start).1 found result
  · exact fun _ location steps start rest result _ ih real =>
      ih ((advance_real real).2 start rest result)

/-- The path of names to a real location leads there without a link. -/
theorem advance_entries {names : List Name} (real : tree.Real (location ++ names)) :
    tree.advance location (names.map .entry) = .arrived (location ++ names) := by
  induction names generalizing location with
  | nil => simp [advance]
  | cons name rest ih =>
      have above : tree.node location = some .directory :=
        real.directory_above (List.cons_ne_nil name rest)
      rw [List.append_cons] at real ⊢
      obtain ⟨node, stands, no_link⟩ := real.above
      rw [List.map_cons, advance_entry above, stands]
      cases node with
      | link absolute target => exact absurd rfl (no_link absolute target)
      | directory => exact ih real
      | file content => exact ih real

end Walks

end FileTree
