import Mathlib.Data.List.Infix
import Mathlib.Logic.Function.Basic

/-!
# A file system

Directories, files and symbolic links, and the resolution of paths over them. A location is where
something really is, while a path leads there through `..` and links.
-/

namespace Foundation

/-- The names from a node up to the root. -/
abbrev Location := List String

/-- `Component::Normal` and `Component::ParentDir`; a `.` inside a path changes nothing. -/
inductive Component
  | name (name : String)
  | up
deriving DecidableEq, Repr

/-- A link has its target, which can be absolute, and can end in a slash. -/
inductive Node
  | directory (writable : Bool)
  | file (writable : Bool)
  | link (absolute : Bool) (target : List Component) (slash : Bool)
deriving DecidableEq, Repr

def Node.isDirectory : Node → Bool
  | .directory _ => true
  | .file _ => false
  | .link _ _ _ => false

/-- What is not at the root is in a directory. -/
structure FileTree where
  node : Location → Option Node
  root : (node []).any Node.isDirectory = true
  parents : ∀ name location, (node (name :: location)).isSome = true →
    (node location).any Node.isDirectory = true

namespace FileTree

def isDirectory (tree : FileTree) (location : Location) : Bool :=
  (tree.node location).any Node.isDirectory

/-- Nodes can be created in the directory. -/
def isWritable (tree : FileTree) (location : Location) : Bool :=
  tree.node location == some (.directory true)

/-- Nothing but the root. -/
def empty : FileTree where
  node location := if location = [] then some (.directory true) else none
  root := rfl
  parents name location there := by simp at there

/-- Puts a node into a directory that has none of the name. -/
def place (tree : FileTree) (parent : Location) (name : String) (node : Node) : FileTree :=
  if free : tree.isDirectory parent = true ∧ tree.node (name :: parent) = none then
    { node := Function.update tree.node (name :: parent) (some node)
      root := by simpa using tree.root
      parents := by
        intro other location there
        -- The new node takes the place of no directory.
        have apart : (tree.node location).any Node.isDirectory = true →
            (Function.update tree.node (name :: parent) (some node) location).any
              Node.isDirectory = true := by
          intro directory
          have differ : location ≠ name :: parent := by
            rintro rfl
            simp [free.2] at directory
          simpa [differ] using directory
        apply apart
        by_cases same : other :: location = name :: parent
        · cases same
          exact free.1
        · rw [Function.update_of_ne same] at there
          exact tree.parents other location there }
  else tree

theorem place_node {tree : FileTree} {parent : Location} {name : String} {node : Node}
    (directory : tree.isDirectory parent = true) (vacant : tree.node (name :: parent) = none)
    (location : Location) :
    (tree.place parent name node).node location =
      if location = name :: parent then some node else tree.node location := by
  unfold place
  rw [dif_pos ⟨directory, vacant⟩]
  exact Function.update_apply _ _ _ _

end FileTree

/-! ### Paths -/

/-- How the text of a path ends: in a name, in slashes or in a `.`. -/
inductive Ending
  | plain
  | slash
  | dot
deriving DecidableEq, Repr

/-- An absolute path, its last component first. -/
structure Path where
  components : List Component
  ending : Ending
deriving DecidableEq, Repr

namespace Path

/-- The names between the slashes of a text. -/
def segments (text : List Char) : List (List Char) :=
  (text.splitOn '/').filter fun segment => !segment.isEmpty

def component (segment : List Char) : Option Component :=
  if segment = ['.'] then none
  else if segment = ['.', '.'] then some .up
  else some (.name (String.ofList segment))

def endingOf (text : List Char) : Ending :=
  match (segments text).getLast? with
  | none => .slash
  | some last =>
    if last = ['.'] then .dot else if text.getLast? = some '/' then .slash else .plain

/-- `Path::join` on an absolute path: an absolute text takes its place. -/
def join (base : Path) (text : String) : Path :=
  let components := (segments text.toList).reverse.filterMap component
  ⟨if text.toList.head? = some '/' then components else components ++ base.components,
    endingOf text.toList⟩

/-- `Path::starts_with` of the path that a location spells. -/
def StartsWith (location : Location) (start : Path) : Prop :=
  start.components <:+ location.map .name

instance decidableStartsWith (location : Location) (start : Path) :
    Decidable (StartsWith location start) :=
  inferInstanceAs (Decidable (start.components <:+ location.map .name))

end Path

inductive IoError
  | notFound
  | notADirectory
  | filesystemLoop
  | alreadyExists
  | permissionDenied
  | isADirectory
  | invalidInput
  | uncategorized
deriving DecidableEq, Repr

/-- Where a path leads: to a node, with the links that could still be followed, to a name that a
directory does not have, or nowhere. -/
inductive Reached
  | found (location : Location) (links : Nat)
  | vacant (parent : Location) (name : String)
  | failed (error : IoError)
deriving DecidableEq, Repr

/-- The node a path leads to. -/
def Reached.node : Reached → Except IoError Location
  | .found location _ => .ok location
  | .vacant _ _ => .error .notFound
  | .failed error => .error error

namespace FileTree

variable (tree : FileTree)

/-- Walks a path up to the first link, which is followed with what is left of the path. A path that
has to lead to a directory says so in `directory`. -/
def walk (links : Nat) (follow : Bool → Location → List Component → Reached) (directory : Bool) :
    Location → List Component → Reached
  | location, [] =>
    if directory && !tree.isDirectory location then .failed .notADirectory else .found location links
  | location, .up :: rest =>
    if tree.isDirectory location then walk links follow directory location.tail rest
    else .failed .notADirectory
  | location, .name name :: rest =>
    if tree.isDirectory location then
      match tree.node (name :: location) with
      | none => if rest.isEmpty && !directory then .vacant location name else .failed .notFound
      | some (.link absolute target slash) =>
        follow (directory || rest.isEmpty && slash) (if absolute then [] else location)
          (target ++ rest)
      | some (.directory _) => walk links follow directory (name :: location) rest
      | some (.file _) => walk links follow directory (name :: location) rest
    else .failed .notADirectory

/-- Resolution, with a limit on the links that are followed. -/
def resolve : Nat → Bool → Location → List Component → Reached
  | 0 => tree.walk 0 fun _ _ _ => .failed .filesystemLoop
  | links + 1 => tree.walk (links + 1) (resolve links)

/-- Following a link uses one up. -/
def follow : Nat → Bool → Location → List Component → Reached
  | 0, _, _, _ => .failed .filesystemLoop
  | links + 1, directory, location, components =>
    tree.resolve links directory location components

/-! ### Resolution in parts -/

variable {tree} {links : Nat} {directory : Bool} {location : Location} {rest : List Component}

theorem resolve_nil : tree.resolve links directory location [] =
    if directory && !tree.isDirectory location then .failed .notADirectory
    else .found location links := by
  cases links <;> rfl

theorem resolve_up (entered : tree.isDirectory location = true) :
    tree.resolve links directory location (.up :: rest) =
      tree.resolve links directory location.tail rest := by
  cases links <;> simp [resolve, walk, entered]

theorem resolve_missing {name : String} (entered : tree.isDirectory location = true)
    (missing : tree.node (name :: location) = none) :
    tree.resolve links directory location (.name name :: rest) =
      if rest.isEmpty && !directory then .vacant location name else .failed .notFound := by
  cases links <;> simp [resolve, walk, entered, missing]

theorem resolve_link {name : String} {absolute slash : Bool} {target : List Component}
    (entered : tree.isDirectory location = true)
    (there : tree.node (name :: location) = some (.link absolute target slash)) :
    tree.resolve links directory location (.name name :: rest) =
      tree.follow links (directory || rest.isEmpty && slash) (if absolute then [] else location)
        (target ++ rest) := by
  cases links <;> simp [resolve, walk, follow, entered, there]

theorem resolve_name {name : String} {node : Node} (entered : tree.isDirectory location = true)
    (there : tree.node (name :: location) = some node)
    (solid : ∀ absolute target slash, node ≠ .link absolute target slash) :
    tree.resolve links directory location (.name name :: rest) =
      tree.resolve links directory (name :: location) rest := by
  cases node with
  | link absolute target slash => exact absurd rfl (solid absolute target slash)
  | directory writable => cases links <;> simp [resolve, walk, entered, there]
  | file writable => cases links <;> simp [resolve, walk, entered, there]

theorem resolve_of_not_directory {component : Component}
    (outside : tree.isDirectory location = false) :
    tree.resolve links directory location (component :: rest) = .failed .notADirectory := by
  cases component <;> cases links <;> simp [resolve, walk, outside]

end FileTree

/-- Goes on from where a path led to. -/
def Reached.andThen (next : Location → Nat → Reached) : Reached → Reached
  | .found location links => next location links
  | .vacant _ _ => .failed .notFound
  | .failed error => .failed error

namespace FileTree

variable {tree : FileTree} {links : Nat}

/-- The parts of a path up to the first link. -/
private theorem resolve_append_of_follow {directory : Bool} {rest : List Component} (more : rest ≠ [])
    (follows : ∀ first location components,
      tree.follow links directory location (components ++ rest) =
        (tree.follow links first location components).andThen fun reached left =>
          tree.resolve left directory reached rest)
    (first : Bool) (location : Location) (components : List Component) :
    tree.resolve links directory location (components ++ rest) =
      (tree.resolve links first location components).andThen fun reached left =>
        tree.resolve left directory reached rest := by
  have nonempty : ∀ before : List Component, (before ++ rest).isEmpty = false := by
    intro before
    cases before <;> cases rest <;> simp_all
  -- Up to the first link both sides take the same steps, and `follows` takes over there.
  induction components generalizing location with
  | nil =>
    rw [resolve_nil, List.nil_append]
    split
    next wrong =>
      have outside : tree.isDirectory location = false := by simp_all
      obtain ⟨component, others, rfl⟩ := List.exists_cons_of_ne_nil more
      exact resolve_of_not_directory outside
    · rfl
  | cons component others ih =>
    rw [List.cons_append]
    cases entered : tree.isDirectory location with
    | false => simp only [resolve_of_not_directory entered, Reached.andThen]
    | true =>
      cases component with
      | up => simp only [resolve_up entered, ih]
      | name name =>
        cases there : tree.node (name :: location) with
        | none =>
          -- A vacant place is nothing to go on from, so both sides fail.
          simp only [resolve_missing entered there, nonempty, Bool.false_and, Bool.false_eq_true,
            if_false]
          split <;> rfl
        | some node =>
          cases node with
          | link absolute target slash =>
            simp only [resolve_link entered there, nonempty, Bool.false_and, Bool.or_false,
              ← List.append_assoc]
            exact follows _ _ _
          | directory writable => simp only [resolve_name entered there (by simp), ih]
          | file writable => simp only [resolve_name entered there (by simp), ih]

/-- A path leads where its second part leads from where its first part leads. Whether the first part
has to lead to a directory does not matter: the second part enters it. -/
theorem resolve_append (first : Bool) {directory : Bool} {location : Location}
    {components rest : List Component} (more : rest ≠ []) :
    tree.resolve links directory location (components ++ rest) =
      (tree.resolve links first location components).andThen fun reached left =>
        tree.resolve left directory reached rest := by
  induction links generalizing first location components with
  | zero => exact resolve_append_of_follow more (fun _ _ _ => rfl) first location components
  | succ links ih =>
    apply resolve_append_of_follow more
    intro first location components
    exact ih first

/-- A name that is no link leads to where it says, or nowhere. -/
theorem resolve_single {parent : Location} {name : String} {left : Nat}
    (entered : tree.isDirectory parent = true)
    (solid : ∀ absolute target slash, tree.node (name :: parent) ≠ some (.link absolute target slash)) :
    tree.resolve left false parent [.name name] = .vacant parent name ∨
      tree.resolve left false parent [.name name] = .found (name :: parent) left := by
  cases there : tree.node (name :: parent) with
  | none =>
    rw [resolve_missing entered there]
    exact .inl rfl
  | some node =>
    rw [resolve_name entered there, resolve_nil]
    · exact .inr rfl
    · rintro absolute target slash rfl
      exact solid absolute target slash there

theorem vacant_of_walk {follow : Bool → Location → List Component → Reached} {directory : Bool}
    {location parent : Location} {name : String} {components : List Component}
    (follows : ∀ directory location components,
      follow directory location components = .vacant parent name →
        tree.isDirectory parent = true ∧ tree.node (name :: parent) = none)
    (led : tree.walk links follow directory location components = .vacant parent name) :
    tree.isDirectory parent = true ∧ tree.node (name :: parent) = none := by
  induction components generalizing location with
  | nil =>
    rw [walk] at led
    split at led <;> cases led
  | cons component rest ih =>
    cases component with
    | up =>
      rw [walk] at led
      split at led
      · exact ih led
      · cases led
    | name next =>
      rw [walk] at led
      split at led
      next entered =>
        split at led
        next missing =>
          split at led
          · cases led
            exact ⟨entered, missing⟩
          · cases led
        · exact follows _ _ _ led
        · exact ih led
        · exact ih led
      · cases led

/-- A vacant place is in a directory. -/
theorem vacant_of_resolve {directory : Bool} {location parent : Location} {name : String}
    {components : List Component}
    (led : tree.resolve links directory location components = .vacant parent name) :
    tree.isDirectory parent = true ∧ tree.node (name :: parent) = none := by
  -- Along the links, and between two links along the components.
  induction links generalizing directory location components with
  | zero => exact vacant_of_walk (fun _ _ _ followed => by cases followed) led
  | succ links ih => exact vacant_of_walk (fun _ _ _ followed => ih followed) led

/-! ### Directories -/

theorem isDirectory_tail {location : Location} (directory : tree.isDirectory location = true) :
    tree.isDirectory location.tail = true := by
  cases location with
  | nil => exact tree.root
  | cons name parent =>
    apply tree.parents name parent
    unfold isDirectory at directory
    cases there : tree.node (name :: parent) with
    | none => simp [there] at directory
    | some node => rfl

theorem isDirectory_of_suffix {location base : Location} (directory : tree.isDirectory base = true)
    (above : location <:+ base) : tree.isDirectory location = true := by
  induction base with
  | nil =>
    rw [List.suffix_nil.1 above]
    exact directory
  | cons name parent ih =>
    rcases List.suffix_cons_iff.1 above with rfl | further
    · exact directory
    · exact ih (isDirectory_tail directory) further

/-- A location is left alone by what is put elsewhere. -/
theorem isDirectory_place {location parent : Location} {name : String} {node : Node}
    (directory : tree.isDirectory location = true) :
    (tree.place parent name node).isDirectory location = true := by
  unfold place
  split
  next free =>
    have differ : location ≠ name :: parent := by
      rintro rfl
      simp [isDirectory, free.2] at directory
    simpa [isDirectory, differ] using directory
  · exact directory

end FileTree

end Foundation
