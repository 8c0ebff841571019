import Hpsvm.Foundation.FileTree

/-!
# Creating directories and files

The calls that create directories and files, and sequences of calls that each leave the tree, put one
node into it or stop: what it takes that everything they put is where it may be.
-/

namespace Foundation.FileTree

variable (tree : FileTree)

/-! ### Calls -/

variable (links : Nat)

/-- Where the components of a path lead from the root. -/
def lookup (components : List Component) : Reached := tree.resolve links false [] components.reverse

def canonicalize (path : Path) : Except IoError Location :=
  (tree.resolve links (path.ending != .plain) [] path.components.reverse).node

/-- `Path::is_dir`. -/
def isDir (path : Path) : Bool := (tree.canonicalize links path).toOption.any tree.isDirectory

/-- The directory that the components before the last lead to. -/
def parentOf (components : List Component) : Except IoError Location :=
  (tree.lookup links components).node.bind fun location =>
    if tree.isDirectory location then .ok location else .error .notADirectory

/-- Where `mkdir` puts a directory. It does not follow a link at the end. -/
def mkdirAt (path : Path) : Except IoError (Location × String) :=
  if path.ending = .dot then
    (tree.parentOf links path.components).bind fun _ => .error .alreadyExists
  else
    match path.components with
    | [] => .error .alreadyExists
    | .up :: rest => (tree.parentOf links rest).bind fun _ => .error .alreadyExists
    | .name name :: rest =>
      (tree.parentOf links rest).bind fun parent =>
        if (tree.node (name :: parent)).isSome then .error .alreadyExists
        else if tree.isWritable parent then .ok (parent, name)
        else .error .permissionDenied

def mkdir (path : Path) : Except IoError FileTree :=
  (tree.mkdirAt links path).map fun (parent, name) => tree.place parent name (.directory true)

/-- What a call does to a tree. -/
inductive Attempt
  | pass
  | stop (error : IoError)
  | place (parent : Location) (name : String) (node : Node)
deriving DecidableEq, Repr

/-- Makes the attempts in turn, up to the first that stops. -/
def attempt (tree : FileTree) : List (FileTree → Attempt) → Except IoError Unit × FileTree
  | [] => (.ok (), tree)
  | first :: rest =>
    match first tree with
    | .pass => attempt tree rest
    | .stop error => (.error error, tree)
    | .place parent name node => attempt (tree.place parent name node) rest

/-- `File::create`, which follows links, also to where nothing is yet. -/
def openFile (links : Nat) (components : List Component) (tree : FileTree) : Attempt :=
  match tree.lookup links components with
  | .found location _ =>
    match tree.node location with
    | some (.file true) => .pass
    | some (.file false) => .stop .permissionDenied
    | _ => .stop .isADirectory
  | .vacant parent name =>
    if tree.isWritable parent then .place parent name (.file true) else .stop .permissionDenied
  | .failed error => .stop error

/-- A directory that could not be made can still be there. -/
def settle (path : Path) : Except IoError FileTree → Except IoError Unit × FileTree
  | .ok made => (.ok (), made)
  | .error error => if tree.isDir links path then (.ok (), tree) else (.error error, tree)

/-- One level of `create_dir_all`: the parents are only looked at if the directory cannot be made for
want of them. -/
def createLevel (path : Path) (createParents : FileTree → Except IoError Unit × FileTree) :
    Except IoError Unit × FileTree :=
  match tree.mkdir links path with
  | .error .notFound =>
    match createParents tree with
    | (.error error, tree) => (.error error, tree)
    | (.ok (), tree) => tree.settle links path (tree.mkdir links path)
  | result => tree.settle links path result

/-- The recursion of `create_dir_all` over `Path::parent`. -/
def createParents : List Component → FileTree → Except IoError Unit × FileTree
  | [], tree => (.error .uncategorized, tree)
  | _ :: rest, tree => tree.createLevel links ⟨rest, .plain⟩ (createParents rest)

def createDirAll (path : Path) : Except IoError Unit × FileTree :=
  tree.createLevel links path (createParents links path.components)

variable {tree links}

/-! ### Nodes that are put -/

/-- Every node that the attempts put is where it may be. -/
def Stays (allowed : Location → Prop) (tree : FileTree) : List (FileTree → Attempt) → Prop
  | [] => True
  | first :: rest =>
    match first tree with
    | .pass => Stays allowed tree rest
    | .stop _ => True
    | .place parent name node =>
      allowed (name :: parent) ∧ Stays allowed (tree.place parent name node) rest

/-- Puts nodes only where none is. -/
def Sound (call : FileTree → Attempt) : Prop :=
  ∀ tree parent name node, call tree = .place parent name node →
    tree.isDirectory parent = true ∧ tree.node (name :: parent) = none

/-- A node that was not there. -/
def Created (before after : FileTree) (location : Location) : Prop :=
  before.node location = none ∧ (after.node location).isSome = true

theorem not_created_self {location : Location} : ¬ Created tree tree location := by
  rintro ⟨missing, there⟩
  rw [missing] at there
  cases there

/-- One more node is created if the first is put before. -/
theorem created_place_iff {after : FileTree} {parent : Location} {name : String} {node : Node}
    (directory : tree.isDirectory parent = true) (vacant : tree.node (name :: parent) = none)
    (kept : (after.node (name :: parent)).isSome = true) {location : Location} :
    Created tree after location ↔
      location = name :: parent ∨ Created (tree.place parent name node) after location := by
  rw [Created, Created, place_node directory vacant]
  by_cases same : location = name :: parent
  · subst same
    exact iff_of_true ⟨vacant, kept⟩ (.inl rfl)
  · simp only [same, if_false, false_or]

/-- Goes on from what attempts have left, unless they stopped. -/
def goOn (next : FileTree → Except IoError Unit × FileTree) :
    Except IoError Unit × FileTree → Except IoError Unit × FileTree
  | (.ok (), tree) => next tree
  | (.error error, tree) => (.error error, tree)

theorem attempt_append (tree : FileTree) (first second : List (FileTree → Attempt)) :
    tree.attempt (first ++ second) =
      goOn (fun left => left.attempt second) (tree.attempt first) := by
  induction first generalizing tree with
  | nil => rfl
  | cons call rest ih =>
    rw [List.cons_append, attempt, attempt]
    cases call tree with
    | pass => exact ih tree
    | stop error => rfl
    | place parent name node => exact ih (tree.place parent name node)

theorem attempt_append_of_ok {first : List (FileTree → Attempt)} {left : FileTree}
    (done : tree.attempt first = (.ok (), left)) (second : List (FileTree → Attempt)) :
    tree.attempt (first ++ second) = left.attempt second := by
  rw [attempt_append, done]
  rfl

theorem attempt_append_of_error {first : List (FileTree → Attempt)} {left : FileTree}
    {error : IoError} (stopped : tree.attempt first = (.error error, left))
    (second : List (FileTree → Attempt)) :
    tree.attempt (first ++ second) = (.error error, left) := by
  rw [attempt_append, stopped]
  rfl

/-- Attempts that put nodes only where none is leave the others. -/
theorem node_attempt {calls : List (FileTree → Attempt)} (sound : ∀ call ∈ calls, Sound call)
    {location : Location} {node : Node} (there : tree.node location = some node) :
    (tree.attempt calls).2.node location = some node := by
  induction calls generalizing tree with
  | nil => exact there
  | cons call rest ih =>
    have others := fun other member => sound other (List.mem_cons_of_mem _ member)
    rw [attempt]
    cases called : call tree with
    | pass => exact ih others there
    | stop error => exact there
    | place parent name new =>
      obtain ⟨directory, vacant⟩ := sound call List.mem_cons_self tree parent name new called
      apply ih others
      rw [place_node directory vacant, if_neg]
      · exact there
      · rintro rfl
        rw [vacant] at there
        cases there

/-- What is created by attempts is where it may be if and only if each is when it is put. -/
theorem created_attempt_iff (allowed : Location → Prop) {calls : List (FileTree → Attempt)}
    (sound : ∀ call ∈ calls, Sound call) :
    (∀ location, Created tree (tree.attempt calls).2 location → allowed location) ↔
      Stays allowed tree calls := by
  induction calls generalizing tree with
  | nil => exact iff_of_true (fun location created => absurd created not_created_self) trivial
  | cons call rest ih =>
    have others := fun other member => sound other (List.mem_cons_of_mem _ member)
    rw [attempt, Stays]
    cases called : call tree with
    | pass => exact ih others
    | stop error =>
      exact iff_of_true (fun location created => absurd created not_created_self) trivial
    | place parent name new =>
      obtain ⟨directory, vacant⟩ := sound call List.mem_cons_self tree parent name new called
      have present : (tree.place parent name new).node (name :: parent) = some new := by
        rw [place_node directory vacant, if_pos rfl]
      -- The rest of the calls leave the node that was put.
      have kept := node_attempt others present
      have created : ∀ location, Created tree ((tree.place parent name new).attempt rest).2 location ↔
          location = name :: parent ∨
            Created (tree.place parent name new) ((tree.place parent name new).attempt rest).2
              location :=
        fun location => created_place_iff directory vacant (by rw [kept]; rfl)
      simp only [created, or_imp, forall_and, forall_eq, ih others]

/-! ### Making directories and files -/

/-- Makes a directory, or finds it. -/
def makeDirectory (links : Nat) (path : Path) (tree : FileTree) : Attempt :=
  match tree.mkdirAt links path with
  | .ok (parent, name) => .place parent name (.directory true)
  | .error error => if tree.isDir links path then .pass else .stop error

/-- The parents of a path, from the root on. -/
def parentsOf : List Component → List Path
  | [] => []
  | _ :: rest => parentsOf rest ++ [⟨rest, .plain⟩]

/-- A path after its parents. -/
def way (path : Path) : List Path := parentsOf path.components ++ [path]

/-- A path of which the parent does not lead to a directory fails as the parent does. -/
theorem resolve_of_parentOf_error {rest : List Component} {error : IoError}
    (stuck : tree.parentOf links rest = .error error) (directory : Bool) (component : Component) :
    tree.resolve links directory [] (component :: rest).reverse = .failed error := by
  rw [List.reverse_cons, resolve_append false (by simp)]
  unfold parentOf lookup at stuck
  cases led : tree.resolve links false [] rest.reverse with
  | found location left =>
    simp only [led, Reached.node, Except.bind] at stuck
    split at stuck
    · cases stuck
    next outside =>
      cases stuck
      exact resolve_of_not_directory (by simpa using outside)
  | vacant parent name =>
    rw [led] at stuck
    cases stuck
    rfl
  | failed reason =>
    rw [led] at stuck
    cases stuck
    rfl

/-- Otherwise it leads on from there. -/
theorem resolve_of_parentOf_ok {rest : List Component} {parent : Location}
    (entered : tree.parentOf links rest = .ok parent) :
    tree.isDirectory parent = true ∧ ∃ left, ∀ directory component,
      tree.resolve links directory [] (component :: rest).reverse =
        tree.resolve left directory parent [component] := by
  unfold parentOf lookup at entered
  cases led : tree.resolve links false [] rest.reverse with
  | found location left =>
    simp only [led, Reached.node, Except.bind] at entered
    split at entered
    next inside =>
      cases entered
      refine ⟨inside, left, fun directory component => ?_⟩
      rw [List.reverse_cons, resolve_append false (by simp), led]
      rfl
    · cases entered
  | vacant parent name =>
    rw [led] at entered
    cases entered
  | failed reason =>
    rw [led] at entered
    cases entered

theorem isDir_plain_iff {components : List Component} :
    tree.isDir links ⟨components, .plain⟩ = true ↔
      ∃ location, tree.parentOf links components = .ok location := by
  have flag : (Ending.plain != Ending.plain) = false := rfl
  rw [isDir, canonicalize, parentOf, lookup, flag]
  cases (tree.resolve links false [] components.reverse).node with
  | ok location =>
    cases inside : tree.isDirectory location with
    | true => simp [inside, Except.toOption, Except.bind]
    | false => simp [inside, Except.toOption, Except.bind]
  | error error => simp [Except.toOption, Except.bind]

theorem not_isDir_of_parentOf_error {components : List Component} {error : IoError}
    (stuck : tree.parentOf links components = .error error) :
    ¬ tree.isDir links ⟨components, .plain⟩ = true := by
  rw [isDir_plain_iff, stuck]
  rintro ⟨_, equal⟩
  cases equal

theorem isDir_root (ending : Ending) : tree.isDir links ⟨[], ending⟩ = true := by
  have root : tree.isDirectory [] = true := tree.root
  simp [isDir, canonicalize, resolve_nil, root, Reached.node, Except.toOption]

/-- Everything it takes that a directory can be made. -/
theorem mkdirAt_eq_ok {path : Path} {parent : Location} {name : String}
    (made : tree.mkdirAt links path = .ok (parent, name)) :
    ∃ rest, path.components = .name name :: rest ∧ tree.parentOf links rest = .ok parent ∧
      tree.node (name :: parent) = none ∧ tree.isWritable parent = true := by
  unfold mkdirAt at made
  split at made
  · cases entered : tree.parentOf links path.components <;> simp [entered, Except.bind] at made
  · split at made
    · cases made
    next rest listed =>
      cases entered : tree.parentOf links rest <;> simp [entered, Except.bind] at made
    next last rest listed =>
      cases entered : tree.parentOf links rest with
      | error error => simp [entered, Except.bind] at made
      | ok directory =>
        simp only [entered, Except.bind] at made
        split at made
        · cases made
        next vacant =>
          split at made
          next writable =>
            cases made
            exact ⟨rest, listed, entered, by simpa using vacant, writable⟩
          · cases made

theorem makeDirectory_of_isDir {path : Path} (there : tree.isDir links path = true) :
    makeDirectory links path tree = .pass := by
  unfold makeDirectory
  split
  next parent name made =>
    -- What can be made is not there.
    obtain ⟨rest, components, entered, vacant, -⟩ := mkdirAt_eq_ok made
    obtain ⟨inside, left, leads⟩ := resolve_of_parentOf_ok entered
    rw [isDir, canonicalize, components, leads, resolve_missing inside vacant] at there
    split at there <;> cases there
  · rw [if_pos there]

theorem parentsOf_cons (component : Component) (rest : List Component) :
    parentsOf (component :: rest) = way ⟨rest, .plain⟩ := rfl

/-- Nothing is made on the way to a directory. -/
theorem attempt_way_of_isDir {path : Path} (there : tree.isDir links path = true) :
    tree.attempt ((way path).map (makeDirectory links)) = (.ok (), tree) := by
  obtain ⟨components, ending⟩ := path
  induction components generalizing ending with
  | nil =>
    have passes := makeDirectory_of_isDir there
    simp [way, parentsOf, attempt, passes]
  | cons component rest ih =>
    have passes := makeDirectory_of_isDir there
    have parent : tree.isDir links ⟨rest, .plain⟩ = true := by
      rw [isDir_plain_iff]
      cases entered : tree.parentOf links rest with
      | ok location => exact ⟨location, rfl⟩
      | error error =>
        simp only [isDir, canonicalize, resolve_of_parentOf_error entered] at there
        cases there
    rw [way, parentsOf_cons, List.map_append, attempt_append_of_ok (ih .plain parent)]
    simp [attempt, passes]

theorem parentOf_cons_of_error {rest : List Component} {error : IoError}
    (stuck : tree.parentOf links rest = .error error) (component : Component) :
    tree.parentOf links (component :: rest) = .error error := by
  rw [parentOf, lookup, resolve_of_parentOf_error stuck]
  rfl

/-- A directory that can be made is missing. -/
theorem parentOf_of_mkdirAt {path : Path} {target : Location × String}
    (made : tree.mkdirAt links path = .ok target) :
    tree.parentOf links path.components = .error .notFound := by
  obtain ⟨rest, components, entered, vacant, -⟩ := mkdirAt_eq_ok made
  obtain ⟨inside, left, leads⟩ := resolve_of_parentOf_ok entered
  rw [parentOf, lookup, components, leads, resolve_missing inside vacant]
  rfl

/-- Nor on a way that is blocked. -/
theorem attempt_way_of_blocked {components : List Component} {error : IoError}
    (blocked : tree.parentOf links components = .error error) (other : error ≠ .notFound) :
    ∃ reason, tree.attempt ((way ⟨components, .plain⟩).map (makeDirectory links)) =
      (.error reason, tree) := by
  have absent := not_isDir_of_parentOf_error blocked
  induction components generalizing error with
  | nil => exact absurd (isDir_root .plain) absent
  | cons component rest ih =>
    rw [way, parentsOf_cons, List.map_append]
    cases entered : tree.parentOf links rest with
    | error earlier =>
      -- The way to the parent is blocked by the same error.
      have same := parentOf_cons_of_error entered component
      rw [blocked] at same
      cases same
      obtain ⟨reason, stopped⟩ := ih entered other (not_isDir_of_parentOf_error entered)
      exact ⟨reason, attempt_append_of_error stopped _⟩
    | ok parent =>
      -- The parents are there, and the last name is taken or the directory is not writable.
      rw [attempt_append_of_ok (attempt_way_of_isDir (isDir_plain_iff.2 ⟨parent, entered⟩))]
      cases made : tree.mkdirAt links ⟨component :: rest, .plain⟩ with
      | ok target =>
        have missing := parentOf_of_mkdirAt made
        rw [blocked] at missing
        cases missing
        exact absurd rfl other
      | error reason => exact ⟨reason, by simp [attempt, makeDirectory, made, absent]⟩

/-- Without its parent a directory is not made, for the same reason. -/
theorem mkdirAt_of_parentOf_error {component : Component} {rest : List Component} {ending : Ending}
    {error : IoError} (stuck : tree.parentOf links rest = .error error) :
    tree.mkdirAt links ⟨component :: rest, ending⟩ = .error error := by
  unfold mkdirAt
  split
  · rw [parentOf_cons_of_error stuck]
    rfl
  · cases component with
    | up =>
      simp only [stuck]
      rfl
    | name name =>
      simp only [stuck]
      rfl

theorem mkdir_eq_error_iff {path : Path} {error : IoError} :
    tree.mkdir links path = .error error ↔ tree.mkdirAt links path = .error error := by
  unfold mkdir
  cases tree.mkdirAt links path <;> simp [Except.map]

/-- Two calls that end alike, up to what an error says. -/
structure EndsAs (outcome outcome' : Except IoError Unit × FileTree) : Prop where
  tree : outcome.2 = outcome'.2
  ok : outcome.1 = .ok () ↔ outcome'.1 = .ok ()

theorem EndsAs.cases {outcome outcome' : Except IoError Unit × FileTree}
    (alike : EndsAs outcome outcome') :
    (∃ left, outcome = (.ok (), left) ∧ outcome' = (.ok (), left)) ∨
      ∃ error error' left, outcome = (.error error, left) ∧ outcome' = (.error error', left) := by
  obtain ⟨result, left⟩ := outcome
  obtain ⟨result', left'⟩ := outcome'
  obtain ⟨same, ended⟩ := alike
  cases same
  cases result with
  | ok done =>
    cases ended.1 rfl
    exact .inl ⟨left, rfl, rfl⟩
  | error error =>
    cases result' with
    | ok done => cases ended.2 rfl
    | error error' => exact .inr ⟨error, error', left, rfl, rfl⟩

/-- The last step of the way. -/
theorem attempt_makeDirectory (path : Path) :
    tree.attempt [makeDirectory links path] = tree.settle links path (tree.mkdir links path) := by
  rw [attempt, makeDirectory, mkdir]
  cases tree.mkdirAt links path with
  | ok target => rfl
  | error error => cases isDir : tree.isDir links path <;> simp [Except.map, settle, isDir, attempt]

theorem attempt_way_of_parents {path : Path} {left : FileTree}
    (parents : tree.attempt ((parentsOf path.components).map (makeDirectory links)) = (.ok (), left)) :
    tree.attempt ((way path).map (makeDirectory links)) =
      left.settle links path (left.mkdir links path) := by
  rw [way, List.map_append, attempt_append_of_ok parents]
  exact attempt_makeDirectory path

theorem mkdir_root (ending : Ending) :
    tree.mkdir links ⟨[], ending⟩ = .error .alreadyExists := by
  obtain ⟨location, entered⟩ := isDir_plain_iff.1 (isDir_root .plain)
  rw [mkdir_eq_error_iff, mkdirAt, entered]
  split <;> rfl

/-- A directory that fails to be made, but not for want of its parents. -/
theorem attempt_way_of_error {path : Path} {error : IoError}
    (failed : tree.mkdir links path = .error error) (other : error ≠ .notFound) :
    EndsAs (tree.settle links path (.error error))
      (tree.attempt ((way path).map (makeDirectory links))) := by
  rw [settle]
  split
  next there =>
    rw [attempt_way_of_isDir there]
    exact ⟨rfl, Iff.rfl⟩
  next absent =>
    obtain ⟨components, ending⟩ := path
    cases components with
    | nil => exact absurd (isDir_root ending) absent
    | cons component rest =>
      cases entered : tree.parentOf links rest with
      | ok parent =>
        have parents := attempt_way_of_isDir (isDir_plain_iff.2 ⟨parent, entered⟩)
        rw [attempt_way_of_parents parents, failed, settle, if_neg absent]
        exact ⟨rfl, Iff.rfl⟩
      | error earlier =>
        -- The call reports what is wrong with the parent, while the attempts stop further up.
        have same := mkdir_eq_error_iff.1 failed
        rw [mkdirAt_of_parentOf_error entered] at same
        cases same
        obtain ⟨reason, stopped⟩ := attempt_way_of_blocked entered other
        rw [way, parentsOf_cons, List.map_append, attempt_append_of_error stopped]
        exact ⟨rfl, by simp⟩

/-- One level makes what its way makes, if its parents do. -/
theorem createLevel_endsAs {path : Path} {createParents : FileTree → Except IoError Unit × FileTree}
    (parents : path.components ≠ [] → EndsAs (createParents tree)
      (tree.attempt ((parentsOf path.components).map (makeDirectory links)))) :
    EndsAs (tree.createLevel links path createParents)
      (tree.attempt ((way path).map (makeDirectory links))) := by
  unfold createLevel
  split
  next missing =>
    have nested : path.components ≠ [] := by
      intro nothing
      obtain ⟨components, ending⟩ := path
      cases nothing
      rw [mkdir_root] at missing
      cases missing
    rcases (parents nested).cases with
      ⟨left, created, ran⟩ | ⟨error, error', left, created, stopped⟩
    · rw [created, attempt_way_of_parents ran]
      exact ⟨rfl, Iff.rfl⟩
    · rw [created, way, List.map_append, attempt_append_of_error stopped]
      exact ⟨rfl, by simp⟩
  next other =>
    cases made : tree.mkdir links path with
    | error error => exact attempt_way_of_error made fun same => other (same ▸ made)
    | ok after =>
      -- The parent is there, so nothing is made before.
      obtain ⟨target, placed⟩ : ∃ target, tree.mkdirAt links path = .ok target := by
        unfold mkdir at made
        cases placed : tree.mkdirAt links path with
        | ok target => exact ⟨target, rfl⟩
        | error error =>
          rw [placed] at made
          cases made
      obtain ⟨rest, components, entered, -⟩ := mkdirAt_eq_ok placed
      have parents := attempt_way_of_isDir (isDir_plain_iff.2 ⟨_, entered⟩)
      rw [← parentsOf_cons, ← components] at parents
      rw [attempt_way_of_parents parents, made]
      exact ⟨rfl, Iff.rfl⟩

theorem createParents_endsAs {components : List Component} (some : components ≠ []) :
    EndsAs (createParents links components tree)
      (tree.attempt ((parentsOf components).map (makeDirectory links))) := by
  induction components with
  | nil => exact absurd rfl some
  | cons component rest ih => exact createLevel_endsAs ih

/-- `create_dir_all` makes the directories that are missing on the way from the root. -/
theorem createDirAll_endsAs (path : Path) :
    EndsAs (tree.createDirAll links path) (tree.attempt ((way path).map (makeDirectory links))) :=
  createLevel_endsAs createParents_endsAs

theorem sound_makeDirectory (links : Nat) (path : Path) : Sound (makeDirectory links path) := by
  intro tree parent name node called
  unfold makeDirectory at called
  split at called
  next made =>
    cases called
    obtain ⟨rest, -, entered, vacant, -⟩ := mkdirAt_eq_ok made
    exact ⟨(resolve_of_parentOf_ok entered).1, vacant⟩
  · split at called <;> cases called

theorem sound_openFile (links : Nat) (components : List Component) :
    Sound (openFile links components) := by
  intro tree parent name node called
  unfold openFile at called
  split at called
  · split at called <;> cases called
  next led =>
    split at called
    · cases called
      exact vacant_of_resolve led
    · cases called
  · cases called

/-! ### Directories without links -/

/-- Above a location or below it, and so is the parent. -/
theorem beside_of_cons {name : String} {parent base : Location}
    (beside : name :: parent <:+ base ∨ base <:+ name :: parent) :
    parent <:+ base ∨ base <:+ parent := by
  rcases beside with above | below
  · exact .inl ((List.suffix_cons name parent).trans above)
  · rcases List.suffix_cons_iff.1 below with same | inner
    · exact .inl (same ▸ List.suffix_cons name parent)
    · exact .inr inner

/-- Nothing in a directory is a link. -/
def Linkless (tree : FileTree) (base : Location) : Prop :=
  ∀ location absolute target slash, base <:+ location →
    tree.node location ≠ some (.link absolute target slash)

section Linkless

variable {base : Location} (directory : tree.isDirectory base = true) (linkless : tree.Linkless base)

include directory linkless

/-- On the way to the directory, and inside it. -/
theorem solid_of_linkless {location : Location} (beside : location <:+ base ∨ base <:+ location)
    (absolute : Bool) (target : List Component) (slash : Bool) :
    tree.node location ≠ some (.link absolute target slash) := by
  rcases beside with above | below
  · intro link
    have entered := isDirectory_of_suffix directory above
    rw [isDirectory, link] at entered
    cases entered
  · exact linkless location absolute target slash below

/-- The names of a location lead to it, or to where it would be. -/
theorem lookup_of_linkless {name : String} {parent : Location}
    (beside : name :: parent <:+ base ∨ base <:+ name :: parent)
    (entered : tree.parentOf links (parent.map .name) = .ok parent) :
    tree.lookup links ((name :: parent).map .name) = .vacant parent name ∨
      ∃ left, tree.lookup links ((name :: parent).map .name) = .found (name :: parent) left := by
  obtain ⟨inside, left, leads⟩ := resolve_of_parentOf_ok entered
  have solid := solid_of_linkless directory linkless beside
  rw [lookup, List.map_cons, leads]
  rcases resolve_single inside solid with vacant | found
  · exact .inl vacant
  · exact .inr ⟨left, found⟩

theorem parentOf_eq_of_linkless {location reached : Location}
    (beside : location <:+ base ∨ base <:+ location)
    (led : tree.parentOf links (location.map .name) = .ok reached) : reached = location := by
  induction location generalizing reached with
  | nil =>
    have root : tree.isDirectory [] = true := tree.root
    rw [List.map_nil, parentOf, lookup, List.reverse_nil, resolve_nil] at led
    simp only [Bool.false_and, Bool.false_eq_true, if_false, Reached.node, Except.bind, root,
      if_true] at led
    cases led
    rfl
  | cons name parent ih =>
    -- From the root on, each name leads to the location that it names.
    have further := beside_of_cons beside
    cases entered : tree.parentOf links (parent.map .name) with
    | error error =>
      rw [List.map_cons, parentOf_cons_of_error entered] at led
      cases led
    | ok middle =>
      cases ih further entered
      rw [parentOf] at led
      rcases lookup_of_linkless directory linkless beside entered with vacant | ⟨left, found⟩
      · rw [vacant] at led
        cases led
      · simp only [found, Reached.node, Except.bind] at led
        split at led
        · cases led
          rfl
        · cases led

/-- So a directory of that path is made there, if it is made. -/
theorem makeDirectory_of_linkless {location parent : Location} {ending : Ending} {name : String}
    {node : Node} (beside : location <:+ base ∨ base <:+ location)
    (made : makeDirectory links ⟨location.map .name, ending⟩ tree = .place parent name node) :
    base <:+ name :: parent ∧ node = .directory true := by
  unfold makeDirectory at made
  split at made
  next target =>
    cases made
    obtain ⟨rest, components, entered, vacant, -⟩ := mkdirAt_eq_ok target
    cases location with
    | nil => cases components
    | cons last above =>
      cases components
      have same := parentOf_eq_of_linkless directory linkless (beside_of_cons beside) entered
      subst same
      rcases beside with above | below
      · -- What is above the directory is there already.
        have there := isDirectory_of_suffix directory above
        rw [isDirectory, vacant] at there
        cases there
      · exact ⟨below, rfl⟩
  · split at made <;> cases made

/-- And so is a file inside. -/
theorem openFile_of_linkless {location parent : Location} {name last : String}
    {node : Node} (below : base <:+ location)
    (opened : openFile links ((last :: location).map .name) tree = .place parent name node) :
    base <:+ name :: parent ∧ node = .file true := by
  have inside : base <:+ last :: location := below.trans (List.suffix_cons last location)
  unfold openFile at opened
  split at opened
  · split at opened <;> cases opened
  next led =>
    split at opened
    · cases opened
      cases entered : tree.parentOf links (location.map .name) with
      | error error =>
        rw [lookup, List.map_cons, resolve_of_parentOf_error entered] at led
        cases led
      | ok reached =>
        cases parentOf_eq_of_linkless directory linkless (.inr below) entered
        rcases lookup_of_linkless directory linkless (.inr inside) entered with vacant | ⟨left, found⟩
        · rw [vacant] at led
          cases led
          exact ⟨inside, rfl⟩
        · rw [found] at led
          cases led
    · cases opened
  · cases opened

end Linkless

/-- What the directories and files of calls keep, if they put nothing elsewhere. -/
theorem linkless_place {base parent : Location} {name : String} {node : Node}
    (linkless : tree.Linkless base)
    (solid : ∀ absolute target slash, node ≠ .link absolute target slash) :
    (tree.place parent name node).Linkless base := by
  intro location absolute target slash below
  unfold place
  split
  · by_cases same : location = name :: parent
    · simp [same, solid absolute target slash]
    · simpa [same] using linkless location absolute target slash below
  · exact linkless location absolute target slash below

/-- Calls that keep an invariant and put nodes only where they may be while it holds. -/
theorem stays_of_invariant {allowed : Location → Prop} (invariant : FileTree → Prop)
    {calls : List (FileTree → Attempt)}
    (keeps : ∀ call ∈ calls, ∀ tree, invariant tree → ∀ parent name node,
      call tree = .place parent name node →
        allowed (name :: parent) ∧ invariant (tree.place parent name node))
    (initial : invariant tree) :
    Stays allowed tree calls ∧ invariant (tree.attempt calls).2 := by
  induction calls generalizing tree with
  | nil => exact ⟨trivial, initial⟩
  | cons call rest ih =>
    have others := fun other member => keeps other (List.mem_cons_of_mem _ member)
    rw [Stays, attempt]
    cases called : call tree with
    | pass => exact ih others initial
    | stop error => exact ⟨trivial, initial⟩
    | place parent name node =>
      obtain ⟨here, kept⟩ := keeps call List.mem_cons_self tree initial parent name node called
      obtain ⟨stays, holds⟩ := ih others kept
      exact ⟨⟨here, stays⟩, holds⟩

theorem mem_parentsOf {components : List Component} {path : Path}
    (listed : path ∈ parentsOf components) :
    ∃ rest, path = ⟨rest, .plain⟩ ∧ rest <:+ components := by
  induction components with
  | nil => cases listed
  | cons component rest ih =>
    rcases List.mem_append.1 listed with further | here
    · obtain ⟨above, same, suffix⟩ := ih further
      exact ⟨above, same, suffix.trans (List.suffix_cons component rest)⟩
    · cases List.mem_singleton.1 here
      exact ⟨rest, rfl, List.suffix_cons component rest⟩

/-- The paths on the way to the names of a location are the names of locations above it. -/
theorem mem_way {location : Location} {ending : Ending} {path : Path}
    (listed : path ∈ way ⟨location.map .name, ending⟩) :
    ∃ above ending, path = ⟨above.map .name, ending⟩ ∧ above <:+ location := by
  rcases List.mem_append.1 listed with parent | last
  · obtain ⟨rest, rfl, suffix⟩ := mem_parentsOf parent
    obtain ⟨above, inner, rfl⟩ := List.suffix_map_iff.1 suffix
    exact ⟨above, .plain, rfl, inner⟩
  · cases List.mem_singleton.1 last
    exact ⟨location, ending, rfl, List.suffix_refl location⟩

end Foundation.FileTree
