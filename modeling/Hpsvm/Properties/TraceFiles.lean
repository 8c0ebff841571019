import Hpsvm.RegisterTracing
import Hpsvm.SampleRuntime

/-!
# Where register traces go

The handler compares the trace directory with the working directory only if the trace directory is
there already, and then with the working directory as `current_dir` spells it. What is not there is
made, wherever the path leads: a directory beside the working directory is created by the first trace
and rejected from the second on.
-/

namespace Hpsvm

open Foundation

namespace DefaultRegisterTracingCallback

variable (callback : DefaultRegisterTracingCallback) (host : TraceHost)
  (invocation : TracedInvocation)

/-- The files that come after the first ones, if the program is known. -/
def laterFiles : List (List Component) :=
  match invocation.programKey with
  | .error _ => []
  | .ok programId => callback.programFiles host invocation programId

/-- Everything that a trace needs, in the order it is needed: the directories on the way from the root,
then the files. -/
def entries : List (FileTree → FileTree.Attempt) :=
  (FileTree.way (callback.traceDir host)).map (FileTree.makeDirectory host.links) ++
    (callback.firstFiles host invocation ++ callback.laterFiles host invocation).map
      (FileTree.openFile host.links)

theorem sound_entries : ∀ call ∈ callback.entries host invocation, FileTree.Sound call := by
  intro call listed
  rcases List.mem_append.1 listed with directory | file
  · obtain ⟨path, -, rfl⟩ := List.mem_map.1 directory
    exact FileTree.sound_makeDirectory host.links path
  · obtain ⟨components, -, rfl⟩ := List.mem_map.1 file
    exact FileTree.sound_openFile host.links components

/-- Persisting a trace attempts what it needs, and refuses no directory. -/
theorem persist_spec (tree : FileTree) :
    (callback.persist host invocation tree).2 =
        (tree.attempt (callback.entries host invocation)).2 ∧
      ∀ canonical, (callback.persist host invocation tree).1 ≠ .error (.outside canonical) := by
  rw [entries, List.map_append]
  rcases (FileTree.createDirAll_endsAs (callback.traceDir host)).cases with
    ⟨left, made, way⟩ | ⟨error, error', left, made, stopped⟩
  · -- The directories are there, and the files are opened up to the first that cannot be.
    rw [FileTree.attempt_append_of_ok way]
    cases first : left.attempt
        ((callback.firstFiles host invocation).map (FileTree.openFile host.links)) with
    | mk result opened =>
      cases result with
      | error error =>
        rw [FileTree.attempt_append_of_error first]
        simp [persist, made, first]
      | ok done =>
        rw [FileTree.attempt_append_of_ok first, laterFiles]
        cases key : invocation.programKey with
        | error error => simp [persist, made, first, key, FileTree.attempt]
        | ok programId =>
          cases later : opened.attempt ((callback.programFiles host invocation programId).map
              (FileTree.openFile host.links)) with
          | mk result left => cases result <;> simp [persist, made, first, key, later]
  · rw [FileTree.attempt_append_of_error stopped]
    simp [persist, made]

/-- The working directory encloses what a trace creates, and the trace is not refused a directory in
it. -/
structure Contained (tree : FileTree) (working : Location) : Prop where
  created : ∀ location, FileTree.Created tree (callback.handler host invocation tree).2 location →
    working <:+ location
  accepted : ∀ canonical,
    (callback.handler host invocation tree).1 = .error (.outside canonical) →
      tree.isDirectory canonical = true → ¬ working <:+ canonical

/-- Something is traced, to a directory that has a path. -/
def Persists : Prop :=
  invocation.registerTrace.isEmpty = false ∧ callback.sbfTraceDir.toList.contains '\x00' = false

/-- The trace directory, if it is there, passes the comparison with `current_dir`. -/
def Passes (tree : FileTree) : Prop :=
  ∀ canonical, tree.canonicalize host.links (callback.traceDir host) = .ok canonical →
    Path.StartsWith canonical host.currentDir

/-- A trace directory inside the working directory is spelled from `current_dir` on, and unless the
comparison fails everything that is missing on the way of a trace is inside. -/
structure KeepsInside (tree : FileTree) (working : Location) : Prop where
  spelled : ∀ canonical, tree.canonicalize host.links (callback.traceDir host) = .ok canonical →
    tree.isDirectory canonical = true → working <:+ canonical →
      Path.StartsWith canonical host.currentDir
  missing : callback.Passes host tree →
    FileTree.Stays (fun location => working <:+ location) tree (callback.entries host invocation)

/-- The outcome of the handler, by what its checks find. -/
theorem handler_cases (tree : FileTree) :
    (¬ callback.Persists invocation ∧ (callback.handler host invocation tree).2 = tree ∧
      ∀ canonical, (callback.handler host invocation tree).1 ≠ .error (.outside canonical)) ∨
    (callback.Persists invocation ∧ callback.Passes host tree ∧
      callback.handler host invocation tree = callback.persist host invocation tree) ∨
    (callback.Persists invocation ∧ ∃ canonical,
      tree.canonicalize host.links (callback.traceDir host) = .ok canonical ∧
        ¬ Path.StartsWith canonical host.currentDir ∧
        callback.handler host invocation tree = (.error (.outside canonical), tree)) := by
  unfold handler Persists Passes
  cases nothing : invocation.registerTrace.isEmpty with
  | true => exact .inl ⟨by simp, rfl, fun canonical equal => by cases equal⟩
  | false =>
    cases nul : callback.sbfTraceDir.toList.contains '\x00' with
    | true => exact .inl ⟨by simp, rfl, fun canonical equal => by cases equal⟩
    | false =>
      cases there : tree.canonicalize host.links (callback.traceDir host) with
      -- A directory that cannot be resolved, be it missing, is compared with nothing.
      | error error => exact .inr (.inl ⟨⟨rfl, rfl⟩, by simp, rfl⟩)
      | ok canonical =>
        by_cases starts : Path.StartsWith canonical host.currentDir
        · refine .inr (.inl ⟨⟨rfl, rfl⟩, fun other equal => ?_, ?_⟩)
          · cases equal
            exact starts
          · simp [starts]
        · exact .inr (.inr ⟨⟨rfl, rfl⟩, canonical, rfl, starts, by simp [starts]⟩)

theorem contained_iff (tree : FileTree) (working : Location) :
    callback.Contained host invocation tree working ↔
      (callback.Persists invocation → callback.KeepsInside host invocation tree working) := by
  rcases callback.handler_cases host invocation tree with
    ⟨skips, same, never⟩ | ⟨persists, passes, handled⟩ | ⟨persists, canonical, there, differs, handled⟩
  · -- Nothing is traced.
    refine iff_of_true ⟨?_, ?_⟩ fun persists => absurd persists skips
    · rw [same]
      exact fun location created => absurd created FileTree.not_created_self
    · intro canonical rejected
      exact absurd rejected (never canonical)
  · -- The trace is persisted, so it creates what its attempts put.
    obtain ⟨same, never⟩ := callback.persist_spec host invocation tree
    have stays : (∀ location, FileTree.Created tree
        (tree.attempt (callback.entries host invocation)).2 location → working <:+ location) ↔
        FileTree.Stays (fun location => working <:+ location) tree
          (callback.entries host invocation) :=
      FileTree.created_attempt_iff _ (callback.sound_entries host invocation)
    rw [← same, ← handled] at stays
    constructor
    · intro contained _
      refine ⟨fun canonical there _ _ => passes canonical there, fun _ => ?_⟩
      exact stays.1 contained.created
    · intro keeps
      refine ⟨stays.2 ((keeps persists).missing passes), fun canonical rejected => ?_⟩
      rw [handled] at rejected
      exact absurd rejected (never canonical)
  · -- The directory is rejected, and nothing is created.
    constructor
    · intro contained _
      refine ⟨fun other found directory inside => ?_, fun passes => ?_⟩
      · rw [there] at found
        cases found
        exact absurd inside (contained.accepted canonical (by rw [handled]) directory)
      · exact absurd (passes canonical there) differs
    · intro keeps
      refine ⟨?_, ?_⟩
      · rw [handled]
        exact fun location created => absurd created FileTree.not_created_self
      · intro other rejected directory inside
        rw [handled] at rejected
        cases rejected
        exact differs ((keeps persists).spelled canonical there directory inside)

/-- The working directory is there and holds no link. -/
def Plain (working : Location) (tree : FileTree) : Prop :=
  tree.isDirectory working = true ∧ tree.Linkless working

theorem Plain.place {working parent : Location} {tree : FileTree} {name : String} {node : Node}
    (plain : Plain working tree)
    (solid : ∀ absolute target slash, node ≠ .link absolute target slash) :
    Plain working (tree.place parent name node) :=
  ⟨FileTree.isDirectory_place plain.1, FileTree.linkless_place plain.2 solid⟩

variable {callback host invocation}

/-- A trace directory that is named from the working directory on. -/
structure NamedBelow (working : Location) (callback : DefaultRegisterTracingCallback)
    (host : TraceHost) : Prop where
  currentDir : host.currentDir.components = working.map .name
  traceDir : ∃ names, (callback.traceDir host).components = (names ++ working).map .name

theorem mem_files {components : List Component}
    (listed : components ∈ callback.firstFiles host invocation ++ callback.laterFiles host invocation) :
    ∃ extension, components = callback.traceFile host invocation extension := by
  rcases List.mem_append.1 listed with first | later
  · simp only [firstFiles, List.mem_cons, List.not_mem_nil, or_false] at first
    rcases first with rfl | rfl | rfl
    · exact ⟨"regs", rfl⟩
    · exact ⟨"insns", rfl⟩
    · exact ⟨"program_id", rfl⟩
  · unfold laterFiles programFiles at later
    split at later
    · cases later
    · rcases List.mem_append.1 later with trace | hash
      · split at trace
        · cases List.mem_singleton.1 trace
          exact ⟨"trace", rfl⟩
        · cases trace
      · split at hash
        · cases List.mem_singleton.1 hash
          exact ⟨"exec.sha256", rfl⟩
        · cases hash

theorem entries_plain {working : Location} (named : NamedBelow working callback host)
    {call : FileTree → FileTree.Attempt} (listed : call ∈ callback.entries host invocation)
    {tree : FileTree} (plain : Plain working tree) {parent : Location} {name : String} {node : Node}
    (placed : call tree = .place parent name node) :
    working <:+ name :: parent ∧ Plain working (tree.place parent name node) := by
  obtain ⟨names, spelled⟩ := named.traceDir
  have below : working <:+ names ++ working := List.suffix_append names working
  rcases List.mem_append.1 listed with directory | file
  · obtain ⟨path, onWay, rfl⟩ := List.mem_map.1 directory
    cases dir : callback.traceDir host with
    | mk components ending =>
      rw [dir] at spelled onWay
      cases spelled
      obtain ⟨above, ending', rfl, suffix⟩ := FileTree.mem_way onWay
      obtain ⟨inside, rfl⟩ := FileTree.makeDirectory_of_linkless plain.1 plain.2
        (List.suffix_or_suffix_of_suffix suffix below) placed
      exact ⟨inside, plain.place (by simp)⟩
  · obtain ⟨components, among, rfl⟩ := List.mem_map.1 file
    obtain ⟨extension, rfl⟩ := mem_files among
    rw [traceFile, spelled] at placed
    obtain ⟨inside, rfl⟩ := FileTree.openFile_of_linkless plain.1 plain.2 below placed
    exact ⟨inside, plain.place (by simp)⟩

theorem keepsInside_of_plain {working : Location} (named : NamedBelow working callback host)
    {tree : FileTree} (plain : Plain working tree) :
    callback.KeepsInside host invocation tree working := by
  refine ⟨?_, ?_⟩
  · intro canonical _ _ inside
    unfold Path.StartsWith
    rw [named.currentDir]
    exact inside.map Component.name
  · intro _
    exact (FileTree.stays_of_invariant (Plain working) (fun call listed tree plain parent name node
      placed => entries_plain named listed plain placed) plain).1

theorem plain_handler {working : Location} (named : NamedBelow working callback host)
    {tree : FileTree} (plain : Plain working tree) :
    Plain working (callback.handler host invocation tree).2 := by
  rcases callback.handler_cases host invocation tree with
    ⟨-, same, -⟩ | ⟨-, -, handled⟩ | ⟨-, canonical, -, -, handled⟩
  · rw [same]
    exact plain
  · rw [handled, (callback.persist_spec host invocation tree).1]
    exact (FileTree.stays_of_invariant (Plain working) (fun call listed tree plain parent name node
      placed => entries_plain named listed plain placed) plain).2
  · rw [handled]
    exact plain

/-- Traces to a directory below the working directory, which `current_dir` spells as it is, stay inside
as long as the working directory holds no link. -/
theorem contained_of_plain {working : Location} (named : NamedBelow working callback host)
    {tree : FileTree} (plain : Plain working tree) (before : List TracedInvocation)
    (invocation : TracedInvocation) :
    callback.Contained host invocation (callback.traceAll host before tree) working := by
  induction before generalizing tree with
  | nil => exact (callback.contained_iff host invocation tree working).2 fun _ =>
      keepsInside_of_plain named plain
  | cons first rest ih => exact ih (plain_handler named plain)

/-- The default directory is one. -/
theorem namedBelow_default {working : Location}
    (spelled : host.currentDir.components = working.map .name) (disassemble : Bool) :
    NamedBelow working ⟨defaultTracePath, disassemble⟩ host := by
  refine ⟨spelled, ["trace", "sbf", "target"], ?_⟩
  have names : (Path.segments defaultTracePath.toList).reverse.filterMap Path.component =
      [.name "trace", .name "sbf", .name "target"] := by decide
  have relative : defaultTracePath.toList.head? ≠ some '/' := by decide
  simp [traceDir, Path.join, names, relative, spelled]

end DefaultRegisterTracingCallback

namespace Sample

/-- A working directory, and a link to it beside it. -/
def workTree : FileTree :=
  (FileTree.empty.place [] "work" (.directory true)).place [] "link" (.link false [.name "work"] false)

/-- A process in the directory of the given name. -/
def traceHost (name : String) : TraceHost := ⟨40, fun _ => "0123456789abcdef", ⟨[.name name], .plain⟩⟩

def tracedCall : TracedInvocation := ⟨[[0]], .ok 0x50, accounts [] .empty⟩

end Sample

end Hpsvm
