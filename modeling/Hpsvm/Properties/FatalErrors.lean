import Hpsvm.Errors

/-!
# Fatal errors along conversions

Whether an error is fatal is to survive its conversions between the layers. A conversion never makes a
fatal error harmless. It makes a harmless one fatal where it erases the layer: into `AnyError`,
`HandlerError` or a box, and from the load, transaction and host layers into `HPSVMError`, from which
only the execution and database layers come back as what they were.
-/

namespace Hpsvm.Layers

/-- The conversions after which the classification of a layer cannot be recovered. -/
def Kind.erases (source target : Kind) : Bool :=
  source != target && match target with
    | .any | .handler | .boxed => true
    | .hpsvm => [Kind.load, .tx, .host].contains source
    | _ => false

def Kind.erasesAlong (source : Kind) : List Kind → Bool
  | [] => false
  | target :: path => source.erases target || target.erasesAlong path

/-- The classification that an error has once it is an `ExecutionError` again. -/
def Error.fate : Error → Bool
  | .db error => error.isFatal
  | .load error => error.isFatal
  | .txValidation _ => false
  | .execution error => error.isFatal
  | .tx error => error.isFatal
  | .host error => error.isFatal
  | .hpsvm error => (ExecutionError.ofHpsvm error).isFatal
  | .any _ => true
  | .handler _ => true
  | .boxed _ => true

namespace Error

variable {display : Error → String} {error next : Error} {target : Kind} {path : List Kind}

theorem fate_of_isFatal {fatal : Bool} (layer : error.isFatal = some fatal) :
    error.fate = fatal := by
  cases error <;> simp_all [isFatal, fate]

theorem kind_of_into (converted : error.into display target = some next) : next.kind = target := by
  unfold into at converted
  split at converted
  next same =>
    cases converted
    exact same
  · split at converted <;> cases converted <;> rfl

/-- An execution error keeps its classification in `HPSVMError`. -/
theorem isFatal_ofHpsvm_ofExecution (error : ExecutionError) :
    (ExecutionError.ofHpsvm (.ofExecution error)).isFatal = error.isFatal := by
  cases error <;> rfl

/-- A transaction error has no variant that comes back. -/
theorem isFatal_ofHpsvm_ofTx (error : TxError) :
    (ExecutionError.ofHpsvm (.ofTx error)).isFatal = true := by
  cases error <;> rfl

/-- One conversion: a fatal error stays so, and a harmless one becomes fatal where it is erased. -/
theorem fate_into (converted : error.into display target = some next) :
    next.fate = (error.fate || error.kind.erases target) := by
  unfold into at converted
  split at converted
  next same =>
    cases converted
    simp [Kind.erases, same]
  next differ =>
    -- One case for each implementation of `From`.
    split at converted
    case h_3 => cases converted; simp [fate, kind, Kind.erases, isFatal_ofHpsvm_ofExecution]
    case h_4 => cases converted; simp [fate, kind, Kind.erases, isFatal_ofHpsvm_ofTx]
    case h_19 =>
      cases converted
      have erased : error.kind.erases .boxed = true := by simp [Kind.erases, differ]
      rw [erased, Bool.or_true]
      rfl
    all_goals cases converted
    all_goals
      simp [fate, kind, Kind.erases, ExecutionError.ofHpsvm, ExecutionError.isFatal, TxError.isFatal,
        HostError.isFatal]

theorem fate_follow {final : Error} (done : error.follow display path = some final) :
    final.fate = (error.fate || error.kind.erasesAlong path) := by
  induction path generalizing error with
  | nil =>
    cases done
    simp [Kind.erasesAlong]
  | cons target path ih =>
    obtain ⟨next, converted, rest⟩ := Option.bind_eq_some_iff.1 done
    rw [ih rest, fate_into converted, kind_of_into converted, Bool.or_assoc]
    rfl

end Error

/-- Along a chain of conversions from one layer to another the classification is kept exactly if the
error was fatal to begin with or no conversion of the chain erases its layer. -/
theorem fatal_classification_kept_iff (display : Error → String) (error final : Error)
    (path : List Kind) (layer : error.isFatal.isSome) (back : final.isFatal.isSome)
    (done : error.follow display path = some final) :
    final.isFatal = error.isFatal ↔
      error.isFatal = some true ∨ error.kind.erasesAlong path = false := by
  obtain ⟨before, fatal⟩ := Option.isSome_iff_exists.1 layer
  obtain ⟨after, fatal'⟩ := Option.isSome_iff_exists.1 back
  have along := Error.fate_follow done
  rw [Error.fate_of_isFatal fatal, Error.fate_of_isFatal fatal'] at along
  rw [fatal, fatal', along]
  cases before <;> cases error.kind.erasesAlong path <;> simp

namespace Sample

/-- A program that failed to load, for a reason that is not fatal. -/
def loadFailure : Error := .load (.program (.mk (.instruction .invalidAccountData) false))

/-- A database error keeps its classification on the way through the outer error and back into every
layer. -/
theorem database_error_kept :
    ∃ final, (Error.db (.mk (.io "no such file") false)).follow (fun _ => "")
        [.hpsvm, .execution, .hpsvm, .execution, .host] = some final ∧
      final.isFatal = some false := by
  refine ⟨_, rfl, ?_⟩
  exact (fatal_classification_kept_iff (fun _ => "") (.db (.mk (.io "no such file") false)) _
    [.hpsvm, .execution, .hpsvm, .execution, .host] rfl rfl rfl).2 (.inr (by decide))

/-- The failure is fatal once it has been through the outer error. -/
theorem load_error_becomes_fatal :
    loadFailure.isFatal = some false ∧
      ∃ final, loadFailure.follow (fun _ => "") [.hpsvm, .execution] = some final ∧
        final.isFatal = some true :=
  ⟨rfl, _, rfl, rfl⟩

end Sample

end Hpsvm.Layers
