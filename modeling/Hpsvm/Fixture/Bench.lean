import Hpsvm.Fixture.Runner

/-!
# Compute-unit benchmarks

The bencher of a set of fixtures (`single.rs` of the bench crate) and the report it writes and reads
back as a baseline (`report.rs`).
-/

namespace Hpsvm

/-! ### Reports -/

/-- `CuDelta`. The percentage is an `f64`. -/
structure CuDelta where
  absolute : Int
  percent : Float

structure CuReportRow where
  name : String
  computeUnits : Nat
  delta : Option CuDelta
  pass : Bool

structure CuReport where
  generatedAt : String
  solanaRuntimeVersion : String
  rows : List CuReportRow

namespace CuDelta

/-- `CuDelta::between`. The difference is saturated to an `i64`. -/
def between (baseline current : Nat) : CuDelta :=
  let difference : Int := current - baseline
  let absolute :=
    if -2 ^ 63 ≤ difference ∧ difference < 2 ^ 63 then difference
    else if baseline ≤ current then 2 ^ 63 - 1 else -2 ^ 63
  let percent :=
    if baseline = 0 then if current = 0 then 0.0 else 100.0
    else Float.ofInt absolute / Float.ofNat baseline * 100.0
  ⟨absolute, percent⟩

end CuDelta

/-- `BenchError`, with the variants of the bencher of single fixtures. -/
inductive BenchError
  | missingCases
  | fixture (name : String) (source : FixtureError)
  | expectationFailed (name : String)
  | createOutputDir (path source : String)
  | writeReport (path source : String)
  | readBaseline (path source : String)
  | invalidBaseline (path reason : String)
deriving DecidableEq, Repr

/-! ### Report files -/

inductive ReadFailure
  | notFound
  | other (reason : String)
deriving DecidableEq, Repr

/-- The file system: what reading a file gives, and whether directories and files can be written. -/
structure ReportFiles where
  read : String → Except ReadFailure (List UInt8)
  allowsDir : String → Except String Unit
  allows : String → Except String Unit

/-- `std::fs::write`. -/
def ReportFiles.write (files : ReportFiles) (path : String) (contents : List UInt8) :
    Except String ReportFiles :=
  match files.allows path with
  | .error reason => .error reason
  | .ok () => .ok { files with read := Function.update files.read path (.ok contents) }

/-- What a bencher takes from its surroundings. -/
structure BenchHost where
  -- `serde_json` on a `CuReport`.
  toVecPretty : CuReport → Except String (List UInt8)
  fromSlice : List UInt8 → Except String CuReport
  -- `{:+.2}` on an `f64`.
  formatPercent : Float → String
  generatedAt : String
  solanaRuntimeVersion : String
  -- The addresses that `Address::new_unique` answers.
  unique : Nat → Address

def reportPath (dir file : String) : String := dir ++ "/" ++ file

def baselineReportFileName : String := "cu-report.baseline.json"

def markdownReportFileName : String := "cu-report.md"

abbrev BaselineMap := Std.ExtTreeMap String Nat

namespace CuReport

/-- The loop of `load_baseline_rows`. -/
def insertBaselineRows (path : String) : BaselineMap → List CuReportRow → Except BenchError BaselineMap
  | rows, [] => .ok rows
  | rows, row :: rest =>
    if rows.contains row.name then
      .error (.invalidBaseline path ("duplicate baseline row `" ++ row.name ++ "`"))
    else insertBaselineRows path (rows.insert row.name row.computeUnits) rest

def loadBaselineRows (host : BenchHost) (files : ReportFiles) (dir : String) :
    Except BenchError BaselineMap :=
  let path := reportPath dir baselineReportFileName
  match files.read path with
  | .error .notFound => .ok ∅
  | .error (.other source) => .error (.readBaseline path source)
  | .ok bytes =>
    match host.fromSlice bytes with
    | .error reason => .error (.invalidBaseline path reason)
    | .ok report => insertBaselineRows path ∅ report.rows

def baselineMap (host : BenchHost) (files : ReportFiles) : Option String → Except BenchError BaselineMap
  | none => .ok ∅
  | some dir => loadBaselineRows host files dir

def escapeMarkdownCell (value : String) : String :=
  (value.replace "\\" "\\\\").replace "|" "\\|"

def formatDelta (host : BenchHost) : Option CuDelta → String
  | none => "n/a"
  | some delta =>
    (if 0 ≤ delta.absolute then "+" else "") ++ toString delta.absolute ++
      " (" ++ host.formatPercent delta.percent ++ "%)"

def renderTable (host : BenchHost) (report : CuReport) : String :=
  report.rows.foldl (fun markdown row =>
      markdown ++ "| " ++ escapeMarkdownCell row.name ++ " | " ++ toString row.computeUnits ++ " | " ++
        formatDelta host row.delta ++ " | " ++ (if row.pass then "PASS" else "FAIL") ++ " |\n")
    "| Name | Compute Units | Delta | Pass |\n| --- | ---: | --- | --- |\n"

def renderMarkdown (host : BenchHost) (report : CuReport) : String :=
  "# Compute Unit Report\n\n" ++ "Generated at: " ++ report.generatedAt ++ "\n" ++
    "Solana runtime version: " ++ report.solanaRuntimeVersion ++ "\n\n" ++ report.renderTable host

/-- `write_report`. A failed write leaves what was written before it. -/
def writeReport (host : BenchHost) (report : CuReport) (files : ReportFiles) (dir : String) :
    Except BenchError Unit × ReportFiles :=
  match files.allowsDir dir with
  | .error source => (.error (.createOutputDir dir source), files)
  | .ok () =>
    let baselinePath := reportPath dir baselineReportFileName
    match host.toVecPretty report with
    | .error reason => (.error (.invalidBaseline baselinePath reason), files)
    | .ok baseline =>
      match files.write baselinePath baseline with
      | .error source => (.error (.writeReport baselinePath source), files)
      | .ok files =>
        let markdownPath := reportPath dir markdownReportFileName
        match files.write markdownPath (report.renderMarkdown host).toUTF8.toList with
        | .error source => (.error (.writeReport markdownPath source), files)
        | .ok files => (.ok (), files)

def writeToDir (host : BenchHost) (report : CuReport) (files : ReportFiles) :
    Option String → Except BenchError Unit × ReportFiles
  | none => (.ok (), files)
  | some dir => report.writeReport host files dir

end CuReport

/-! ### The bencher -/

/-- `Fixture::programs`. -/
def Fixture.programs (fixture : Fixture) : List ProgramBinding :=
  match fixture.input with
  | .transaction transaction => transaction.programs
  | .instruction instruction => instruction.programs

/-- `with_fixture_programs`. -/
def FixtureRunner.withFixturePrograms (elfs : AddressMap (List UInt8)) (runner : FixtureRunner) :
    List ProgramBinding → Except FixtureError FixtureRunner
  | [] => .ok runner
  | binding :: rest =>
    match elfs[binding.programId]? with
    | none => .error (.missingProgramElf binding.programId)
    | some elf => withFixturePrograms elfs (runner.withProgramElf binding.programId elf) rest

structure ComputeUnitBencher where
  vm : Svm
  cases : List (String × Fixture)
  mustPass : Bool
  baselineDir : Option String
  outputDir : Option String
  programElfs : AddressMap (List UInt8)

namespace ComputeUnitBencher

variable (agave : Agave) (texts : ErrorTexts) (codec : Codec) (host : BenchHost)

/-- The row of one case, and the runner its run leaves; `none` is a panic. -/
def runCase (bencher : ComputeUnitBencher) (baselines : BaselineMap) (runner : FixtureRunner)
    (name : String) (fixture : Fixture) (unique : Address) :
    Option (Except BenchError (CuReportRow × FixtureRunner)) :=
  match runner.withFixturePrograms bencher.programElfs fixture.programs with
  | .error source => some (.error (.fixture name source))
  | .ok runner =>
    match runner.run agave texts codec fixture unique with
    | none => none
    | some (.error source, _) => some (.error (.fixture name source))
    | some (.ok execution, runner) =>
      (execution.snapshot.compareWith agave fixture.expectations.baseline ⟨false, true⟩
        fixture.expectations.compares).map fun pass =>
        if bencher.mustPass && !pass then .error (.expectationFailed name)
        else
          let computeUnits := execution.snapshot.computeUnitsConsumed
          .ok (⟨name, computeUnits,
            baselines[name]?.map fun baseline => .between baseline computeUnits, pass⟩, runner)

/-- The loop over the cases, of which `done` have run. -/
def runCases (bencher : ComputeUnitBencher) (baselines : BaselineMap) :
    Nat → FixtureRunner → List (String × Fixture) → Option (Except BenchError (List CuReportRow))
  | _, _, [] => some (.ok [])
  | done, runner, (name, fixture) :: rest =>
    match bencher.runCase agave texts codec baselines runner name fixture (host.unique done) with
    | none => none
    | some (.error error) => some (.error error)
    | some (.ok (row, runner)) =>
      (bencher.runCases baselines (done + 1) runner rest).map fun rows =>
        rows.map fun rows => row :: rows

def execute (bencher : ComputeUnitBencher) (files : ReportFiles) :
    Option (Except BenchError CuReport × ReportFiles) :=
  if bencher.cases.isEmpty then some (.error .missingCases, files)
  else match CuReport.baselineMap host files bencher.baselineDir with
    | .error error => some (.error error, files)
    | .ok baselines =>
      (bencher.runCases agave texts codec host baselines 0 (.new bencher.vm) bencher.cases).map fun
        | .error error => (.error error, files)
        | .ok rows =>
          let report : CuReport := ⟨host.generatedAt, host.solanaRuntimeVersion, rows⟩
          match report.writeToDir host files bencher.outputDir with
          | (.error error, files) => (.error error, files)
          | (.ok (), files) => (.ok report, files)

end ComputeUnitBencher

end Hpsvm
