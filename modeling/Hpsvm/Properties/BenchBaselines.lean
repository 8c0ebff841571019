import Hpsvm.Fixture.Bench
import Hpsvm.SampleRuntime

/-!
# Reports as baselines

A bencher writes one row for each of its cases, under whatever names the cases have. Reading a report
back as a baseline refuses two rows of one name. So a report is of use as a baseline exactly if its
cases had different names.
-/

namespace Hpsvm

namespace CuReport

/-! ### Reading rows -/

/-- The compute units of the first row of that name. -/
def unitsOf (rows : List CuReportRow) (name : String) : Option Nat :=
  (rows.find? fun row => row.name == name).map CuReportRow.computeUnits

theorem unitsOf_cons (row : CuReportRow) (rest : List CuReportRow) (name : String) :
    unitsOf (row :: rest) name =
      if row.name = name then some row.computeUnits else unitsOf rest name := by
  unfold unitsOf
  rw [List.find?_cons]
  by_cases same : row.name = name
  · simp [same]
  · rw [if_neg same, beq_false_of_ne same]

theorem BaselineMap.getElem?_insert (rows : BaselineMap) (name other : String) (units : Nat) :
    (rows.insert name units)[other]? = if name = other then some units else rows[other]? := by
  rw [Std.ExtTreeMap.getElem?_insert]
  simp

/-- Rows are read in if each has a name of its own, and then the map holds their compute units. -/
theorem insertBaselineRows_of_nodup (path : String) {rows : List CuReportRow} (read : BaselineMap)
    (distinct : (rows.map CuReportRow.name).Nodup) (fresh : ∀ row ∈ rows, read[row.name]? = none) :
    ∃ map, insertBaselineRows path read rows = .ok map ∧
      ∀ name : String, map[name]? = (unitsOf rows name).or read[name]? := by
  induction rows generalizing read with
  | nil => exact ⟨read, rfl, fun name => by simp [unitsOf]⟩
  | cons row rest ih =>
    rw [List.map_cons, List.nodup_cons] at distinct
    have new : read[row.name]? = none := fresh row List.mem_cons_self
    have later : ∀ other ∈ rest, (read.insert row.name row.computeUnits)[other.name]? = none := by
      intro other member
      have differ : row.name ≠ other.name := fun same =>
        distinct.1 (List.mem_map.2 ⟨other, member, same.symm⟩)
      rw [BaselineMap.getElem?_insert, if_neg differ]
      exact fresh other (List.mem_cons_of_mem _ member)
    obtain ⟨map, inserted, entries⟩ := ih _ distinct.2 later
    refine ⟨map, ?_, ?_⟩
    · rw [insertBaselineRows, Std.ExtTreeMap.contains_eq_isSome_getElem?, new]
      exact inserted
    · intro name
      rw [entries, BaselineMap.getElem?_insert]
      by_cases same : row.name = name
      · -- No later row has the name of this one.
        have absent : unitsOf rest name = none := by
          rw [unitsOf, Option.map_eq_none_iff, List.find?_eq_none]
          intro other member equal
          exact distinct.1 (List.mem_map.2 ⟨other, member, (eq_of_beq equal).trans same.symm⟩)
        rw [absent, unitsOf_cons, if_pos same, if_pos same, Option.none_or, Option.some_or]
      · rw [unitsOf_cons, if_neg same, if_neg same]

/-- Only such rows are read in. -/
theorem nodup_of_insertBaselineRows {path : String} {rows : List CuReportRow} {read map : BaselineMap}
    (inserted : insertBaselineRows path read rows = .ok map) :
    (rows.map CuReportRow.name).Nodup ∧ ∀ row ∈ rows, read[row.name]? = none := by
  induction rows generalizing read with
  | nil => exact ⟨List.nodup_nil, nofun⟩
  | cons row rest ih =>
    rw [insertBaselineRows] at inserted
    split at inserted
    · cases inserted
    next unread =>
      rw [Std.ExtTreeMap.contains_eq_isSome_getElem?, Option.not_isSome_iff_eq_none] at unread
      obtain ⟨distinct, fresh⟩ := ih inserted
      -- The rest was inserted over this row, so none of it has its name.
      have apart : ∀ other ∈ rest, row.name ≠ other.name ∧ read[other.name]? = none := by
        intro other member
        have unset := fresh other member
        rw [BaselineMap.getElem?_insert] at unset
        split at unset
        · cases unset
        next differ => exact ⟨differ, unset⟩
      constructor
      · refine List.nodup_cons.2 ⟨?_, distinct⟩
        intro repeated
        obtain ⟨other, member, same⟩ := List.mem_map.1 repeated
        exact (apart other member).1 same.symm
      · intro other member
        rcases List.mem_cons.1 member with rfl | later
        · exact unread
        · exact (apart other later).2

/-! ### Writing a report -/

theorem baselinePath_ne_markdownPath (dir : String) :
    reportPath dir markdownReportFileName ≠ reportPath dir baselineReportFileName := by
  intro same
  rw [reportPath, reportPath, String.append_right_inj] at same
  exact absurd same (by decide)

theorem ReportFiles.read_write {files left : ReportFiles} {path : String} {contents : List UInt8}
    (wrote : files.write path contents = .ok left) (other : String) :
    left.read other = if other = path then .ok contents else files.read other := by
  unfold ReportFiles.write at wrote
  split at wrote
  · cases wrote
  · cases wrote
    exact Function.update_apply files.read path (.ok contents) other

/-- The report is left in the baseline file. -/
theorem read_of_writeReport {host : BenchHost} {report : CuReport} {files left : ReportFiles}
    {dir : String} (wrote : report.writeReport host files dir = (.ok (), left)) :
    ∃ contents, host.toVecPretty report = .ok contents ∧
      left.read (reportPath dir baselineReportFileName) = .ok contents := by
  simp only [writeReport] at wrote
  split at wrote
  · cases wrote
  · split at wrote
    · cases wrote
    next contents encoded =>
      split at wrote
      · cases wrote
      next between baseline =>
        split at wrote
        · cases wrote
        next last markdown =>
          cases wrote
          refine ⟨contents, encoded, ?_⟩
          -- The Markdown report is written afterwards, to a file of its own.
          rw [ReportFiles.read_write markdown, if_neg (baselinePath_ne_markdownPath dir).symm,
            ReportFiles.read_write baseline, if_pos rfl]

end CuReport

namespace ComputeUnitBencher

variable {agave : Agave} {texts : ErrorTexts} {codec : Codec} {host : BenchHost}

/-! ### What a run reports -/

/-- A row of the case, with its delta against the baselines. -/
def IsRowOf (baselines : BaselineMap) (benchCase : String × Fixture) (row : CuReportRow) : Prop :=
  row.name = benchCase.1 ∧
    row.delta = baselines[row.name]?.map fun baseline => .between baseline row.computeUnits

theorem isRowOf_runCase {bencher : ComputeUnitBencher} {baselines : BaselineMap}
    {runner next : FixtureRunner} {name : String} {fixture : Fixture} {unique : Address}
    {row : CuReportRow}
    (ran : bencher.runCase agave texts codec baselines runner name fixture unique =
      some (.ok (row, next))) : IsRowOf baselines (name, fixture) row := by
  unfold runCase at ran
  split at ran
  · cases ran
  · split at ran
    · cases ran
    · cases ran
    · obtain ⟨pass, _, row_eq⟩ := Option.map_eq_some_iff.1 ran
      split at row_eq
      · cases row_eq
      · cases row_eq
        exact ⟨rfl, rfl⟩

/-- One row for each case, in order. -/
theorem isRowOf_runCases {bencher : ComputeUnitBencher} {baselines : BaselineMap} {done : Nat}
    {runner : FixtureRunner} {cases : List (String × Fixture)} {rows : List CuReportRow}
    (ran : bencher.runCases agave texts codec host baselines done runner cases = some (.ok rows)) :
    List.Forall₂ (IsRowOf baselines) cases rows := by
  induction cases generalizing done runner rows with
  | nil =>
    cases ran
    exact .nil
  | cons first rest ih =>
    obtain ⟨name, fixture⟩ := first
    unfold runCases at ran
    split at ran
    · cases ran
    · cases ran
    next row next ranFirst =>
      obtain ⟨result, ranRest, consed⟩ := Option.map_eq_some_iff.1 ran
      cases result with
      | error error => cases consed
      | ok others =>
        cases consed
        exact .cons (isRowOf_runCase ranFirst) (ih ranRest)

theorem names_eq {baselines : BaselineMap} {cases : List (String × Fixture)}
    {rows : List CuReportRow} (reported : List.Forall₂ (IsRowOf baselines) cases rows) :
    cases.map Prod.fst = rows.map CuReportRow.name := by
  induction reported with
  | nil => rfl
  | cons head _ ih => rw [List.map_cons, List.map_cons, head.1, ih]

/-- A run that reports has read its baselines, run its cases and written its report. -/
theorem execute_eq_ok {bencher : ComputeUnitBencher} {files left : ReportFiles} {report : CuReport}
    (ran : bencher.execute agave texts codec host files = some (.ok report, left)) :
    ∃ baselines, CuReport.baselineMap host files bencher.baselineDir = .ok baselines ∧
      List.Forall₂ (IsRowOf baselines) bencher.cases report.rows ∧
      report.writeToDir host files bencher.outputDir = (.ok (), left) := by
  unfold execute at ran
  split at ran
  · cases ran
  · split at ran
    · cases ran
    next baselines loaded =>
      obtain ⟨result, ranCases, finished⟩ := Option.map_eq_some_iff.1 ran
      cases result with
      | error error => cases finished
      | ok rows =>
        simp only at finished
        split at finished
        · cases finished
        next wrote =>
          cases finished
          exact ⟨baselines, loaded, isRowOf_runCases ranCases, wrote⟩

/-! ### The next run -/

/-- A run over the report of an earlier one: the report is read without an error, and the delta of
each case is that against the row of the case, where the report has one. -/
def ComparesWith (bencher : ComputeUnitBencher) (agave : Agave) (texts : ErrorTexts) (codec : Codec)
    (host : BenchHost) (files : ReportFiles) (earlier : CuReport) : Prop :=
  (∃ baselines, CuReport.baselineMap host files bencher.baselineDir = .ok baselines) ∧
    ∀ report left, bencher.execute agave texts codec host files = some (.ok report, left) →
      List.Forall₂ (fun benchCase row => row.name = benchCase.1 ∧
        row.delta = (CuReport.unitsOf earlier.rows row.name).map fun baseline =>
          .between baseline row.computeUnits) bencher.cases report.rows

/-- A report that was written to a directory serves a later run as its baseline exactly if the cases
it reports have different names. -/
theorem report_is_usable_baseline_iff (agave : Agave) (texts : ErrorTexts) (codec : Codec)
    (host laterHost : BenchHost) (first later : ComputeUnitBencher) (files left after : ReportFiles)
    (dir : String) (report : CuReport)
    (roundTrips : ∀ written contents, host.toVecPretty written = .ok contents →
      laterHost.fromSlice contents = .ok written)
    (output : first.outputDir = some dir)
    (ran : first.execute agave texts codec host files = some (.ok report, left))
    (kept : after.read (reportPath dir baselineReportFileName) =
      left.read (reportPath dir baselineReportFileName))
    (baseline : later.baselineDir = some dir) :
    later.ComparesWith agave texts codec laterHost after report ↔
      (first.cases.map Prod.fst).Nodup := by
  obtain ⟨_, _, rows, wrote⟩ := execute_eq_ok ran
  rw [output] at wrote
  obtain ⟨contents, encoded, stored⟩ := CuReport.read_of_writeReport wrote
  -- Reading the baseline is reading in the rows of the report.
  have loads : CuReport.baselineMap laterHost after later.baselineDir =
      CuReport.insertBaselineRows (reportPath dir baselineReportFileName) ∅ report.rows := by
    rw [baseline, CuReport.baselineMap, CuReport.loadBaselineRows]
    simp only [kept, stored, roundTrips report contents encoded]
  rw [names_eq rows]
  constructor
  · rintro ⟨⟨baselines, loaded⟩, _⟩
    rw [loads] at loaded
    exact (CuReport.nodup_of_insertBaselineRows loaded).1
  · intro distinct
    obtain ⟨map, inserted, entries⟩ := CuReport.insertBaselineRows_of_nodup
      (reportPath dir baselineReportFileName) ∅ distinct (fun _ _ => by simp)
    rw [← loads] at inserted
    refine ⟨⟨map, inserted⟩, fun next rest reran => ?_⟩
    obtain ⟨baselines, loaded, laterRows, _⟩ := execute_eq_ok reran
    obtain rfl : map = baselines := Except.ok.inj (inserted.symm.trans loaded)
    refine laterRows.imp fun benchCase row isRow => ⟨isRow.1, ?_⟩
    rw [isRow.2, entries]
    simp

end ComputeUnitBencher

namespace Sample

/-- A row of the case `transfer`, without a delta. -/
def transferRow (units : Nat) : CuReportRow := ⟨"transfer", units, none, true⟩

/-- A report of such rows, as `benchHost` stores it. -/
def storesReport (report : CuReport) : Bool :=
  report.generatedAt == "0" && report.solanaRuntimeVersion == "4" && report.rows.all fun row =>
    row.name == "transfer" && row.computeUnits < 256 && row.delta.isNone && row.pass

/-- A codec for reports of the case `transfer`: a byte for the units of each row. -/
def benchHost : BenchHost where
  toVecPretty report :=
    if storesReport report then .ok (report.rows.map fun row => UInt8.ofNat row.computeUnits)
    else .error "unsupported report"
  fromSlice bytes := .ok ⟨"0", "4", bytes.map fun byte => transferRow byte.toNat⟩
  formatPercent _ := "+0.00"
  generatedAt := "0"
  solanaRuntimeVersion := "4"
  unique _ := 0

theorem benchHost_roundTrips (report : CuReport) (contents : List UInt8)
    (encoded : benchHost.toVecPretty report = .ok contents) :
    benchHost.fromSlice contents = .ok report := by
  simp only [benchHost] at encoded
  split at encoded
  next stored =>
    cases encoded
    simp only [storesReport, Bool.and_eq_true, beq_iff_eq, List.all_eq_true, decide_eq_true_eq,
      Option.isNone_iff_eq_none] at stored
    obtain ⟨⟨generated, version⟩, rows⟩ := stored
    have back : (report.rows.map fun row => UInt8.ofNat row.computeUnits).map
        (fun byte => transferRow byte.toNat) = report.rows := by
      rw [List.map_map]
      refine (List.map_congr_left fun row member => ?_).trans (List.map_id _)
      obtain ⟨⟨⟨name, bound⟩, delta⟩, pass⟩ := rows row member
      cases row
      simp_all [transferRow, Nat.mod_eq_of_lt]
    simp only [benchHost, back, ← generated, ← version]
  · cases encoded

def benchFiles : ReportFiles := ⟨fun _ => .error .notFound, fun _ => .ok (), fun _ => .ok ()⟩

def benchCodec : Codec where
  extension _ := none
  serializeTransaction _ := .error "unsupported"
  deserializeTransaction _ := .ok (transferTx 7 0x11 [0x22] [([0, 1], 10)])
  serializeFixture _ := .error "unsupported"
  deserializeFixture _ := .error "unsupported"
  toJson _ := .error "unsupported"
  fromJson _ := .error "unsupported"
  jsonSchemaVersion _ := .error "unsupported"

/-- A transfer from 0x11 to 0x22 that is compared with nothing. -/
def benchFixture : Fixture where
  header := .new "transfer" .transaction
  input := .transaction
    { runtime := .new 0 none false false
      programs := []
      preAccounts := [⟨0x11, 1_000_000, 0, false, 0, []⟩, ⟨0x22, 5, 0, false, 0, []⟩]
      transactionBytes := [] }
  expectations := ⟨⟨.success, true, 0, 0, [], none, [], []⟩, []⟩

def transferBencher (cases : Nat) (baselineDir outputDir : Option String) : ComputeUnitBencher where
  vm := vm [] .empty
  cases := List.replicate cases ("transfer", benchFixture)
  mustPass := true
  baselineDir := baselineDir
  outputDir := outputDir
  programElfs := ∅

def benchTexts : ErrorTexts := ⟨fun _ => "", fun _ => ""⟩

theorem exists_of_any {α β ε : Type} {outcome : Option (Except ε α × β)} (check : β → Bool)
    (holds : (outcome.any fun result => result.1.isOk && check result.2) = true) :
    ∃ value left, outcome = some (.ok value, left) ∧ check left = true := by
  cases outcome with
  | none => cases holds
  | some result =>
    obtain ⟨answer, left⟩ := result
    cases answer with
    | error error => cases holds
    | ok value => exact ⟨value, left, rfl, holds⟩

/-- The report of one transfer serves the next run as its baseline. -/
theorem single_report_usable :
    ∃ report left, (transferBencher 1 none (some "out")).execute agave benchTexts benchCodec
        benchHost benchFiles = some (.ok report, left) ∧
      (transferBencher 1 (some "out") none).ComparesWith agave benchTexts benchCodec benchHost left
        report := by
  have reports : (((transferBencher 1 none (some "out")).execute agave benchTexts benchCodec
      benchHost benchFiles).any fun result => result.1.isOk && true) = true := by
    decide +kernel
  obtain ⟨report, left, ran, _⟩ := exists_of_any (fun _ => true) reports
  refine ⟨report, left, ran, ?_⟩
  exact (ComputeUnitBencher.report_is_usable_baseline_iff agave benchTexts benchCodec benchHost
    benchHost (transferBencher 1 none (some "out")) (transferBencher 1 (some "out") none) benchFiles
    left left "out" report benchHost_roundTrips rfl ran rfl rfl).2 (by decide)

/-- The files hold a baseline that is refused for its repeated row. -/
def refusesRepeatedRow (files : ReportFiles) : Bool :=
  match CuReport.baselineMap benchHost files (some "out") with
  | .error error => error == .invalidBaseline "out/cu-report.baseline.json"
      "duplicate baseline row `transfer`"
  | .ok _ => false

/-- The report of two cases of one name is written, and the next run refuses to read it. -/
theorem repeated_name_refused :
    ∃ report left, (transferBencher 2 none (some "out")).execute agave benchTexts benchCodec
        benchHost benchFiles = some (.ok report, left) ∧
      refusesRepeatedRow left = true := by
  have refused : (((transferBencher 2 none (some "out")).execute agave benchTexts benchCodec
      benchHost benchFiles).any fun result => result.1.isOk && refusesRepeatedRow result.2) =
        true := by
    decide +kernel
  exact exists_of_any refusesRepeatedRow refused

end Sample

end Hpsvm
