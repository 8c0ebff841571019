import Hpsvm.Foundation.RoundTrip
import Hpsvm.Fixture.Firedancer
import Hpsvm.SampleRuntime

/-!
# Imported FireDancer fixtures

An import loses nothing that a fixture can represent: exporting the imported fixture gives the
protobuf message back. An export keeps the meaning of a fixture as long as the two numbers that a
message has for a status tell its failure from every other status. An imported baseline can be met by
an execution exactly if it records a success: a snapshot of an execution never has the failures that
an import writes.
-/

namespace Hpsvm

open Foundation Proto

@[simp] theorem okOr_eq_ok_iff {α : Type} {error : AdapterError} {found : Option α} {value : α} :
    okOr error found = .ok value ↔ found = some value := by
  cases found <;> simp [okOr]

/-! ### What an import consists of -/

/-- The parts of a message that converts, and what each of them is converted to. -/
structure ImportParts (proto : InstrFixture) where
  input : InstrContext
  output : InstrEffects
  preAccounts : List AccountSnapshot
  instructionAccounts : List InstructionAccountMeta
  postAccounts : List AccountSnapshot
  programId : Address
  computeUnitsConsumed : Nat
  status : ExecutionStatus
  input_eq : proto.input = some input
  output_eq : proto.output = some output
  preAccounts_eq : input.accounts.mapM (accountSnapshotFromProto "input.accounts") = .ok preAccounts
  instructionAccounts_eq :
    input.instrAccounts.mapM (instructionAccountFromProto preAccounts) = .ok instructionAccounts
  postAccounts_eq : output.modifiedAccounts.mapM
    (accountSnapshotFromProto "output.modified_accounts") = .ok postAccounts
  programId_eq : addressFromBytes input.programId "input.program_id" = .ok programId
  consumed_eq : checkedSub input.cuAvail output.cuAvail = some computeUnitsConsumed
  status_eq : statusFromOutput output.result output.customErr = .ok status

namespace ImportParts

variable {proto : InstrFixture}

def baseline (parts : ImportParts proto) : ExecutionSnapshot where
  status := parts.status
  included := true
  computeUnitsConsumed := parts.computeUnitsConsumed
  fee := 0
  logs := []
  returnData := returnDataFromOutput parts.programId parts.output.returnData
  innerInstructions := []
  postAccounts := parts.postAccounts

def fixture (agave : Agave) (parts : ImportParts proto) : Fixture where
  header := headerFromMetadata agave proto.metadata parts.programId
  input := .instruction
    { runtime := ⟨(parts.input.slotContext.map SlotContext.slot).getD 0, none, false, false,
        some parts.input.cuAvail⟩
      programs := []
      preAccounts := parts.preAccounts
      programId := parts.programId
      accounts := parts.instructionAccounts
      data := parts.input.data }
  expectations := ⟨parts.baseline, comparesForPostAccounts parts.postAccounts⟩

end ImportParts

theorem Fixture.exists_parts {agave : Agave} {proto : InstrFixture} {fixture : Fixture}
    (imported : Fixture.tryFromFiredancer agave ⟨proto⟩ = .ok fixture) :
    ∃ parts : ImportParts proto, fixture = parts.fixture agave := by
  simp only [Fixture.tryFromFiredancer, bind_eq_ok_iff, okOr_eq_ok_iff, pure_eq_ok_iff] at imported
  obtain ⟨input, hasInput, output, hasOutput, pre, preEq, metas, metasEq, post, postEq, programId,
    programEq, consumed, consumedEq, status, statusEq, rfl⟩ := imported
  exact ⟨⟨input, output, pre, metas, post, programId, consumed, status, hasInput, hasOutput, preEq,
    metasEq, postEq, programEq, consumedEq, statusEq⟩, rfl⟩

/-! ### Import, then export -/

theorem addressToBytes_recovers (field : String) :
    Recovers (fun bytes => addressFromBytes bytes field) addressToBytes := by
  intro bytes address decoded
  simp only [addressFromBytes] at decoded
  split at decoded
  next length =>
    cases decoded
    exact Address.toBytes_ofBytes length
  · cases decoded

theorem accountSnapshotToProto_recovers (field : String) :
    Recovers (accountSnapshotFromProto field) accountSnapshotToProto := by
  intro account snapshot decoded
  unfold accountSnapshotFromProto at decoded
  cases seeded : account.seedAddr with
  | some seed => simp [seeded, throw, throwThe, MonadExceptOf.throw, bind, Except.bind] at decoded
  | none =>
    simp only [seeded, Option.isSome_none, Bool.false_eq_true, if_false, bind_eq_ok_iff,
      pure_eq_ok_iff] at decoded
    obtain ⟨address, addressEq, owner, ownerEq, rfl⟩ := decoded
    have sameAddress := addressToBytes_recovers _ _ _ addressEq
    have sameOwner := addressToBytes_recovers _ _ _ ownerEq
    cases account
    simp_all [accountSnapshotToProto]

/-- An account is found again at its own position if the addresses differ. -/
theorem findIdx?_address {accounts : List AccountSnapshot}
    (distinct : (accounts.map AccountSnapshot.address).Nodup) {index : Nat}
    {account : AccountSnapshot} (found : accounts[index]? = some account) :
    accounts.findIdx? (fun candidate => candidate.address == account.address) = some index := by
  obtain ⟨bound, same⟩ := List.getElem?_eq_some_iff.1 found
  rw [List.findIdx?_eq_some_iff_getElem]
  refine ⟨bound, by simp [same], ?_⟩
  intro earlier before
  have apart := List.pairwise_iff_getElem.1 distinct earlier index (by simp; omega) (by simpa) before
  simpa [same] using apart

theorem instructionAccountToProto_recovers (agave : Agave) {accounts : List AccountSnapshot}
    (distinct : (accounts.map AccountSnapshot.address).Nodup) :
    TryRecovers (instructionAccountFromProto accounts) (instructionAccountToProto agave accounts) := by
  intro account converted decoded
  simp only [instructionAccountFromProto, bind_eq_ok_iff, okOr_eq_ok_iff] at decoded
  obtain ⟨found, atIndex, equal⟩ := decoded
  cases equal
  have bound := account.index.toNat_lt
  simp [instructionAccountToProto, findIdx?_address distinct atIndex, okOr, bound, bind,
    Except.bind, pure, Except.pure]

theorem statusToOutput_recovers {result : Int} {customErr : Nat} {status : ExecutionStatus}
    (decoded : statusFromOutput result customErr = .ok status) :
    statusToOutput status = .ok (result, customErr) := by
  unfold statusFromOutput at decoded
  split at decoded
  · split at decoded
    · cases decoded
      simp_all [statusToOutput]
    · cases decoded
  · split at decoded
    · cases decoded
      simp_all [statusToOutput]
    · cases decoded
      rfl

theorem returnDataToOutput_fromOutput (agave : Agave) (programId : Address)
    (returnData : List UInt8) :
    returnDataToOutput agave programId (returnDataFromOutput programId returnData) =
      .ok returnData := by
  cases returnData with
  | nil => rfl
  | cons byte rest => simp [returnDataFromOutput, returnDataToOutput]

/-- The units left are what the budget has beyond the units consumed. -/
theorem checkedSub_checkedSub {before after consumed : Nat}
    (subtracted : checkedSub before after = some consumed) :
    checkedSub before consumed = some after := by
  unfold checkedSub at subtracted ⊢
  split at subtracted
  · cases subtracted
    rw [if_pos (by omega)]
    congr
    omega
  · cases subtracted

/-- What a fixture can represent of a message: its accounts are told apart by their addresses, its
entrypoint has a name, and it has a slot but no features. -/
structure Proto.InstrFixture.Representable (proto : InstrFixture) : Prop where
  distinct : ∀ input, proto.input = some input → (input.accounts.map AcctState.address).Nodup
  named : ∃ metadata, proto.metadata = some metadata ∧ metadata.fnEntrypoint ≠ ""
  slotted : ∀ input, proto.input = some input → input.slotContext.isSome
  epochless : ∀ input, proto.input = some input → input.epochContext = none

theorem ImportParts.distinct_preAccounts {proto : InstrFixture} (parts : ImportParts proto)
    (distinct : (parts.input.accounts.map AcctState.address).Nodup) :
    (parts.preAccounts.map AccountSnapshot.address).Nodup := by
  have recovered := (accountSnapshotToProto_recovers _).map _ _ parts.preAccounts_eq
  have bytes : parts.input.accounts.map AcctState.address =
      (parts.preAccounts.map AccountSnapshot.address).map addressToBytes := by
    rw [← recovered]
    simp [accountSnapshotToProto]
  rw [bytes] at distinct
  exact distinct.of_map _

/-- Exporting an imported fixture gives the message back. -/
theorem firedancer_import_export (agave : Agave) (proto : InstrFixture) (fixture : Fixture)
    (representable : proto.Representable)
    (imported : Fixture.tryFromFiredancer agave ⟨proto⟩ = .ok fixture) :
    FiredancerFixture.tryFromFixture agave fixture = .ok ⟨proto⟩ := by
  obtain ⟨parts, rfl⟩ := Fixture.exists_parts imported
  obtain ⟨metadata, hasMetadata, named⟩ := representable.named
  obtain ⟨slot, slotted⟩ := Option.isSome_iff_exists.1 (representable.slotted _ parts.input_eq)
  have epochless := representable.epochless _ parts.input_eq
  have distinct := parts.distinct_preAccounts (representable.distinct _ parts.input_eq)
  -- Every conversion of the import is taken back by one of the export.
  have accounts := (accountSnapshotToProto_recovers _).map _ _ parts.preAccounts_eq
  have modified := (accountSnapshotToProto_recovers _).map _ _ parts.postAccounts_eq
  have metas := (instructionAccountToProto_recovers agave distinct).mapM _ _
    parts.instructionAccounts_eq
  have programId := addressToBytes_recovers _ _ _ parts.programId_eq
  have name : (headerFromMetadata agave proto.metadata parts.programId).name =
      metadata.fnEntrypoint := by
    simp [headerFromMetadata, hasMetadata, named, FixtureHeader.new, FixtureHeader.withSource,
      FixtureHeader.tag, Option.filter]
  have effects : snapshotToProtoEffects agave parts.baseline parts.programId parts.output.cuAvail =
      .ok parts.output := by
    simp [snapshotToProtoEffects, ImportParts.baseline, statusToOutput_recovers parts.status_eq,
      returnDataToOutput_fromOutput, modified, bind, Except.bind, pure, Except.pure]
  have message : (⟨some metadata, some parts.input, some parts.output⟩ : InstrFixture) = proto := by
    rw [← hasMetadata, ← parts.input_eq, ← parts.output_eq]
  have context : parts.input = ⟨addressToBytes parts.programId,
      parts.preAccounts.map accountSnapshotToProto, parts.input.instrAccounts, parts.input.data,
      parts.input.cuAvail, some slot, none⟩ := by
    rw [programId, accounts, ← slotted, ← epochless]
  simp only [FiredancerFixture.tryFromFixture, ImportParts.fixture, bind_eq_ok_iff, okOr_eq_ok_iff,
    pure_eq_ok_iff]
  refine ⟨_, rfl, _, checkedSub_checkedSub parts.consumed_eq, _, metas, _, effects, ?_⟩
  rw [name, slotted]
  refine congrArg FiredancerFixture.mk (Eq.trans ?_ message)
  rw [context]
  rfl

namespace Sample

/-- A transfer between two accounts, one of which the instruction names twice. -/
def transferProto (result : Int) (customErr : Nat) : InstrFixture :=
  let account (byte : UInt8) (lamports : Nat) : AcctState :=
    ⟨List.replicate 32 byte, lamports, [byte], false, 0, List.replicate 32 7, none⟩
  { metadata := some ⟨"transfer"⟩
    input := some
      { programId := List.replicate 32 9
        accounts := [account 1 100, account 2 5]
        instrAccounts := [⟨1, true, false⟩, ⟨0, true, true⟩, ⟨1, false, false⟩]
        data := [2, 0, 0, 0]
        cuAvail := 1000
        slotContext := some ⟨42⟩
        epochContext := none }
    output := some
      { result, customErr
        modifiedAccounts := [account 1 90, account 2 15]
        cuAvail := 850
        returnData := [1] } }

theorem transfer_import_export :
    (Fixture.tryFromFiredancer agave ⟨transferProto 1 6001⟩ >>=
      FiredancerFixture.tryFromFixture agave) = .ok ⟨transferProto 1 6001⟩ := by
  have representable : (transferProto 1 6001).Representable := by
    refine ⟨?_, ⟨_, rfl, by decide⟩, ?_, ?_⟩
    all_goals
      intro input same
      cases same
      decide
  obtain ⟨fixture, imported⟩ : ∃ fixture,
      Fixture.tryFromFiredancer agave ⟨transferProto 1 6001⟩ = .ok fixture := ⟨_, rfl⟩
  rw [imported]
  exact firedancer_import_export agave _ fixture representable imported

end Sample

/-! ### Export, then import -/

theorem addressFromBytes_toBytes (field : String) (address : Address) :
    addressFromBytes (addressToBytes address) field = .ok address := by
  rw [addressFromBytes, addressToBytes, if_pos (Address.length_toBytes address),
    Address.ofBytes_toBytes]

theorem accountSnapshotFromProto_toProto (field : String) (account : AccountSnapshot) :
    accountSnapshotFromProto field (accountSnapshotToProto account) = .ok account := by
  simp [accountSnapshotFromProto, accountSnapshotToProto, addressFromBytes_toBytes, bind,
    Except.bind, pure, Except.pure]

theorem accountSnapshotsFromProto_toProto (field : String) (accounts : List AccountSnapshot) :
    (accounts.map accountSnapshotToProto).mapM (accountSnapshotFromProto field) = .ok accounts := by
  rw [mapM_eq_ok_iff, List.forall₂_map_left_iff, List.forall₂_same]
  intro account _
  exact accountSnapshotFromProto_toProto field account

/-- An index leads back to the address it was found for, whether or not the address is repeated. -/
theorem instructionAccountFromProto_recovers (agave : Agave) (accounts : List AccountSnapshot) :
    TryRecovers (instructionAccountToProto agave accounts) (instructionAccountFromProto accounts) := by
  intro account converted encoded
  simp only [instructionAccountToProto, bind_eq_ok_iff, okOr_eq_ok_iff] at encoded
  obtain ⟨index, found, encoded⟩ := encoded
  split at encoded
  next bound =>
    cases encoded
    obtain ⟨inside, same, _⟩ := List.findIdx?_eq_some_iff_getElem.1 found
    have kept : (UInt32.ofNat index).toNat = index := UInt32.toNat_ofNat_of_lt' bound
    have address : accounts[index].address = account.pubkey := by simpa using same
    simp [instructionAccountFromProto, kept, inside, okOr, address, bind, Except.bind, pure,
      Except.pure]
  · cases encoded

/-- The statuses that the result and the custom error of a message stand for. -/
def ExecutionStatus.HasOutput : ExecutionStatus → Prop
  | .success => True
  | .failure (.programResult result) => result ≠ 0
  | .failure (.programResultWithCustomError result customError) => result ≠ 0 ∧ customError ≠ 0
  | .failure (.customError _) => False
  | .failure (.other _ _) => False

theorem statusFromOutput_toOutput {status : ExecutionStatus} {result : Int} {customErr : Nat}
    (encoded : statusToOutput status = .ok (result, customErr)) :
    statusFromOutput result customErr = .ok status ↔ status.HasOutput := by
  unfold statusToOutput at encoded
  -- One case for each shape of a status; the last one is not exported at all.
  split at encoded <;> cases encoded
  · simp [statusFromOutput, ExecutionStatus.HasOutput]
  · by_cases zero : result = 0 <;> simp [statusFromOutput, ExecutionStatus.HasOutput, zero]
  · by_cases zero : customErr = 0 <;> simp [statusFromOutput, ExecutionStatus.HasOutput, zero]
  · by_cases zero : result = 0 <;> by_cases none : customErr = 0 <;>
      simp [statusFromOutput, ExecutionStatus.HasOutput, zero, none]

theorem returnDataFromOutput_toOutput {agave : Agave} {programId : Address}
    {returnData : Option ReturnDataSnapshot} {bytes : List UInt8}
    (encoded : returnDataToOutput agave programId returnData = .ok bytes) :
    returnDataFromOutput programId bytes = returnData ↔
      ∀ recorded, returnData = some recorded → recorded.data ≠ [] := by
  unfold returnDataToOutput at encoded
  split at encoded
  · cases encoded
    simp [returnDataFromOutput]
  next recorded =>
    split at encoded
    next same =>
      cases encoded
      cases recorded with
      | mk owner data =>
        cases data with
        | nil => simp [returnDataFromOutput]
        | cons byte rest => simp [returnDataFromOutput, ← same]
    · cases encoded

/-- The same slot and budget, and the same instruction over the same accounts. -/
structure InstructionFixture.SameInstruction (left right : InstructionFixture) : Prop where
  slot : left.runtime.slot = right.runtime.slot
  computeUnitLimit : left.runtime.computeUnitLimit = right.runtime.computeUnitLimit
  preAccounts : left.preAccounts = right.preAccounts
  programId : left.programId = right.programId
  accounts : left.accounts = right.accounts
  data : left.data = right.data

/-- Two fixtures of the same instruction that record the same outcome. -/
structure Fixture.SameMeaning (left right : Fixture) : Prop where
  input : ∃ instruction instruction', left.input = .instruction instruction ∧
    right.input = .instruction instruction' ∧ instruction.SameInstruction instruction'
  status : left.expectations.baseline.status = right.expectations.baseline.status
  computeUnits : left.expectations.baseline.computeUnitsConsumed =
    right.expectations.baseline.computeUnitsConsumed
  returnData : left.expectations.baseline.returnData = right.expectations.baseline.returnData
  postAccounts : left.expectations.baseline.postAccounts = right.expectations.baseline.postAccounts

/-- The parts of a fixture that converts, and what each of them is converted to. -/
structure ExportParts (agave : Agave) (fixture : Fixture) where
  instruction : InstructionFixture
  inputCuAvail : Nat
  outputCuAvail : Nat
  instrAccounts : List InstrAcct
  result : Int
  customErr : Nat
  returnData : List UInt8
  input_eq : fixture.input = .instruction instruction
  limit_eq : instruction.runtime.computeUnitLimit = some inputCuAvail
  left_eq : checkedSub inputCuAvail fixture.expectations.baseline.computeUnitsConsumed =
    some outputCuAvail
  instrAccounts_eq : instructionAccountsToProto agave instruction.preAccounts instruction.accounts =
    .ok instrAccounts
  status_eq : statusToOutput fixture.expectations.baseline.status = .ok (result, customErr)
  returnData_eq : returnDataToOutput agave instruction.programId
    fixture.expectations.baseline.returnData = .ok returnData

namespace ExportParts

variable {agave : Agave} {fixture : Fixture}

def proto (parts : ExportParts agave fixture) : InstrFixture where
  metadata := some ⟨fixture.header.name⟩
  input := some
    { programId := addressToBytes parts.instruction.programId
      accounts := parts.instruction.preAccounts.map accountSnapshotToProto
      instrAccounts := parts.instrAccounts
      data := parts.instruction.data
      cuAvail := parts.inputCuAvail
      slotContext := some ⟨parts.instruction.runtime.slot⟩
      epochContext := none }
  output := some
    { result := parts.result
      customErr := parts.customErr
      modifiedAccounts := fixture.expectations.baseline.postAccounts.map accountSnapshotToProto
      cuAvail := parts.outputCuAvail
      returnData := parts.returnData }

/-- An import of the message that takes its status. -/
def importParts (parts : ExportParts agave fixture) {status : ExecutionStatus}
    (decoded : statusFromOutput parts.result parts.customErr = .ok status) :
    ImportParts parts.proto where
  input := _
  output := _
  preAccounts := parts.instruction.preAccounts
  instructionAccounts := parts.instruction.accounts
  postAccounts := fixture.expectations.baseline.postAccounts
  programId := parts.instruction.programId
  computeUnitsConsumed := fixture.expectations.baseline.computeUnitsConsumed
  status := status
  input_eq := rfl
  output_eq := rfl
  preAccounts_eq := accountSnapshotsFromProto_toProto _ _
  instructionAccounts_eq :=
    (instructionAccountFromProto_recovers agave _).mapM _ _ parts.instrAccounts_eq
  postAccounts_eq := accountSnapshotsFromProto_toProto _ _
  programId_eq := addressFromBytes_toBytes _ _
  consumed_eq := checkedSub_checkedSub parts.left_eq
  status_eq := decoded

end ExportParts

theorem FiredancerFixture.exists_parts {agave : Agave} {fixture : Fixture}
    {exported : FiredancerFixture}
    (accepted : FiredancerFixture.tryFromFixture agave fixture = .ok exported) :
    ∃ parts : ExportParts agave fixture, exported = ⟨parts.proto⟩ := by
  unfold FiredancerFixture.tryFromFixture at accepted
  split at accepted
  next instruction isInstruction =>
    simp only [snapshotToProtoEffects, bind_eq_ok_iff, okOr_eq_ok_iff, pure_eq_ok_iff] at accepted
    obtain ⟨limit, limitEq, left, leftEq, metas, metasEq, effects,
      ⟨⟨result, customErr⟩, statusEq, bytes, bytesEq, rfl⟩, rfl⟩ := accepted
    exact ⟨⟨instruction, limit, left, metas, result, customErr, bytes, isInstruction, limitEq,
      leftEq, metasEq, statusEq, bytesEq⟩, rfl⟩
  · cases accepted

/-- Parts that fit together are imported. -/
theorem ImportParts.tryFromFiredancer_eq {proto : InstrFixture} (agave : Agave)
    (parts : ImportParts proto) :
    Fixture.tryFromFiredancer agave ⟨proto⟩ = .ok (parts.fixture agave) := by
  simp only [Fixture.tryFromFiredancer, bind_eq_ok_iff, okOr_eq_ok_iff, pure_eq_ok_iff]
  exact ⟨_, parts.input_eq, _, parts.output_eq, _, parts.preAccounts_eq, _,
    parts.instructionAccounts_eq, _, parts.postAccounts_eq, _, parts.programId_eq, _,
    parts.consumed_eq, _, parts.status_eq, rfl⟩

/-- Importing an exported fixture gives its meaning back exactly if a message can tell its status
from the others and its return data, where it has any, is not empty. -/
theorem firedancer_export_import_iff (agave : Agave) (fixture : Fixture)
    (exported : FiredancerFixture)
    (accepted : FiredancerFixture.tryFromFixture agave fixture = .ok exported) :
    (∃ imported, Fixture.tryFromFiredancer agave exported = .ok imported ∧
        imported.SameMeaning fixture) ↔
      fixture.expectations.baseline.status.HasOutput ∧
        ∀ recorded, fixture.expectations.baseline.returnData = some recorded →
          recorded.data ≠ [] := by
  obtain ⟨parts, rfl⟩ := FiredancerFixture.exists_parts accepted
  rw [← statusFromOutput_toOutput parts.status_eq, ← returnDataFromOutput_toOutput parts.returnData_eq]
  constructor
  · rintro ⟨imported, decoded, same⟩
    -- What is imported was read from the very message that was exported.
    obtain ⟨back, rfl⟩ := Fixture.exists_parts decoded
    have input := Option.some.inj back.input_eq
    have output := Option.some.inj back.output_eq
    have status := back.status_eq
    have programId := back.programId_eq
    rw [← output] at status
    rw [← input, addressFromBytes_toBytes] at programId
    have returnData : returnDataFromOutput back.programId back.output.returnData =
      fixture.expectations.baseline.returnData := same.returnData
    rw [← Except.ok.inj programId, ← output] at returnData
    have sameStatus : back.status = fixture.expectations.baseline.status := same.status
    rw [sameStatus] at status
    exact ⟨status, returnData⟩
  · rintro ⟨status, returnData⟩
    -- Everything but the status and the return data comes back in any case.
    refine ⟨_, (parts.importParts status).tryFromFiredancer_eq agave, ?_⟩
    exact
      { input := ⟨_, _, rfl, parts.input_eq, rfl, parts.limit_eq.symm, rfl, rfl, rfl, rfl⟩
        status := rfl
        computeUnits := rfl
        returnData := returnData
        postAccounts := rfl }

namespace Sample

/-- A transfer of ten lamports that is recorded with the given status. -/
def transferFixture (status : ExecutionStatus) : Fixture where
  header := .new "transfer" .instruction
  input := .instruction
    { runtime := (RuntimeFixtureConfig.new 42 none false false).withComputeUnitLimit 1000
      programs := []
      preAccounts := [⟨0x11, 100, 0x99, false, 0, []⟩, ⟨0x22, 5, 0x99, false, 0, [1]⟩]
      programId := 0x99
      accounts := [⟨0x22, false, true⟩, ⟨0x11, true, true⟩]
      data := [2, 0, 0, 0] }
  expectations :=
    { baseline :=
        { status
          included := true
          computeUnitsConsumed := 150
          fee := 0
          logs := []
          returnData := some ⟨0x99, [1]⟩
          innerInstructions := []
          postAccounts := [⟨0x11, 90, 0x99, false, 0, []⟩, ⟨0x22, 15, 0x99, false, 0, [1]⟩] }
      compares := Compare.everything }

theorem successful_transfer_export_import :
    ∃ exported imported,
      FiredancerFixture.tryFromFixture agave (transferFixture .success) = .ok exported ∧
      Fixture.tryFromFiredancer agave exported = .ok imported ∧
      imported.SameMeaning (transferFixture .success) := by
  obtain ⟨exported, accepted⟩ : ∃ exported,
      FiredancerFixture.tryFromFixture agave (transferFixture .success) = .ok exported := ⟨_, rfl⟩
  obtain ⟨imported, decoded, same⟩ :=
    (firedancer_export_import_iff agave _ exported accepted).2
      ⟨trivial, by simp [transferFixture]⟩
  exact ⟨exported, imported, accepted, decoded, same⟩

/-- A failure with the program result 0 comes back as a success, and a custom error as a program
result beside a custom error. -/
theorem exported_failures_change :
    (FiredancerFixture.tryFromFixture agave (transferFixture (.failure (.programResult 0))) >>=
        Fixture.tryFromFiredancer agave).map (fun imported => imported.expectations.baseline.status) =
      .ok .success ∧
    (FiredancerFixture.tryFromFixture agave (transferFixture (.failure (.customError 6001))) >>=
        Fixture.tryFromFiredancer agave).map (fun imported => imported.expectations.baseline.status) =
      .ok (.failure (.programResultWithCustomError 1 6001)) := by
  constructor <;> rfl

end Sample

/-! ### Imported baselines -/

/-- The status of an executed transaction is a success or a failure without a program's code. -/
theorem statusFromOutput_of_fromResult {texts : ErrorTexts} {outcome : Except TransactionError Unit}
    {result : Int} {customErr : Nat}
    (decoded : statusFromOutput result customErr = .ok (.fromResult texts outcome)) :
    result = 0 := by
  by_contra failed
  unfold statusFromOutput at decoded
  rw [if_neg failed] at decoded
  cases outcome with
  | ok => split at decoded <;> cases decoded
  | error error => split at decoded <;> cases decoded

theorem status_of_result_zero {customErr : Nat} {status : ExecutionStatus}
    (decoded : statusFromOutput 0 customErr = .ok status) : status = .success := by
  unfold statusFromOutput at decoded
  rw [if_pos rfl] at decoded
  split at decoded
  · exact (Except.ok.inj decoded).symm
  · cases decoded

/-- The accounts without those that a later one at the same address replaces. -/
def lastAccounts (accounts : List AccountSnapshot) : List AccountSnapshot :=
  accounts.filter fun account => lastAt accounts account.address == some account

theorem compareAccounts_lastAccounts {left right : ExecutionSnapshot}
    (same : left.postAccounts = lastAccounts right.postAccounts) (scope : AccountCompareScope) :
    compareAccounts left right scope = true := by
  unfold compareAccounts
  rw [same, Bool.and_eq_true, Bool.not_eq_true', List.all_eq_true, List.any_eq_false]
  constructor
  · intro account member
    rw [(List.mem_filter.1 member).2, Bool.or_true]
  · intro account member
    obtain ⟨last, found⟩ := exists_lastAt member
    obtain ⟨lastMember, lastAddress⟩ := lastAt_eq_some found
    -- The account that the map holds for the address is its own last one.
    have kept : last ∈ lastAccounts right.postAccounts :=
      List.mem_filter.2 ⟨lastMember, by rw [lastAddress, found, beq_self_eq_true]⟩
    have listed : ((lastAccounts right.postAccounts).map AccountSnapshot.address).contains
        account.address = true :=
      List.contains_iff_mem.2 (List.mem_map.2 ⟨last, kept, lastAddress⟩)
    rw [listed, Bool.not_true, Bool.and_false]
    exact Bool.false_ne_true

namespace ImportParts

variable {proto : InstrFixture}

/-- An execution that succeeds as the message records it. -/
def outcome (parts : ImportParts proto) : DetachedTx where
  info :=
    { computeUnitsConsumed := parts.computeUnitsConsumed
      returnData := ⟨parts.programId, parts.output.returnData⟩ }
  postAccounts := (lastAccounts parts.postAccounts).map fun account =>
    (account.address, account.toAccount)
  status := .ok ()
  included := true
  feePayer := none
  fatalError := none

theorem fromOutcome_passes (texts : ErrorTexts) (parts : ImportParts proto)
    (succeeded : parts.status = .success) :
    ∀ compare ∈ comparesForPostAccounts parts.postAccounts,
      (ExecutionSnapshot.fromOutcome texts parts.outcome).passes parts.baseline compare = true := by
  have accounts : ∀ scope, compareAccounts (.fromOutcome texts parts.outcome) parts.baseline scope =
      true := by
    intro scope
    apply compareAccounts_lastAccounts
    simp [ExecutionSnapshot.fromOutcome, outcome, baseline, Function.comp_def]
  intro compare member
  rcases List.mem_append.1 member with fixed | onAccounts
  · -- Status, inclusion, compute units and return data.
    simp only [List.mem_cons, List.not_mem_nil, or_false] at fixed
    rcases fixed with rfl | rfl | rfl | rfl
    · simp [ExecutionSnapshot.passes, ExecutionSnapshot.fromOutcome, outcome, baseline, succeeded,
        ExecutionStatus.fromResult]
    · rfl
    · simp [ExecutionSnapshot.passes, ExecutionSnapshot.fromOutcome, outcome, baseline]
    · simp [ExecutionSnapshot.passes, ExecutionSnapshot.fromOutcome, outcome, baseline,
        ReturnDataSnapshot.fromMeta, returnDataFromOutput]
  · split at onAccounts
    · cases onAccounts
    · cases List.mem_singleton.1 onAccounts
      exact accounts _

theorem result_of_compares {agave : Agave} {texts : ErrorTexts} {config : ResultConfig}
    {outcome : DetachedTx} (parts : ImportParts proto)
    (passed : (ExecutionSnapshot.fromOutcome texts outcome).tryCompareWith agave parts.baseline
      config (comparesForPostAccounts parts.postAccounts) = some (.ok ())) :
    parts.output.result = 0 := by
  rw [ExecutionSnapshot.tryCompareWith_eq_ok_iff] at passed
  have status : Compare.status ∈ comparesForPostAccounts parts.postAccounts :=
    List.mem_append_left _ List.mem_cons_self
  have same : ExecutionStatus.fromResult texts outcome.status = parts.status :=
    eq_of_beq (passed .status status)
  have decoded := parts.status_eq
  rw [← same] at decoded
  exact statusFromOutput_of_fromResult decoded

end ImportParts

/-- An imported baseline can be met by an execution exactly if it records a success. -/
theorem imported_baseline_satisfiable_iff (agave : Agave) (texts : ErrorTexts)
    (config : ResultConfig) (proto : InstrFixture) (fixture : Fixture)
    (imported : Fixture.tryFromFiredancer agave ⟨proto⟩ = .ok fixture) :
    (∃ outcome : DetachedTx, (ExecutionSnapshot.fromOutcome texts outcome).tryCompareWith agave
        fixture.expectations.baseline config fixture.expectations.compares = some (.ok ())) ↔
      proto.output.map InstrEffects.result = some 0 := by
  obtain ⟨parts, rfl⟩ := Fixture.exists_parts imported
  rw [parts.output_eq, Option.map_some, Option.some.injEq]
  constructor
  · rintro ⟨outcome, passed⟩
    exact parts.result_of_compares passed
  · intro zero
    have decoded := parts.status_eq
    rw [zero] at decoded
    refine ⟨parts.outcome, (ExecutionSnapshot.tryCompareWith_eq_ok_iff _ _ _ _ _).2 ?_⟩
    exact parts.fromOutcome_passes texts (status_of_result_zero decoded)

namespace Sample

/-- The sample texts of errors. -/
def errorTexts : ErrorTexts := ⟨fun _ => "InsufficientFundsForFee", fun _ => "Insufficient funds for fee"⟩

theorem successful_transfer_satisfiable :
    ∃ fixture outcome, Fixture.tryFromFiredancer agave ⟨transferProto 0 0⟩ = .ok fixture ∧
      (ExecutionSnapshot.fromOutcome errorTexts outcome).tryCompareWith agave
        fixture.expectations.baseline {} fixture.expectations.compares = some (.ok ()) := by
  obtain ⟨fixture, imported⟩ : ∃ fixture,
      Fixture.tryFromFiredancer agave ⟨transferProto 0 0⟩ = .ok fixture := ⟨_, rfl⟩
  obtain ⟨outcome, passes⟩ :=
    (imported_baseline_satisfiable_iff agave errorTexts {} _ fixture imported).2 rfl
  exact ⟨fixture, outcome, imported, passes⟩

/-- A transfer that fails with the custom error 1 imports, and no execution meets its baseline: not
even one that fails with the same instruction error. -/
theorem failed_transfer_unsatisfiable :
    ∃ fixture, Fixture.tryFromFiredancer agave ⟨transferProto 26 1⟩ = .ok fixture ∧
      ∀ texts config outcome, (ExecutionSnapshot.fromOutcome texts outcome).tryCompareWith agave
        fixture.expectations.baseline config fixture.expectations.compares ≠ some (.ok ()) := by
  obtain ⟨fixture, imported⟩ : ∃ fixture,
      Fixture.tryFromFiredancer agave ⟨transferProto 26 1⟩ = .ok fixture := ⟨_, rfl⟩
  obtain ⟨parts, rfl⟩ := Fixture.exists_parts imported
  refine ⟨_, imported, fun texts config outcome passed => ?_⟩
  have zero := parts.result_of_compares passed
  rw [← Option.some.inj parts.output_eq] at zero
  exact absurd zero (by decide)

end Sample

end Hpsvm
