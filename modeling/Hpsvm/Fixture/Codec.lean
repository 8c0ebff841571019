import Hpsvm.Fixture.Format
import Hpsvm.Foundation.RoundTrip

/-!
# Fixture files

Saving and loading a fixture (`lib.rs`, `json.rs` and `binary.rs` of the fixture crate), and the
builder a recorded fixture is put together with (`capture.rs`).
-/

namespace Hpsvm

/-- `FixtureError`. The errors of the codecs and of the file system are known by their text. -/
inductive FixtureError
  | io (reason : String)
  | json (reason : String)
  | encodeFixture (reason : String)
  | decodeFixture (reason : String)
  | encodeTransaction (reason : String)
  | decodeTransaction (reason : String)
  | unsupportedFormat (path : String)
  | unsupportedRuntimeConfig (field : String)
  | missingField (field : String)
  | missingProgramElf (programId : Address)
  | unsupportedSchemaVersion (version supported : Nat)
  | hpsvm (error : HpsvmError)
deriving DecidableEq, Repr

/-- The file system: what a file holds, and whether it can be written. -/
structure Files where
  read : String → Except String (List UInt8)
  allows : String → Except String Unit

/-- `std::fs::write`. -/
def Files.write (files : Files) (path : String) (contents : List UInt8) : Except String Files :=
  match files.allows path with
  | .error reason => .error reason
  | .ok () => .ok { files with read := Function.update files.read path (.ok contents) }

inductive FixtureFormat
  | json
  | binary
deriving DecidableEq, Repr

/-- The codecs a fixture and its transaction are stored with. -/
structure Codec where
  -- `Path::extension`, if it is valid text.
  extension : String → Option String
  -- `wincode` on a `VersionedTransaction`.
  serializeTransaction : VersionedTransaction → Except String (List UInt8)
  deserializeTransaction : List UInt8 → Except String VersionedTransaction
  -- `wincode` on a `Fixture`.
  serializeFixture : Fixture → Except String (List UInt8)
  deserializeFixture : List UInt8 → Except String Fixture
  -- `serde_json` on a `Fixture`.
  toJson : Fixture → Except String (List UInt8)
  fromJson : List UInt8 → Except String Fixture
  -- The number at `header.schema_version` of a JSON document, if the document has one there.
  jsonSchemaVersion : List UInt8 → Except String (Option Nat)

/-- What is encoded is decoded again. -/
structure Codec.RoundTrips (codec : Codec) : Prop where
  transaction : Foundation.TryRecovers codec.serializeTransaction codec.deserializeTransaction
  binary : Foundation.TryRecovers codec.serializeFixture codec.deserializeFixture
  json : Foundation.TryRecovers codec.toJson codec.fromJson
  version : ∀ fixture contents, codec.toJson fixture = .ok contents →
    codec.jsonSchemaVersion contents = .ok (some fixture.header.schemaVersion)

/-- `fixture_format_for_path`. -/
def fixtureFormatForPath (codec : Codec) (path : String) : Except FixtureError FixtureFormat :=
  match codec.extension path with
  | some "json" => .ok .json
  | some "bin" => .ok .binary
  | _ => .error (.unsupportedFormat path)

namespace Fixture

variable (codec : Codec)

def hasSupportedSchemaVersion (fixture : Fixture) : Bool :=
  supportedSchemaVersions.contains fixture.header.schemaVersion

def checkSchemaVersion (fixture : Fixture) : Except FixtureError Unit :=
  if fixture.hasSupportedSchemaVersion then .ok ()
  else .error (.unsupportedSchemaVersion fixture.header.schemaVersion currentSchemaVersion)

/-- `u16::try_from(version).unwrap_or(u16::MAX)`. -/
def clampVersion (version : Nat) : Nat := min version (2 ^ 16 - 1)

/-- `json::load` of a file's contents: the version is looked at before the fixture is decoded. -/
def loadJson (contents : List UInt8) : Except FixtureError Fixture := do
  let version ← (codec.jsonSchemaVersion contents).mapError .json
  match version with
  | some version =>
    if supportedSchemaVersions.contains (clampVersion version) then
      (codec.fromJson contents).mapError .json
    else .error (.unsupportedSchemaVersion (clampVersion version) currentSchemaVersion)
  | none => (codec.fromJson contents).mapError .json

/-- `binary::load` of a file's contents. -/
def loadBinary (contents : List UInt8) : Except FixtureError Fixture :=
  (codec.deserializeFixture contents).mapError .decodeFixture

def load (files : Files) (path : String) : Except FixtureError Fixture := do
  let format ← fixtureFormatForPath codec path
  let contents ← (files.read path).mapError .io
  let fixture ← match format with
    | .json => loadJson codec contents
    | .binary => loadBinary codec contents
  fixture.checkSchemaVersion
  return fixture

def save (fixture : Fixture) (files : Files) (path : String) (format : FixtureFormat) :
    Except FixtureError Files := do
  let contents ← match format with
    | .json => (codec.toJson fixture).mapError .json
    | .binary => (codec.serializeFixture fixture).mapError .encodeFixture
  (files.write path contents).mapError .io

end Fixture

/-! ### Capturing -/

structure CaptureBuilder where
  header : Option FixtureHeader := none
  runtime : Option RuntimeFixtureConfig := none
  programs : List ProgramBinding := []
  preAccounts : List AccountSnapshot := []
  baseline : Option ExecutionSnapshot := none
  compares : List Compare := []

namespace CaptureBuilder

def new (name : String) : CaptureBuilder := { header := some (.new name .transaction) }

def withSource (builder : CaptureBuilder) (source : String) : CaptureBuilder :=
  { builder with header := builder.header.map fun header => header.withSource source }

def tag (builder : CaptureBuilder) (tag : String) : CaptureBuilder :=
  { builder with header := builder.header.map fun header => header.tag tag }

def captureTransaction (codec : Codec) (builder : CaptureBuilder) (tx : VersionedTransaction) :
    Except FixtureError Fixture := do
  let transactionBytes ← (codec.serializeTransaction tx).mapError .encodeTransaction
  let header ← match builder.header with
    | some header => .ok header
    | none => .error (.missingField "header")
  let runtime ← match builder.runtime with
    | some runtime => .ok runtime
    | none => .error (.missingField "runtime")
  let baseline ← match builder.baseline with
    | some baseline => .ok baseline
    | none => .error (.missingField "baseline")
  return {
    header := header
    input := .transaction ⟨runtime, builder.programs, builder.preAccounts, transactionBytes⟩
    expectations :=
      ⟨baseline, if builder.compares.isEmpty then Compare.everything else builder.compares⟩ }

end CaptureBuilder

end Hpsvm
