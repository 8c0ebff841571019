import Hpsvm.Fixture.Codec
import Hpsvm.Foundation.Json

/-!
# Fixtures of other versions

`Fixture::load` is to name the version of a fixture that it cannot read. A JSON document is read as a
value first, and its version is looked at before the fixture is decoded. A binary document is decoded
as a whole, so the version of a fixture whose body has another shape is never looked at.
-/

namespace Hpsvm

open Foundation

/-- The levels of arrays and objects that `serde_json` reads. -/
def nestingLimit : Nat := 127

/-- The readers that a codec is made of. -/
structure DocumentReaders where
  -- The JSON document that a text spells, if it is one.
  document : List UInt8 → Option Json
  -- The numbers that are too large for a double.
  overflows : JsonNumber → Bool
  -- `wincode` on a `FixtureHeader`, with the bytes it leaves, and on the other fields of a `Fixture`.
  deserializeHeader : List UInt8 → Except String (FixtureHeader × List UInt8)
  deserializeBody : List UInt8 → Except String (FixtureInput × FixtureExpectations)

/-- What `json::load` looks up in a document. -/
def schemaVersionOf (document : JsonValue) : Option Nat :=
  ((document.get "header").bind fun header => header.get "schema_version").bind JsonValue.asU64

/-- The number at the place of the version of a fixture's header. -/
def spelledVersion (document : Json) : Option JsonNumber :=
  ((document.get "header").bind fun header => header.get "schema_version").bind fun member =>
    match member with
    | .number number => some number
    | _ => none

namespace DocumentReaders

def readDocument (readers : DocumentReaders) (document : Json) : Except String JsonValue :=
  document.read readers.overflows nestingLimit

/-- A `Fixture` is decoded field by field, its header first. -/
def deserializeFixture (readers : DocumentReaders) (contents : List UInt8) :
    Except String Fixture := do
  let (header, rest) ← readers.deserializeHeader contents
  let (input, expectations) ← readers.deserializeBody rest
  return ⟨header, input, expectations⟩

end DocumentReaders

/-- The codec is made of the readers. -/
structure Codec.Uses (codec : Codec) (readers : DocumentReaders) : Prop where
  binary : codec.deserializeFixture = readers.deserializeFixture
  version : ∀ contents document, readers.document contents = some document →
    codec.jsonSchemaVersion contents = (readers.readDocument document).map schemaVersionOf
  -- A `schema_version` is a `u16`.
  fixture : ∀ contents document number fixture, readers.document contents = some document →
    spelledVersion document = some number → codec.fromJson contents = .ok fixture →
    number.read readers.overflows = .ok (.posInt fixture.header.schemaVersion)

/-- A document that is well formed as far as its version, which is not a supported one. -/
inductive CarriesUnsupportedVersion (readers : DocumentReaders) : FixtureFormat → List UInt8 → Prop
  | json {contents : List UInt8} {document : Json} {number : JsonNumber}
      (spells : readers.document contents = some document)
      (carries : spelledVersion document = some number)
      (unsupported : ∀ version ∈ supportedSchemaVersions, number.value ≠ version) :
      CarriesUnsupportedVersion readers .json contents
  | binary {contents : List UInt8} {header : FixtureHeader} {rest : List UInt8}
      (leads : readers.deserializeHeader contents = .ok (header, rest))
      (unsupported : header.schemaVersion ∉ supportedSchemaVersions) :
      CarriesUnsupportedVersion readers .binary contents

/-- What is read before the version is looked at: of a JSON document all of its value and the version
as an unsigned integer, of a binary document everything. -/
def DocumentReaders.Legible (readers : DocumentReaders) : FixtureFormat → List UInt8 → Prop
  | .json, contents => ∀ document, readers.document contents = some document →
    Json.Within readers.overflows nestingLimit document ∧
      ∀ number, spelledVersion document = some number → number.IsU64
  | .binary, contents => ∀ header rest, readers.deserializeHeader contents = .ok (header, rest) →
    ∃ body, readers.deserializeBody rest = .ok body

/-! ### JSON documents -/

section Json

variable {readers : DocumentReaders} {document : Json} {value : JsonValue} {number : JsonNumber}

/-- The version is looked up where the document has it. -/
theorem schemaVersionOf_read (done : readers.readDocument document = .ok value)
    (carries : spelledVersion document = some number) :
    ∃ read, number.read readers.overflows = .ok read ∧
      schemaVersionOf value = (JsonValue.number read).asU64 := by
  simp only [spelledVersion, Option.bind_eq_some_iff] at carries
  obtain ⟨member, ⟨header, inDocument, inHeader⟩, isNumber⟩ := carries
  -- Both members on the path are read, each with what depth is left for it.
  obtain ⟨readHeader, remaining, gotHeader, headerRead⟩ := Json.get_of_read done inDocument
  obtain ⟨readMember, left, gotMember, memberRead⟩ := Json.get_of_read headerRead inHeader
  cases member with
  | number spelled =>
    cases isNumber
    cases readNumber : number.read readers.overflows with
    | error reason =>
      rw [Json.read, readNumber] at memberRead
      cases memberRead
    | ok read =>
      rw [Json.read, readNumber] at memberRead
      cases memberRead
      refine ⟨read, rfl, ?_⟩
      simp only [schemaVersionOf, gotHeader, gotMember, Option.bind_some]
  | _ => cases isNumber

theorem schemaVersionOf_eq_none (done : readers.readDocument document = .ok value)
    (carries : spelledVersion document = some number) (other : ¬ number.IsU64) :
    schemaVersionOf value = none := by
  obtain ⟨read, readNumber, found⟩ := schemaVersionOf_read done carries
  rw [found]
  cases read with
  | posInt integer => exact absurd (JsonNumber.isU64_of_read _ readNumber) other
  | _ => rfl

theorem schemaVersionOf_eq_some (done : readers.readDocument document = .ok value)
    (carries : spelledVersion document = some number) (unsigned : number.IsU64) :
    schemaVersionOf value = some number.integer := by
  obtain ⟨read, readNumber, found⟩ := schemaVersionOf_read done carries
  rw [JsonNumber.read_of_isU64 _ unsigned] at readNumber
  cases readNumber
  exact found

theorem clampVersion_unsupported (unsigned : number.IsU64)
    (unsupported : ∀ version ∈ supportedSchemaVersions, number.value ≠ version) :
    supportedSchemaVersions.contains (Fixture.clampVersion number.integer) = false := by
  have other : number.integer ≠ 2 := by
    intro same
    apply unsupported 2 (by decide)
    rw [unsigned.value_eq, same]
  simp only [supportedSchemaVersions, currentSchemaVersion, Fixture.clampVersion,
    List.contains_cons, List.contains_nil, Bool.or_false, beq_eq_false_iff_ne]
  omega

end Json

/-- The error names a version. -/
def ReportsVersion (result : Except FixtureError Fixture) : Prop :=
  ∃ version, result = .error (.unsupportedSchemaVersion version currentSchemaVersion)

namespace Fixture

variable {codec : Codec} {readers : DocumentReaders} {contents : List UInt8}

theorem checkSchemaVersion_of_unsupported {fixture : Fixture}
    (unsupported : fixture.header.schemaVersion ∉ supportedSchemaVersions) :
    fixture.checkSchemaVersion =
      .error (.unsupportedSchemaVersion fixture.header.schemaVersion currentSchemaVersion) := by
  unfold checkSchemaVersion hasSupportedSchemaVersion
  rw [if_neg]
  simpa using unsupported

/-- What `load` does with the contents of a file. -/
theorem load_eq {files : Files} {path : String} {format : FixtureFormat}
    (named : fixtureFormatForPath codec path = .ok format) (stored : files.read path = .ok contents) :
    load codec files path = (match format with
      | .json => loadJson codec contents
      | .binary => loadBinary codec contents) >>= fun fixture => do
        fixture.checkSchemaVersion
        return fixture := by
  simp only [load, named, stored, Except.mapError, bind, Except.bind]
  cases format <;> rfl

theorem reportsVersion_json_iff (uses : codec.Uses readers)
    {document : Json} {number : JsonNumber} (spells : readers.document contents = some document)
    (carries : spelledVersion document = some number)
    (unsupported : ∀ version ∈ supportedSchemaVersions, number.value ≠ version) :
    ReportsVersion (loadJson codec contents >>= fun fixture => do
        fixture.checkSchemaVersion
        return fixture) ↔
      Json.Within readers.overflows nestingLimit document ∧ number.IsU64 := by
  have version := uses.version contents document spells
  rw [← Json.exists_read_iff]
  cases done : readers.readDocument document with
  | error reason =>
    have fails : loadJson codec contents = .error (.json reason) := by
      simp only [loadJson, version, done, Except.map, Except.mapError, bind, Except.bind]
    constructor
    · rintro ⟨reported, same⟩
      rw [fails] at same
      cases same
    · rintro ⟨⟨value, read⟩, _⟩
      rw [DocumentReaders.readDocument, read] at done
      cases done
  | ok value =>
    by_cases unsigned : number.IsU64
    · have reports : loadJson codec contents = .error (.unsupportedSchemaVersion
          (clampVersion number.integer) currentSchemaVersion) := by
        simp only [loadJson, version, done, Except.map, Except.mapError, bind, Except.bind,
          schemaVersionOf_eq_some done carries unsigned, clampVersion_unsupported unsigned unsupported,
          Bool.false_eq_true, if_false]
      exact ⟨fun _ => ⟨⟨value, done⟩, unsigned⟩, fun _ => ⟨_, by rw [reports]; rfl⟩⟩
    · -- The version is passed over, and no fixture is decoded from such a document.
      have passes : loadJson codec contents = (codec.fromJson contents).mapError .json := by
        simp only [loadJson, version, done, Except.map, Except.mapError, bind, Except.bind,
          schemaVersionOf_eq_none done carries unsigned]
      refine ⟨?_, fun legible => absurd legible.2 unsigned⟩
      rintro ⟨reported, same⟩
      rw [passes] at same
      cases decoded : codec.fromJson contents with
      | error reason =>
        rw [decoded] at same
        cases same
      | ok fixture =>
        have read := uses.fixture contents document number fixture spells carries decoded
        exact absurd (JsonNumber.isU64_of_read _ read) unsigned

theorem reportsVersion_binary_iff (uses : codec.Uses readers) {header : FixtureHeader}
    {rest : List UInt8} (leads : readers.deserializeHeader contents = .ok (header, rest))
    (unsupported : header.schemaVersion ∉ supportedSchemaVersions) :
    ReportsVersion (loadBinary codec contents >>= fun fixture => do
        fixture.checkSchemaVersion
        return fixture) ↔
      ∃ body, readers.deserializeBody rest = .ok body := by
  -- The version is looked at in a whole fixture, so the body has to decode as well.
  have decodes : codec.deserializeFixture contents = (readers.deserializeBody rest).map fun body =>
      ⟨header, body.1, body.2⟩ := by
    rw [uses.binary, DocumentReaders.deserializeFixture, leads]
    simp only [bind, Except.bind]
    cases readers.deserializeBody rest <;> rfl
  cases body : readers.deserializeBody rest with
  | error reason =>
    constructor
    · rintro ⟨reported, same⟩
      rw [loadBinary, decodes, body] at same
      cases same
    · rintro ⟨read, same⟩
      cases same
  | ok read =>
    refine ⟨fun _ => ⟨read, rfl⟩, fun _ => ⟨header.schemaVersion, ?_⟩⟩
    rw [loadBinary, decodes, body]
    change (Fixture.checkSchemaVersion _ >>= fun _ => _) = _
    rw [checkSchemaVersion_of_unsupported unsupported]
    rfl

end Fixture

/-- A fixture of an unsupported version is reported as one exactly if what is read before the version
is looked at can be read. -/
theorem load_reports_version_iff (codec : Codec) (readers : DocumentReaders)
    (uses : codec.Uses readers) (files : Files) (path : String) (format : FixtureFormat)
    (contents : List UInt8) (named : fixtureFormatForPath codec path = .ok format)
    (stored : files.read path = .ok contents)
    (unsupported : CarriesUnsupportedVersion readers format contents) :
    ReportsVersion (Fixture.load codec files path) ↔ readers.Legible format contents := by
  rw [Fixture.load_eq named stored]
  cases unsupported with
  | json spells carries unsupported =>
    rw [Fixture.reportsVersion_json_iff uses spells carries unsupported]
    constructor
    · rintro ⟨within, unsigned⟩ document same
      rw [spells] at same
      cases same
      refine ⟨within, fun number there => ?_⟩
      rw [carries] at there
      cases there
      exact unsigned
    · intro legible
      exact (legible _ spells).imp_right fun unsigned => unsigned _ carries
  | binary leads unsupported =>
    rw [Fixture.reportsVersion_binary_iff uses leads unsupported]
    constructor
    · intro read header rest same
      rw [leads] at same
      cases same
      exact read
    · exact fun legible => legible _ _ leads

namespace Sample

/-- A document with a header of the given version and nothing else. -/
def versionOnly (version : Nat) : Json :=
  .object [("header", .object [("schema_version", .number ⟨false, version, none, none⟩)])]

/-- Readers for short files: a text is the version of a document, and binary data is the version of a
header with a body that has at least one byte. -/
def shortReaders : DocumentReaders where
  document contents := contents.head?.map fun version => versionOnly version.toNat
  overflows _ := false
  deserializeHeader contents :=
    match contents with
    | version :: rest => .ok (⟨version.toNat, "", .transaction, none, []⟩, rest)
    | [] => .error "unexpected end of input"
  deserializeBody rest :=
    if rest.isEmpty then .error "unexpected end of input"
    else .ok (.transaction ⟨.new 0 none false false, [], [], []⟩,
      ⟨⟨.success, true, 0, 0, [], none, [], []⟩, []⟩)

def shortCodec : Codec where
  extension path := if path == "a.json" then some "json" else some "bin"
  serializeTransaction _ := .error "unsupported"
  deserializeTransaction _ := .error "unsupported"
  serializeFixture _ := .error "unsupported"
  deserializeFixture := shortReaders.deserializeFixture
  toJson _ := .error "unsupported"
  fromJson _ := .error "missing field"
  jsonSchemaVersion contents :=
    match shortReaders.document contents with
    | some document => (shortReaders.readDocument document).map schemaVersionOf
    | none => .error "expected value"

theorem shortCodec_uses : shortCodec.Uses shortReaders := by
  refine ⟨rfl, ?_, ?_⟩
  · intro contents document spells
    simp [shortCodec, spells]
  · intro contents document number fixture spells carries decoded
    cases decoded

/-- A file system in which every file has the contents. -/
def filesOf (contents : List UInt8) : Files := ⟨fun _ => .ok contents, fun _ => .ok ()⟩

theorem newer_document_reported :
    ReportsVersion (Fixture.load shortCodec (filesOf [3]) "a.json") := by
  refine (load_reports_version_iff shortCodec shortReaders shortCodec_uses (filesOf [3]) "a.json"
    .json [3] rfl rfl ?_).2 ?_
  · apply CarriesUnsupportedVersion.json (show _ = some (versionOnly 3) from rfl) rfl
    intro version member
    cases List.mem_singleton.1 member
    decide +kernel
  · intro document spells
    cases spells
    refine ⟨?_, ?_⟩
    · exact (Json.exists_read_iff _ _).1 ⟨_, rfl⟩
    · intro number carries
      cases carries
      decide

/-- A binary document of version 1 whose body this build cannot decode. -/
theorem older_binary_not_reported :
    CarriesUnsupportedVersion shortReaders .binary [1] ∧
      Fixture.load shortCodec (filesOf [1]) "a.bin" =
        .error (.decodeFixture "unexpected end of input") := by
  have leads : shortReaders.deserializeHeader [1] =
      .ok (⟨1, "", .transaction, none, []⟩, []) := rfl
  exact ⟨.binary leads (by decide), rfl⟩

end Sample

end Hpsvm
