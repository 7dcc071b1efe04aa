import Phlo.Library.Fallible
import Phlo.Library.TextEncodings

/-!
# Evidence packs

An evidence pack is written as a ZIP archive: the manifest, the files, the checksums of both and a signature,
which authenticates the bytes of `checksums.json` with a key held outside the archive.  An archive is the list
of its entries, and reading a name gives the last entry of that name.

* `writeZip`, `packEntries` — the archive of a pack;
* `verifyEvidencePack` — whether an archive is intact, or why not.

SHA-256, HMAC, the reading of floats and the texts of Python's own errors come from a `Machine`.
-/

namespace Phlo.Compliance

open Phlo.Library

/-- The text of a digest: not empty, and ASCII. -/
def IsDigest (text : String) : Prop := text ≠ "" ∧ ∀ c ∈ text.toList, c.toNat < 128

/-- What the code takes from Python. -/
structure Machine where
  /-- `hashlib.sha256(data).hexdigest()` -/
  sha256 : Bytes → String
  /-- `hmac.new(key, data, hashlib.sha256).hexdigest()` -/
  hmacSha256 : Bytes → Bytes → String
  float : FloatReader
  /-- Whether a float equals an integer. -/
  floatEq : FloatText → ℤ → Bool
  /-- `str(value)` -/
  str : JsonValue → String
  /-- `str(names)` of a set -/
  strSet : List String → String
  /-- The message of the `UnicodeDecodeError` for bytes that are no text. -/
  decodeError : Bytes → String
  /-- The message of the `KeyError` for a name that is not in an archive. -/
  noItem : String → String
  sha256_injective : Function.Injective sha256
  sha256_digest : ∀ data, IsDigest (sha256 data)
  hmac_digest : ∀ key data, IsDigest (hmacSha256 key data)

/-! ### Keys -/

structure ProcessSettings where
  phloEvidenceHmacKey : Option String
  phloAuditHmacKey : Option String

/-- `first or second` -/
def eitherText (first second : Option String) : Option String :=
  match first with
  | some text => if text = "" then second else some text
  | none => second

def resolveEvidenceHmacKey (settings : ProcessSettings) : Option Bytes → Except String Bytes
  | some [] => .error "Empty key material provided for evidence pack"
  | some (byte :: key) => .ok (byte :: key)
  | none =>
    match eitherText settings.phloEvidenceHmacKey settings.phloAuditHmacKey with
    | some envKey =>
      if envKey = "" then
        .error "No evidence-pack key material: set PHLO_EVIDENCE_HMAC_KEY or PHLO_AUDIT_HMAC_KEY"
      else .ok envKey.toUTF8.toList
    | none => .error "No evidence-pack key material: set PHLO_EVIDENCE_HMAC_KEY or PHLO_AUDIT_HMAC_KEY"

/-- `_compute_key_id` -/
def computeKeyId (m : Machine) (key : Bytes) : String := String.ofList ((m.sha256 key).toList.take 16)

/-- `_canonical_json_bytes` -/
def canonicalJsonBytes (data : JsonValue) : Bytes := asciiBytes (JsonValue.compact (JsonValue.sortKeys data))

/-! ### Writing -/

structure EvidenceManifest where
  packId : String
  createdAt : String
  createdBy : String
  packFormatVersion : ℤ := 2
  complianceDomain : Option String := none
  description : Option String := none
  recordCount : ℤ := 0
  fileCount : ℤ := 0
  totalSizeBytes : ℤ := 0
  sha256Hash : String := ""

structure EvidencePack where
  manifest : EvidenceManifest
  files : OrderedDict String Bytes
  hmacKey : Option Bytes := none

/-- A text or `None`. -/
def optionalText : Option String → JsonValue
  | some text => .str text
  | none => .null

def EvidenceManifest.toJson (manifest : EvidenceManifest) : JsonValue :=
  .obj [("pack_id", .str manifest.packId), ("created_at", .str manifest.createdAt),
    ("created_by", .str manifest.createdBy), ("pack_format_version", .int manifest.packFormatVersion),
    ("compliance_domain", optionalText manifest.complianceDomain),
    ("description", optionalText manifest.description), ("record_count", .int manifest.recordCount),
    ("file_count", .int manifest.fileCount), ("total_size_bytes", .int manifest.totalSizeBytes),
    ("sha256_hash", .str manifest.sha256Hash)]

def EvidencePack.manifestBytes (pack : EvidencePack) : Bytes := canonicalJsonBytes pack.manifest.toJson

def fileHashes (m : Machine) (files : List (String × Bytes)) : List (String × JsonValue) :=
  files.map fun file => (file.1, .str (m.sha256 file.2))

def EvidencePack.checksums (m : Machine) (pack : EvidencePack) : JsonValue :=
  .obj [("manifest_hash", .str (m.sha256 pack.manifestBytes)), ("files", .obj (fileHashes m pack.files.items))]

def EvidencePack.checksumsBytes (m : Machine) (pack : EvidencePack) : Bytes := canonicalJsonBytes (pack.checksums m)

/-- The content of `signature.json`. -/
def signatureFor (m : Machine) (key checksumsBytes : Bytes) : JsonValue :=
  .obj [("version", .int 2), ("algorithm", .str "HMAC-SHA256"), ("key_id", .str (computeKeyId m key)),
    ("checksum_envelope_digest", .str (m.sha256 checksumsBytes)),
    ("authentication_value", .str (m.hmacSha256 key checksumsBytes))]

/-- The entries of an archive, in the order they were written. -/
abbrev Archive := List (String × Bytes)

def packEntries (m : Machine) (key : Bytes) (pack : EvidencePack) : Archive :=
  ("manifest.json", pack.manifestBytes) :: pack.files.items ++
    [("checksums.json", pack.checksumsBytes m),
      ("signature.json", canonicalJsonBytes (signatureFor m key (pack.checksumsBytes m)))]

/-- `first or second` -/
def eitherKey (first second : Option Bytes) : Option Bytes :=
  match first with
  | some (byte :: key) => some (byte :: key)
  | _ => second

/-- `write_zip` -/
def writeZip (m : Machine) (settings : ProcessSettings) (pack : EvidencePack) (hmacKey : Option Bytes) :
    Except String Archive := do
  let key ← resolveEvidenceHmacKey settings (eitherKey hmacKey pack.hmacKey)
  return packEntries m key pack

/-! ### Verifying -/

/-- A result with `valid` false. -/
structure Refusal where
  error : String
  formatVersion : Option JsonValue := none

/-- A result with `valid` true. -/
structure Acceptance where
  packId : JsonValue
  createdAt : JsonValue
  fileCount : JsonValue
  recordCount : JsonValue
  keyId : JsonValue

abbrev Verdict := Except Refusal Acceptance

/-- A refusal that gives no more than its reason. -/
def refusal (error : String) : Refusal := ⟨error, none⟩

/-- `type(value).__name__` -/
def typeName : JsonValue → String
  | .null => "NoneType"
  | .bool _ => "bool"
  | .int _ => "int"
  | .float _ => "float"
  | .str _ => "str"
  | .arr _ => "list"
  | .obj _ => "dict"

/-- The members of a dictionary that is asked for an attribute. -/
def fieldsFor (name : String) : JsonValue → Except Refusal (List (String × JsonValue))
  | .obj fields => .ok fields
  | v => .error (refusal ("'" ++ typeName v ++ "' object has no attribute '" ++ name ++ "'"))

/-- `data.get(key, default)` -/
def getOr (data : JsonValue) (key : String) (default : JsonValue) : Except Refusal JsonValue := do
  let fields ← fieldsFor "get" data
  return (JsonValue.member key (.obj fields)).getD default

/-- `data.get(key)` -/
def getKey (data : JsonValue) (key : String) : Except Refusal JsonValue := getOr data key .null

/-- `value == n` -/
def equalsInt (m : Machine) (n : ℤ) : JsonValue → Bool
  | .int value => value = n
  | .float text => m.floatEq text n
  | .bool b => (if b then 1 else 0) = n
  | _ => false

/-- `value == text` -/
def equalsText (text : String) : JsonValue → Bool
  | .str value => value = text
  | _ => false

def isTruthy (m : Machine) : JsonValue → Bool
  | .null => false
  | .bool b => b
  | .int n => n ≠ 0
  | .float text => !m.floatEq text 0
  | .str s => s ≠ ""
  | .arr items => !items.isEmpty
  | .obj fields => !fields.isEmpty

/-- `hmac.compare_digest(ours, theirs)` for an ASCII text of ours -/
def compareDigest (ours : String) : JsonValue → Except Refusal Bool
  | .str theirs =>
    if theirs.toList.all fun c => c.toNat < 128 then .ok (ours = theirs)
    else .error (refusal "comparing strings with non-ASCII characters is not supported")
  | v => .error (refusal ("unsupported operand types(s) or combination of types: 'str' and '" ++ typeName v ++ "'"))

/-- `_verify_pack_signature` -/
def verifyPackSignature (m : Machine) (settings : ProcessSettings) (signature : JsonValue) (checksumsBytes : Bytes)
    (hmacKey : Option Bytes) : Except Refusal Unit := do
  let version ← getKey signature "version"
  require (equalsInt m 2 version) ⟨"Unsupported pack format version: " ++ m.str version, some version⟩
  let algorithm ← getKey signature "algorithm"
  require (equalsText "HMAC-SHA256" algorithm) (refusal ("Unsupported algorithm: " ++ m.str algorithm))
  let envelopeDigest ← getKey signature "checksum_envelope_digest"
  let authenticationValue ← getKey signature "authentication_value"
  let keyId ← getKey signature "key_id"
  require (isTruthy m envelopeDigest ∧ isTruthy m authenticationValue ∧ isTruthy m keyId)
    (refusal "Incomplete signature")
  let key ← (resolveEvidenceHmacKey settings hmacKey).mapError refusal
  let sameKey ← compareDigest (computeKeyId m key) keyId
  require sameKey (refusal "Key identifier mismatch")
  let sameDigest ← compareDigest (m.sha256 checksumsBytes) envelopeDigest
  require sameDigest (refusal "Checksum envelope digest mismatch")
  let sameValue ← compareDigest (m.hmacSha256 key checksumsBytes) authenticationValue
  require sameValue (refusal "Authentication value mismatch")

def archiveMetaFiles : List String := ["manifest.json", "checksums.json", "signature.json"]

def names (archive : Archive) : List String := archive.map Prod.fst

/-- `archive.read(name)` -/
def readEntry (m : Machine) (archive : Archive) (name : String) : Except Refusal Bytes :=
  match OrderedDict.lastOf name archive with
  | some content => .ok content
  | none => .error (refusal (m.noItem name))

/-- The file that is checked against a hash of `checksums.json`. -/
def verifyFile (m : Machine) (archive : Archive) (file : String × JsonValue) : Except Refusal Unit := do
  require (file.1 ∈ names archive) (refusal ("Missing file: " ++ file.1))
  let content ← readEntry m archive file.1
  require (equalsText (m.sha256 content) file.2) (refusal ("Hash mismatch for " ++ file.1))

/-- `_verify_pack_contents` -/
def verifyPackContents (m : Machine) (archive : Archive) (checksums : JsonValue) : Except Refusal Unit := do
  let manifest ← readEntry m archive "manifest.json"
  let manifestHash ← getKey checksums "manifest_hash"
  require (equalsText (m.sha256 manifest) manifestHash) (refusal "Manifest hash mismatch")
  let files ← getOr checksums "files" (.obj [])
  let fields ← fieldsFor "keys" files
  let expectedFiles := fields.map Prod.fst
  let actualFiles := (names archive).filter fun name => name ∉ archiveMetaFiles
  let extra := actualFiles.filter fun name => name ∉ expectedFiles
  let missing := expectedFiles.filter fun name => name ∉ actualFiles
  require (extra = []) (refusal ("Unexpected files in pack: " ++ m.strSet extra))
  require (missing = []) (refusal ("Missing files from pack: " ++ m.strSet missing))
  fields.forM (verifyFile m archive)

/-- `json.loads` of an entry -/
def loadEntry (m : Machine) (content : Bytes) : Except Refusal JsonValue :=
  match decode content with
  | none => .error (refusal (m.decodeError content))
  | some text =>
    match JsonValue.loads m.float text with
    | none => .error (refusal "Invalid JSON in pack")
    | some value => .ok value

def verifyArchive (m : Machine) (settings : ProcessSettings) (archive : Archive) (hmacKey : Option Bytes) :
    Verdict := do
  require ("manifest.json" ∈ names archive) (refusal "Missing manifest.json")
  require ("checksums.json" ∈ names archive) (refusal "Missing checksums.json")
  require ("signature.json" ∈ names archive)
    ⟨"Unsigned evidence pack (format version 1) — not supported", some (.int 1)⟩
  let manifest ← readEntry m archive "manifest.json"
  let manifestData ← loadEntry m manifest
  let checksumsBytes ← readEntry m archive "checksums.json"
  let checksumsData ← loadEntry m checksumsBytes
  let signature ← readEntry m archive "signature.json"
  let signatureData ← loadEntry m signature
  let storedKeyId ← getKey signatureData "key_id"
  verifyPackSignature m settings signatureData checksumsBytes hmacKey
  verifyPackContents m archive checksumsData
  let packId ← getKey manifestData "pack_id"
  let createdAt ← getKey manifestData "created_at"
  let fileCount ← getOr manifestData "file_count" (.int 0)
  let recordCount ← getOr manifestData "record_count" (.int 0)
  return ⟨packId, createdAt, fileCount, recordCount, storedKeyId⟩

/-- What is found at the path of an archive. -/
inductive ZipFile where
  | absent
  | notZip
  | archive (entries : Archive)

/-- `verify_evidence_pack` -/
def verifyEvidencePack (m : Machine) (settings : ProcessSettings) (hmacKey : Option Bytes) : ZipFile → Verdict
  | .absent => .error (refusal "File not found")
  | .notZip => .error (refusal "Invalid ZIP file")
  | .archive entries => verifyArchive m settings entries hmacKey

end Phlo.Compliance
