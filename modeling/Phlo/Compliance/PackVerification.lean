import Phlo.Compliance.EvidencePack

/-!
# What a verified evidence pack is

Verification reads the last entry of each name.  Under a key that has authenticated nothing but genuine packs it
accepts an archive exactly when that is how one of these packs is read; entries that come before the last one of
their name are never looked at.

* `verifyPackSignature_eq_ok`, `verifyPackContents_eq_ok` — what the two halves of the verification check;
* `verify_iff_resembles` — the archives that verify;
* `repeated_name_verifies` — an entry ahead of another of its name can be anything.
-/

namespace Phlo.Compliance

open Phlo.Library
open JsonValue (member loadsBytes)

/-! ### Notions -/

def IsValid (verdict : Verdict) : Prop := ∃ acceptance, verdict = .ok acceptance

/-- A pack whose files take no reserved name. -/
def Proper (pack : EvidencePack) : Prop := ∀ file ∈ pack.files.items, file.1 ∉ archiveMetaFiles

/-- The signature of `checksums.json`. -/
structure Signed (m : Machine) (key : Bytes) (signature : JsonValue) (checksumsBytes : Bytes) : Prop where
  version : ∃ version, member "version" signature = some version ∧ equalsInt m 2 version = true
  algorithm : member "algorithm" signature = some (.str "HMAC-SHA256")
  envelopeDigest : member "checksum_envelope_digest" signature = some (.str (m.sha256 checksumsBytes))
  authenticationValue :
    member "authentication_value" signature = some (.str (m.hmacSha256 key checksumsBytes))
  keyId : member "key_id" signature = some (.str (computeKeyId m key))

/-- An archive that reads as a pack does, with a signature of its checksums. -/
structure Resembles (m : Machine) (key : Bytes) (archive : Archive) (pack : EvidencePack) : Prop where
  proper : Proper pack
  reads : ∀ name, name ≠ "signature.json" →
    OrderedDict.lastOf name archive = OrderedDict.lastOf name (packEntries m key pack)
  signed : ∃ content signature, OrderedDict.lastOf "signature.json" archive = some content ∧
    loadsBytes m.float content = some signature ∧ Signed m key signature (pack.checksumsBytes m)

def Unforged (m : Machine) (key : Bytes) (genuine : List EvidencePack) (archive : Archive) : Prop :=
  ∀ content ∈ archive.map Prod.snd, ∀ signature ∈ archive.map Prod.snd, ∀ value,
    loadsBytes m.float signature = some value →
    member "authentication_value" value = some (.str (m.hmacSha256 key content)) →
    ∃ pack ∈ genuine, content = pack.checksumsBytes m

def HasEntriesOf (m : Machine) (key : Bytes) (archive : Archive) (pack : EvidencePack) : Prop :=
  (∀ entry ∈ archive, entry.1 ≠ "signature.json" → entry ∈ packEntries m key pack) ∧
  (∀ entry ∈ packEntries m key pack, entry.1 ≠ "signature.json" → entry ∈ archive) ∧
  "signature.json" ∈ names archive

def VerifiedIsGenuine (m : Machine) (settings : ProcessSettings) (hmacKey : Option Bytes) (key : Bytes)
    (genuine : List EvidencePack) (archive : Archive) : Prop :=
  IsValid (verifyEvidencePack m settings hmacKey (.archive archive)) →
    (∃ pack ∈ genuine, HasEntriesOf m key archive pack) ∧ (names archive).Nodup

/-! ### Members -/

variable {fields : List (String × JsonValue)} {name : String} {v : JsonValue} {hmacKey : Option Bytes}
  {key content : Bytes} {m : Machine} {settings : ProcessSettings} {archive : Archive} {pack : EvidencePack}

theorem fieldsFor_eq_ok {data : JsonValue} : fieldsFor name data = .ok fields ↔ data = .obj fields := by
  cases data with
  | obj fields' =>
    constructor
    · intro h
      cases h
      rfl
    · intro h
      cases h
      rfl
  | _ =>
    constructor
    · intro h
      cases h
    · intro h
      cases h

theorem getOr_eq_ok {data default : JsonValue} {key : String} :
    getOr data key default = .ok v ↔ ∃ fields, data = .obj fields ∧ (member key data).getD default = v := by
  rw [getOr, bind_eq_ok]
  constructor
  · rintro ⟨fields, hfields, hv⟩
    rw [fieldsFor_eq_ok] at hfields
    subst hfields
    exact ⟨fields, rfl, Except.ok.inj hv⟩
  · rintro ⟨fields, rfl, rfl⟩
    exact ⟨fields, rfl, rfl⟩

theorem getD_null_eq {o : Option JsonValue} (hv : v ≠ .null) : o.getD .null = v ↔ o = some v := by
  cases o with
  | none =>
    constructor
    · intro h
      exact absurd h.symm hv
    · intro h
      cases h
  | some w =>
    constructor
    · intro h
      exact congrArg some h
    · intro h
      exact Option.some.inj h

@[simp] theorem equalsText_iff {text : String} : equalsText text v = true ↔ v = .str text := by
  cases v with
  | str s =>
    show decide (s = text) = true ↔ _
    rw [decide_eq_true_eq, JsonValue.str.injEq]
  | _ =>
    constructor
    · intro h
      cases h
    · intro h
      cases h

/-- A text is found by comparing it in constant time exactly where it is. -/
theorem compareDigest_eq_ok {ours : String} (h : IsDigest ours) : compareDigest ours v = .ok true ↔ v = .str ours := by
  cases v with
  | str s =>
    rw [compareDigest, JsonValue.str.injEq]
    split
    · constructor
      · intro hsame
        exact (of_decide_eq_true (Except.ok.inj hsame)).symm
      · rintro rfl
        exact congrArg Except.ok (decide_eq_true rfl)
    · next hascii =>
      constructor
      · intro hsame
        cases hsame
      · rintro rfl
        exact absurd (List.all_eq_true.2 fun c hc => decide_eq_true (h.2 c hc)) hascii
  | _ =>
    constructor
    · intro h
      cases h
    · intro h
      cases h

theorem isTruthy_digest (m : Machine) {text : String} (h : IsDigest text) : isTruthy m (.str text) = true :=
  decide_eq_true h.1

theorem keyId_digest (m : Machine) (key : Bytes) : IsDigest (computeKeyId m key) := by
  obtain ⟨hne, hascii⟩ := m.sha256_digest key
  constructor
  · intro hempty
    have htake : (m.sha256 key).toList.take 16 = [] := by
      have hlist := congrArg String.toList hempty
      rwa [computeKeyId, String.toList_ofList] at hlist
    rcases List.take_eq_nil_iff.1 htake with h | h
    · exact absurd h (by decide)
    · exact hne (String.toList_injective (h.trans rfl))
  · intro c hc
    rw [computeKeyId, String.toList_ofList] at hc
    exact hascii c (List.mem_of_mem_take hc)

/-! ### The signature -/

theorem verifyPackSignature_eq_ok (hkey : resolveEvidenceHmacKey settings hmacKey = .ok key) {signature : JsonValue}
    {checksumsBytes : Bytes} : verifyPackSignature m settings signature checksumsBytes hmacKey = .ok () ↔
      Signed m key signature checksumsBytes := by
  have hid := keyId_digest m key
  have hdigest := m.sha256_digest checksumsBytes
  have hvalue := m.hmac_digest key checksumsBytes
  constructor
  · intro h
    simp only [verifyPackSignature, bind_eq_ok, getKey, getOr_eq_ok, require_eq_ok, mapError_eq_ok, hkey] at h
    obtain ⟨version, ⟨fields, rfl, hversion⟩, -, htwo, algorithm, ⟨-, -, halgorithm⟩, -, hname,
      envelope, ⟨-, -, henvelope⟩, value, ⟨-, -, hauth⟩, id, ⟨-, -, hkeyId⟩, -, -, key', hsame, sameKey, hsameKey, -,
      rfl, sameDigest, hsameDigest, -, rfl, sameValue, hsameValue, rfl⟩ := h
    cases hsame
    rw [compareDigest_eq_ok hid] at hsameKey
    rw [compareDigest_eq_ok hdigest] at hsameDigest
    rw [compareDigest_eq_ok hvalue] at hsameValue
    rw [equalsText_iff] at hname
    subst hname hsameKey hsameDigest hsameValue
    have hversion : member "version" (.obj fields) = some version := by
      refine (getD_null_eq ?_).1 hversion
      rintro rfl
      cases htwo
    exact ⟨⟨version, hversion, htwo⟩, (getD_null_eq (by simp)).1 halgorithm, (getD_null_eq (by simp)).1 henvelope,
      (getD_null_eq (by simp)).1 hauth, (getD_null_eq (by simp)).1 hkeyId⟩
  · intro h
    obtain ⟨⟨version, hversion, htwo⟩, halgorithm, henvelope, hauth, hkeyId⟩ := h
    cases signature with
    | obj fields =>
      have hget : ∀ {name v}, member name (.obj fields) = some v → getKey (.obj fields) name = .ok v := by
        intro name v hmember
        exact getOr_eq_ok.2 ⟨fields, rfl, by rw [hmember]; rfl⟩
      simp only [verifyPackSignature, hget hversion, hget halgorithm, hget henvelope, hget hauth, hget hkeyId,
        ok_bind, bind_eq_ok, require_eq_ok, equalsText_iff, mapError_eq_ok]
      exact ⟨(), htwo, (), trivial, (), ⟨isTruthy_digest m hdigest, isTruthy_digest m hvalue, isTruthy_digest m hid⟩,
        key, hkey, true, (compareDigest_eq_ok hid).2 rfl, (), rfl, true, (compareDigest_eq_ok hdigest).2 rfl, (), rfl,
        true, (compareDigest_eq_ok hvalue).2 rfl, rfl⟩
    | _ => cases halgorithm

/-! ### The contents -/

theorem readEntry_eq_ok : readEntry m archive name = .ok content ↔ OrderedDict.lastOf name archive = some content := by
  unfold readEntry
  cases OrderedDict.lastOf name archive with
  | none =>
    constructor
    · intro h
      cases h
    · intro h
      cases h
  | some found => rw [Except.ok.injEq, Option.some.injEq]

theorem mem_names (h : OrderedDict.lastOf name archive = some content) : name ∈ names archive :=
  List.mem_map.2 ⟨(name, content), OrderedDict.mem_of_lastOf h, rfl⟩

theorem lastOf_eq_none (h : name ∉ names archive) : OrderedDict.lastOf name archive = none :=
  OrderedDict.lastOf_eq_none_iff.2 fun content hmem => h (List.mem_map.2 ⟨(name, content), hmem, rfl⟩)

theorem verifyFile_eq_ok {file : String × JsonValue} : verifyFile m archive file = .ok () ↔
      ∃ content, OrderedDict.lastOf file.1 archive = some content ∧ file.2 = .str (m.sha256 content) := by
  simp only [verifyFile, bind_eq_ok, require_eq_ok, readEntry_eq_ok, equalsText_iff]
  constructor
  · rintro ⟨-, -, content, hread, hhash⟩
    exact ⟨content, hread, hhash⟩
  · rintro ⟨content, hread, hhash⟩
    exact ⟨(), mem_names hread, content, hread, hhash⟩

theorem verifyPackContents_eq_ok {checksums : JsonValue} (hfiles : member "files" checksums = some (.obj fields)) :
    verifyPackContents m archive checksums = .ok () ↔
      (∃ content, OrderedDict.lastOf "manifest.json" archive = some content ∧
        member "manifest_hash" checksums = some (.str (m.sha256 content))) ∧
      (∀ name ∈ names archive, name ∉ archiveMetaFiles → name ∈ fields.map Prod.fst) ∧
      (∀ name ∈ fields.map Prod.fst, name ∈ names archive ∧ name ∉ archiveMetaFiles) ∧
      ∀ file ∈ fields, ∃ content, OrderedDict.lastOf file.1 archive = some content ∧
        file.2 = .str (m.sha256 content) := by
  cases checksums with
  | obj members =>
    have hget : getOr (.obj members) "files" (.obj []) = .ok (.obj fields) :=
      getOr_eq_ok.2 ⟨members, rfl, by rw [hfiles]; rfl⟩
    have hkeys : fieldsFor "keys" (.obj fields) = .ok fields := rfl
    simp only [verifyPackContents, hget, hkeys, ok_bind, bind_eq_ok, require_eq_ok, readEntry_eq_ok, equalsText_iff,
      listForM_eq_ok, verifyFile_eq_ok, getKey, getOr_eq_ok, List.filter_eq_nil_iff, List.mem_filter,
      decide_eq_true_eq, not_not]
    constructor
    · rintro ⟨content, hread, hash, ⟨-, -, hhash⟩, -, rfl, -, hextra, -, hmissing, hcontents⟩
      exact ⟨⟨content, hread, (getD_null_eq (by simp)).1 hhash⟩, fun name hname hmeta => hextra name ⟨hname, hmeta⟩,
        hmissing, hcontents⟩
    · rintro ⟨⟨content, hread, hhash⟩, hextra, hmissing, hcontents⟩
      exact ⟨content, hread, .str (m.sha256 content), ⟨members, rfl, by rw [hhash]; rfl⟩, (), rfl, (),
        fun name hname => hextra name hname.1 hname.2, (), hmissing, hcontents⟩
  | _ => cases hfiles

/-! ### What is written is read back -/

theorem loadsBytes_canonical {float : FloatReader} (h : JsonValue.Readable float v) :
    loadsBytes float (canonicalJsonBytes v) = some v.sortKeys :=
  JsonValue.loadsBytes_compact (JsonValue.readable_sortKeys h)

theorem readable_optionalText (float : FloatReader) (text : Option String) :
    JsonValue.Readable float (optionalText text) := by
  cases text <;> trivial

theorem readable_manifest (float : FloatReader) (manifest : EvidenceManifest) :
    JsonValue.Readable float manifest.toJson := by
  refine ⟨?_, JsonValue.readableFields_iff.2 fun field hfield => ?_⟩
  · show ["pack_id", "created_at", "created_by", "pack_format_version", "compliance_domain", "description",
      "record_count", "file_count", "total_size_bytes", "sha256_hash"].Nodup
    decide
  · simp only [List.mem_cons, List.not_mem_nil, or_false] at hfield
    rcases hfield with rfl | rfl | rfl | rfl | rfl | rfl | rfl | rfl | rfl | rfl
    case inr.inr.inr.inr.inl => exact readable_optionalText float _
    case inr.inr.inr.inr.inr.inl => exact readable_optionalText float _
    all_goals trivial

theorem map_fst_fileHashes (m : Machine) (files : List (String × Bytes)) :
    (fileHashes m files).map Prod.fst = files.map Prod.fst := by
  rw [fileHashes, List.map_map]
  rfl

theorem readable_checksums (m : Machine) (pack : EvidencePack) : JsonValue.Readable m.float (pack.checksums m) := by
  refine ⟨?_, trivial, ⟨?_, JsonValue.readableFields_iff.2 fun field hfield => ?_⟩, trivial⟩
  · show ["manifest_hash", "files"].Nodup
    decide
  · rw [map_fst_fileHashes]
    exact pack.files.nodup
  · obtain ⟨file, -, rfl⟩ := List.mem_map.1 hfield
    trivial

theorem readable_signature (m : Machine) (key checksumsBytes : Bytes) :
    JsonValue.Readable m.float (signatureFor m key checksumsBytes) := by
  refine ⟨?_, trivial, trivial, trivial, trivial, trivial, trivial⟩
  show ["version", "algorithm", "key_id", "checksum_envelope_digest", "authentication_value"].Nodup
  decide

theorem member_sorted (h : (fields.map Prod.fst).Nodup) (name : String) :
    member name (JsonValue.sortKeys (.obj fields)) = (member name (.obj fields)).map JsonValue.sortKeys :=
  have hdistinct : JsonValue.KeysDistinct (.obj fields) := h
  JsonValue.member_sortKeys hdistinct name

theorem signed_signatureFor (m : Machine) (key checksumsBytes : Bytes) :
    Signed m key (signatureFor m key checksumsBytes).sortKeys checksumsBytes := by
  have hmember := member_sorted (readable_signature m key checksumsBytes).1
  constructor
  · exact ⟨.int 2, hmember "version", rfl⟩
  · exact hmember "algorithm"
  · exact hmember "checksum_envelope_digest"
  · exact hmember "authentication_value"
  · exact hmember "key_id"

theorem member_checksums (m : Machine) (pack : EvidencePack) :
    member "manifest_hash" (pack.checksums m).sortKeys = some (.str (m.sha256 pack.manifestBytes)) ∧
    member "files" (pack.checksums m).sortKeys = some (.obj (sortBy Prod.fst (fileHashes m pack.files.items))) := by
  have hmember := member_sorted (readable_checksums m pack).1
  have hsame : JsonValue.sortFields (fileHashes m pack.files.items) = fileHashes m pack.files.items := by
    rw [JsonValue.sortFields_eq, fileHashes, List.map_map]
    rfl
  refine ⟨hmember "manifest_hash", (hmember "files").trans ?_⟩
  show some (JsonValue.obj (sortBy Prod.fst (JsonValue.sortFields (fileHashes m pack.files.items)))) = _
  rw [hsame]

theorem verifyPackContents_checksums : verifyPackContents m archive (pack.checksums m).sortKeys = .ok () ↔
      OrderedDict.lastOf "manifest.json" archive = some pack.manifestBytes ∧
      (∀ name ∈ names archive, name ∉ archiveMetaFiles → name ∈ pack.files.items.map Prod.fst) ∧ Proper pack ∧
      ∀ file ∈ pack.files.items, OrderedDict.lastOf file.1 archive = some file.2 := by
  obtain ⟨hmanifest, hfiles⟩ := member_checksums m pack
  have hmem : ∀ field, field ∈ sortBy Prod.fst (fileHashes m pack.files.items) ↔
      ∃ file ∈ pack.files.items, (file.1, JsonValue.str (m.sha256 file.2)) = field := by
    intro field
    rw [mem_sortBy, fileHashes, List.mem_map]
  have hnames : ∀ name, name ∈ (sortBy Prod.fst (fileHashes m pack.files.items)).map Prod.fst ↔
      name ∈ pack.files.items.map Prod.fst := by
    intro name
    rw [((sortBy_perm Prod.fst (fileHashes m pack.files.items)).map Prod.fst).mem_iff, map_fst_fileHashes]
  have hread : ∀ name content, (∃ found, OrderedDict.lastOf name archive = some found ∧
      JsonValue.str (m.sha256 content) = .str (m.sha256 found)) ↔ OrderedDict.lastOf name archive = some content := by
    intro name content
    constructor
    · rintro ⟨found, hfound, hhash⟩
      rw [m.sha256_injective (JsonValue.str.inj hhash)]
      exact hfound
    · intro h
      exact ⟨content, h, rfl⟩
  rw [verifyPackContents_eq_ok hfiles, hmanifest]
  simp only [Option.some.injEq, hread, hnames]
  refine and_congr Iff.rfl (and_congr Iff.rfl ?_)
  constructor
  · rintro ⟨hproper, hhashes⟩
    refine ⟨fun file hfile => (hproper file.1 (List.mem_map_of_mem hfile)).2, fun file hfile => ?_⟩
    exact (hread _ _).1 (hhashes _ ((hmem _).2 ⟨file, hfile, rfl⟩))
  · rintro ⟨hproper, hcontents⟩
    constructor
    · intro name hname
      obtain ⟨file, hfile, rfl⟩ := List.mem_map.1 hname
      exact ⟨mem_names (hcontents file hfile), hproper file hfile⟩
    · intro field hfield
      obtain ⟨file, hfile, rfl⟩ := (hmem field).1 hfield
      exact ⟨file.2, hcontents file hfile, rfl⟩

/-! ### The entries of a pack -/

theorem names_packEntries (m : Machine) (key : Bytes) (pack : EvidencePack) : names (packEntries m key pack) =
      "manifest.json" :: (pack.files.items.map Prod.fst ++ ["checksums.json", "signature.json"]) := by
  rw [names, packEntries, List.map_append, List.map_cons]
  rfl

theorem names_nodup (h : Proper pack) : (names (packEntries m key pack)).Nodup := by
  have hfile : ∀ name ∈ pack.files.items.map Prod.fst, name ∉ archiveMetaFiles := by
    intro name hname
    obtain ⟨file, hmem, rfl⟩ := List.mem_map.1 hname
    exact h file hmem
  rw [names_packEntries, List.nodup_cons, List.mem_append, List.nodup_append]
  refine ⟨?_, pack.files.nodup, by decide, ?_⟩
  · rintro (hname | hname)
    · exact hfile _ hname (by decide)
    · revert hname
      decide
  · rintro name hname reserved hreserved rfl
    refine hfile name hname ?_
    rw [List.mem_cons, List.mem_singleton] at hreserved
    rcases hreserved with rfl | rfl <;> decide

theorem lastOf_eq_some_iff (h : (names archive).Nodup) :
    OrderedDict.lastOf name archive = some content ↔ (name, content) ∈ archive := by
  have hitems := OrderedDict.lastOf_items (⟨archive, h⟩ : OrderedDict String Bytes) name
  rw [show OrderedDict.lastOf name archive = _ from hitems, OrderedDict.get_eq_some_iff]

theorem lastOf_packEntries (h : Proper pack) : OrderedDict.lastOf name (packEntries m key pack) = some content ↔
      (name, content) ∈ packEntries m key pack :=
  lastOf_eq_some_iff (names_nodup h)

theorem mem_packEntries {entry : String × Bytes} :
    entry ∈ packEntries m key pack ↔ entry = ("manifest.json", pack.manifestBytes) ∨ entry ∈ pack.files.items ∨
      entry = ("checksums.json", pack.checksumsBytes m) ∨
      entry = ("signature.json", canonicalJsonBytes (signatureFor m key (pack.checksumsBytes m))) := by
  simp only [packEntries, List.mem_cons, List.mem_append, List.not_mem_nil, or_false, or_assoc]

/-! ### Archives that verify -/

theorem loadEntry_eq_ok {value : JsonValue} :
    loadEntry m content = .ok value ↔ loadsBytes m.float content = some value := by
  unfold loadEntry loadsBytes
  cases decode content with
  | none =>
    constructor
    · intro h
      cases h
    · intro h
      cases h
  | some text =>
    rw [Option.bind_some]
    dsimp only
    cases JsonValue.loads m.float text with
    | none =>
      constructor
      · intro h
        cases h
      · intro h
        cases h
    | some found => rw [Except.ok.injEq, Option.some.injEq]

theorem isValid_verifyArchive (hkey : resolveEvidenceHmacKey settings hmacKey = .ok key) :
    IsValid (verifyArchive m settings archive hmacKey) ↔ ∃ manifest fields checksumsBytes checksums content signature,
        OrderedDict.lastOf "manifest.json" archive = some manifest ∧
        loadsBytes m.float manifest = some (.obj fields) ∧
        OrderedDict.lastOf "checksums.json" archive = some checksumsBytes ∧
        loadsBytes m.float checksumsBytes = some checksums ∧
        OrderedDict.lastOf "signature.json" archive = some content ∧ loadsBytes m.float content = some signature ∧
        Signed m key signature checksumsBytes ∧ verifyPackContents m archive checksums = .ok () := by
  constructor
  · rintro ⟨acceptance, h⟩
    simp only [verifyArchive, bind_eq_ok, require_eq_ok, readEntry_eq_ok, loadEntry_eq_ok, getKey, getOr_eq_ok,
      verifyPackSignature_eq_ok hkey] at h
    obtain ⟨-, -, -, -, -, -, manifest, hmanifest, value, hvalue, checksumsBytes, hbytes, checksums, hchecksums,
      content, hcontent, signature, hsignature, -, -, -, hsigned, _, hcontents, -, ⟨fields, rfl, -⟩, -⟩ := h
    exact ⟨manifest, fields, checksumsBytes, checksums, content, signature, hmanifest, hvalue, hbytes, hchecksums,
      hcontent, hsignature, hsigned, hcontents⟩
  · rintro ⟨manifest, fields, checksumsBytes, checksums, content, signature, hmanifest, hvalue, hbytes, hchecksums,
      hcontent, hsignature, hsigned, hcontents⟩
    obtain ⟨members, rfl⟩ : ∃ members, signature = .obj members := by
      have halgorithm := hsigned.algorithm
      cases signature with
      | obj members => exact ⟨members, rfl⟩
      | _ => cases halgorithm
    have hget : ∀ members name default, ∃ v, getOr (.obj members) name default = .ok v :=
      fun members name default => ⟨_, getOr_eq_ok.2 ⟨members, rfl, rfl⟩⟩
    obtain ⟨keyId, hkeyId⟩ := hget members "key_id" .null
    obtain ⟨packId, hpackId⟩ := hget fields "pack_id" .null
    obtain ⟨createdAt, hcreatedAt⟩ := hget fields "created_at" .null
    obtain ⟨fileCount, hfileCount⟩ := hget fields "file_count" (.int 0)
    obtain ⟨recordCount, hrecordCount⟩ := hget fields "record_count" (.int 0)
    refine ⟨⟨packId, createdAt, fileCount, recordCount, keyId⟩, ?_⟩
    simp only [verifyArchive, bind_eq_ok, require_eq_ok, readEntry_eq_ok, loadEntry_eq_ok, getKey,
      verifyPackSignature_eq_ok hkey]
    exact ⟨(), mem_names hmanifest, (), mem_names hbytes, (), mem_names hcontent, manifest, hmanifest, .obj fields,
      hvalue, checksumsBytes, hbytes, checksums, hchecksums, content, hcontent, .obj members, hsignature, keyId, hkeyId,
      (), hsigned, (), hcontents, packId, hpackId, createdAt, hcreatedAt, fileCount, hfileCount, recordCount,
      hrecordCount, rfl⟩

theorem isValid_of_resembles (hkey : resolveEvidenceHmacKey settings hmacKey = .ok key)
    (h : Resembles m key archive pack) : IsValid (verifyArchive m settings archive hmacKey) := by
  obtain ⟨content, signature, hcontent, hsignature, hsigned⟩ := h.signed
  have hread : ∀ name bytes, name ≠ "signature.json" → (name, bytes) ∈ packEntries m key pack →
      OrderedDict.lastOf name archive = some bytes :=
    fun name bytes hname hmem => (h.reads name hname).trans ((lastOf_packEntries h.proper).2 hmem)
  have hmanifest := hread _ _ (by decide) (mem_packEntries.2 (.inl rfl))
  have hchecksums := hread _ _ (by decide) (mem_packEntries.2 (.inr (.inr (.inl rfl))))
  refine (isValid_verifyArchive hkey).2 ⟨pack.manifestBytes, _, pack.checksumsBytes m, _, content, signature, hmanifest,
    loadsBytes_canonical (readable_manifest m.float pack.manifest), hchecksums,
    loadsBytes_canonical (readable_checksums m pack), hcontent, hsignature, hsigned, ?_⟩
  refine verifyPackContents_checksums.2 ⟨hmanifest, fun name hname hmeta => ?_, h.proper, fun file hfile => ?_⟩
  · by_contra hfile
    have hnone : OrderedDict.lastOf name (packEntries m key pack) = none := by
      refine lastOf_eq_none fun hentry => ?_
      rw [names_packEntries] at hentry
      simp only [List.mem_cons, List.mem_append, List.not_mem_nil, or_false] at hentry
      simp only [archiveMetaFiles, List.mem_cons, List.not_mem_nil, or_false] at hmeta
      tauto
    rw [← h.reads name fun heq => hmeta (by rw [heq]; decide)] at hnone
    obtain ⟨entry, hentry, rfl⟩ := List.mem_map.1 hname
    exact OrderedDict.lastOf_eq_none_iff.1 hnone entry.2 hentry
  · refine hread _ _ (fun heq => h.proper file hfile (by rw [heq]; decide)) ?_
    exact mem_packEntries.2 (.inr (.inl hfile))

theorem resembles_of_isValid (hkey : resolveEvidenceHmacKey settings hmacKey = .ok key) {genuine : List EvidencePack}
    (hunforged : Unforged m key genuine archive) (h : IsValid (verifyArchive m settings archive hmacKey)) :
    ∃ pack ∈ genuine, Resembles m key archive pack := by
  obtain ⟨manifest, fields, checksumsBytes, checksums, content, signature, hmanifest, -, hbytes, hchecksums, hcontent,
    hsignature, hsigned, hcontents⟩ := (isValid_verifyArchive hkey).1 h
  obtain ⟨pack, hpack, rfl⟩ := hunforged checksumsBytes
    (List.mem_map.2 ⟨_, OrderedDict.mem_of_lastOf hbytes, rfl⟩) content
    (List.mem_map.2 ⟨_, OrderedDict.mem_of_lastOf hcontent, rfl⟩) signature hsignature hsigned.authenticationValue
  have hvalue : checksums = (pack.checksums m).sortKeys :=
    Option.some.inj (hchecksums.symm.trans (loadsBytes_canonical (readable_checksums m pack)))
  subst hvalue
  obtain ⟨hpackManifest, hextra, hproper, hfiles⟩ := verifyPackContents_checksums.1 hcontents
  refine ⟨pack, hpack, hproper, fun name hname => ?_, content, signature, hcontent, hsignature, hsigned⟩
  have hsame : ∀ bytes, (name, bytes) ∈ packEntries m key pack → OrderedDict.lastOf name archive = some bytes := by
    intro bytes hmem
    rcases mem_packEntries.1 hmem with heq | hfile | heq | heq
    · obtain ⟨rfl, rfl⟩ := Prod.mk.inj heq
      exact hpackManifest
    · exact hfiles _ hfile
    · obtain ⟨rfl, rfl⟩ := Prod.mk.inj heq
      exact hbytes
    · exact absurd (Prod.mk.inj heq).1 hname
  cases hentry : OrderedDict.lastOf name (packEntries m key pack) with
  | some bytes => exact hsame bytes (OrderedDict.mem_of_lastOf hentry)
  | none =>
    refine lastOf_eq_none fun hmem => ?_
    have hnot := OrderedDict.lastOf_eq_none_iff.1 hentry
    by_cases hmeta : name ∈ archiveMetaFiles
    · simp only [archiveMetaFiles, List.mem_cons, List.not_mem_nil, or_false] at hmeta
      rcases hmeta with rfl | rfl | rfl
      · exact hnot _ (mem_packEntries.2 (.inl rfl))
      · exact hnot _ (mem_packEntries.2 (.inr (.inr (.inl rfl))))
      · exact hname rfl
    · obtain ⟨file, hfile, rfl⟩ := List.mem_map.1 (hextra name hmem hmeta)
      exact hnot file.2 (mem_packEntries.2 (.inr (.inl hfile)))

theorem verify_iff_resembles (hkey : resolveEvidenceHmacKey settings hmacKey = .ok key) {genuine : List EvidencePack}
    (hunforged : Unforged m key genuine archive) : IsValid (verifyEvidencePack m settings hmacKey (.archive archive)) ↔
      ∃ pack ∈ genuine, Resembles m key archive pack :=
  ⟨resembles_of_isValid hkey hunforged, fun ⟨_, _, h⟩ => isValid_of_resembles hkey h⟩

/-! ### Archives without a name that occurs twice -/

theorem hasEntriesOf_of_resembles (h : Resembles m key archive pack) (hnodup : (names archive).Nodup) :
    HasEntriesOf m key archive pack := by
  obtain ⟨content, -, hcontent, -, -⟩ := h.signed
  refine ⟨fun entry hentry hname => ?_, fun entry hentry hname => ?_, mem_names hcontent⟩
  · refine (lastOf_packEntries h.proper).1 ?_
    rw [← h.reads entry.1 hname]
    exact (lastOf_eq_some_iff hnodup).2 hentry
  · refine (lastOf_eq_some_iff hnodup).1 ?_
    rw [h.reads entry.1 hname]
    exact (lastOf_packEntries h.proper).2 hentry

theorem resembles_packEntries (m : Machine) (key : Bytes) (h : Proper pack) :
    Resembles m key (packEntries m key pack) pack := by
  refine ⟨h, fun _ _ => rfl, _, _, (lastOf_packEntries h).2 (mem_packEntries.2 (.inr (.inr (.inr rfl)))),
    loadsBytes_canonical (readable_signature m key (pack.checksumsBytes m)), signed_signatureFor m key _⟩

/-- A verified archive has the entries of one genuine pack and no others exactly when it repeats no name, or does
not read as a genuine pack does and is refused; and what is written under a key verifies under it. -/
theorem pack_verification_sound_iff (m : Machine) (settings : ProcessSettings) (hmacKey : Option Bytes)
    (key : Bytes) (hkey : resolveEvidenceHmacKey settings hmacKey = .ok key) (genuine : List EvidencePack) :
    (∀ archive, Unforged m key genuine archive → (VerifiedIsGenuine m settings hmacKey key genuine archive ↔
        (names archive).Nodup ∨ ¬∃ pack ∈ genuine, Resembles m key archive pack)) ∧
    ∀ writer pack given archive, writeZip m writer pack given = .ok archive →
      resolveEvidenceHmacKey writer (eitherKey given pack.hmacKey) = .ok key → Proper pack →
      IsValid (verifyEvidencePack m settings hmacKey (.archive archive)) := by
  constructor
  · intro archive hunforged
    rw [VerifiedIsGenuine, verify_iff_resembles hkey hunforged]
    constructor
    · intro hsound
      by_cases h : ∃ pack ∈ genuine, Resembles m key archive pack
      · exact .inl (hsound h).2
      · exact .inr h
    · rintro (hnodup | hrefused) hvalid
      · obtain ⟨pack, hpack, hresembles⟩ := hvalid
        exact ⟨⟨pack, hpack, hasEntriesOf_of_resembles hresembles hnodup⟩, hnodup⟩
      · exact absurd hvalid hrefused
  · intro writer pack given archive hwrite hwriter hproper
    rw [writeZip, hwriter] at hwrite
    cases hwrite
    exact isValid_of_resembles hkey (resembles_packEntries m key hproper)

/-! ### A repeated name -/

def hexDigest (data : Bytes) : String := String.ofList ('x' :: data.flatMap fun byte => hex4 byte.toNat)

theorem hexDigest_injective : Function.Injective hexDigest := by
  have hlist : ∀ a b : Bytes,
      (a.flatMap fun byte => hex4 byte.toNat) = (b.flatMap fun byte => hex4 byte.toNat) → a = b := by
    intro a
    induction a with
    | nil =>
      intro b h
      cases b with
      | nil => rfl
      | cons y b => cases h
    | cons x a ih =>
      intro b h
      cases b with
      | nil => cases h
      | cons y b =>
        rw [List.flatMap_cons, List.flatMap_cons] at h
        have hread := congrArg readHex4 h
        rw [readHex4_hex4 (lt_trans x.toNat_lt (by decide)), readHex4_hex4 (lt_trans y.toNat_lt (by decide))] at hread
        obtain ⟨hbyte, hrest⟩ := Prod.mk.inj (Option.some.inj hread)
        rw [UInt8.toNat_inj.1 hbyte, ih b hrest]
  intro a b h
  exact hlist a b (List.cons.inj (String.ofList_injective h)).2

theorem hexDigest_digest (data : Bytes) : IsDigest (hexDigest data) := by
  constructor
  · intro h
    have hlist := congrArg String.toList h
    rw [hexDigest, String.toList_ofList] at hlist
    cases hlist
  · intro c hc
    rw [hexDigest, String.toList_ofList, List.mem_cons, List.mem_flatMap] at hc
    rcases hc with rfl | ⟨byte, -, hc⟩
    · decide
    · have := (printable_hex4 _ c hc).2
      omega

theorem isNumeral_zero : ∀ c ∈ ['0', '.', '0'], isNumeral c = true :=
  List.all_eq_true.1 rfl

theorem zero_hasPoint : ∃ c ∈ ['0', '.', '0'], c = '.' ∨ c = 'e' :=
  ⟨'.', List.mem_cons_of_mem _ List.mem_cons_self, .inl rfl⟩

def hexMachine : Machine where
  sha256 := hexDigest
  hmacSha256 key data := hexDigest (key ++ data)
  float _ := ⟨['0', '.', '0'], isNumeral_zero, zero_hasPoint⟩
  floatEq _ _ := false
  str _ := ""
  strSet _ := ""
  decodeError _ := ""
  noItem _ := ""
  sha256_injective := hexDigest_injective
  sha256_digest := hexDigest_digest
  hmac_digest _ _ := hexDigest_digest _

def samplePack : EvidencePack where
  manifest := { packId := "pack-1", createdAt := "2026-01-01T00:00:00+00:00", createdBy := "auditor" }
  files := ⟨[("audit_records.jsonl", [52])], by simp⟩

/-- The audit records are preceded by others under the same name. -/
def repeatedArchive : Archive := ("audit_records.jsonl", []) :: packEntries hexMachine [1] samplePack

theorem unforged_of_entries (h : ∀ entry ∈ archive, entry ∈ packEntries hexMachine [1] samplePack ∨ entry.2 = []) :
    Unforged hexMachine [1] [samplePack] archive := by
  have hnone : ∀ {fields : List (String × JsonValue)} {w}, (fields.map Prod.fst).Nodup →
      member "authentication_value" (.obj fields) = none →
      member "authentication_value" (JsonValue.sortKeys (.obj fields)) = some w → False := by
    intro fields w hnodup hmember hw
    rw [member_sorted hnodup, hmember] at hw
    cases hw
  intro content _ bytes hbytes value hvalue hauth
  obtain ⟨entry, hentry, rfl⟩ := List.mem_map.1 hbytes
  rcases h entry hentry with hpack | hempty
  · rcases mem_packEntries.1 hpack with rfl | hfile | rfl | rfl
    · have hread := loadsBytes_canonical (readable_manifest hexMachine.float samplePack.manifest)
      obtain rfl := Option.some.inj (hvalue.symm.trans hread)
      exact (hnone (readable_manifest hexMachine.float samplePack.manifest).1 rfl hauth).elim
    · obtain rfl := List.mem_singleton.1 hfile
      have hread : loadsBytes hexMachine.float [52] = some (.int 4) := rfl
      obtain rfl := Option.some.inj (hvalue.symm.trans hread)
      cases hauth
    · have hread := loadsBytes_canonical (readable_checksums hexMachine samplePack)
      obtain rfl := Option.some.inj (hvalue.symm.trans hread)
      exact (hnone (readable_checksums hexMachine samplePack).1 rfl hauth).elim
    · have hread := loadsBytes_canonical (readable_signature hexMachine [1] (samplePack.checksumsBytes hexMachine))
      obtain rfl := Option.some.inj (hvalue.symm.trans hread)
      have hgenuine := (signed_signatureFor hexMachine [1] (samplePack.checksumsBytes hexMachine)).authenticationValue
      have hsame := hexDigest_injective (JsonValue.str.inj (Option.some.inj (hauth.symm.trans hgenuine)))
      exact ⟨samplePack, List.mem_singleton.2 rfl, List.append_cancel_left hsame⟩
  · have hread : loadsBytes hexMachine.float [] = none := rfl
    rw [hempty, hread] at hvalue
    cases hvalue

theorem proper_samplePack : Proper samplePack := by
  intro file hfile
  obtain rfl := List.mem_singleton.1 hfile
  decide

/-- Records that come first under a repeated name are not looked at. -/
theorem repeated_name_verifies : Unforged hexMachine [1] [samplePack] repeatedArchive ∧
    ¬VerifiedIsGenuine hexMachine ⟨none, none⟩ (some [1]) [1] [samplePack] repeatedArchive := by
  have hresembles := resembles_packEntries hexMachine [1] proper_samplePack
  have hlast : ∀ name, OrderedDict.lastOf name repeatedArchive =
      OrderedDict.lastOf name (packEntries hexMachine [1] samplePack) := by
    intro name
    rw [repeatedArchive, OrderedDict.lastOf_cons]
    split
    · next heq =>
      subst heq
      have hfile : OrderedDict.lastOf "audit_records.jsonl" (packEntries hexMachine [1] samplePack) = some [52] :=
        (lastOf_packEntries proper_samplePack).2 (mem_packEntries.2 (.inr (.inl (List.mem_singleton.2 rfl))))
      rw [hfile]
      rfl
    · exact Option.or_none
  constructor
  · refine unforged_of_entries fun entry hentry => ?_
    rcases List.mem_cons.1 hentry with rfl | hentry
    · exact .inr rfl
    · exact .inl hentry
  · intro h
    obtain ⟨content, signature, hcontent, hsignature, hsigned⟩ := hresembles.signed
    have hreads : Resembles hexMachine [1] repeatedArchive samplePack :=
      ⟨hresembles.proper, fun name hname => (hlast name).trans (hresembles.reads name hname), content, signature,
        (hlast _).trans hcontent, hsignature, hsigned⟩
    have hvalid : IsValid (verifyArchive hexMachine ⟨none, none⟩ repeatedArchive (some [1])) :=
      isValid_of_resembles rfl hreads
    have hnodup := (h hvalid).2
    rw [repeatedArchive, names, List.map_cons, List.nodup_cons] at hnodup
    exact hnodup.1 (List.mem_map.2 ⟨("audit_records.jsonl", [52]),
      mem_packEntries.2 (.inr (.inl (List.mem_singleton.2 rfl))), rfl⟩)

/-- The archive that was written verifies as the pack it is. -/
theorem pack_verification_sound_written :
    VerifiedIsGenuine hexMachine ⟨none, none⟩ (some [1]) [1] [samplePack] (packEntries hexMachine [1] samplePack) ∧
    IsValid (verifyEvidencePack hexMachine ⟨none, none⟩ (some [1])
      (.archive (packEntries hexMachine [1] samplePack))) :=
  have h := pack_verification_sound_iff hexMachine ⟨none, none⟩ (some [1]) [1] rfl [samplePack]
  ⟨(h.1 _ (unforged_of_entries fun _ hentry => .inl hentry)).2 (.inl (names_nodup proper_samplePack)),
    h.2 ⟨none, none⟩ samplePack (some [1]) _ rfl rfl proper_samplePack⟩

end Phlo.Compliance
