import Mathlib
import Phlo.Library.JsonText
import Phlo.Library.SegmentChain

/-!
# Rotation of the audit log

One record a line, in a file that is rotated into numbered ones when it has grown.  Writers are serialised by a lock;
one may stop after any file operation of a rotation.

* `suffix_runJournal`, `rotated_runJournal` — what a run of appends keeps, crashes included.
-/

namespace Phlo.Controls

open Phlo.Library

/-! ### Appending -/

abbrev AuditRecord := List (String × JsonValue)

def AuditRecord.line (record : AuditRecord) : String := (JsonValue.obj record).dumps ++ "\n"

/-- `st_size` of a segment -/
def segmentSize (segment : List AuditRecord) : ℕ :=
  (segment.map fun record => (AuditRecord.line record).utf8ByteSize).sum

/-- The log: number zero is `operations.jsonl`, number `i` is `operations.jsonl.i`. -/
abbrev AuditFiles := Segments AuditRecord

/-- An append, with the settings it reads; it may crash after some file operations of its rotation. -/
structure AuditAppend where
  record : AuditRecord
  maxBytes : ℤ
  retentionYears : Option ℕ
  crash : Option ℕ := none

/-- The current segment has grown. -/
def rotationDue (maxFiles : ℕ) (maxBytes : ℤ) (files : AuditFiles) : Bool :=
  0 < maxBytes && 0 < maxFiles && (files 0).any fun segment => maxBytes ≤ segmentSize segment

def retentionRefusal (years : ℕ) : String :=
  "Audit retention requires at least " ++ toString years ++ " years of preservation. " ++
    "Rotation cannot discard evidence; configure a larger journal capacity or " ++
    "an operator-reviewed archive before retrying. Sealed audit records are not expired."

/-- `_rotate_audit_log`: its file operations, or the error it raises. -/
def rotateAuditLog (maxFiles : ℕ) (call : AuditAppend) (files : AuditFiles) :
    Except String (List Segments.RotationStep) :=
  if rotationDue maxFiles call.maxBytes files then
    match files maxFiles, call.retentionYears with
    | some _, some years => .error (retentionRefusal years)
    | _, _ => .ok (Segments.rotation maxFiles)
  else .ok []

/-- What becomes of an append. -/
inductive AppendOutcome where
  | appended
  | crashed
  | refused (message : String)
  deriving DecidableEq

/-- `_append_audit_record`: the outcome, the file operations done, and the files. -/
def appendAuditRecord (maxFiles : ℕ) (call : AuditAppend) (files : AuditFiles) :
    AppendOutcome × List Segments.RotationStep × AuditFiles :=
  match rotateAuditLog maxFiles call files with
  | .error message => (.refused message, [], files)
  | .ok steps =>
    match call.crash with
    | some done => (.crashed, steps.take done, files.run (steps.take done))
    | none => (.appended, steps, (files.run steps).write call.record)

/-! ### Reading -/

def readOrder (maxFiles : ℕ) : List ℕ := (List.range (maxFiles + 1)).reverse

/-- The records of the log in the order they are read. -/
def auditRecords (maxFiles : ℕ) (files : AuditFiles) : List AuditRecord :=
  (readOrder maxFiles).flatMap fun i => (files i).getD []

theorem auditRecords_eq_joined (maxFiles : ℕ) (files : AuditFiles) :
    auditRecords maxFiles files = files.joined maxFiles := by
  induction maxFiles with
  | zero => exact List.append_nil _
  | succ n ih =>
    rw [auditRecords, readOrder, List.range_succ, List.reverse_append, List.reverse_singleton, List.singleton_append,
      List.flatMap_cons, Segments.joined, ← ih]
    rfl

/-! ### Runs -/

/-- The files, the records appended so far, and the segments rotated so far, the newest first. -/
structure Journal where
  files : AuditFiles := fun _ => none
  appended : List AuditRecord := []
  rotated : List (List AuditRecord) := []

def Journal.step (maxFiles : ℕ) (j : Journal) (call : AuditAppend) : Journal :=
  let (outcome, done, files) := appendAuditRecord maxFiles call j.files
  { files := files
    appended := if outcome = .appended then j.appended ++ [call.record] else j.appended
    rotated := if .replace 0 ∈ done then (j.files 0).getD [] :: j.rotated else j.rotated }

def runJournal (maxFiles : ℕ) (calls : List AuditAppend) : Journal := calls.foldl (Journal.step maxFiles) {}

variable {maxFiles : ℕ} {call : AuditAppend} {files : AuditFiles}

/-- The file operations of an append: none, or those of a rotation, which is then due. -/
theorem rotateAuditLog_cases {steps : List Segments.RotationStep} (h : rotateAuditLog maxFiles call files = .ok steps) :
    steps = [] ∨ steps = Segments.rotation maxFiles ∧ 0 < maxFiles ∧ files 0 ≠ none ∧
      (call.retentionYears ≠ none → files maxFiles = none) := by
  unfold rotateAuditLog at h
  split at h
  next hdue =>
    refine .inr ?_
    unfold rotationDue at hdue
    rw [Bool.and_eq_true, Bool.and_eq_true, decide_eq_true_iff, decide_eq_true_iff] at hdue
    have hcurrent : files 0 ≠ none := fun hnone => by
      rw [hnone] at hdue
      exact Bool.false_ne_true hdue.2
    split at h
    · cases h
    next hfree =>
      refine ⟨(Except.ok.inj h).symm, hdue.1.2, hcurrent, fun hretention => ?_⟩
      cases holdest : files maxFiles with
      | none => rfl
      | some oldest =>
        cases hyears : call.retentionYears with
        | none => exact absurd hyears hretention
        | some years => exact absurd hyears (hfree oldest years holdest)
  · exact .inl (Except.ok.inj h).symm

/-- One append keeps a suffix of the log, all of it where records must be retained, and adds its record at the end
if it returns; one that is refused changes nothing. -/
theorem appendAuditRecord_spec (maxFiles : ℕ) (call : AuditAppend) (files : AuditFiles) :
    ∃ kept, kept <:+ files.joined maxFiles ∧ (call.retentionYears ≠ none → kept = files.joined maxFiles) ∧
      match appendAuditRecord maxFiles call files with
      | (.appended, _, after) => after.joined maxFiles = kept ++ [call.record]
      | (.crashed, _, after) => after.joined maxFiles = kept
      | (.refused _, _, after) => after = files := by
  unfold appendAuditRecord
  cases hrotate : rotateAuditLog maxFiles call files with
  | error message => exact ⟨_, List.suffix_refl _, fun _ => rfl, rfl⟩
  | ok steps =>
    -- a crash stops after some of the steps, an append that returns has done them all
    have hsteps : ∀ k, (files.run (steps.take k)).joined maxFiles <:+ files.joined maxFiles ∧
        (call.retentionYears ≠ none → (files.run (steps.take k)).joined maxFiles = files.joined maxFiles) := by
      intro k
      rcases rotateAuditLog_cases hrotate with hnil | ⟨hrotation, _, _, hfree⟩
      · rw [hnil, List.take_nil]
        exact ⟨List.suffix_refl _, fun _ => rfl⟩
      · rw [hrotation]
        exact ⟨Segments.joined_rotate files maxFiles k,
          fun hretention => Segments.joined_rotate_of_free (hfree hretention) k⟩
    cases hcrash : call.crash with
    | some k => exact ⟨_, (hsteps k).1, (hsteps k).2, rfl⟩
    | none =>
      have hall := hsteps steps.length
      rw [List.take_length] at hall
      exact ⟨_, hall.1, hall.2, Segments.joined_write _ _ _⟩

theorem suffix_runJournal (maxFiles : ℕ) (calls : List AuditAppend) :
    (runJournal maxFiles calls).files.joined maxFiles <:+ (runJournal maxFiles calls).appended ∧
      ((∀ call ∈ calls, call.retentionYears ≠ none) →
        (runJournal maxFiles calls).files.joined maxFiles = (runJournal maxFiles calls).appended) := by
  induction calls using List.reverseRecOn with
  | nil =>
    have hempty : ∀ n, Segments.joined (fun _ => none : AuditFiles) n = [] := by
      intro n
      induction n with
      | zero => rfl
      | succ n ih => rw [Segments.joined, ih]; rfl
    have hnil : (runJournal maxFiles []).files.joined maxFiles = [] := hempty maxFiles
    rw [hnil]
    exact ⟨List.nil_suffix, fun _ => rfl⟩
  | append_singleton calls call ih =>
    obtain ⟨kept, hsuffix, hretained, hafter⟩ := appendAuditRecord_spec maxFiles call (runJournal maxFiles calls).files
    have hstep : runJournal maxFiles (calls ++ [call]) = (runJournal maxFiles calls).step maxFiles call := by
      rw [runJournal, List.foldl_append]
      rfl
    rw [hstep, Journal.step]
    have hkept : (∀ c ∈ calls ++ [call], c.retentionYears ≠ none) → kept = (runJournal maxFiles calls).appended := by
      intro hall
      rw [hretained (hall call (List.mem_append_right _ (List.mem_singleton.2 rfl)))]
      exact ih.2 fun c hc => hall c (List.mem_append_left _ hc)
    generalize appendAuditRecord maxFiles call (runJournal maxFiles calls).files = result at hafter ⊢
    obtain ⟨outcome, done, after⟩ := result
    cases outcome with
    | appended =>
      have hjoined : after.joined maxFiles = kept ++ [call.record] := hafter
      show after.joined maxFiles <:+ (runJournal maxFiles calls).appended ++ [call.record] ∧
        (_ → after.joined maxFiles = (runJournal maxFiles calls).appended ++ [call.record])
      rw [hjoined]
      obtain ⟨lost, hlost⟩ := hsuffix.trans ih.1
      exact ⟨⟨lost, by rw [← List.append_assoc, hlost]⟩, fun hall => by rw [hkept hall]⟩
    | crashed =>
      have hjoined : after.joined maxFiles = kept := hafter
      show after.joined maxFiles <:+ (runJournal maxFiles calls).appended ∧
        (_ → after.joined maxFiles = (runJournal maxFiles calls).appended)
      rw [hjoined]
      exact ⟨hsuffix.trans ih.1, hkept⟩
    | refused message =>
      have hsame : after = (runJournal maxFiles calls).files := hafter
      show after.joined maxFiles <:+ (runJournal maxFiles calls).appended ∧
        (_ → after.joined maxFiles = (runJournal maxFiles calls).appended)
      rw [hsame]
      exact ⟨ih.1, fun hall => ih.2 fun c hc => hall c (List.mem_append_left _ hc)⟩

theorem replace_zero_mem_rotation {n : ℕ} (h : 0 < n) : .replace 0 ∈ Segments.rotation n := by
  refine List.mem_cons_of_mem _ ?_
  induction n with
  | zero => exact absurd h (Nat.lt_irrefl 0)
  | succ n ih =>
    cases n with
    | zero => exact List.mem_cons_self
    | succ n => exact List.mem_cons_of_mem _ (ih (Nat.succ_pos n))

/-- Without crashes the numbered segments are the newest rotated ones. -/
theorem rotated_runJournal {calls : List AuditAppend} (h : ∀ call ∈ calls, call.crash = none) :
    ∀ i < maxFiles, (runJournal maxFiles calls).files (i + 1) = (runJournal maxFiles calls).rotated[i]? := by
  induction calls using List.reverseRecOn with
  | nil => exact fun i _ => rfl
  | append_singleton calls call ih =>
    have hbefore := ih fun c hc => h c (List.mem_append_left _ hc)
    have hcrash := h call (List.mem_append_right _ (List.mem_singleton.2 rfl))
    have hstep : runJournal maxFiles (calls ++ [call]) = (runJournal maxFiles calls).step maxFiles call := by
      rw [runJournal, List.foldl_append]
      rfl
    rw [hstep, Journal.step, appendAuditRecord, hcrash]
    cases hrotate : rotateAuditLog maxFiles call (runJournal maxFiles calls).files with
    | error message => exact hbefore
    | ok steps =>
      intro i hi
      have hwritten : ∀ files : AuditFiles, files.write call.record (i + 1) = files (i + 1) :=
        fun files => Function.update_of_ne (Nat.succ_ne_zero i) _ _
      dsimp only
      rw [hwritten]
      rcases rotateAuditLog_cases hrotate with hnil | ⟨hrotation, hpos, hcurrent, _⟩
      · rw [hnil, if_neg List.not_mem_nil]
        exact hbefore i hi
      · rw [hrotation, if_pos (replace_zero_mem_rotation hpos), (Segments.rotate_shift _ maxFiles).1 i hi]
        cases i with
        | zero =>
          cases hzero : (runJournal maxFiles calls).files 0 with
          | none => exact absurd hzero hcurrent
          | some current => rfl
        | succ i => exact hbefore i (by omega)

/-- For every sequence of appends, crashes between file operations included: what is read is a suffix of what was
appended, in order; without crashes the newest rotated segments are all there; where records must be retained none is
lost; and an append that is refused leaves the segments as they are. -/
theorem audit_rotation (maxFiles : ℕ) (calls : List AuditAppend) :
    auditRecords maxFiles (runJournal maxFiles calls).files <:+ (runJournal maxFiles calls).appended ∧
      ((∀ call ∈ calls, call.crash = none) → ∀ i < maxFiles,
        (runJournal maxFiles calls).files (i + 1) = (runJournal maxFiles calls).rotated[i]?) ∧
      ((∀ call ∈ calls, call.retentionYears ≠ none) →
        auditRecords maxFiles (runJournal maxFiles calls).files = (runJournal maxFiles calls).appended) ∧
      ∀ call message, (appendAuditRecord maxFiles call (runJournal maxFiles calls).files).1 = .refused message →
        (appendAuditRecord maxFiles call (runJournal maxFiles calls).files).2.2 =
          (runJournal maxFiles calls).files := by
  have ⟨hsuffix, hretained⟩ := suffix_runJournal maxFiles calls
  rw [auditRecords_eq_joined]
  refine ⟨hsuffix, rotated_runJournal, hretained, fun call message hrefused => ?_⟩
  have ⟨_, _, _, hafter⟩ := appendAuditRecord_spec maxFiles call (runJournal maxFiles calls).files
  generalize appendAuditRecord maxFiles call (runJournal maxFiles calls).files = result at hafter hrefused ⊢
  obtain ⟨outcome, done, after⟩ := result
  have houtcome : outcome = .refused message := hrefused
  rw [houtcome] at hafter
  exact hafter

end Phlo.Controls
