import Phlo.Library.KeyedSort
import Phlo.Rbac.Models

/-!
# Documents under names

MinIO and Nessie keep one document (a policy document, a rule) under each name.  Planning and verifying
look at names and contents; the names are made of the role and of slugs of the resource pattern and the
action.

A `DocumentBackend` is what the two have in common: which documents are read, and that creating and
deleting a document changes what is read under its name and nothing else.

* `DocumentBackend.inSync_applied`, `DocumentBackend.applied_same` — what holds after a plan.
-/

namespace Phlo.Rbac

open Phlo.Library

/-! ### Slugs -/

/-- `[a-zA-Z0-9_-]` -/
def isSlugChar (c : Char) : Bool := c.isAlphanum || c == '_' || c == '-'

/-- `_SAFE_SLUG_RE.sub("_", value)`; the flag says that the character before was replaced. -/
def replaceUnsafe : Bool → List Char → List Char
  | _, [] => []
  | run, c :: cs =>
    if isSlugChar c then c :: replaceUnsafe false cs
    else if run then replaceUnsafe true cs
    else '_' :: replaceUnsafe true cs

/-- `str.strip("_")` -/
def stripUnderscores (s : List Char) : List Char :=
  ((s.dropWhile (· == '_')).reverse.dropWhile (· == '_')).reverse

/-- `_slug` -/
def slug (value : String) : String :=
  let s := stripUnderscores (replaceUnsafe false value.toList)
  if s.isEmpty then "all" else String.ofList s

example : slug "raw.orders_*" = "raw_orders" := by decide

theorem isSlugChar_replaceUnsafe (run : Bool) (s : List Char) : ∀ c ∈ replaceUnsafe run s, isSlugChar c = true := by
  induction s generalizing run with
  | nil => exact fun c hc => absurd hc List.not_mem_nil
  | cons d s ih =>
    intro c hc
    rw [replaceUnsafe] at hc
    split at hc
    next hd =>
      obtain rfl | hc := List.mem_cons.1 hc
      · exact hd
      · exact ih false c hc
    next =>
      split at hc
      · exact ih true c hc
      · obtain rfl | hc := List.mem_cons.1 hc
        · rfl
        · exact ih true c hc

theorem isSlugChar_slug (value : String) : ∀ c ∈ (slug value).toList, isSlugChar c = true := by
  intro c hc
  rw [slug] at hc
  split at hc
  · have hall : ("all".toList.all isSlugChar) = true := by decide
    exact List.all_eq_true.1 hall c hc
  · rw [String.toList_ofList, stripUnderscores, List.mem_reverse] at hc
    have hmem := List.mem_reverse.1 ((List.dropWhile_sublist _).subset hc)
    exact isSlugChar_replaceUnsafe false value.toList c ((List.dropWhile_sublist _).subset hmem)

/-! ### Planning and verifying by name and content -/

section

variable {A σ : Type}

/-- `_plan_content_aware` -/
def planContentAware (nameOf : A → String) (same : A → A → Bool) (desired current : List A) : List (PolicyChange A) :=
  planByContent same (byName nameOf desired) (byName nameOf current)

/-- `_verify_content_aware` -/
def verifyContentAware (nameOf : A → String) (same : A → A → Bool) (desired current : List A) : VerifyResult A :=
  let desiredByName := byName nameOf desired
  let currentByName := byName nameOf current
  let missing := absent desiredByName currentByName
  let extra := superfluous desiredByName currentByName
  let mismatched := different same desiredByName currentByName
  { inSync := missing.isEmpty && extra.isEmpty && mismatched.isEmpty
    missing := missing
    extra := extra
    mismatched := mismatched }

variable {nameOf : A → String} {same : A → A → Bool} {desired current : List A}

/-- A verdict in sync: under the names of the artifacts, and only there, is something of the same
content. -/
theorem inSync_verify_iff : (verifyContentAware nameOf same desired current).inSync = true ↔
    (∀ k a, (byName nameOf desired).get k = some a → ∃ b, (byName nameOf current).get k = some b ∧ same a b = true) ∧
      ∀ k, (byName nameOf desired).get k = none → (byName nameOf current).get k = none := by
  rw [← inSyncByContent_iff]
  simp only [verifyContentAware, Bool.and_eq_true, List.isEmpty_iff, and_assoc]

theorem observed_of_inSync (h : (verifyContentAware nameOf same desired current).inSync = true) {a : A}
    (ha : a ∈ desired) : ∃ a' ∈ desired, nameOf a' = nameOf a ∧
      ∃ b ∈ current, nameOf b = nameOf a ∧ same a' b = true := by
  obtain ⟨a', ha'⟩ := exists_byName nameOf ha
  obtain ⟨hmem, hname⟩ := mem_of_byName ha'
  obtain ⟨b, hb, hsame⟩ := (inSync_verify_iff.1 h).1 _ a' ha'
  obtain ⟨hbmem, hbname⟩ := mem_of_byName hb
  exact ⟨a', hmem, hname, b, hbmem, hbname, hsame⟩

end

/-! ### Document backends -/

/-- A backend that keeps documents under names.  `Accepts` says which artifacts it can keep, `shown` what
is read back of one. -/
structure DocumentBackend (A σ : Type) where
  nameOf : A → String
  same : A → A → Bool
  read : σ → List A
  act : Act A σ
  Accepts : A → Prop
  shown : A → A
  read_create : ∀ a, Accepts a → ∀ s k, (byName nameOf (read (act (.create a) s).1)).get k =
    if k = nameOf a then some (shown a) else (byName nameOf (read s)).get k
  read_delete : ∀ b s k, (byName nameOf (read (act (.delete b) s).1)).get k =
    if k = nameOf b then none else (byName nameOf (read s)).get k
  same_shown : ∀ a, Accepts a → same a (shown a) = true

namespace DocumentBackend

variable {A σ : Type} (B : DocumentBackend A σ)

def plan (desired : List A) (s : σ) : List (PolicyChange A) :=
  planContentAware B.nameOf B.same desired (B.read s)

def verify (desired : List A) (s : σ) : VerifyResult A :=
  verifyContentAware B.nameOf B.same desired (B.read s)

/-- The backend after its plan. -/
def applied (desired : List A) (s : σ) : σ := (applyPlan (failedToApply B.nameOf) B.act (B.plan desired s) s).1

variable {B} {desired : List A}

/-- Under each name that is wanted there is something of the same content, under the others nothing. -/
theorem get_applied (h : ∀ a ∈ desired, B.Accepts a) (s : σ) (k : String) :
    (byName B.nameOf (B.read (B.applied desired s))).get k =
      ((byName B.nameOf desired).get k).map fun a =>
        settled B.same B.shown a ((byName B.nameOf (B.read s)).get k) := by
  rw [applied, applyPlan_fst]
  refine view_applied (fun s => (byName B.nameOf (B.read s)).get) (fun s change => (B.act change s).1)
    B.nameOf ?_ ?_ ?_ ?_ k
  · intro item hitem s k
    have hget := OrderedDict.get_eq_some_iff.2 hitem
    rw [← name_of_mem_items hitem]
    exact B.read_create item.2 (h item.2 (mem_of_byName hget).1) s k
  · exact B.read_delete
  · intro k b hb
    exact (mem_of_byName hb).2
  · exact fun _ => rfl

theorem inSync_applied (h : ∀ a ∈ desired, B.Accepts a) (s : σ) :
    (B.verify desired (B.applied desired s)).inSync = true := by
  refine inSync_verify_iff.2 ⟨fun k a ha => ?_, fun k hk => ?_⟩
  · refine ⟨settled B.same B.shown a ((byName B.nameOf (B.read s)).get k), ?_, ?_⟩
    · rw [get_applied h, ha, Option.map_some]
    · exact same_settled (B.same_shown a (h a (mem_of_byName ha).1)) _
  · rw [get_applied h, hk, Option.map_none]

theorem applied_same (h : ∀ a ∈ desired, B.Accepts a) (s : σ) {a : A} (ha : a ∈ desired) :
    ∃ a' ∈ desired, B.nameOf a' = B.nameOf a ∧
      ∃ b ∈ B.read (B.applied desired s), B.nameOf b = B.nameOf a ∧ B.same a' b = true :=
  observed_of_inSync (inSync_applied h s) ha

end DocumentBackend

end Phlo.Rbac
