import Phlo.Library.Fallible
import Phlo.Library.JsonReader
import Phlo.Maintenance.TokenBinding

/-!
# The inventory of an owned prefix

An orphan plan compares what a listing of the owned prefix observes with what the snapshots refer to.  The
listing comes in pages; `inventoryOwnedS3Prefix` keeps none of them when one does not follow from the one
before.  Both sides of the comparison go through `storagePathKey`.

* `storagePathKey_of_sameObject` — the spellings of one object have one key;
* `inventoryLoop_complete`, `inventoryLoop_empty` — what a complete listing has seen, and an incomplete one holds.
-/

namespace Phlo.Maintenance

open Phlo.Library

/-! ### Paths -/

/-- `url.lstrip(_WHATWG_C0_CONTROL_OR_SPACE)`, without `_UNSAFE_URL_BYTES_TO_REMOVE` -/
def cleanUrl (url : List Char) : List Char :=
  (url.dropWhile fun c => c.toNat ≤ 32).filter fun c => c ≠ '\t' && c ≠ '\r' && c ≠ '\n'

/-- `scheme_chars` -/
def isSchemeChar (c : Char) : Bool := c.isAlphanum || c = '+' || c = '-' || c = '.'

def splitScheme (url : List Char) : List Char × List Char :=
  let front := url.takeWhile fun c => c ≠ ':'
  match url.dropWhile fun c => c ≠ ':' with
  | _ :: rest =>
    if front.head?.any Char.isAlpha && front.all isSchemeChar then (front.map Char.toLower, rest) else ([], url)
  | [] => ([], url)

/-- `_splitnetloc` -/
def splitNetloc : List Char → List Char × List Char
  | '/' :: '/' :: rest =>
    (rest.takeWhile fun c => c ∉ ['/', '?', '#'], rest.dropWhile fun c => c ∉ ['/', '?', '#'])
  | url => ([], url)

structure SplitUrl where
  scheme : List Char
  netloc : List Char
  path : List Char

/-- `urlsplit`; the checks of the netloc, which can only raise, are left out. -/
def urlsplit (url : List Char) : SplitUrl :=
  let (scheme, rest) := splitScheme (cleanUrl url)
  let (netloc, rest) := splitNetloc rest
  ⟨scheme, netloc, rest.takeWhile fun c => c ≠ '#' && c ≠ '?'⟩

def s3Schemes : List String := ["s3", "s3a", "s3n"]

def SplitUrl.isS3 (url : SplitUrl) : Prop := String.ofList url.scheme ∈ s3Schemes

instance (url : SplitUrl) : Decidable url.isS3 := inferInstanceAs (Decidable (_ ∈ _))

/-- `text.rstrip("/")` -/
def rstripSlash (text : List Char) : List Char := text.rdropWhile fun c => c = '/'

def storagePathKey (path : String) : String :=
  let parsed := urlsplit path.toList
  String.ofList (rstripSlash (if parsed.isS3 then parsed.netloc ++ parsed.path else path.toList))

/-- `_s3_location`: bucket, owned key prefix and canonical URI -/
def s3Location (location : String) : Except String (String × String × String) :=
  let parsed := urlsplit location.toList
  let path := rstripSlash (parsed.path.dropWhile fun c => c = '/')
  if ¬parsed.isS3 ∨ parsed.netloc = [] ∨ path = [] then
    .error "A complete object inventory requires a non-root S3 table prefix."
  else
    let bucket := String.ofList parsed.netloc
    let owned := String.ofList path ++ "/"
    .ok (bucket, owned, "s3://" ++ bucket ++ "/" ++ owned)

/-- The paths are spellings of one object: its bucket and key after two of the schemes. -/
def SameObject (p q : String) : Prop :=
  ∃ scheme ∈ s3Schemes, ∃ scheme' ∈ s3Schemes, ∃ object, p = scheme ++ "://" ++ object ∧ q = scheme' ++ "://" ++ object

theorem urlsplit_s3 {scheme : String} (h : scheme ∈ s3Schemes) (object : String) :
    urlsplit (scheme ++ "://" ++ object).toList =
      let rest := splitNetloc ('/' :: '/' :: object.toList.filter fun c => c ≠ '\t' && c ≠ '\r' && c ≠ '\n')
      ⟨scheme.toList, rest.1, rest.2.takeWhile fun c => c ≠ '#' && c ≠ '?'⟩ := by
  simp only [s3Schemes, List.mem_cons, List.not_mem_nil, or_false] at h
  rw [String.toList_append, String.toList_append]
  rcases h with rfl | rfl | rfl <;> rfl

theorem storagePathKey_of_sameObject {p q : String} (h : SameObject p q) : storagePathKey p = storagePathKey q := by
  obtain ⟨scheme, hscheme, scheme', hscheme', object, rfl, rfl⟩ := h
  have hs3 : ∀ {scheme : String}, scheme ∈ s3Schemes → (urlsplit (scheme ++ "://" ++ object).toList).isS3 := by
    intro scheme h
    rw [urlsplit_s3 h, SplitUrl.isS3, String.ofList_toList]
    exact h
  simp only [storagePathKey, if_pos (hs3 hscheme), if_pos (hs3 hscheme')]
  rw [urlsplit_s3 hscheme, urlsplit_s3 hscheme']

/-! ### Pages of a listing -/

/-- What the client answers with; times are microseconds in UTC. -/
inductive S3Value where
  | none
  | bool (b : Bool)
  | int (n : ℤ)
  | str (s : String)
  | datetime (micros : ℤ)
  | list (items : List S3Value)
  | dict (fields : List (String × S3Value))
  | other

abbrev S3Fields := List (String × S3Value)

/-- `fields.get(name)` -/
def fieldOf (fields : S3Fields) (name : String) : S3Value := (fields.lookup name).getD .none

def S3Value.truthy : S3Value → Bool
  | .none => false
  | .bool b => b
  | .int n => n ≠ 0
  | .str s => s ≠ ""
  | .list items => !items.isEmpty
  | .dict fields => !fields.isEmpty
  | _ => true

/-- An `int`; a truth value is one. -/
def sizeOf : S3Value → Option ℤ
  | .int n => some n
  | .bool b => some b.toNat
  | _ => .none

def modifiedOf : S3Value → Except String (Option ℤ)
  | .none => .ok .none
  | .datetime t => .ok (some t)
  | _ => .error "S3 ListObjectsV2 returned an object with malformed LastModified."

/-- `version.strip('"') if version else None` -/
def versionOf : S3Value → Except String (Option String)
  | .none => .ok .none
  | .str s =>
    .ok (if s = "" then .none
      else some (String.ofList ((s.toList.dropWhile fun c => c = '"').rdropWhile fun c => c = '"')))
  | _ => .error "S3 ListObjectsV2 returned an object with malformed version evidence."

/-- `_s3_inventory_object` -/
def s3InventoryObject (bucket owned : String) : S3Value → Except String (String × InventoryObject)
  | .dict fields =>
    match fieldOf fields "Key", sizeOf (fieldOf fields "Size") with
    | .str key, some size =>
      if owned.toList.isPrefixOf key.toList then do
        let modifiedAt ← modifiedOf (fieldOf fields "LastModified")
        let versionId := fieldOf fields "VersionId"
        let checksumOrVersion ← versionOf (if versionId.truthy then versionId else fieldOf fields "ETag")
        .ok (key, ⟨"s3://" ++ bucket ++ "/" ++ key, some size, modifiedAt, checksumOrVersion⟩)
      else .error "S3 ListObjectsV2 returned an object outside the owned prefix or without size."
    | _, _ => .error "S3 ListObjectsV2 returned an object outside the owned prefix or without size."
  | _ => .error "S3 ListObjectsV2 returned a malformed object entry."

abbrev Observed := List (String × InventoryObject)

def addObjects (bucket owned : String) (observed : Observed) : List S3Value → Observed → Except String Observed
  | [], additions => .ok additions
  | item :: items, additions => do
    let (key, object) ← s3InventoryObject bucket owned item
    if key ∈ (observed ++ additions).map Prod.fst then
      .error "S3 pagination repeated an object; traversal may have changed."
    else addObjects bucket owned observed items (additions ++ [(key, object)])

/-- `page.get("Contents", [])` -/
def contentsOf (fields : S3Fields) : Except String (List S3Value) :=
  match fields.lookup "Contents" with
  | .none => .ok []
  | some (.list items) => .ok items
  | some _ => .error "S3 ListObjectsV2 returned non-list Contents."

/-- The token of the next page, when there is one. -/
def continuationOf (seen : List String) (fields : S3Fields) : Except String (Option String) :=
  match fieldOf fields "IsTruncated", fieldOf fields "NextContinuationToken" with
  | .bool true, .str token =>
    if token = "" ∨ token ∈ seen then
      .error "S3 pagination ended or repeated a continuation token before completion."
    else .ok (some token)
  | .bool true, _ => .error "S3 pagination ended or repeated a continuation token before completion."
  | .bool false, .none => .ok .none
  | _, _ => .error "S3 pagination returned inconsistent terminal continuation evidence."

/-- `_s3_inventory_page` -/
def s3InventoryPage (bucket owned : String) (observed : Observed) (seen : List String) :
    S3Value → Except String (Observed × Option String)
  | .dict fields => do
    let contents ← contentsOf fields
    let additions ← addObjects bucket owned observed contents []
    let next ← continuationOf seen fields
    .ok (additions, next)
  | _ => .error "S3 ListObjectsV2 returned a non-mapping page."

/-! ### The listing -/

/-- How the client answers a request, by its continuation token: with a page or by raising. -/
abbrev Answer := Option String → Except String S3Value

/-- `_empty_inventory` -/
def emptyInventory (prefixUri : String) (pageCount : ℤ) (failure : String) : ObjectInventory :=
  ⟨prefixUri, [], pageCount, false, false, none, some failure⟩

/-- The digest of `digest_basis` -/
def inventoryDigest (host : Host) (ordered : List InventoryObject) : String :=
  let basis := ordered.map fun object => JsonValue.obj [
    ("identity", .str object.identity), ("size_bytes", optionalInt object.sizeBytes),
    ("modified_at", optionalText (object.modifiedAt.map host.isoformat)),
    ("checksum_or_version", optionalText object.checksumOrVersion)]
  host.sha256 (String.ofList (JsonValue.compact (JsonValue.sortKeys (.arr basis))))

def completeInventory (digest : List InventoryObject → String) (prefixUri : String) (observed : Observed)
    (pageCount : ℤ) : ObjectInventory :=
  let ordered := (sortBy Prod.fst observed).map Prod.snd
  ⟨prefixUri, ordered, pageCount, true, true, some (digest ordered), none⟩

/-- The loop of `inventory_owned_s3_prefix`; `none` while the client has not answered. -/
def inventoryLoop (digest : List InventoryObject → String) (bucket owned canonical : String) :
    List Answer → Option String → Observed → List String → ℤ → Option ObjectInventory
  | [], _, _, _, _ => none
  | answer :: answers, token, observed, seen, pageCount =>
    match answer token with
    | .error e => some (emptyInventory canonical pageCount ("S3 ListObjectsV2 failed: " ++ e))
    | .ok page =>
      match s3InventoryPage bucket owned observed seen page with
      | .error e => some (emptyInventory canonical (pageCount + 1) e)
      | .ok (additions, some next) =>
        inventoryLoop digest bucket owned canonical answers (some next) (observed ++ additions) (seen ++ [next])
          (pageCount + 1)
      | .ok (additions, none) => some (completeInventory digest canonical (observed ++ additions) (pageCount + 1))

/-- `inventory_owned_s3_prefix`; `unavailable` is what the making of the client raises. -/
def inventoryOwnedS3Prefix (digest : List InventoryObject → String) (location : String) (pageSize : ℤ)
    (unavailable : Option String) (answers : List Answer) : Option ObjectInventory :=
  match s3Location location with
  | .error e => some (emptyInventory location 0 e)
  | .ok (bucket, owned, canonical) =>
    if 1 ≤ pageSize ∧ pageSize ≤ 1000 then
      match unavailable with
      | some e => some (emptyInventory canonical 0 ("S3 inventory client unavailable: " ++ e))
      | none => inventoryLoop digest bucket owned canonical answers none [] [] 0
    else some (emptyInventory canonical 0 "S3 inventory page_size must be between 1 and 1000.")

/-! ### What a complete listing has seen -/

def pageObjects (bucket owned : String) (fields : S3Fields) : Except String Observed := do
  (← contentsOf fields).mapM (s3InventoryObject bucket owned)

/-- Every answer is a page that was asked for with the token of the one before, the last is not truncated; the
tokens and the objects of the pages. -/
inductive Chain (bucket owned : String) : Option String → List Answer → List String → Observed → Prop
  | last {token : Option String} {answer : Answer} {rest : List Answer} {fields : S3Fields} {objects : Observed} :
      answer token = .ok (.dict fields) → fieldOf fields "IsTruncated" = .bool false →
      fieldOf fields "NextContinuationToken" = .none → pageObjects bucket owned fields = .ok objects →
      Chain bucket owned token (answer :: rest) [] objects
  | more {token : Option String} {answer : Answer} {answers : List Answer} {fields : S3Fields} {next : String}
      {tokens : List String} {objects others : Observed} :
      answer token = .ok (.dict fields) → fieldOf fields "IsTruncated" = .bool true →
      fieldOf fields "NextContinuationToken" = .str next → next ≠ "" →
      pageObjects bucket owned fields = .ok objects → Chain bucket owned (some next) answers tokens others →
      Chain bucket owned token (answer :: answers) (next :: tokens) (objects ++ others)

theorem addObjects_eq_ok {bucket owned : String} {observed : Observed} {items : List S3Value}
    {additions result : Observed} (h : addObjects bucket owned observed items additions = .ok result)
    (hnodup : ((observed ++ additions).map Prod.fst).Nodup) :
    ∃ objects, items.mapM (s3InventoryObject bucket owned) = .ok objects ∧ result = additions ++ objects ∧
      ((observed ++ result).map Prod.fst).Nodup := by
  induction items generalizing additions with
  | nil =>
    obtain rfl := Except.ok.inj h
    exact ⟨[], rfl, (List.append_nil _).symm, hnodup⟩
  | cons item items ih =>
    rw [addObjects] at h
    obtain ⟨⟨key, object⟩, hobject, h⟩ := bind_eq_ok.1 h
    by_cases hnew : key ∈ (observed ++ additions).map Prod.fst
    · simp only [if_pos hnew] at h
      cases h
    · simp only [if_neg hnew] at h
      have hnodup' : ((observed ++ (additions ++ [(key, object)])).map Prod.fst).Nodup := by
        rw [← List.append_assoc, List.map_append]
        refine List.nodup_append.2 ⟨hnodup, List.nodup_singleton key, fun a ha b hb hab => hnew ?_⟩
        obtain rfl : b = key := List.mem_singleton.1 hb
        exact hab ▸ ha
      obtain ⟨objects, hobjects, rfl, hresult⟩ := ih h hnodup'
      refine ⟨(key, object) :: objects, ?_, List.append_cons .. |>.symm, hresult⟩
      rw [List.mapM_cons, hobject, hobjects]
      rfl

theorem continuationOf_eq_ok {seen : List String} {fields : S3Fields} {next : Option String}
    (h : continuationOf seen fields = .ok next) :
    (∃ token, next = some token ∧ fieldOf fields "IsTruncated" = .bool true ∧
        fieldOf fields "NextContinuationToken" = .str token ∧ token ≠ "" ∧ token ∉ seen) ∨
      (next = none ∧ fieldOf fields "IsTruncated" = .bool false ∧ fieldOf fields "NextContinuationToken" = .none) := by
  unfold continuationOf at h
  split at h
  next token htruncated htoken =>
    split at h
    · cases h
    next hfresh =>
      obtain ⟨hne, hseen⟩ := not_or.1 hfresh
      exact .inl ⟨token, (Except.ok.inj h).symm, htruncated, htoken, hne, hseen⟩
  · cases h
  next htruncated htoken => exact .inr ⟨(Except.ok.inj h).symm, htruncated, htoken⟩
  · cases h

theorem s3InventoryPage_eq_ok {bucket owned : String} {observed : Observed} {seen : List String} {page : S3Value}
    {additions : Observed} {next : Option String} (hnodup : (observed.map Prod.fst).Nodup)
    (h : s3InventoryPage bucket owned observed seen page = .ok (additions, next)) :
    ∃ fields, page = .dict fields ∧ pageObjects bucket owned fields = .ok additions ∧
      ((observed ++ additions).map Prod.fst).Nodup ∧ continuationOf seen fields = .ok next := by
  cases page with
  | dict fields =>
    obtain ⟨contents, hcontents, h⟩ := bind_eq_ok.1 h
    obtain ⟨added, hadded, h⟩ := bind_eq_ok.1 h
    obtain ⟨token, htoken, h⟩ := bind_eq_ok.1 h
    cases h
    obtain ⟨objects, hobjects, rfl, hresult⟩ := addObjects_eq_ok hadded (by rwa [List.append_nil])
    refine ⟨fields, rfl, ?_, hresult, htoken⟩
    rw [pageObjects, hcontents]
    exact hobjects
  | _ => cases h

theorem inventoryLoop_complete {digest : List InventoryObject → String} {bucket owned canonical : String} {answers : List Answer}
    {token : Option String} {observed : Observed} {seen : List String} {pageCount : ℤ} {inventory : ObjectInventory}
    (hnodup : (observed.map Prod.fst).Nodup)
    (h : inventoryLoop digest bucket owned canonical answers token observed seen pageCount = some inventory)
    (hcomplete : inventory.complete = true) :
    ∃ tokens objects, Chain bucket owned token answers tokens objects ∧ tokens.Nodup ∧ (∀ t ∈ tokens, t ∉ seen) ∧
      ((observed ++ objects).map Prod.fst).Nodup ∧
      inventory.objects = (sortBy Prod.fst (observed ++ objects)).map Prod.snd := by
  induction answers generalizing token observed seen pageCount with
  | nil => cases h
  | cons answer answers ih =>
    rw [inventoryLoop] at h
    cases hanswer : answer token with
    | error e =>
      rw [hanswer] at h
      cases h
      cases hcomplete
    | ok page =>
      rw [hanswer] at h
      dsimp only at h
      split at h
      · cases h
        cases hcomplete
      next additions next hpage =>
        obtain ⟨fields, rfl, hobjects, hadded, htoken⟩ := s3InventoryPage_eq_ok hnodup hpage
        obtain ⟨token', htoken', htruncated, hnext, hne, hseen⟩ | ⟨hnone, -⟩ := continuationOf_eq_ok htoken
        · obtain rfl := Option.some.inj htoken'
          obtain ⟨tokens, objects, hchain, htokens, hfresh, hkeys, hall⟩ := ih hadded h
          rw [List.append_assoc] at hkeys hall
          refine ⟨next :: tokens, additions ++ objects, .more hanswer htruncated hnext hne hobjects hchain,
            List.nodup_cons.2 ⟨fun hmem => ?_, htokens⟩, List.forall_mem_cons.2 ⟨hseen, fun t ht hold => ?_⟩,
            hkeys, hall⟩
          · exact hfresh next hmem (List.mem_append_right seen (List.mem_singleton_self next))
          · exact hfresh t ht (List.mem_append_left [next] hold)
        · cases hnone
      next additions hpage =>
        obtain ⟨fields, rfl, hobjects, hadded, htoken⟩ := s3InventoryPage_eq_ok hnodup hpage
        obtain ⟨token', htoken', -⟩ | ⟨-, htruncated, hnext⟩ := continuationOf_eq_ok htoken
        · cases htoken'
        · obtain rfl := Option.some.inj h
          exact ⟨[], additions, .last hanswer htruncated hnext hobjects, List.nodup_nil,
            fun t ht => absurd ht List.not_mem_nil, hadded, rfl⟩

theorem inventoryLoop_empty {digest : List InventoryObject → String} {bucket owned canonical : String} {answers : List Answer}
    {token : Option String} {observed : Observed} {seen : List String} {pageCount : ℤ} {inventory : ObjectInventory}
    (h : inventoryLoop digest bucket owned canonical answers token observed seen pageCount = some inventory)
    (hcomplete : inventory.complete = false) : inventory.objects = [] := by
  induction answers generalizing token observed seen pageCount with
  | nil => cases h
  | cons answer answers ih =>
    rw [inventoryLoop] at h
    split at h
    · cases h
      rfl
    · split at h
      · cases h
        rfl
      · exact ih h
      · cases h
        cases hcomplete

def IsOwned (bucket owned : String) (entry : String × InventoryObject) : Prop :=
  owned.toList.isPrefixOf entry.1.toList = true ∧ entry.2.identity = "s3://" ++ bucket ++ "/" ++ entry.1

theorem s3InventoryObject_eq_ok {bucket owned : String} {item : S3Value} {entry : String × InventoryObject}
    (h : s3InventoryObject bucket owned item = .ok entry) : IsOwned bucket owned entry := by
  cases item with
  | dict fields =>
    simp only [s3InventoryObject] at h
    split at h
    next key size _ _ =>
      split at h
      next hunder =>
        obtain ⟨modified, -, h⟩ := bind_eq_ok.1 h
        obtain ⟨version, -, h⟩ := bind_eq_ok.1 h
        obtain rfl := Except.ok.inj h
        exact ⟨hunder, rfl⟩
      · cases h
    · cases h
  | _ => cases h

theorem Chain.owned {bucket owned : String} {token : Option String} {answers : List Answer} {tokens : List String}
    {objects : Observed} (h : Chain bucket owned token answers tokens objects) :
    ∀ entry ∈ objects, IsOwned bucket owned entry := by
  have hpage : ∀ {fields : S3Fields} {objects : Observed}, pageObjects bucket owned fields = .ok objects →
      ∀ entry ∈ objects, IsOwned bucket owned entry := by
    intro fields objects hobjects entry hentry
    obtain ⟨contents, -, hobjects⟩ := bind_eq_ok.1 hobjects
    obtain ⟨item, -, hitem⟩ := (mem_of_mapM_eq_ok hobjects).2 entry hentry
    exact s3InventoryObject_eq_ok hitem
  induction h with
  | last _ _ _ hobjects => exact hpage hobjects
  | more _ _ _ _ hobjects _ ih => exact List.forall_mem_append.2 ⟨hpage hobjects, ih⟩

/-- What an inventory of a location says of the pages that were answered. -/
structure Faithful (location : String) (answers : List Answer) (inventory : ObjectInventory) : Prop where
  incomplete : inventory.complete = false → inventory.objects = []
  complete : inventory.complete = true → ∃ bucket owned canonical tokens objects,
    s3Location location = .ok (bucket, owned, canonical) ∧ Chain bucket owned none answers tokens objects ∧
      tokens.Nodup ∧ (objects.map Prod.fst).Nodup ∧ inventory.objects.Perm (objects.map Prod.snd) ∧
      ∀ entry ∈ objects, IsOwned bucket owned entry

theorem faithful_inventory {digest : List InventoryObject → String} {location : String} {pageSize : ℤ}
    {unavailable : Option String} {answers : List Answer} {inventory : ObjectInventory}
    (h : inventoryOwnedS3Prefix digest location pageSize unavailable answers = some inventory) :
    Faithful location answers inventory := by
  have hempty : ∀ uri count failure, emptyInventory uri count failure = inventory → Faithful location answers inventory := by
    rintro uri count failure rfl
    exact ⟨fun _ => rfl, fun hcomplete => (by cases hcomplete)⟩
  unfold inventoryOwnedS3Prefix at h
  split at h
  · exact hempty _ _ _ (Option.some.inj h)
  next bucket owned canonical hlocation =>
    split at h
    · split at h
      · exact hempty _ _ _ (Option.some.inj h)
      · have hnone : (([] : Observed).map Prod.fst).Nodup := List.nodup_nil
        refine ⟨inventoryLoop_empty h, fun hcomplete => ?_⟩
        obtain ⟨tokens, objects, hchain, htokens, -, hkeys, hobjects⟩ := inventoryLoop_complete hnone h hcomplete
        rw [List.nil_append] at hkeys hobjects
        refine ⟨bucket, owned, canonical, tokens, objects, hlocation, hchain, htokens, hkeys, ?_, hchain.owned⟩
        rw [hobjects]
        exact (sortBy_perm Prod.fst objects).map Prod.snd
    · exact hempty _ _ _ (Option.some.inj h)

theorem mem_of_mapM_manifests {snapshots : List Snapshot} {lists : List (List Manifest)}
    (h : snapshots.mapM Snapshot.manifests = some lists) {snapshot : Snapshot} (hsnapshot : snapshot ∈ snapshots)
    {manifests : List Manifest} (hmanifests : snapshot.manifests = some manifests) : manifests ∈ lists := by
  induction snapshots generalizing lists with
  | nil => cases hsnapshot
  | cons first snapshots ih =>
    rw [List.mapM_cons] at h
    obtain ⟨list, hlist, h⟩ := Option.bind_eq_some_iff.1 h
    obtain ⟨others, hothers, h⟩ := Option.bind_eq_some_iff.1 h
    obtain rfl := Option.some.inj h
    rcases List.mem_cons.1 hsnapshot with rfl | hsnapshot
    · exact List.mem_cons.2 (.inl (Option.some.inj (hmanifests.symm.trans hlist)))
    · exact List.mem_cons_of_mem list (ih hothers hsnapshot)

def lakeHost (inventory : ObjectInventory) : Host where
  sha256 := id
  roundedSeconds _ := ⟨['0', '.', '0'], roundedText_numerals, roundedText_fraction⟩
  isoformat := toString
  inventoryOwnedPrefix _ _ := inventory
  storagePathKey := storagePathKey

def ordersTable : TableState where
  snapshots := [⟨1, 0, none, .empty, some [⟨"s3a://lake/orders/metadata/m0.avro", [⟨"s3a://lake/orders/data/a", some 10⟩]⟩]⟩]
  currentSnapshot := none
  refs := []
  refsListed := true
  location := "s3://lake/orders"

/-- The listing sees the file of the snapshot and another one. -/
def ordersAnswer : Answer := fun _ => .ok (.dict [("IsTruncated", .bool false), ("Contents", .list [
  .dict [("Key", .str "orders/data/a"), ("Size", .int 10), ("LastModified", .datetime 1)],
  .dict [("Key", .str "orders/data/b"), ("Size", .int 20), ("LastModified", .datetime 1)]])])

end Phlo.Maintenance
