import Phlo.Library.LengthPrefix

/-!
# Synthetic row keys

`synthetic_key` renders an SQL expression that hashes a payload: a tag, and for a value its length and the
value, field by field, after an optional namespace.

* `syntheticKey` — the text, put together as the source does it;
* `SqlText` — the expressions in it, `print` and `eval` their text and their value; in Oracle the empty
  text is NULL, in SQL Server `LEN` does not count trailing blanks.
-/

namespace Phlo.Helpers

open Phlo.Library

/-! ### The rendered text -/

/-- `PhloConfigError` -/
structure ConfigError where
  message : String
  suggestions : List String
  deriving DecidableEq

/-- `_SYNTHETIC_KEY_DIALECTS` -/
inductive Dialect where
  | oracle | sqlserver
  deriving DecidableEq

def Dialect.named (name : String) : Option Dialect :=
  if name.toLower = "oracle" then some .oracle
  else if name.toLower = "sqlserver" then some .sqlserver
  else none

def isWordChar (c : Char) : Bool := c.isAlphanum || c == '_'

/-- `_IDENTIFIER.match`; the end it looks for is also before a line break at the end. -/
def isIdentifier (s : String) : Bool :=
  match s.toList with
  | [] => false
  | c :: rest =>
    let body := if rest.getLast? = some '\n' then rest.dropLast else rest
    (c.isAlpha || c == '_') && body.all isWordChar

/-- `literal`, of a text -/
def literal (s : String) : String :=
  "'" ++ String.ofList (s.toList.flatMap fun c => if c = '\'' then ['\'', '\''] else [c]) ++ "'"

def syntheticKeyStringCast (dialect : Dialect) (field : String) : String :=
  match dialect with
  | .oracle => "CAST(" ++ field ++ " AS VARCHAR2(4000))"
  | .sqlserver => "CAST(" ++ field ++ " AS nvarchar(max))"

/-- `_synthetic_key_length` -/
def syntheticKeyLength (dialect : Dialect) (value : String) : String :=
  match dialect with
  | .oracle => "LENGTH(" ++ value ++ ")"
  | .sqlserver => "LEN(" ++ value ++ ")"

def syntheticKeyFieldPart (dialect : Dialect) (field : String) : String :=
  let value := syntheticKeyStringCast dialect field
  let length := syntheticKeyLength dialect value
  match dialect with
  | .oracle =>
    "(CASE WHEN " ++ field ++ " IS NULL THEN 'N:' ELSE 'V:' || TO_CHAR(" ++ length ++ ") || ':' || " ++
      value ++ " END)"
  | .sqlserver =>
    "(CASE WHEN " ++ field ++ " IS NULL THEN 'N:' ELSE CONCAT('V:', CAST(" ++ length ++
      " AS varchar(20)), ':', " ++ value ++ ") END)"

def lengthPrefixedNamespace (space : String) : String :=
  "NS:" ++ String.ofList (decimal space.toList.length) ++ ":" ++ space

/-- The namespace, unless it is missing or empty. -/
def statedNamespace (space : Option String) : Option String := space.filter (· ≠ "")

def unsupportedDialect (dialect : String) : ConfigError where
  message := "Unsupported synthetic key SQL dialect: " ++ dialect
  suggestions := ["Use dialect='oracle' or dialect='sqlserver'."]

def noFields : ConfigError where
  message := "Synthetic key fields cannot be empty"
  suggestions := ["Pass one or more source column names in field order."]

def unsafeIdentifier (label identifier : String) : ConfigError where
  message := "Unsafe synthetic key " ++ label ++ ": " ++ identifier
  suggestions := ["Use simple unquoted column names such as source_id or customer_id."]

def validateSyntheticKeyIdentifier (label identifier : String) : Except ConfigError Unit :=
  if isIdentifier identifier then .ok () else .error (unsafeIdentifier label identifier)

def syntheticKeyParts (dialect : Dialect) (fields : List String) (space : Option String) : List String :=
  (statedNamespace space).toList.map (fun space => literal (lengthPrefixedNamespace space)) ++
    fields.map (syntheticKeyFieldPart dialect)

/-- `synthetic_key` -/
def syntheticKey (dialect : String) (fields : List String) (space : Option String) : Except ConfigError String := do
  let some normalizedDialect := Dialect.named dialect | throw (unsupportedDialect dialect)
  if fields.isEmpty then throw noFields
  fields.forM (validateSyntheticKeyIdentifier "field")
  let parts := syntheticKeyParts normalizedDialect fields space
  match normalizedDialect with
  | .oracle => return "STANDARD_HASH(" ++ " || ".intercalate parts ++ ", 'SHA256')"
  | .sqlserver =>
    return "CONVERT(varchar(64), HASHBYTES('SHA2_256', CONCAT(" ++ ", ".intercalate parts ++ ")), 2)"

/-! ### Expressions -/

/-- The expressions for texts that a key is made of. -/
inductive SqlText where
  | column (name : String)
  | literal (text : String)
  | asText (e : SqlText)
  | lengthText (e : SqlText)
  | concat (parts : List SqlText)
  | ifNull (name : String) (null value : SqlText)

namespace SqlText

variable (dialect : Dialect)

mutual

def print : SqlText → String
  | column name => name
  | literal text => Helpers.literal text
  | asText e => syntheticKeyStringCast dialect e.print
  | lengthText e =>
    match dialect with
    | .oracle => "TO_CHAR(" ++ syntheticKeyLength dialect e.print ++ ")"
    | .sqlserver => "CAST(" ++ syntheticKeyLength dialect e.print ++ " AS varchar(20))"
  | concat parts =>
    match dialect with
    | .oracle => " || ".intercalate (printParts parts)
    | .sqlserver => "CONCAT(" ++ ", ".intercalate (printParts parts) ++ ")"
  | ifNull name null value =>
    "(CASE WHEN " ++ name ++ " IS NULL THEN " ++ null.print ++ " ELSE " ++ value.print ++ " END)"

def printParts : List SqlText → List String
  | [] => []
  | e :: parts => e.print :: printParts parts

end

end SqlText

def Dialect.stored : Dialect → Option (List Char) → Option (List Char)
  | .oracle, some [] => none
  | _, value => value

def Dialect.ignored : Dialect → Char → Bool
  | .oracle, _ => false
  | .sqlserver, c => c == ' '

namespace SqlText

variable (dialect : Dialect) (row : String → Option (List Char))

mutual

def eval : SqlText → Option (List Char)
  | column name => dialect.stored (row name)
  | literal text => dialect.stored (some text.toList)
  | asText e => e.eval
  | lengthText e => e.eval.map fun value => decimal (countedLength dialect.ignored value)
  | concat parts => dialect.stored (some (evalParts parts))
  | ifNull name null value => if (dialect.stored (row name)).isNone then null.eval else value.eval

def evalParts : List SqlText → List Char
  | [] => []
  | e :: parts => e.eval.getD [] ++ evalParts parts

end

end SqlText

def fieldExpression (field : String) : SqlText :=
  .ifNull field (.literal "N:")
    (.concat [.literal "V:", .lengthText (.asText (.column field)), .literal ":", .asText (.column field)])

def payloadExpression (fields : List String) (space : Option String) : SqlText :=
  .concat ((statedNamespace space).toList.map (fun space => .literal (lengthPrefixedNamespace space)) ++
    fields.map fieldExpression)

def hashText (dialect : Dialect) (payload : SqlText) : String :=
  match dialect with
  | .oracle => "STANDARD_HASH(" ++ payload.print dialect ++ ", 'SHA256')"
  | .sqlserver => "CONVERT(varchar(64), HASHBYTES('SHA2_256', " ++ payload.print dialect ++ "), 2)"

/-! ### The text is that of the expression -/

variable {dialect : Dialect}

theorem literal_null : literal "N:" = "'N:'" := by decide +kernel

theorem literal_value : literal "V:" = "'V:'" := by decide +kernel

theorem literal_colon : literal ":" = "':'" := by decide +kernel

theorem print_fieldExpression (dialect : Dialect) (field : String) :
    (fieldExpression field).print dialect = syntheticKeyFieldPart dialect field := by
  cases dialect with
  | oracle =>
    have hopen : " IS NULL THEN 'N:' ELSE 'V:' || TO_CHAR(" =
        " IS NULL THEN " ++ ("'N:'" ++ (" ELSE " ++ ("'V:'" ++ (" || " ++ "TO_CHAR(")))) := by decide +kernel
    have hclose : ") || ':' || " = ")" ++ (" || " ++ ("':'" ++ " || ")) := by decide +kernel
    simp only [fieldExpression, SqlText.print, SqlText.printParts, literal_null, literal_value, literal_colon,
      syntheticKeyFieldPart, String.intercalate_cons_cons, String.intercalate_singleton, hopen, hclose,
      String.append_assoc]
  | sqlserver =>
    have hopen : " IS NULL THEN 'N:' ELSE CONCAT('V:', CAST(" =
        " IS NULL THEN " ++ ("'N:'" ++ (" ELSE " ++ ("CONCAT(" ++ ("'V:'" ++ (", " ++ "CAST("))))) := by
      decide +kernel
    have hmiddle : " AS varchar(20)), ':', " = " AS varchar(20))" ++ (", " ++ ("':'" ++ ", ")) := by decide +kernel
    have hclose : ") END)" = ")" ++ " END)" := by decide +kernel
    simp only [fieldExpression, SqlText.print, SqlText.printParts, literal_null, literal_value, literal_colon,
      syntheticKeyFieldPart, String.intercalate_cons_cons, String.intercalate_singleton, hopen, hmiddle, hclose,
      String.append_assoc]

theorem printParts_eq_map (dialect : Dialect) (parts : List SqlText) :
    SqlText.printParts dialect parts = parts.map (SqlText.print dialect) := by
  induction parts with
  | nil => rfl
  | cons e parts ih => rw [SqlText.printParts, ih, List.map_cons]

theorem printParts_payload (dialect : Dialect) (fields : List String) (space : Option String) :
    SqlText.printParts dialect ((statedNamespace space).toList.map
        (fun space => .literal (lengthPrefixedNamespace space)) ++ fields.map fieldExpression) =
      syntheticKeyParts dialect fields space := by
  rw [printParts_eq_map, List.map_append, List.map_map, List.map_map, syntheticKeyParts]
  refine congrArg₂ (· ++ ·) (List.map_congr_left fun _ _ => ?_) (List.map_congr_left fun _ _ => ?_)
  · show SqlText.print dialect (.literal _) = _
    rw [SqlText.print]
  · exact print_fieldExpression dialect _

theorem syntheticKey_eq_hashText {name text : String} {fields : List String} {space : Option String}
    (hname : Dialect.named name = some dialect) (h : syntheticKey name fields space = .ok text) :
    text = hashText dialect (payloadExpression fields space) := by
  rw [syntheticKey, hname] at h
  dsimp only at h
  split at h
  · cases h
  · cases hforM : fields.forM (validateSyntheticKeyIdentifier "field") with
    | error e =>
      rw [hforM] at h
      cases h
    | ok u =>
      rw [hforM] at h
      cases dialect with
      | oracle =>
        have htext := Except.ok.inj h
        rw [← htext]
        show _ = "STANDARD_HASH(" ++ (payloadExpression fields space).print .oracle ++ ", 'SHA256')"
        rw [payloadExpression, SqlText.print, printParts_payload]
      | sqlserver =>
        have htext := Except.ok.inj h
        have hopen : "CONVERT(varchar(64), HASHBYTES('SHA2_256', CONCAT(" =
            "CONVERT(varchar(64), HASHBYTES('SHA2_256', " ++ "CONCAT(" := by decide +kernel
        have hclose : ")), 2)" = ")" ++ "), 2)" := by decide +kernel
        rw [← htext]
        show _ = "CONVERT(varchar(64), HASHBYTES('SHA2_256', " ++
          (payloadExpression fields space).print .sqlserver ++ "), 2)"
        rw [payloadExpression, SqlText.print, printParts_payload, hopen, hclose]
        simp only [String.append_assoc]

/-! ### The payload -/

def tagged (dialect : Dialect) : Option (List Char) → List Char
  | none => ['N', ':']
  | some value => 'V' :: ':' :: (decimal (countedLength dialect.ignored value) ++ ':' :: value)

def namespacePrefix : Option String → List Char
  | none => []
  | some space => 'N' :: 'S' :: ':' :: (decimal space.toList.length ++ ':' :: space.toList)

def fieldValues (dialect : Dialect) (fields : List String) (row : String → Option (List Char)) :
    List (Option (List Char)) :=
  fields.map fun field => dialect.stored (row field)

def payload (dialect : Dialect) (fields : List String) (space : Option String) (row : String → Option (List Char)) :
    Option (List Char) :=
  (payloadExpression fields space).eval dialect row

theorem stored_cons (dialect : Dialect) (c : Char) (value : List Char) :
    dialect.stored (some (c :: value)) = some (c :: value) := by
  cases dialect <;> rfl

theorem eval_fieldExpression (dialect : Dialect) (row : String → Option (List Char)) (field : String) :
    (fieldExpression field).eval dialect row = some (tagged dialect (dialect.stored (row field))) := by
  rw [fieldExpression, SqlText.eval]
  cases hvalue : dialect.stored (row field) with
  | none =>
    rw [Option.isNone_none, if_pos rfl, SqlText.eval]
    exact stored_cons dialect 'N' [':']
  | some value =>
    rw [Option.isNone_some, if_neg Bool.false_ne_true, SqlText.eval]
    simp only [SqlText.evalParts, SqlText.eval, hvalue]
    have hV : (dialect.stored (some "V:".toList)).getD [] = ['V', ':'] :=
      congrArg (Option.getD · []) (stored_cons dialect 'V' [':'])
    have hcolon : (dialect.stored (some ":".toList)).getD [] = [':'] :=
      congrArg (Option.getD · []) (stored_cons dialect ':' [])
    rw [hV, hcolon]
    simp only [Option.map_some, Option.getD_some, List.append_nil, List.cons_append, List.nil_append]
    exact stored_cons dialect 'V' _

theorem evalParts_append (dialect : Dialect) (row : String → Option (List Char)) (a b : List SqlText) :
    SqlText.evalParts dialect row (a ++ b) = SqlText.evalParts dialect row a ++ SqlText.evalParts dialect row b := by
  induction a with
  | nil => rfl
  | cons e a ih => rw [List.cons_append, SqlText.evalParts, SqlText.evalParts, ih, List.append_assoc]

theorem evalParts_fields (dialect : Dialect) (row : String → Option (List Char)) (fields : List String) :
    SqlText.evalParts dialect row (fields.map fieldExpression) =
      (fieldValues dialect fields row).flatMap (tagged dialect) := by
  induction fields with
  | nil => rfl
  | cons field fields ih =>
    rw [List.map_cons, SqlText.evalParts, eval_fieldExpression, Option.getD_some, ih, fieldValues, fieldValues,
      List.map_cons, List.flatMap_cons]

theorem payload_eq (dialect : Dialect) (fields : List String) (space : Option String)
    (row : String → Option (List Char)) :
    payload dialect fields space row = dialect.stored (some (namespacePrefix (statedNamespace space) ++
      (fieldValues dialect fields row).flatMap (tagged dialect))) := by
  rw [payload, payloadExpression, SqlText.eval, evalParts_append, evalParts_fields]
  cases statedNamespace space with
  | none => rfl
  | some space =>
    have htag : "NS:".toList = ['N', 'S', ':'] := rfl
    have hcolon : ":".toList = [':'] := rfl
    have htoList : (lengthPrefixedNamespace space).toList = namespacePrefix (some space) := by
      simp only [lengthPrefixedNamespace, String.toList_append, String.toList_ofList, namespacePrefix, htag, hcolon,
        List.append_assoc, List.cons_append, List.nil_append]
    show dialect.stored (some (((SqlText.literal (lengthPrefixedNamespace space)).eval dialect row).getD [] ++ [] ++ _)) = _
    rw [SqlText.eval, htoList, namespacePrefix, stored_cons, Option.getD_some, List.append_nil]

theorem stored_some_inj {l l' : List Char} (h : dialect.stored (some l) = dialect.stored (some l')) : l = l' := by
  cases dialect with
  | sqlserver => exact Option.some.inj h
  | oracle =>
    match l, l' with
    | [], [] => rfl
    | c :: l, c' :: l' => exact Option.some.inj h

theorem head_tagged (dialect : Dialect) (values : List (Option (List Char))) :
    ∀ c ∈ (values.flatMap (tagged dialect)).head?, dialect.ignored c = false := by
  intro c hc
  match values with
  | [] => cases hc
  | none :: values =>
    cases hc
    cases dialect <;> rfl
  | some value :: values =>
    cases hc
    cases dialect <;> rfl

/-- A tagged value ends where the next one begins. -/
theorem tagged_append_inj {a b : Option (List Char)} {x y : List Char}
    (hx : ∀ c ∈ x.head?, dialect.ignored c = false) (hy : ∀ c ∈ y.head?, dialect.ignored c = false)
    (h : tagged dialect a ++ x = tagged dialect b ++ y) : a = b ∧ x = y := by
  cases a with
  | none =>
    cases b with
    | none => exact ⟨rfl, (List.cons.inj (List.cons.inj h).2).2⟩
    | some w => exact absurd (List.cons.inj h).1 (by decide)
  | some v =>
    cases b with
    | none => exact absurd (List.cons.inj h).1 (by decide)
    | some w =>
      have hrest : (decimal (countedLength dialect.ignored v) ++ ':' :: v) ++ x =
          (decimal (countedLength dialect.ignored w) ++ ':' :: w) ++ y :=
        (List.cons.inj (List.cons.inj h).2).2
      rw [List.append_assoc, List.append_assoc, List.cons_append, List.cons_append] at hrest
      obtain ⟨hlength, hvalues⟩ := decimal_append_inj (by decide) hrest
      obtain ⟨rfl, hxy⟩ := append_inj_of_counted hlength hx hy hvalues
      exact ⟨rfl, hxy⟩

theorem tagged_injective {values values' : List (Option (List Char))} (hlength : values.length = values'.length)
    (h : values.flatMap (tagged dialect) = values'.flatMap (tagged dialect)) : values = values' := by
  induction values generalizing values' with
  | nil => exact (List.eq_nil_of_length_eq_zero hlength.symm).symm
  | cons a values ih =>
    cases values' with
    | nil => cases hlength
    | cons b values' =>
      rw [List.flatMap_cons, List.flatMap_cons] at h
      obtain ⟨rfl, hrest⟩ := tagged_append_inj (head_tagged dialect values) (head_tagged dialect values') h
      rw [ih (Nat.succ.inj hlength) hrest]

theorem tagged_ne_namespace (values : List (Option (List Char))) (space : String) (rest : List Char) :
    values.flatMap (tagged dialect) ≠ namespacePrefix (some space) ++ rest := by
  intro h
  match values with
  | [] => cases h
  | none :: values => exact absurd (List.cons.inj (List.cons.inj h).2).1 (by decide)
  | some value :: values => exact absurd (List.cons.inj h).1 (by decide)

theorem namespace_append_inj {space space' : Option String} {values values' : List (Option (List Char))}
    (h : namespacePrefix space ++ values.flatMap (tagged dialect) =
      namespacePrefix space' ++ values'.flatMap (tagged dialect)) : space = space' := by
  cases space with
  | none =>
    cases space' with
    | none => rfl
    | some t => exact absurd h (tagged_ne_namespace values t _)
  | some s =>
    cases space' with
    | none => exact absurd h.symm (tagged_ne_namespace values' s _)
    | some t =>
      have hrest : (decimal s.toList.length ++ ':' :: s.toList) ++ values.flatMap (tagged dialect) =
          (decimal t.toList.length ++ ':' :: t.toList) ++ values'.flatMap (tagged dialect) :=
        (List.cons.inj (List.cons.inj (List.cons.inj h).2).2).2
      rw [List.append_assoc, List.append_assoc, List.cons_append, List.cons_append] at hrest
      obtain ⟨hlength, htexts⟩ := decimal_append_inj (by decide) hrest
      rw [String.toList_injective (List.append_inj htexts hlength).1]

/-- The rendered key hashes the payload; payloads of the fields' values are equal for equal values only,
and payloads with different namespaces are different, where the empty namespace is none. -/
theorem synthetic_key_collision_free (dialect : Dialect) (fields fields' : List String)
    (space space' : Option String) (row row' : String → Option (List Char)) :
    (∀ name text, Dialect.named name = some dialect → syntheticKey name fields space = .ok text →
      text = hashText dialect (payloadExpression fields space)) ∧
    (payload dialect fields space row = payload dialect fields space row' →
      ∀ field ∈ fields, dialect.stored (row field) = dialect.stored (row' field)) ∧
    (statedNamespace space ≠ statedNamespace space' →
      payload dialect fields space row ≠ payload dialect fields' space' row') := by
  refine ⟨fun name text hname htext => syntheticKey_eq_hashText hname htext, fun h => ?_, fun hspace h => ?_⟩
  · rw [payload_eq, payload_eq] at h
    have hlength : (fieldValues dialect fields row).length = (fieldValues dialect fields row').length := by
      rw [fieldValues, fieldValues, List.length_map, List.length_map]
    have hvalues := tagged_injective hlength (List.append_cancel_left (stored_some_inj h))
    exact fun field hfield => List.map_inj_left.1 hvalues field hfield
  · rw [payload_eq, payload_eq] at h
    exact hspace (namespace_append_inj (stored_some_inj h))

/-- An empty namespace is rendered like none. -/
theorem empty_namespace_collides : syntheticKey "oracle" ["id"] (some "") = syntheticKey "oracle" ["id"] none ∧
      payload .oracle ["id"] (some "") (fun _ => some ['7']) = payload .oracle ["id"] none (fun _ => some ['7']) :=
  ⟨rfl, rfl⟩

end Phlo.Helpers
