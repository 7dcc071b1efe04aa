import Phlo.Iceberg.Values
import Phlo.Library.OrderedDict

/-!
# Rows that are landed in a candidate

A batch of records is merged into a candidate by its key: of the records with one key the last one is kept,
and records whose key the candidate has already are left out.  What is appended has the columns of the first
record.
-/

namespace Phlo.Promotion

open Phlo.Library
open Phlo.Iceberg (Value Row Scalar)

abbrev Record := OrderedDict String Value

/-- `record.get(name)` -/
def Record.field (record : Record) (name : String) : Value := (record.get name).getD .null

def Record.names (record : Record) : List String := record.items.map Prod.fst

def keyOf (uniqueKey : List String) (record : Record) : List Value := uniqueKey.map record.field

def hashable : Value → Bool
  | .null => true
  | .scalar _ => true
  | _ => false

/-- `==` of two hashable values that are read at different times. -/
def sameValue : Value → Value → Bool
  | .null, .null => true
  | .scalar left, .scalar right => left.pyEq right
  | _, _ => false

/-- `==` of two tuples. -/
def sameTuple : List Value → List Value → Bool
  | [], [] => true
  | left :: lefts, right :: rights => sameValue left right && sameTuple lefts rights
  | _, _ => false

/-- One round of the loop over the reversed batch: the keys seen so far, and the records kept. -/
def keepUnseen (uniqueKey : List String) (acc : List (List Value) × List Record) (record : Record) :
    List (List Value) × List Record :=
  if keyOf uniqueKey record ∈ acc.1 then acc else (keyOf uniqueKey record :: acc.1, record :: acc.2)

/-- The batch without the records whose key comes again. -/
def deduped (uniqueKey : List String) (records : List Record) : List Record :=
  (records.reverse.foldl (keepUnseen uniqueKey) ([], [])).2

def freshRecords (existing : List Row) (uniqueKey : List String) (records : List Record) : List Record :=
  if uniqueKey = [] then records
  else (deduped uniqueKey records).filter fun record =>
    !existing.any fun row => sameTuple (keyOf uniqueKey record) (uniqueKey.map row)

/-- `pa.Table.from_pylist`: the columns are the fields of the first record. -/
def fromPylist (records : List Record) : List Row :=
  records.map fun record name =>
    if name ∈ (records.head?.map Record.names).getD [] then record.field name else .null

end Phlo.Promotion
