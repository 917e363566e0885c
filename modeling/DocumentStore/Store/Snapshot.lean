import DocumentStore.Json.Record
import DocumentStore.Store

/- Snapshots: the content of a store as JSON text. A snapshot is a record of the sequence and the
   databases, either of which may be missing; a stored document is a record of its partition key
   and the document. A document's fields stand six levels deep, so their values may nest that much
   less than values elsewhere. -/
namespace DocumentStore.Store

open Json (Tree Value)
open Json

/-! Writing. -/

def treeOfStored (s : Stored) : Tree :=
  Record.write
    [("partition_key", .array (s.partition.map Value.toTree)),
      ("document", s.document.toValue.toTree)]

def toTree (s : Store) : Tree :=
  Record.write
    [("sequence", Record.writeNatural s.sequence),
      ("databases",
        Record.writeMap (Record.writeMap fun documents => .array (documents.map treeOfStored))
          s.databases)]

/-- The text of a snapshot. -/
def save (s : Store) : String :=
  s.toTree.write .pretty

/-! Reading. -/

/-- Levels left for a value in a document or a partition key. -/
def valueDepth : Nat :=
  Value.depthLimit - 6

def document? : Tree → Option Document
  | .object members =>
    (Value.membersOfTrees? valueDepth members).map KeyMap.ofList
  | _ => none

def stored? (t : Tree) : Option Stored :=
  match Record.fields? ["partition_key", "document"] t with
  | some [some partition, some document] =>
    match Record.list? (Value.ofTree? valueDepth) partition, document? document with
    | some partition, some document => some ⟨partition, document⟩
    | _, _ => none
  | _ => none

def databases? : Tree → Option (KeyMap (KeyMap (List Stored))) :=
  Record.map? (Record.map? (Record.list? stored?))

def ofTree? (t : Tree) : Option Store :=
  match Record.fields? ["sequence", "databases"] t with
  | some [sequence, databases] =>
    match sequence.elim (some 0) Record.natural?, databases.elim (some .empty) databases? with
    | some sequence, some databases => some ⟨sequence, databases⟩
    | _, _ => none
  | _ => none

/-- The store of a snapshot text. -/
def load? (text : String) : Option Store :=
  (Tree.read? text.toList).bind ofTree?

end DocumentStore.Store
