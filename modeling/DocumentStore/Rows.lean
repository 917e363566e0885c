import DocumentStore.Document

/- The rows of a query result. The columns are the fields of the first document; a document of
   another shape is projected onto them. -/
namespace DocumentStore

open Json (Value)

/-- A cursor over fetched documents that has passed `position` of them. -/
structure Rows where
  documents : List Document
  position : Nat
  deriving DecidableEq

namespace Rows

/-- A cursor before the first document. -/
def ofDocuments (documents : List Document) : Rows :=
  ⟨documents, 0⟩

/-- The column names in row order. -/
def columns (rows : Rows) : List String :=
  match rows.documents with
  | [] => []
  | first :: _ => first.keys

/-- How many documents were fetched. -/
def size (rows : Rows) : Nat :=
  rows.documents.length

/-- How many rows are still to come. -/
def remaining (rows : Rows) : Nat :=
  rows.documents.length - rows.position

/-- The cells of a document under the given columns. A missing field reads as null. -/
def project (columns : List String) (doc : Document) : List Value :=
  columns.map fun column => (doc.get? column).getD .null

/-- The next row, none past the last. -/
def next (rows : Rows) : Option (List Value) × Rows :=
  match rows.documents[rows.position]? with
  | none => (none, rows)
  | some doc => (some (project rows.columns doc), { rows with position := rows.position + 1 })

/-- The rows still to come. -/
def toList (rows : Rows) : List (List Value) :=
  (rows.documents.drop rows.position).map (project rows.columns)

end Rows

end DocumentStore
