import DocumentStore.Transport

/- A transport that gives prepared answers, one queue for each kind of request. When a queue is
   empty the request succeeds with an empty document or an empty last page. -/
namespace DocumentStore

/-- Answers still to be given. -/
structure Script where
  creates : List (Except TransportError Document) := []
  deletes : List (Except TransportError Unit) := []
  gets : List (Except TransportError Document) := []
  replaces : List (Except TransportError Document) := []
  searches : List (Except TransportError Page) := []

namespace Script

/-- The first answer of a queue, or the given one if there is none. -/
def pop {α : Type} (default : α) : List (Except TransportError α) →
    Except TransportError α × List (Except TransportError α)
  | [] => (.ok default, [])
  | answer :: rest => (answer, rest)

/-- The script as a transport. -/
def transport : Transport Script where
  respond
    | .create _, s =>
      let (answer, rest) := pop .empty s.creates
      (answer, { s with creates := rest })
    | .delete _, s =>
      let (answer, rest) := pop () s.deletes
      (answer, { s with deletes := rest })
    | .get _, s =>
      let (answer, rest) := pop .empty s.gets
      (answer, { s with gets := rest })
    | .replace _ _, s =>
      let (answer, rest) := pop .empty s.replaces
      (answer, { s with replaces := rest })
    | .search _, s =>
      let (answer, rest) := pop .last s.searches
      (answer, { s with searches := rest })

/-- A number of pages that no query exceeds. -/
def pageLimit (s : Script) : Nat :=
  s.searches.length + 1

end Script

end DocumentStore
