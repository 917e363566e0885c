import DocumentStore.Text.Scan
import DocumentStore.Transport

/- A document store that is kept as a value. It answers requests as a remote store does: it adds
   its attributes to what is written, checks tokens, reports what is missing and returns query
   results in pages. It does not evaluate query texts: a query finds every document of its
   collection, in the order of creation. -/
namespace DocumentStore

open Json (Value)

/-- A document of the store with the partition key it was created with. -/
structure Stored where
  partition : List Value
  document : Document
  deriving DecidableEq

/-- Databases of collections by their names. The sequence counts the writes and supplies the ids
    and tokens that the store gives. -/
structure Store where
  sequence : Nat
  databases : KeyMap (KeyMap (List Stored))
  deriving DecidableEq

namespace Stored

/-- The document stands under this partition key and this id. -/
def isAt (partition : List Value) (id : String) (s : Stored) : Bool :=
  Value.equalItems s.partition partition && s.document.id? == some id

/-- Changes the document of the first element that satisfies `p`. -/
def overwriteFirst (p : Stored → Bool) (doc : Document) : List Stored → List Stored
  | [] => []
  | s :: rest =>
    if p s then { s with document := doc } :: rest else s :: overwriteFirst p doc rest

/-- The documents do not all have the partition key of the first. -/
def mixPartitions : List Stored → Bool
  | [] => false
  | first :: rest => rest.any fun s => !Value.equalItems s.partition first.partition

end Stored

namespace Store

def empty : Store :=
  ⟨0, .empty⟩

instance : Inhabited Store := ⟨empty⟩

/-! Refusals. -/

def databaseMissing (database : String) : TransportError :=
  ⟨Status.notFound,
    "Owner resource does not exist. ResourceType: Database, ResourceId: " ++ database⟩

def collectionMissing (c : Container) : TransportError :=
  ⟨Status.notFound,
    "Owner resource does not exist. ResourceType: Collection, ResourceId: " ++ c.database ++ "/" ++
      c.collection⟩

def documentMissing (id : String) : TransportError :=
  ⟨Status.notFound,
    "Entity with the specified id does not exist in the system. ResourceType: Document, " ++
      "ResourceId: " ++ id⟩

def idMissing : TransportError :=
  ⟨Status.badRequest,
    "The input content is invalid because the required properties - 'id; ' - are missing"⟩

def idTaken : TransportError :=
  ⟨Status.conflict, "Entity with the specified id already exists in the system."⟩

def tokenStale : TransportError :=
  ⟨Status.preconditionFailed, "One of the specified pre-condition is not met"⟩

def partitionsMixed : TransportError :=
  ⟨Status.badRequest, "Cross partition query is required but disabled."⟩

def continuationInvalid (token : String) : TransportError :=
  ⟨Status.badRequest, "Invalid continuation token: " ++ token⟩

/-! Containers. -/

/-- The collections of a database, none if there is no such database. -/
def database (s : Store) (name : String) : KeyMap (List Stored) :=
  (s.databases.get? name).getD .empty

/-- Creates a database if there is none of the name. -/
def createDatabase (s : Store) (name : String) : Store :=
  { s with databases := s.databases.insert name (s.database name) }

/-- Creates a collection, and its database, if there is none of the name. -/
def createCollection (s : Store) (c : Container) : Store :=
  let collections := s.database c.database
  let documents := (collections.get? c.collection).getD []
  { s with databases := s.databases.insert c.database (collections.insert c.collection documents) }

/-- The documents of a collection. -/
def documents? (s : Store) (c : Container) : Except TransportError (List Stored) :=
  match s.databases.get? c.database with
  | none => .error (databaseMissing c.database)
  | some collections =>
    match collections.get? c.collection with
    | none => .error (collectionMissing c)
    | some documents => .ok documents

/-- The store with these documents in a collection. -/
def setDocuments (s : Store) (c : Container) (documents : List Stored) : Store :=
  { s with
    databases :=
      s.databases.insert c.database ((s.database c.database).insert c.collection documents) }

/-- How many documents a collection has. -/
def count? (s : Store) (c : Container) : Option Nat :=
  (s.documents? c).toOption.map List.length

/-! Attributes. -/

/-- A number in the given base, with zeros before it up to the given width. -/
def padded (base width n : Nat) : String :=
  let digits := Nat.toDigits base n
  String.ofList (List.replicate (width - digits.length) '0' ++ digits)

/-- The id given to the document that the write with this number creates. -/
def mintedId (sequence : Nat) : String :=
  "rid" ++ padded 10 8 sequence ++ "=="

/-- The token given by the write with this number. -/
def mintedToken (sequence : Nat) : String :=
  "\"" ++ padded 16 16 sequence ++ "\""

def selfLink (c : Container) (resourceId : String) : String :=
  "dbs/" ++ c.database ++ "/colls/" ++ c.collection ++ "/docs/" ++ resourceId ++ "/"

/-- The payload with the attributes of the write with this number. -/
def stamp (time : Json.Whole) (sequence : Nat) (c : Container) (resourceId : String)
    (payload : Document) : Document :=
  payload.insertAll
    [("_self", .string (selfLink c resourceId)),
      ("_etag", .string (mintedToken sequence)),
      ("_rid", .string resourceId),
      ("_ts", .number (.whole time)),
      ("_attachments", .string "attachments/")]

/-- The id of a payload, which must not be empty. -/
def requiredId (payload : Document) : Except TransportError String :=
  match payload.id? with
  | none => .error idMissing
  | some id => if id = "" then .error idMissing else .ok id

/-! Requests. -/

/-- Puts a new document at the end of a collection. -/
def append (time : Json.Whole) (draft : Draft) (documents : List Stored) (s : Store) :
    Document × Store :=
  let sequence := s.sequence + 1
  let doc := stamp time sequence draft.container (mintedId sequence) draft.payload
  (doc, { s.setDocuments draft.container (documents ++ [⟨draft.partition, doc⟩]) with sequence })

/-- Overwrites a document in its place. It keeps its partition key and the id that the store
    gave to it. -/
def overwrite (time : Json.Whole) (draft : Draft) (id : String) (old : Stored)
    (documents : List Stored) (s : Store) : Document × Store :=
  let sequence := s.sequence + 1
  let resourceId := old.document.resourceId?.getD (mintedId sequence)
  let doc := stamp time sequence draft.container resourceId draft.payload
  (doc,
    { s.setDocuments draft.container
        (Stored.overwriteFirst (Stored.isAt draft.partition id) doc documents) with sequence })

def create (time : Json.Whole) (draft : Draft) (s : Store) :
    Except TransportError Document × Store :=
  match s.documents? draft.container with
  | .error e => (.error e, s)
  | .ok documents =>
    match requiredId draft.payload with
    | .error e => (.error e, s)
    | .ok id =>
      match documents.find? (Stored.isAt draft.partition id) with
      | none =>
        let (doc, s) := s.append time draft documents
        (.ok doc, s)
      | some old =>
        if draft.upsert then
          let (doc, s) := s.overwrite time draft id old documents
          (.ok doc, s)
        else (.error idTaken, s)

def delete (address : Address) (s : Store) : Except TransportError Unit × Store :=
  match s.documents? address.container with
  | .error e => (.error e, s)
  | .ok documents =>
    if documents.any (Stored.isAt address.partition address.id) then
      (.ok (), s.setDocuments address.container
        (documents.eraseP (Stored.isAt address.partition address.id)))
    else (.error (documentMissing address.id), s)

def get (address : Address) (s : Store) : Except TransportError Document :=
  match s.documents? address.container with
  | .error e => .error e
  | .ok documents =>
    match documents.find? (Stored.isAt address.partition address.id) with
    | none => .error (documentMissing address.id)
    | some found => .ok found.document

/-- The token lets a write to the document pass. An empty token always does. -/
def admits (token : String) (doc : Document) : Bool :=
  token == "" || doc.token? == some token

def replace (time : Json.Whole) (draft : Draft) (token : String) (s : Store) :
    Except TransportError Document × Store :=
  match s.documents? draft.container with
  | .error e => (.error e, s)
  | .ok documents =>
    match requiredId draft.payload with
    | .error e => (.error e, s)
    | .ok id =>
      match documents.find? (Stored.isAt draft.partition id) with
      | none => (.error (documentMissing id), s)
      | some old =>
        if admits token old.document then
          let (doc, s) := s.overwrite time draft id old documents
          (.ok doc, s)
        else (.error tokenStale, s)

/-! Pages. -/

/-- Documents on a page unless another number is chosen. -/
def defaultPageSize : Nat :=
  100

/-- How many documents stand before the page that a token asks for. -/
def offset? (continuation : Option String) : Except TransportError Nat :=
  match continuation with
  | none => .ok 0
  | some token =>
    if token = "" then .ok 0
    else
      match Text.signedIndex? token.toList with
      | some offset => .ok offset
      | none => .error (continuationInvalid token)

/-- The page after `offset` documents. The token of the next page is the number of documents
    before it. -/
def pageAt (pageSize offset : Nat) (documents : List Stored) : Page :=
  let following := offset + max pageSize 1
  ⟨((documents.drop offset).take (max pageSize 1)).map (·.document),
    if following < documents.length then some (toString following) else none⟩

/-- One page of a query. A page holds at least one document. -/
def search (pageSize : Nat) (search : Search) (s : Store) : Except TransportError Page :=
  match s.documents? search.container with
  | .error e => .error e
  | .ok documents =>
    if !search.crossPartition && Stored.mixPartitions documents then .error partitionsMixed
    else (offset? search.continuation).map fun offset => pageAt pageSize offset documents

/-- A number of pages that no query of the store exceeds: one more than its documents. -/
def pageLimit (s : Store) : Nat :=
  s.databases.entries.foldl (fun n database =>
    database.2.entries.foldl (fun n collection => n + collection.2.length) n) 1

/-- The store as a transport. `time` is the clock of the writes. -/
def transport (pageSize : Nat) (time : Json.Whole) : Transport Store where
  respond
    | .create draft, s => s.create time draft
    | .delete address, s => s.delete address
    | .get address, s => (s.get address, s)
    | .replace draft token, s => s.replace time draft token
    | .search search, s => (s.search pageSize search, s)

end Store

end DocumentStore
