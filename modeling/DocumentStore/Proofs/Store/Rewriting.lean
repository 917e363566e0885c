import DocumentStore.Proofs.KeyMap
import DocumentStore.Proofs.Store.Content

/- Stores with their documents rewritten in place: every container stays, and so does the place of
   every document in its collection (`mapStored`). To overwrite the document under a key that stands
   only once is to rewrite in place (`setDocuments_overwriteFirst`), and so is to blank what tells
   one write from another, the token and the time (`unversioned`). -/
namespace DocumentStore

open Json (Value)

namespace Stored

variable {partition : List Value} {id : String} {documents : List Stored} {old : Stored}

/-- A key that stands only once is overwritten wherever it stands. -/
theorem overwriteFirst_eq_map (distinct : Distinct documents)
    (live : documents.find? (isAt partition id) = some old) (change : Document → Document) :
    overwriteFirst (isAt partition id) (change old.document) documents =
      documents.map fun x =>
        if isAt partition id x then { x with document := change x.document } else x := by
  induction documents with
  | nil => cases live
  | cons first rest ih =>
    obtain ⟨apart, tail⟩ := List.pairwise_cons.mp distinct
    cases here : isAt partition id first with
    | true =>
      rw [List.find?_cons_of_pos here] at live
      cases live
      have others : ∀ x ∈ rest, isAt partition id x = false := by
        intro x hx
        refine Bool.eq_false_iff.mpr fun there => ?_
        have one := (isAt_iff.mp here).trans (isAt_iff.mp there).symm
        exact apart x.key (List.mem_map_of_mem hx) one
      have kept : (rest.map fun x => if isAt partition id x then
          { x with document := change x.document } else x) = rest := by
        rw [List.map_congr_left fun x hx => by rw [others x hx]]
        exact List.map_id' rest
      rw [overwriteFirst, if_pos here, List.map_cons, if_pos here, kept]
    | false =>
      rw [List.find?_cons_of_neg (by simp [here])] at live
      rw [overwriteFirst, List.map_cons, here, ih tail live]
      rfl

end Stored

namespace Store

variable {s : Store} {c : Container} {documents : List Stored} {f g : Container → Stored → Stored}

/-- The store with every document changed in its place, for which its container may matter. -/
def mapStored (f : Container → Stored → Stored) (s : Store) : Store :=
  { s with
    databases := s.databases.mapValues fun database collections =>
      collections.mapValues fun collection documents => documents.map (f ⟨database, collection⟩) }

theorem documents?_mapStored (f : Container → Stored → Stored) (s : Store) (c : Container) :
    (s.mapStored f).documents? c = (s.documents? c).map (List.map (f c)) := by
  simp only [documents?, mapStored, KeyMap.get?_mapValues]
  cases s.databases.get? c.database with
  | none => rfl
  | some collections =>
    simp only [Option.map_some, KeyMap.get?_mapValues]
    cases collections.get? c.collection with
    | none => rfl
    | some documents => rfl

theorem mapStored_with_sequence (f : Container → Stored → Stored) (s : Store) (n : Nat) :
    mapStored f { s with sequence := n } = { s.mapStored f with sequence := n } := rfl

theorem mapStored_mapStored (f g : Container → Stored → Stored) (s : Store) :
    (s.mapStored f).mapStored g = s.mapStored fun c x => g c (f c x) := by
  simp only [mapStored, KeyMap.mapValues_mapValues, List.map_map]
  rfl

theorem mapStored_congr
    (h : ∀ c documents, s.documents? c = .ok documents → ∀ x ∈ documents, f c x = g c x) :
    s.mapStored f = s.mapStored g := by
  refine congrArg (Store.mk s.sequence) (KeyMap.mapValues_congr ?_)
  intro database collections hdatabase
  apply KeyMap.mapValues_congr
  intro collection documents hcollection
  apply List.map_congr_left
  exact h ⟨database, collection⟩ documents (documents?_eq_ok.mpr ⟨_, hdatabase, hcollection⟩)

theorem setDocuments_map (found : s.documents? c = .ok documents) (f : Stored → Stored) :
    s.setDocuments c (documents.map f) = s.mapStored fun d x => if d = c then f x else x := by
  obtain ⟨collections, hdatabase, hcollection⟩ := documents?_eq_ok.mp found
  have here : s.database c.database = collections := by
    rw [database, hdatabase]
    rfl
  refine congrArg (Store.mk s.sequence) ?_
  rw [here, KeyMap.insert_eq_mapValues hcollection (List.map f),
    KeyMap.insert_eq_mapValues hdatabase fun collections => collections.mapValues
      fun collection documents => if collection = c.collection then documents.map f else documents]
  apply KeyMap.mapValues_congr
  intro database collections _
  split
  next same =>
    apply KeyMap.mapValues_congr
    intro collection documents _
    subst same
    split
    next same =>
      subst same
      simp only [if_true]
    next apart =>
      have other : ¬(⟨c.database, collection⟩ : Container) = c := fun e =>
        apart (congrArg Container.collection e)
      simp only [other, if_false, List.map_id']
  next apart =>
    have other (collection : String) : ¬(⟨database, collection⟩ : Container) = c := fun e =>
      apart (congrArg Container.database e)
    simp only [other, if_false, List.map_id', KeyMap.mapValues_id]

/-- To overwrite the document under a key that stands only once is to rewrite it in place. -/
theorem setDocuments_overwriteFirst {partition : List Value} {id : String} {old : Stored}
    (found : s.documents? c = .ok documents) (distinct : Stored.Distinct documents)
    (live : documents.find? (Stored.isAt partition id) = some old) (change : Document → Document) :
    s.setDocuments c (Stored.overwriteFirst (Stored.isAt partition id) (change old.document)
      documents) = s.mapStored fun d x => if d = c then
        if x.isAt partition id then { x with document := change x.document } else x
      else x := by
  rw [Stored.overwriteFirst_eq_map distinct live, setDocuments_map found]

end Store

/-! What tells one write from another. -/

namespace Document

/-- The document without the values of its token and its time. -/
def unversioned (doc : Document) : Document :=
  doc.mapValues fun field v => if field = "_etag" ∨ field = "_ts" then .null else v

end Document

/-- The stored document without the values of its token and its time. -/
def Stored.unversioned (x : Stored) : Stored :=
  { x with document := x.document.unversioned }

namespace Store

/-- The store without the values of the tokens and the times of its documents. -/
def unversioned (s : Store) : Store :=
  s.mapStored fun _ => Stored.unversioned

variable {n m : Nat} {time later : Json.Whole} {c : Container} {resourceId : String}
  {payload : Document}

theorem unversioned_stamp : (stamp time n c resourceId payload).unversioned =
    (stamp later m c resourceId payload).unversioned := by
  apply KeyMap.eq_of_get?
  intro field
  rw [Document.unversioned, Document.unversioned, KeyMap.get?_mapValues, KeyMap.get?_mapValues]
  by_cases versions : field = "_etag" ∨ field = "_ts"
  · rcases versions with rfl | rfl
    · simp [stamp, KeyMap.insertAll, KeyMap.get?_insert]
    · simp [stamp, KeyMap.insertAll, KeyMap.get?_insert]
  · obtain ⟨token, time⟩ := not_or.mp versions
    simp [stamp, KeyMap.insertAll, KeyMap.get?_insert, token, time]

theorem payload_stamp : (stamp time n c resourceId payload).payload = Document.payload payload := by
  apply KeyMap.eq_of_get?
  intro field
  rw [Document.payload, Document.payload, KeyMap.get?_filterKeys, KeyMap.get?_filterKeys]
  cases system : Document.isSystemField field with
  | true => rfl
  | false => exact get?_stamp_of_plain system

end Store

namespace Document

variable {doc : Document} {values : List (String × Value)}

theorem payload_payload (doc : Document) : doc.payload.payload = doc.payload := by
  apply KeyMap.eq_of_get?
  intro field
  rw [payload, payload, KeyMap.get?_filterKeys, KeyMap.get?_filterKeys]
  cases isSystemField field <;> rfl

theorem payload_insertAll (own : ∀ e ∈ values, isSystemField e.1 = false) :
    payload (doc.insertAll values) = doc.payload.insertAll values := by
  apply KeyMap.eq_of_get?
  intro field
  rw [payload, payload, KeyMap.get?_filterKeys, KeyMap.get?_insertAll, KeyMap.get?_insertAll,
    KeyMap.get?_filterKeys]
  cases system : isSystemField field with
  | false => rfl
  | true =>
    cases found : values.reverse.lookup field with
    | none => rfl
    | some v => exact absurd (own _ (KeyMap.mem_of_lookup_reverse found)) (by rw [system]; decide)

end Document

end DocumentStore
