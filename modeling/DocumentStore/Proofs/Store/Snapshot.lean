import DocumentStore.Proofs.Json.Record
import DocumentStore.Proofs.Store.Content
import DocumentStore.Store.Snapshot

/- The snapshot of a store is always JSON, but it does not always give the store back: it does so
   exactly if 64 bits hold the counter, and every value in a document or a partition key nests no
   deeper than what the snapshot leaves of the reader's limit and has only numbers that read back
   (`load?_save`). Of these three, what was loaded from any text satisfies the first two
   (`shaped_of_load?`). -/
namespace DocumentStore

open Json (Value Tree)
open Json

/-- The value can stand in a document or a partition key of a snapshot. -/
def Json.Value.Loadable (v : Value) : Prop :=
  v.depth ≤ Store.valueDepth ∧ v.NumbersReadBack

namespace Stored

/-- Every value of the document and its partition key can stand in a snapshot. -/
def Loadable (x : Stored) : Prop :=
  (∀ v ∈ x.partition, v.Loadable) ∧ ∀ e ∈ x.document.entries, e.2.Loadable

/-- Every value of the document and its partition key is in key order. -/
def Sorted (x : Stored) : Prop :=
  (∀ v ∈ x.partition, v.Sorted) ∧ ∀ e ∈ x.document.entries, e.2.Sorted

end Stored

namespace Store

variable {s : Store}

/-! One document. -/

theorem partition_loads {partition : List Value} (sorted : ∀ v ∈ partition, v.Sorted) :
    Record.list? (Value.ofTree? valueDepth) (.array (partition.map Value.toTree)) = some partition ↔
      ∀ v ∈ partition, v.Loadable := by
  rw [Record.list?_array]
  exact forall₂_congr fun v hv => Value.ofTree?_toTree v valueDepth (sorted v hv)

theorem document_loads {document : Document} (sorted : ∀ e ∈ document.entries, e.2.Sorted) :
    document? document.toValue.toTree = some document ↔ ∀ e ∈ document.entries, e.2.Loadable := by
  -- A document is read as the members of an object are.
  have members := Value.membersOfTrees?_treesOfMembers document.entries valueDepth
    (Value.sortedMembers_iff.mpr sorted)
  rw [← Value.ofList_membersOfTrees? document.increasing, Value.depthMembers_le_iff,
    Value.numbersReadBackMembers_iff] at members
  rw [Document.toValue, Value.toTree, document?, Option.map_eq_some_iff]
  simp only [KeyMap.ext_iff, members]
  exact ⟨fun h e he => ⟨h.1 e he, h.2 e he⟩,
    fun h => ⟨fun e he => (h e he).1, fun e he => (h e he).2⟩⟩

theorem stored?_treeOfStored {x : Stored} (sorted : x.Sorted) :
    stored? (treeOfStored x) = some x ↔ x.Loadable := by
  have fields := Record.fields?_write
    [("partition_key", .array (x.partition.map Value.toTree)),
      ("document", x.document.toValue.toTree)]
    (by show ["partition_key", "document"].Nodup; decide)
  have hpartition := partition_loads sorted.1
  have hdocument := document_loads sorted.2
  simp only [List.map_cons, List.map_nil] at fields
  rw [stored?, treeOfStored, fields, Stored.Loadable, ← hpartition, ← hdocument]
  obtain ⟨partition, document⟩ := x
  simp only
  constructor
  · intro back
    split at back
    next hp hd =>
      cases back
      exact ⟨hp, hd⟩
    next => cases back
  · rintro ⟨hp, hd⟩
    simp only [hp, hd]

/-! The whole store. -/

/-- Statements about every collection and statements about all entries. -/
theorem each_iff_entries {p : Stored → Prop} :
    (s.Each fun _ documents => ∀ x ∈ documents, p x) ↔
      ∀ database ∈ s.databases.entries, ∀ collection ∈ database.2.entries, ∀ x ∈ collection.2, p x := by
  constructor
  · intro h database hdatabase collection hcollection
    refine h ⟨database.1, collection.1⟩ collection.2 (documents?_eq_ok.mpr ⟨database.2, ?_, ?_⟩)
    · exact KeyMap.get?_eq_some_iff.mpr hdatabase
    · exact KeyMap.get?_eq_some_iff.mpr hcollection
  · intro h c documents found
    obtain ⟨collections, hdatabase, hcollection⟩ := documents?_eq_ok.mp found
    exact h _ (KeyMap.get?_eq_some_iff.mp hdatabase) _ (KeyMap.get?_eq_some_iff.mp hcollection)

theorem databases_load (sorted : s.Each fun _ documents => ∀ x ∈ documents, x.Sorted) :
    databases? (Record.writeMap (Record.writeMap fun documents => .array (documents.map treeOfStored))
      s.databases) = some s.databases ↔ s.Each fun _ documents => ∀ x ∈ documents, x.Loadable := by
  have hsorted := each_iff_entries.mp sorted
  -- A map of maps of lists, each of which is read back exactly if its elements are.
  rw [databases?, Record.map?_writeMap, each_iff_entries]
  apply forall₂_congr
  intro database hdatabase
  rw [Record.map?_writeMap]
  apply forall₂_congr
  intro collection hcollection
  rw [Record.list?_array]
  exact forall₂_congr fun x hx =>
    stored?_treeOfStored (hsorted database hdatabase collection hcollection x hx)

/-- The tree of a snapshot is the store's exactly if its counter and its documents can stand
    there. -/
theorem ofTree?_toTree (sorted : s.Each fun _ documents => ∀ x ∈ documents, x.Sorted) :
    ofTree? s.toTree = some s ↔ s.sequence < Number.significandLimit ∧
      s.Each fun _ documents => ∀ x ∈ documents, x.Loadable := by
  have fields := Record.fields?_write
    [("sequence", Record.writeNatural s.sequence),
      ("databases", Record.writeMap (Record.writeMap fun documents =>
        .array (documents.map treeOfStored)) s.databases)]
    (by show ["sequence", "databases"].Nodup; decide)
  have hsequence := Record.natural?_writeNatural s.sequence
  have hdatabases := databases_load sorted
  simp only [List.map_cons, List.map_nil] at fields
  rw [ofTree?, toTree, fields, ← hsequence, ← hdatabases]
  obtain ⟨sequence, databases⟩ := s
  simp only [Option.elim_some]
  constructor
  · intro back
    split at back
    next hs hd =>
      cases back
      exact ⟨hs, hd⟩
    next => cases back
  · rintro ⟨hs, hd⟩
    rw [hs, hd]

/-! What is loaded. -/

/-- A value of a snapshot, as its reader leaves it. -/
def Shaped (v : Value) : Prop :=
  v.Sorted ∧ v.depth ≤ valueDepth

theorem shaped_of_stored? {t : Tree} {x : Stored} (h : stored? t = some x) : x.Holds Shaped := by
  unfold stored? at h
  split at h
  next partition document _ =>
    split at h
    next listed doc hpartition hdocument =>
      cases h
      refine ⟨fun v hv => ?_, fun e he => ?_⟩
      · obtain ⟨item, hitem⟩ := Record.mem_of_list? hpartition hv
        exact Value.shape_of_ofTree? item _ hitem
      · cases document with
        | object members =>
          rw [document?] at hdocument
          obtain ⟨ms, hms, rfl⟩ := Option.map_eq_some_iff.mp hdocument
          obtain ⟨sorted, shallow⟩ := Value.shape_of_membersOfTrees? members _ hms
          have hmem := KeyMap.mem_ofList he
          exact ⟨Value.sortedMembers_iff.mp sorted e hmem,
            Value.depthMembers_le_iff.mp shallow e hmem⟩
        | _ => cases hdocument
    next => cases h
  next => cases h

/-- **What is loaded** has a counter of 64 bits and values that its reader can leave. -/
theorem shaped_of_load? {text : String} (h : load? text = some s) :
    s.sequence < Number.significandLimit ∧ s.Holds Shaped := by
  obtain ⟨t, -, ht⟩ := Option.bind_eq_some_iff.mp h
  unfold ofTree? at ht
  split at ht
  next sequence databases _ =>
    split at ht
    next n loaded hn hloaded =>
      cases ht
      constructor
      · cases sequence with
        | none =>
          cases hn
          exact (by decide : 0 < Number.significandLimit)
        | some t => exact Record.natural?_lt hn
      · rw [Holds, each_iff_entries]
        intro database hdatabase collection hcollection x hx
        cases databases with
        | none =>
          cases hloaded
          cases hdatabase
        | some t =>
          obtain ⟨member, hmember⟩ := Record.mem_of_map? hloaded hdatabase
          obtain ⟨array, harray⟩ := Record.mem_of_map? hmember hcollection
          obtain ⟨item, hitem⟩ := Record.mem_of_list? harray hx
          exact shaped_of_stored? hitem
    next => cases ht
  next => cases ht

theorem printable_treeOfStored (x : Stored) : (treeOfStored x).Printable := by
  apply Record.printable_write
  intro f hf
  rcases List.mem_cons.mp hf with rfl | hf
  · exact Record.printable_array fun v _ => v.printable_toTree
  · rw [List.mem_singleton.mp hf]
    exact Value.printable_toTree _

theorem printable_toTree (s : Store) : s.toTree.Printable := by
  apply Record.printable_write
  intro f hf
  rcases List.mem_cons.mp hf with rfl | hf
  · exact Record.valid_natural s.sequence
  · rw [List.mem_singleton.mp hf]
    exact Record.printable_writeMap fun database _ =>
      Record.printable_writeMap fun collection _ =>
        Record.printable_array fun x _ => printable_treeOfStored x

theorem load?_save_eq (s : Store) : load? s.save = ofTree? s.toTree := by
  rw [load?, save, Tree.read?_write Layout.blank_pretty s.printable_toTree, Option.bind_some]

/-- **A snapshot** gives its store back exactly if 64 bits hold the counter and every value can
    stand there. -/
theorem load?_save (sorted : s.Each fun _ documents => ∀ x ∈ documents, x.Sorted) :
    load? s.save = some s ↔ s.sequence < Number.significandLimit ∧
      s.Each fun _ documents => ∀ x ∈ documents, x.Loadable := by
  rw [load?_save_eq, ofTree?_toTree sorted]

end Store

end DocumentStore
