import DocumentStore.Proofs.KeyMap
import DocumentStore.Rows
import Mathlib.Data.List.Forall2

/- The rows of a result, pulled one after the other. A pull takes the first of the rows that are to
   come and leaves the others (`next_fst`, `toList_next`), and past the last it yields nothing. So
   after any number of pulls the rows to come are those of the start without as many at the front
   (`toList_after`), also when there were fewer. A row has a cell under each column, whatever fields
   its document has (`project_eq_iff`), and the row of the first document lacks none of its fields
   (`zip_project`). -/
namespace DocumentStore.Rows

open Json (Value)

variable {rows : Rows} {doc : Document} {column : String} {columns : List String} {cell : Value}
  {cells : List Value}

/-! Cells. -/

/-- What stands in the row of a document under a column: the value of the field, or null where the
    document lacks the field. -/
inductive IsCell (doc : Document) (column : String) : Value → Prop where
  | found {v : Value} : doc.get? column = some v → IsCell doc column v
  | missing : doc.get? column = none → IsCell doc column .null

theorem isCell_iff : IsCell doc column cell ↔ (doc.get? column).getD .null = cell := by
  rw [Option.getD_eq_iff]
  constructor
  · intro h
    cases h with
    | found h => exact .inl h
    | missing h => exact .inr ⟨h, rfl⟩
  · rintro (h | ⟨h, rfl⟩)
    · exact .found h
    · exact .missing h

theorem project_eq_iff : project columns doc = cells ↔ List.Forall₂ (IsCell doc) columns cells := by
  rw [project, ← List.forall₂_eq_eq_eq, List.forall₂_map_left_iff]
  exact ⟨fun h => h.imp fun _ _ => isCell_iff.mpr, fun h => h.imp fun _ _ => isCell_iff.mp⟩

theorem mem_keys_iff : column ∈ doc.keys ↔ ∃ v, doc.get? column = some v := by
  rw [KeyMap.keys, List.mem_map]
  constructor
  · rintro ⟨⟨key, v⟩, mem, rfl⟩
    exact ⟨v, KeyMap.get?_eq_some_iff.mpr mem⟩
  · rintro ⟨v, found⟩
    exact ⟨(column, v), KeyMap.get?_eq_some_iff.mp found, rfl⟩

/-- Under its own fields a document shows all of its values. -/
theorem zip_project (doc : Document) : doc.keys.zip (project doc.keys doc) = doc.entries := by
  symm
  apply List.zip_of_prod
  · rfl
  · rw [project, KeyMap.keys, List.map_map]
    apply List.map_congr_left
    intro e he
    have found : doc.get? e.1 = some e.2 := KeyMap.get?_eq_some_iff.mpr he
    rw [Function.comp_apply, found, Option.getD_some]

/-! Pulls. -/

theorem toList_eq (rows : Rows) :
    rows.toList = (rows.documents.drop rows.position).map (project rows.columns) := rfl

theorem next_fst (rows : Rows) : rows.next.1 = rows.toList.head? := by
  rw [toList_eq, List.head?_map, List.head?_drop, next]
  split
  next none => rw [none, Option.map_none]
  next doc found => rw [found, Option.map_some]

/-- A pull moves the cursor and nothing else, and it does not move past the last document. -/
theorem next_snd (rows : Rows) : rows.next.2 =
    { rows with position := if rows.position < rows.size then rows.position + 1 else rows.position } := by
  rw [next]
  split
  next none =>
    have past : ¬rows.position < rows.size := Nat.not_lt.mpr (List.getElem?_eq_none_iff.mp none)
    rw [if_neg past]
  next doc found =>
    have here : rows.position < rows.size := (List.getElem?_eq_some_iff.mp found).1
    rw [if_pos here]

theorem documents_next (rows : Rows) : rows.next.2.documents = rows.documents := by
  rw [next_snd]

theorem toList_next (rows : Rows) : rows.next.2.toList = rows.toList.tail := by
  rw [next_snd, toList_eq, toList_eq, ← List.map_tail, List.tail_drop]
  split
  next => rfl
  next past =>
    have past : rows.documents.length ≤ rows.position := Nat.not_lt.mp past
    have none : rows.documents.drop rows.position = [] := List.drop_eq_nil_of_le past
    have later : rows.documents.drop (rows.position + 1) = [] := List.drop_eq_nil_of_le (by omega)
    rw [none, later]

theorem position_next (h : rows.position ≤ rows.size) : rows.next.2.position ≤ rows.size := by
  rw [next_snd]
  dsimp only
  split <;> omega

/-- The cursor after some pulls, whatever they yielded. -/
def after : Nat → Rows → Rows
  | 0, rows => rows
  | n + 1, rows => after n rows.next.2

theorem documents_after (n : Nat) (rows : Rows) : (rows.after n).documents = rows.documents := by
  induction n generalizing rows with
  | zero => rfl
  | succ n ih => rw [after, ih, documents_next]

theorem columns_after (n : Nat) (rows : Rows) : (rows.after n).columns = rows.columns := by
  rw [columns, columns, documents_after]

/-- **The rows to come** after some pulls are those of the start without as many at the front. -/
theorem toList_after (n : Nat) (rows : Rows) : (rows.after n).toList = rows.toList.drop n := by
  induction n generalizing rows with
  | zero => rfl
  | succ n ih => rw [after, ih, toList_next, List.drop_tail]

theorem position_after (n : Nat) (h : rows.position ≤ rows.size) :
    (rows.after n).position ≤ rows.size := by
  induction n generalizing rows with
  | zero => exact h
  | succ n ih =>
    have size : rows.next.2.size = rows.size := by rw [size, documents_next, ← size]
    rw [after, ← size]
    apply ih
    rw [size]
    exact position_next h

theorem length_toList (rows : Rows) : rows.toList.length = rows.remaining := by
  rw [toList_eq, List.length_map, List.length_drop, remaining]

theorem isSome_next_after (n : Nat) (rows : Rows) :
    (rows.after n).next.1.isSome = true ↔ n < rows.remaining := by
  rw [next_fst, toList_after, List.head?_drop, isSome_getElem?, length_toList]

theorem next_after_ofDocuments (documents : List Document) (n : Nat) :
    ((ofDocuments documents).after n).next.1 =
      documents[n]?.map (project (ofDocuments documents).columns) := by
  rw [next_fst, toList_after, List.head?_drop, toList_eq, List.getElem?_map]
  rfl

/-- **A cursor over documents.** Its columns are the fields of the first document, each once and in
    increasing order, and the first row taken together with them is that document. After any number of
    pulls

    * the columns and the number of documents are what they were;
    * the count of the rows to come is what the documents behind the cursor are, of which the cursor
      never passes the last, and exactly so many of the pulls to come yield a row;
    * the next pull yields the row of the next document, with a cell under each column, or nothing if
      there is none. -/
theorem pulled_rows (documents : List Document) :
    let start := ofDocuments documents
    start.columns.Pairwise (· < ·) ∧
    (∀ column, column ∈ start.columns ↔
      ∃ first v, documents.head? = some first ∧ first.get? column = some v) ∧
    (∀ first, documents.head? = some first →
      ∃ cells, start.next.1 = some cells ∧ start.columns.zip cells = first.entries) ∧
    ∀ n, let rows := start.after n
      rows.columns = start.columns ∧ rows.size = documents.length ∧
      rows.position + rows.remaining = rows.size ∧
      (∀ more, (rows.after more).next.1.isSome = true ↔ more < rows.remaining) ∧
      (∀ doc, documents[n]? = some doc →
        ∃ cells, rows.next.1 = some cells ∧ List.Forall₂ (IsCell doc) start.columns cells) ∧
      (documents.length ≤ n → rows.next.1 = none) := by
  intro start
  refine ⟨?_, fun column => ?_, fun first hfirst => ?_, fun n => ?_⟩
  · cases documents with
    | nil => exact List.Pairwise.nil
    | cons first documents => exact keysIncrease_iff.mp first.increasing
  · cases documents with
    | nil => simp [start, ofDocuments, columns]
    | cons first documents =>
      have keys : start.columns = first.keys := rfl
      simp [keys, mem_keys_iff]
  · obtain ⟨others, rfl⟩ := List.head?_eq_some_iff.mp hfirst
    exact ⟨project first.keys first, next_after_ofDocuments _ 0, zip_project first⟩
  · intro rows
    have size : rows.size = documents.length := by
      rw [Rows.size, documents_after]
      rfl
    have within : rows.position ≤ documents.length := position_after n (Nat.zero_le _)
    refine ⟨columns_after n start, size, ?_, fun more => isSome_next_after more rows,
      fun doc found => ?_, fun past => ?_⟩
    · rw [remaining, ← Rows.size, size]
      omega
    · refine ⟨project start.columns doc, ?_, project_eq_iff.mp rfl⟩
      rw [next_after_ofDocuments, found, Option.map_some]
    · rw [next_after_ofDocuments, List.getElem?_eq_none past, Option.map_none]

end DocumentStore.Rows
