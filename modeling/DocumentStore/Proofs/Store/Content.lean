import DocumentStore.Proofs.Json.Equality
import DocumentStore.Store

/- What a look-up finds after each change that a request can make to a store: in the list of a
   collection (a document put at the end, overwritten in its place, or removed) and among the
   collections. A key is a partition key with an id; the list may hold it only once
   (`Distinct`), and each change keeps that. -/
namespace DocumentStore

open Json (Value)

theorem eq_ok_of_toOption {ε α : Type} {answer : Except ε α} {a : α}
    (h : answer.toOption = some a) : answer = .ok a := by
  cases answer with
  | error e => cases h
  | ok found => exact congrArg Except.ok (Option.some.inj h)

namespace Stored

/-- The key of a stored document: its partition key and its id. -/
def key (x : Stored) : List Value × Option String :=
  (x.partition, x.document.id?)

/-- The two are one key: equal partition keys and the same id. -/
def SameKey (k l : List Value × Option String) : Prop :=
  Value.equalItems k.1 l.1 = true ∧ k.2 = l.2

/-- All values of the document have the property, those of its partition key included. -/
def Holds (p : Value → Prop) (x : Stored) : Prop :=
  (∀ v ∈ x.partition, p v) ∧ ∀ e ∈ x.document.entries, p e.2

/-- No key stands twice in the list. -/
def Distinct (documents : List Stored) : Prop :=
  (documents.map key).Pairwise fun k l => ¬SameKey k l

variable {partition other : List Value} {id name : String} {doc : Document} {x : Stored}
  {documents : List Stored}

theorem isAt_iff : isAt partition id x = true ↔ SameKey x.key (partition, some id) := by
  simp [isAt, SameKey, key]

theorem SameKey.symm {k l : List Value × Option String} (h : SameKey k l) : SameKey l k :=
  ⟨Value.equalItems_symm _ _ h.1, h.2.symm⟩

theorem SameKey.trans {k l m : List Value × Option String} (h : SameKey k l) (h' : SameKey l m) :
    SameKey k m :=
  ⟨Value.equalItems_trans _ _ _ h.1 h'.1, h.2.trans h'.2⟩

theorem isAt_congr (h : Value.equalItems partition other = true) :
    isAt partition id = isAt other id := by
  funext x
  rw [isAt, isAt, Value.equalItems_congr h]

theorem sameKey_of_isAt (h : isAt partition id x = true) (h' : isAt other name x = true) :
    Value.equalItems partition other = true ∧ id = name := by
  have hk := (isAt_iff.mp h).symm.trans (isAt_iff.mp h')
  exact ⟨hk.1, Option.some.inj hk.2⟩

theorem isAt_apart (apart : ¬(Value.equalItems partition other = true ∧ id = name))
    (h : isAt partition id x = true) : isAt other name x = false := by
  cases h' : isAt other name x with
  | false => rfl
  | true => exact absurd (sameKey_of_isAt h h') apart

theorem isAt_self (hid : doc.id? = some id) : isAt partition id ⟨partition, doc⟩ = true := by
  simp [isAt, hid, Value.equalItems_refl]

theorem isAt_overwritten (hid : doc.id? = some id) (h : isAt partition id x = true) :
    isAt partition id { x with document := doc } = true := by
  simp only [isAt, Bool.and_eq_true, beq_iff_eq] at h ⊢
  exact ⟨h.1, hid⟩

theorem any_of_live {p : Stored → Bool} (live : documents.find? p = some x) :
    documents.any p = true :=
  List.any_eq_true.mpr ⟨x, List.mem_of_find?_eq_some live, List.find?_some live⟩

theorem not_any_of_fresh {p : Stored → Bool} (fresh : documents.find? p = none) :
    documents.any p = false := by
  simpa using List.find?_eq_none.mp fresh

/-! One list after a change. -/

theorem find?_overwriteFirst {p : Stored → Bool}
    (kept : ∀ x, p x = true → p { x with document := doc } = true) :
    (overwriteFirst p doc documents).find? p =
      (documents.find? p).map fun x => { x with document := doc } := by
  induction documents with
  | nil => rfl
  | cons first rest ih =>
    cases hp : p first with
    | true => simp [overwriteFirst, hp, kept first hp]
    | false => simp [overwriteFirst, hp, ih]

theorem find?_overwriteFirst_of_apart {p q : Stored → Bool}
    (apart : ∀ x, p x = true → q x = false ∧ q { x with document := doc } = false) :
    (overwriteFirst p doc documents).find? q = documents.find? q := by
  induction documents with
  | nil => rfl
  | cons first rest ih =>
    cases hp : p first with
    | true => simp [overwriteFirst, hp, apart first hp]
    | false => simp [overwriteFirst, hp, List.find?_cons, ih]

/-- A removed key is not found, since it stood there once. -/
theorem find?_eraseP (h : Distinct documents) :
    (documents.eraseP (isAt partition id)).find? (isAt partition id) = none := by
  induction documents with
  | nil => rfl
  | cons first rest ih =>
    obtain ⟨apart, tail⟩ := List.pairwise_cons.mp h
    cases hp : isAt partition id first with
    | true =>
      rw [List.eraseP_cons_of_pos hp, List.find?_eq_none]
      intro y hy hy'
      exact apart y.key (List.mem_map_of_mem hy) ((isAt_iff.mp hp).trans (isAt_iff.mp hy').symm)
    | false => simp [hp, ih tail]

theorem find?_eraseP_of_apart {p q : Stored → Bool} (apart : ∀ x, p x = true → q x = false) :
    (documents.eraseP p).find? q = documents.find? q := by
  induction documents with
  | nil => rfl
  | cons first rest ih =>
    cases hp : p first with
    | true => simp [hp, apart first hp]
    | false => simp [hp, List.find?_cons, ih]

/-- Overwriting changes nothing that the new document shares with the old one. -/
theorem map_overwriteFirst {α : Type} {f : Stored → α} {p : Stored → Bool} {old : Stored}
    (live : documents.find? p = some old) (shared : f { old with document := doc } = f old) :
    (overwriteFirst p doc documents).map f = documents.map f := by
  induction documents with
  | nil => rfl
  | cons first rest ih =>
    cases hp : p first with
    | true =>
      rw [List.find?_cons_of_pos hp] at live
      cases live
      simp [overwriteFirst, hp, shared]
    | false =>
      rw [List.find?_cons_of_neg (by simp [hp])] at live
      simp [overwriteFirst, hp, ih live]

/-- What the list holds after overwriting: the old documents, and the new one where the first
    match stood. -/
theorem mem_overwriteFirst {p : Stored → Bool} {y : Stored}
    (h : y ∈ overwriteFirst p doc documents) :
    y ∈ documents ∨ ∃ x, documents.find? p = some x ∧ y = { x with document := doc } := by
  induction documents with
  | nil => simp [overwriteFirst] at h
  | cons first rest ih =>
    cases hp : p first with
    | true =>
      simp only [overwriteFirst, hp, if_true, List.mem_cons] at h
      rcases h with rfl | h
      · exact Or.inr ⟨first, List.find?_cons_of_pos hp, rfl⟩
      · exact Or.inl (List.mem_cons_of_mem _ h)
    | false =>
      simp only [overwriteFirst, hp, Bool.false_eq_true, if_false, List.mem_cons] at h
      rcases h with rfl | h
      · exact Or.inl List.mem_cons_self
      · rcases ih h with h | ⟨x, hx, rfl⟩
        · exact Or.inl (List.mem_cons_of_mem _ h)
        · exact Or.inr ⟨x, by rw [List.find?_cons_of_neg (by simp [hp]), hx], rfl⟩

/-! Keys stay distinct. -/

theorem distinct_append (h : Distinct documents)
    (fresh : documents.find? (isAt partition id) = none) (hid : doc.id? = some id) :
    Distinct (documents ++ [⟨partition, doc⟩]) := by
  rw [Distinct, List.map_append, List.pairwise_append]
  refine ⟨h, by simp, ?_⟩
  intro k hk l hl hkl
  obtain ⟨x, hx, rfl⟩ := List.mem_map.mp hk
  simp only [List.map_cons, List.map_nil, List.mem_singleton] at hl
  subst hl
  have hat : SameKey x.key (partition, some id) := hid ▸ hkl
  exact List.find?_eq_none.mp fresh x hx (isAt_iff.mpr hat)

theorem distinct_overwriteFirst {old : Stored} (h : Distinct documents)
    (live : documents.find? (isAt partition id) = some old) (hid : doc.id? = some id) :
    Distinct (overwriteFirst (isAt partition id) doc documents) := by
  have hold : old.document.id? = some id := (isAt_iff.mp (List.find?_some live)).2
  rw [Distinct, map_overwriteFirst live (by rw [key, key, hid, hold])]
  exact h

theorem distinct_eraseP (h : Distinct documents) (p : Stored → Bool) :
    Distinct (documents.eraseP p) :=
  List.Pairwise.sublist (List.Sublist.map key (List.eraseP_sublist ..)) h

end Stored

namespace Store

variable {s : Store} {c d : Container} {documents listed : List Stored}

/-! The collections after a change. -/

theorem documents?_eq_ok :
    s.documents? c = .ok listed ↔ ∃ collections,
      s.databases.get? c.database = some collections ∧ collections.get? c.collection = some listed := by
  unfold documents?
  split
  next h => simp [h]
  next collections h =>
    split
    next h' => simp [h, h']
    next h' => simp [h, h']

/-- New documents for a collection show there and nowhere else. -/
theorem documents?_setDocuments (found : s.documents? c = .ok listed) :
    (s.setDocuments c documents).documents? d =
      if d = c then .ok documents else s.documents? d := by
  obtain ⟨collections, hdb, -⟩ := documents?_eq_ok.mp found
  have hc : s.database c.database = collections := by simp [database, hdb]
  simp only [documents?, setDocuments, hc, KeyMap.get?_insert]
  -- The collection itself, another one of its database, one of another database.
  by_cases hd : d.database = c.database
  · by_cases he : d.collection = c.collection
    · have hdc : d = c := by cases d; cases c; simp_all
      simp [hdc]
    · have hdc : d ≠ c := fun e => he (congrArg Container.collection e)
      simp [hd, hdc, hdb, KeyMap.get?_insert_of_ne _ _ he]
  · have hdc : d ≠ c := fun e => hd (congrArg Container.database e)
    simp [hd, hdc]

@[simp] theorem documents?_with_sequence (n : Nat) :
    Store.documents? { s with sequence := n } c = s.documents? c := rfl

theorem documents?_createDatabase (name : String) :
    (s.createDatabase name).documents? c =
      if c.database = name ∧ s.databases.get? name = none then .error (collectionMissing c)
      else s.documents? c := by
  simp only [documents?, createDatabase, database, KeyMap.get?_insert]
  by_cases hc : c.database = name
  · cases hdb : s.databases.get? name <;> simp [hc, hdb]
  · simp [hc]

theorem documents?_createCollection :
    (s.createCollection c).documents? d =
      if d = c then .ok ((s.documents? c).toOption.getD [])
      else if d.database = c.database ∧ s.databases.get? c.database = none then
        .error (collectionMissing d)
      else s.documents? d := by
  simp only [documents?, createCollection, database, KeyMap.get?_insert]
  -- The collection itself, another one of its database, one of another database.
  by_cases hd : d.database = c.database
  · by_cases he : d.collection = c.collection
    · have hdc : d = c := by cases d; cases c; simp_all
      subst hdc
      cases hdb : s.databases.get? d.database with
      | none => simp [Except.toOption]
      | some collections => cases hcol : collections.get? d.collection <;> simp [hcol, Except.toOption]
    · have hdc : d ≠ c := fun e => he (congrArg Container.collection e)
      cases hdb : s.databases.get? c.database <;>
        simp [hd, hdc, hdb, KeyMap.get?_insert_of_ne _ _ he]
  · have hdc : d ≠ c := fun e => hd (congrArg Container.database e)
    simp [hd, hdc]

theorem documents?_createDatabase_of_found (found : s.documents? c = .ok listed) (name : String) :
    (s.createDatabase name).documents? c = .ok listed := by
  obtain ⟨collections, hdb, -⟩ := documents?_eq_ok.mp found
  rw [documents?_createDatabase, if_neg, found]
  rintro ⟨rfl, missing⟩
  rw [hdb] at missing
  cases missing

theorem documents?_createCollection_of_found (found : s.documents? d = .ok listed) :
    (s.createCollection c).documents? d = .ok listed := by
  obtain ⟨collections, hdb, -⟩ := documents?_eq_ok.mp found
  rw [documents?_createCollection]
  split
  next same => rw [← same, found]; rfl
  next =>
    rw [if_neg, found]
    rintro ⟨same, missing⟩
    rw [← same, hdb] at missing
    cases missing

/-! Statements about every collection. -/

/-- Every collection of the store satisfies `p`. -/
def Each (p : Container → List Stored → Prop) (s : Store) : Prop :=
  ∀ c documents, s.documents? c = .ok documents → p c documents

/-- All values in the store have the property, those of partition keys included. -/
def Holds (p : Value → Prop) (s : Store) : Prop :=
  s.Each fun _ documents => ∀ x ∈ documents, x.Holds p

theorem Holds.mono {p q : Value → Prop} (h : s.Holds p) (weaker : ∀ v, p v → q v) : s.Holds q := by
  intro c documents found x hx
  obtain ⟨partition, document⟩ := h c documents found x hx
  exact ⟨fun v hv => weaker v (partition v hv), fun e he => weaker e.2 (document e he)⟩

theorem Holds.and {p q : Value → Prop} (h : s.Holds p) (h' : s.Holds q) :
    s.Holds fun v => p v ∧ q v := by
  intro c documents found x hx
  obtain ⟨partition, document⟩ := h c documents found x hx
  obtain ⟨partition', document'⟩ := h' c documents found x hx
  exact ⟨fun v hv => ⟨partition v hv, partition' v hv⟩,
    fun e he => ⟨document e he, document' e he⟩⟩

variable {p : Container → List Stored → Prop}

theorem each_empty : empty.Each p := by
  intro d listed hd
  cases hd

theorem each_setDocuments (h : s.Each p) (found : s.documents? c = .ok listed)
    (new : p c documents) : (s.setDocuments c documents).Each p := by
  intro d other hd
  rw [documents?_setDocuments found] at hd
  split at hd
  next hdc =>
    cases hd
    exact hdc ▸ new
  next => exact h d other hd

theorem each_createDatabase (h : s.Each p) (name : String) : (s.createDatabase name).Each p := by
  intro d listed hd
  rw [documents?_createDatabase] at hd
  split at hd
  · cases hd
  · exact h d listed hd

theorem each_createCollection (h : s.Each p) (new : p c []) : (s.createCollection c).Each p := by
  intro d listed hd
  rw [documents?_createCollection] at hd
  split at hd
  next hdc =>
    subst hdc
    cases hs : s.documents? d with
    | error e =>
      rw [hs] at hd
      cases hd
      exact new
    | ok found =>
      rw [hs] at hd
      cases hd
      exact h d _ hs
  next =>
    split at hd
    · cases hd
    · exact h d listed hd

/-! Attributes. -/

variable {time : Json.Whole} {n : Nat} {resourceId : String} {payload : Document}

/-- A field that is no attribute of the store is the payload's. -/
theorem get?_stamp {field : String}
    (h : field ∉ ["_self", "_etag", "_rid", "_ts", "_attachments"]) :
    (stamp time n c resourceId payload).get? field = payload.get? field := by
  simp only [List.mem_cons, List.not_mem_nil, or_false, not_or] at h
  obtain ⟨h1, h2, h3, h4, h5⟩ := h
  simp [stamp, KeyMap.insertAll, KeyMap.get?_insert, h1, h2, h3, h4, h5]

theorem get?_stamp_of_plain {field : String} (plain : Document.isSystemField field = false) :
    (stamp time n c resourceId payload).get? field = payload.get? field := by
  have known : ∀ field ∈ ["_self", "_etag", "_rid", "_ts", "_attachments"],
      Document.isSystemField field = true := by decide
  refine get?_stamp fun listed => ?_
  rw [known field listed] at plain
  cases plain

@[simp] theorem id?_stamp : (stamp time n c resourceId payload).id? = payload.id? := by
  rw [Document.id?, Document.text?, get?_stamp (by decide)]
  rfl

@[simp] theorem resourceId?_stamp :
    (stamp time n c resourceId payload).resourceId? = some resourceId := by
  simp [Document.resourceId?, Document.text?, stamp, KeyMap.insertAll, KeyMap.get?_insert,
    Value.text?]

@[simp] theorem token?_stamp :
    (stamp time n c resourceId payload).token? = some (mintedToken n) := by
  simp [Document.token?, Document.text?, stamp, KeyMap.insertAll, KeyMap.get?_insert, Value.text?]

@[simp] theorem selfLink_stamp :
    (stamp time n c resourceId payload).text? "_self" = some (selfLink c resourceId) := by
  simp [Document.text?, stamp, KeyMap.insertAll, KeyMap.get?_insert, Value.text?]

theorem requiredId_eq_ok {id : String} :
    requiredId payload = .ok id ↔ payload.id? = some id ∧ id ≠ "" := by
  unfold requiredId
  cases h : payload.id? with
  | none => simp
  | some name =>
    by_cases hn : name = ""
    · simp [hn]
    · simp only [hn, if_false, Except.ok.injEq, Option.some.injEq]
      exact ⟨fun e => ⟨e, e ▸ hn⟩, fun e => e.1⟩

end Store

end DocumentStore
