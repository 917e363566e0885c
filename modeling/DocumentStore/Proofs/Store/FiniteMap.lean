import DocumentStore.Proofs.Store.Lookup

/- A store refines a finite map. Its collections are lists that a look-up scans for the first
   match, yet every answer about a document is the answer of the map that the history of the store
   describes (`answers_of_history`): what is read, which writes conflict and which succeed, what can
   be removed, and how many documents there are. -/
namespace DocumentStore

open Json (Value)

/-- The address holds a document: one was written there and not removed since. -/
def isLive (history : List Change) (a : Address) : Bool :=
  (lastWritten? a history).isSome

/-- The answer is a refusal with this status. -/
def Refused {α : Type} (status : Nat) (answer : Except TransportError α) : Prop :=
  ∃ e, answer = .error e ∧ e.status = status

/-- The addresses are the live keys of a collection, each of them once. -/
structure ListsKeys (live : Address → Bool) (c : Container) (keys : List Address) : Prop where
  inside : ∀ k ∈ keys, k.container = c
  once : keys.Pairwise fun k l => k.same l = false
  complete : ∀ a, a.container = c → (live a = true ↔ ∃ k ∈ keys, k.same a = true)

namespace Store

/-- What the map of a history answers to a get. -/
def expected (ops : List Operation) (a : Address) : Except TransportError Document :=
  match containerOf ops a.container with
  | .error e => .error e
  | .ok () =>
    match lastWritten? a (changes ops empty) with
    | some doc => .ok doc
    | none => .error (documentMissing a.id)

variable {ops : List Operation} {a : Address} {c : Container} {documents : List Stored}

theorem documents?_of_containerOf (h : containerOf ops c = .ok ()) :
    ∃ documents, (run ops empty).documents? c = .ok documents := by
  rw [← documents?_run ops c] at h
  cases hs : (run ops empty).documents? c with
  | error e => rw [hs] at h; cases h
  | ok documents => exact ⟨documents, rfl⟩

/-- In a collection that exists, the live addresses are those that a scan finds. -/
theorem isLive_eq_find? (found : (run ops empty).documents? a.container = .ok documents) :
    isLive (changes ops empty) a =
      (documents.find? (Stored.isAt a.partition a.id)).isSome := by
  rw [isLive, ← (represents_run ops).lookup a, at?_of_found found, Option.isSome_map]

theorem get_run (ops : List Operation) (a : Address) :
    (run ops empty).get a = expected ops a := by
  rw [get_eq_at?, (represents_run ops).lookup a, expected, ← documents?_run ops a.container]
  cases (run ops empty).documents? a.container <;> rfl

theorem get_of_same {b : Address} (h : a.same b = true) :
    (run ops empty).get a = (run ops empty).get b := by
  obtain ⟨hc, -, hi⟩ := Address.same_iff.mp h
  rw [get_run, get_run, expected, expected, hc, hi, lastWritten?_congr h]

variable {time : Json.Whole} {draft : Draft} {token : String}

theorem address?_eq_some (h : draft.address? = some a) :
    draft.container = a.container ∧ draft.partition = a.partition ∧
      draft.payload.id? = some a.id := by
  obtain ⟨id, hid, rfl⟩ := Option.map_eq_some_iff.mp h
  exact ⟨rfl, rfl, hid⟩

/-- A draft for an address that exists, with what the store checks before it looks. -/
theorem checks_of_address (h : draft.address? = some a) (nonempty : a.id ≠ "")
    (made : containerOf ops a.container = .ok ()) :
    ∃ documents, (run ops empty).documents? draft.container = .ok documents ∧
      requiredId draft.payload = .ok a.id ∧ isLive (changes ops empty) a =
        (documents.find? (Stored.isAt draft.partition a.id)).isSome := by
  obtain ⟨hc, hp, hid⟩ := address?_eq_some h
  obtain ⟨documents, found⟩ := documents?_of_containerOf made
  refine ⟨documents, hc ▸ found, requiredId_eq_ok.mpr ⟨hid, nonempty⟩, ?_⟩
  rw [isLive_eq_find? found, hp]

theorem create_conflict_iff (h : draft.address? = some a) (nonempty : a.id ≠ "")
    (made : containerOf ops a.container = .ok ()) (plain : draft.upsert = false) :
    Refused Status.conflict ((run ops empty).create time draft).1 ↔
      isLive (changes ops empty) a = true := by
  obtain ⟨documents, found, hid, hlive⟩ := checks_of_address h nonempty made
  rw [hlive]
  cases live : documents.find? (Stored.isAt draft.partition a.id) with
  | none => simp [create_of_fresh found hid live, Refused]
  | some old =>
    rw [create_of_live found hid live, plain]
    simp [Refused, idTaken]

theorem create_ok_iff (h : draft.address? = some a) (nonempty : a.id ≠ "")
    (made : containerOf ops a.container = .ok ()) :
    (∃ doc, ((run ops empty).create time draft).1 = .ok doc) ↔
      draft.upsert = true ∨ isLive (changes ops empty) a = false := by
  obtain ⟨documents, found, hid, hlive⟩ := checks_of_address h nonempty made
  rw [hlive]
  cases live : documents.find? (Stored.isAt draft.partition a.id) with
  | none => simp [create_of_fresh found hid live]
  | some old =>
    rw [create_of_live found hid live]
    cases draft.upsert <;> simp

theorem get?_of_create {s : Store} {doc : Document} (h : (s.create time draft).1 = .ok doc)
    {field : String} (plain : field.toList.head? ≠ some '_') :
    doc.get? field = draft.payload.get? field := by
  have system : Document.isSystemField field = false := beq_eq_false_iff_ne.mpr plain
  obtain ⟨_, _, -, -, ⟨-, created⟩ | ⟨_, -, -, created⟩⟩ := create_eq_ok h
  · rw [created] at h
    cases h
    exact get?_stamp_of_plain system
  · rw [created] at h
    cases h
    exact get?_stamp_of_plain system

theorem upsert_not_conflict (s : Store) (hu : draft.upsert = true) :
    ¬Refused Status.conflict (s.create time draft).1 := by
  rintro ⟨e, he, hstatus⟩
  -- The other refusals have other statuses.
  unfold create at he
  split at he
  next found =>
    cases he
    unfold documents? at found
    split at found
    · cases found; simp [databaseMissing, Status.notFound, Status.conflict] at hstatus
    · split at found
      · cases found; simp [collectionMissing, Status.notFound, Status.conflict] at hstatus
      · cases found
  next =>
    split at he
    next hid =>
      cases he
      unfold requiredId at hid
      split at hid
      · cases hid; simp [idMissing, Status.badRequest, Status.conflict] at hstatus
      · split at hid
        · cases hid; simp [idMissing, Status.badRequest, Status.conflict] at hstatus
        · cases hid
    next => split at he <;> simp [hu] at he

/-- A replace finds its document exactly if the key is live; then the token decides. -/
theorem replace_iff (h : draft.address? = some a) (nonempty : a.id ≠ "")
    (made : containerOf ops a.container = .ok ()) :
    ((∃ doc, ((run ops empty).replace time draft token).1 = .ok doc) ∨
        ((run ops empty).replace time draft token).1 = .error tokenStale ↔
      isLive (changes ops empty) a = true) ∧
    (((run ops empty).replace time draft token).1 = .error (documentMissing a.id) ↔
      isLive (changes ops empty) a = false) := by
  obtain ⟨documents, found, hid, hlive⟩ := checks_of_address h nonempty made
  rw [hlive]
  cases live : documents.find? (Stored.isAt draft.partition a.id) with
  | none =>
    rw [replace_of_fresh found hid live]
    simp [tokenStale, documentMissing, Status.notFound, Status.preconditionFailed]
  | some old =>
    rw [replace_of_live found hid live]
    split
    · simp
    · simp [tokenStale, documentMissing, Status.notFound, Status.preconditionFailed]

theorem delete_iff (made : containerOf ops a.container = .ok ()) :
    (((run ops empty).delete a).1 = .ok () ↔ isLive (changes ops empty) a = true) ∧
      (((run ops empty).delete a).1 = .error (documentMissing a.id) ↔
        isLive (changes ops empty) a = false) := by
  obtain ⟨documents, found⟩ := documents?_of_containerOf made
  rw [isLive_eq_find? found]
  cases live : documents.find? (Stored.isAt a.partition a.id) with
  | none => simp [delete_of_fresh found live]
  | some old => simp [delete_of_live found live]

theorem listsKeys_run (found : (run ops empty).documents? c = .ok documents) :
    ListsKeys (isLive (changes ops empty)) c
      (documents.map fun x => ⟨c, x.partition, x.document.id?.getD ""⟩) := by
  have named := (represents_run ops).named c documents found
  constructor
  · intro k hk
    obtain ⟨x, -, rfl⟩ := List.mem_map.mp hk
    rfl
  · have apart : Stored.Distinct documents := (represents_run ops).keyed c documents found
    rw [Stored.Distinct, List.pairwise_map] at apart
    rw [List.pairwise_map]
    refine apart.imp_of_mem fun {x y} hx hy hxy => ?_
    -- Both have ids, so that equal addresses come from one key.
    obtain ⟨i, hi⟩ := named x hx
    obtain ⟨j, hj⟩ := named y hy
    refine Bool.eq_false_iff.mpr fun hsame => hxy ?_
    obtain ⟨-, hp, hid⟩ := Address.same_iff.mp hsame
    refine ⟨hp, ?_⟩
    simp only [Stored.key, hi, hj, Option.getD_some] at hid ⊢
    rw [hid]
  · intro a ha
    subst ha
    rw [isLive_eq_find? found, List.find?_isSome]
    constructor
    · rintro ⟨x, hx, hat⟩
      refine ⟨_, List.mem_map_of_mem hx, Address.same_iff.mpr ⟨rfl, ?_⟩⟩
      obtain ⟨hp, hid⟩ := Stored.isAt_iff.mp hat
      simp only [Stored.key] at hp hid
      exact ⟨hp, by rw [hid]; rfl⟩
    · rintro ⟨k, hk, hsame⟩
      obtain ⟨x, hx, rfl⟩ := List.mem_map.mp hk
      obtain ⟨-, hp, hid⟩ := Address.same_iff.mp hsame
      obtain ⟨i, hi⟩ := named x hx
      refine ⟨x, hx, Stored.isAt_iff.mpr ⟨hp, ?_⟩⟩
      simp only [hi, Option.getD_some] at hid
      simp only [Stored.key, hi, hid]

theorem count?_run (ops : List Operation) (c : Container) :
    match containerOf ops c with
    | .ok () => ∃ keys, ListsKeys (isLive (changes ops empty)) c keys ∧
        (run ops empty).count? c = some keys.length
    | .error _ => (run ops empty).count? c = none := by
  rw [← documents?_run ops c, count?]
  cases found : (run ops empty).documents? c with
  | error e => rfl
  | ok documents => exact ⟨_, listsKeys_run found, by simp [Except.toOption]⟩

/-- **The store is a finite map.** After any operations on the empty store, with `live` the
    addresses that hold a document by the history of the run:

    * a get finds the document written last at the address and not removed since, and otherwise
      says what is missing, the database, the collection or the document; it does not tell equal
      addresses apart;
    * a plain create with an id, in a collection that exists, conflicts exactly at a live address,
      and an upsert never conflicts;
    * a create with an id, in a collection that exists, succeeds exactly if the address is free or it
      is an upsert, and then stores what it was given, up to the attributes of the store;
    * a replace and a delete, in a collection that exists, find their document exactly at a live
      address, where a delete succeeds and a replace can only be refused for its token;
    * no collection holds two documents with one partition key and id;
    * the number of documents of a collection is the number of its live keys. -/
theorem answers_of_history (ops : List Operation) :
    let s := run ops empty
    let live := isLive (changes ops empty)
    (∀ a, s.get a = expected ops a) ∧
    (∀ a b, a.same b = true → s.get a = s.get b) ∧
    (∀ time draft a, draft.address? = some a → a.id ≠ "" → containerOf ops a.container = .ok () →
      draft.upsert = false →
      (Refused Status.conflict (s.create time draft).1 ↔ live a = true)) ∧
    (∀ time draft, draft.upsert = true → ¬Refused Status.conflict (s.create time draft).1) ∧
    (∀ time draft a, draft.address? = some a → a.id ≠ "" → containerOf ops a.container = .ok () →
      ((∃ doc, (s.create time draft).1 = .ok doc) ↔ draft.upsert = true ∨ live a = false) ∧
      ∀ doc, (s.create time draft).1 = .ok doc → ∀ field : String,
        field.toList.head? ≠ some '_' → doc.get? field = draft.payload.get? field) ∧
    (∀ time draft token a, draft.address? = some a → a.id ≠ "" →
      containerOf ops a.container = .ok () →
      ((∃ doc, (s.replace time draft token).1 = .ok doc) ∨
        (s.replace time draft token).1 = .error tokenStale ↔ live a = true) ∧
      ((s.replace time draft token).1 = .error (documentMissing a.id) ↔ live a = false)) ∧
    (∀ a, containerOf ops a.container = .ok () →
      ((s.delete a).1 = .ok () ↔ live a = true) ∧
      ((s.delete a).1 = .error (documentMissing a.id) ↔ live a = false)) ∧
    (∀ c documents, s.documents? c = .ok documents → documents.Pairwise fun x y =>
      ¬(Value.equalItems x.partition y.partition = true ∧ x.document.id? = y.document.id?)) ∧
    (∀ c, match containerOf ops c with
      | .ok () => ∃ keys, ListsKeys live c keys ∧ s.count? c = some keys.length
      | .error _ => s.count? c = none) := by
  intro s live
  refine ⟨get_run ops, fun a b h => get_of_same h, ?_, ?_, ?_, ?_, ?_, ?_, count?_run ops⟩
  · exact fun time draft a h nonempty made plain => create_conflict_iff h nonempty made plain
  · exact fun time draft hu => upsert_not_conflict s hu
  · exact fun time draft a h nonempty made =>
      ⟨create_ok_iff h nonempty made, fun doc created field plain => get?_of_create created plain⟩
  · exact fun time draft token a h nonempty made => replace_iff h nonempty made
  · exact fun a made => delete_iff made
  · intro c documents found
    exact List.pairwise_map.mp ((represents_run ops).keyed c documents found)

end Store

end DocumentStore
