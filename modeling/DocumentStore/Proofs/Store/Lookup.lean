import DocumentStore.Proofs.Store.History

/- What a look-up finds at the end of a run is decided by the history of the run alone: which
   containers were made (`containerOf`, `documents?_run`), and what was written last at an address
   and not removed since (`lastWritten?`, `represents_run`). -/
namespace DocumentStore

open Json (Value)

/-! The two readings of a history. -/

/-- The document that the history leaves at an address: the last change there decides. -/
def lastWritten? (a : Address) (history : List Change) : Option Document :=
  history.foldl (fun found change => if change.isAbout a then change.document? else found) none

theorem lastWritten?_append (a : Address) (history : List Change) (change : Change) :
    lastWritten? a (history ++ [change]) =
      if change.isAbout a then change.document? else lastWritten? a history := by
  simp [lastWritten?]

theorem lastWritten?_congr {a b : Address} (h : a.same b = true) (history : List Change) :
    lastWritten? a history = lastWritten? b history := by
  have about : ∀ change : Change, change.isAbout a = change.isAbout b := fun change =>
    Bool.eq_iff_iff.mpr ⟨fun ha => Address.same_trans ha h,
      fun hb => Address.same_trans hb (Address.same_symm h)⟩
  simp only [lastWritten?, about]

namespace Operation

def makesDatabase (name : String) : Operation → Bool
  | .createDatabase made => made == name
  | .createCollection c => c.database == name
  | .call _ => false

def makesCollection (c : Container) : Operation → Bool
  | .createCollection made => made == c
  | _ => false

end Operation

namespace Store

/-- How the operations leave a container: made, or missing itself or with its database. -/
def containerOf (ops : List Operation) (c : Container) : Except TransportError Unit :=
  if ops.any (Operation.makesDatabase c.database) then
    if ops.any (Operation.makesCollection c) then .ok () else .error (collectionMissing c)
  else .error (databaseMissing c.database)

/-! Containers are only ever made. -/

def hasDatabase (s : Store) (name : String) : Bool :=
  (s.databases.get? name).isSome

def hasCollection (s : Store) (c : Container) : Bool :=
  (s.documents? c).toOption.isSome

variable {s next : Store} {c : Container} {documents : List Stored} {made : Call}
  {change : Option Change}

theorem documents?_of_hasDatabase (c : Container) :
    (s.documents? c).map (fun _ => ()) =
      if s.hasDatabase c.database then
        if s.hasCollection c then .ok () else .error (collectionMissing c)
      else .error (databaseMissing c.database) := by
  unfold hasDatabase hasCollection documents?
  cases hdb : s.databases.get? c.database with
  | none => simp [Except.map]
  | some collections =>
    cases hcol : collections.get? c.collection <;> simp [hcol, Except.map, Except.toOption]

/-- A container that is not there misses its database or only itself. -/
theorem documents?_eq_error {c : Container} {e : TransportError} (h : s.documents? c = .error e) :
    s.hasDatabase c.database = false ∧ e = databaseMissing c.database ∨
      s.hasCollection c = false ∧ e = collectionMissing c := by
  have state := documents?_of_hasDatabase (s := s) c
  rw [h] at state
  split at state
  · split at state
    · cases state
    next missing => exact .inr ⟨Bool.eq_false_iff.mpr missing, Except.error.inj state⟩
  next missing => exact .inl ⟨Bool.eq_false_iff.mpr missing, Except.error.inj state⟩

theorem hasCollection_eq_false {c : Container} :
    s.hasDatabase c.database = false ∨ s.hasCollection c = false ↔ s.hasCollection c = false := by
  constructor
  · intro missing
    rcases missing with missing | missing
    · have none : s.databases.get? c.database = none :=
        Option.not_isSome_iff_eq_none.mp (Bool.eq_false_iff.mp missing)
      rw [hasCollection, documents?, none]
      rfl
    · exact missing
  · exact .inr

theorem documents?_of_effect (h : Effect made s change next) :
    next = s ∨ ∃ c found documents, s.documents? c = .ok found ∧
      next.databases = (s.setDocuments c documents).databases := by
  cases h with
  | unchanged => exact Or.inl rfl
  | appended carried stamped named nonempty found => exact Or.inr ⟨_, _, _, found, rfl⟩
  | overwritten carried stamped named nonempty found => exact Or.inr ⟨_, _, _, found, rfl⟩
  | removed found => exact Or.inr ⟨_, _, _, found, rfl⟩

theorem hasDatabase_of_effect (h : Effect made s change next) (name : String) :
    next.hasDatabase name = s.hasDatabase name := by
  rcases documents?_of_effect h with rfl | ⟨c, found, documents, hs, hnext⟩
  · rfl
  · obtain ⟨collections, hdb, -⟩ := documents?_eq_ok.mp hs
    simp only [hasDatabase, hnext, setDocuments, KeyMap.get?_insert]
    split
    next hn => rw [hn, hdb]; rfl
    next => rfl

theorem hasCollection_of_effect (h : Effect made s change next) (c : Container) :
    next.hasCollection c = s.hasCollection c := by
  rcases documents?_of_effect h with rfl | ⟨d, found, documents, hs, hnext⟩
  · rfl
  · have hdocs : next.documents? c = (s.setDocuments d documents).documents? c := by
      simp only [documents?, hnext]
    rw [hasCollection, hdocs, documents?_setDocuments hs, hasCollection]
    split
    next hc => rw [hc, hs]; rfl
    next => rfl

theorem hasDatabase_next (op : Operation) (s : Store) (name : String) :
    (op.next s).hasDatabase name = (op.makesDatabase name || s.hasDatabase name) := by
  cases op with
  | createDatabase made =>
    simp only [Operation.next, Operation.makesDatabase, hasDatabase, createDatabase,
      KeyMap.get?_insert, eq_comm (a := name)]
    by_cases h : made = name <;> simp [h]
  | createCollection d =>
    simp only [Operation.next, Operation.makesDatabase, hasDatabase, createCollection,
      KeyMap.get?_insert, eq_comm (a := name)]
    by_cases h : d.database = name <;> simp [h]
  | call made => exact hasDatabase_of_effect (effect_call made s) name

theorem hasCollection_next (op : Operation) (s : Store) (c : Container) :
    (op.next s).hasCollection c = (op.makesCollection c || s.hasCollection c) := by
  cases op with
  | createDatabase made =>
    simp only [Operation.next, Operation.makesCollection, Bool.false_or, hasCollection,
      documents?_createDatabase]
    split
    -- The database was missing, and the collection is missing now.
    next h =>
      have hs : s.documents? c = .error (databaseMissing c.database) := by
        rw [documents?, h.1, h.2]
      rw [hs]; rfl
    next => rfl
  | createCollection d =>
    simp only [Operation.next, Operation.makesCollection, hasCollection, documents?_createCollection]
    by_cases h : c = d
    · simp [h, Except.toOption]
    · have hne : (d == c) = false := beq_eq_false_iff_ne.mpr fun e => h e.symm
      rw [if_neg h, hne, Bool.false_or]
      split
      next hdb =>
        have hs : s.documents? c = .error (databaseMissing c.database) := by
          rw [documents?, hdb.1, hdb.2]
        rw [hs]; rfl
      next => rfl
  | call made => exact hasCollection_of_effect (effect_call made s) c

theorem hasDatabase_run (ops : List Operation) (s : Store) (name : String) :
    (run ops s).hasDatabase name = (ops.any (Operation.makesDatabase name) || s.hasDatabase name) := by
  induction ops generalizing s with
  | nil => rfl
  | cons op ops ih =>
    rw [run, ih, hasDatabase_next, List.any_cons]
    ac_rfl

theorem hasCollection_run (ops : List Operation) (s : Store) (c : Container) :
    (run ops s).hasCollection c = (ops.any (Operation.makesCollection c) || s.hasCollection c) := by
  induction ops generalizing s with
  | nil => rfl
  | cons op ops ih =>
    rw [run, ih, hasCollection_next, List.any_cons]
    ac_rfl

/-- **Containers of a run.** A look-up fails exactly for containers that were never made. -/
theorem documents?_run (ops : List Operation) (c : Container) :
    ((run ops empty).documents? c).map (fun _ => ()) = containerOf ops c := by
  have database : empty.hasDatabase c.database = false := rfl
  have collection : empty.hasCollection c = false := rfl
  rw [documents?_of_hasDatabase, hasDatabase_run, hasCollection_run, database, collection,
    Bool.or_false, Bool.or_false, containerOf]

/-! Look-ups of a document. -/

/-- The document that stands at an address. -/
def at? (s : Store) (a : Address) : Option Document :=
  match s.documents? a.container with
  | .ok documents => (documents.find? (Stored.isAt a.partition a.id)).map (·.document)
  | .error _ => none

/-- In every collection no key stands twice. -/
def Keyed (s : Store) : Prop :=
  s.Each fun _ documents => Stored.Distinct documents

variable {a : Address}

theorem at?_of_found (found : s.documents? a.container = .ok documents) :
    s.at? a = (documents.find? (Stored.isAt a.partition a.id)).map (·.document) := by
  rw [at?, found]

theorem hasCollection_of_at? {doc : Document} (h : s.at? a = some doc) :
    s.hasCollection a.container = true := by
  unfold at? at h
  split at h
  next found =>
    rw [hasCollection, found]
    rfl
  · cases h

theorem at?_congr {b : Address} (h : a.same b = true) : s.at? a = s.at? b := by
  obtain ⟨container, partition, id⟩ := Address.same_iff.mp h
  rw [at?, at?, container, Stored.isAt_congr partition, id]

theorem get_eq_at? (a : Address) : s.get a = match s.documents? a.container with
    | .error e => .error e
    | .ok _ => match s.at? a with
      | some doc => .ok doc
      | none => .error (documentMissing a.id) := by
  cases hs : s.documents? a.container with
  | error e => simp only [get, hs]
  | ok documents =>
    rw [get_eq_of_found hs, at?_of_found hs]
    cases documents.find? (Stored.isAt a.partition a.id) <;> rfl

theorem get_eq_ok_iff {doc : Document} : s.get a = .ok doc ↔ s.at? a = some doc := by
  cases hs : s.documents? a.container with
  | error e => simp [get, at?, hs]
  | ok documents =>
    rw [get_eq_of_found hs, at?_of_found hs]
    cases documents.find? (Stored.isAt a.partition a.id) <;> simp

theorem at?_createDatabase (name : String) : (s.createDatabase name).at? a = s.at? a := by
  rw [at?, at?, documents?_createDatabase]
  by_cases h : a.container.database = name ∧ s.databases.get? name = none
  · have hs : s.documents? a.container = .error (databaseMissing a.container.database) := by
      rw [documents?, h.1, h.2]
    rw [if_pos h, hs]
  · rw [if_neg h]

theorem at?_createCollection : (s.createCollection c).at? a = s.at? a := by
  rw [at?, at?, documents?_createCollection]
  by_cases hc : a.container = c
  -- A new collection is empty, and nothing stood in it when it was missing.
  · subst hc
    cases hs : s.documents? a.container <;> simp [Except.toOption]
  · rw [if_neg hc]
    by_cases h : a.container.database = c.database ∧ s.databases.get? c.database = none
    · have hs : s.documents? a.container = .error (databaseMissing a.container.database) := by
        rw [documents?, h.1, h.2]
      rw [if_pos h, hs]
    · rw [if_neg h]

theorem at?_setDocuments (n : Nat) (found : s.documents? c = .ok documents) (new : List Stored) :
    Store.at? { s.setDocuments c new with sequence := n } a =
      if a.container = c then
        (new.find? (Stored.isAt a.partition a.id)).map (·.document)
      else s.at? a := by
  rw [at?, documents?_with_sequence, documents?_setDocuments found]
  by_cases hc : a.container = c
  · rw [if_pos hc, if_pos hc]
  · rw [if_neg hc, if_neg hc, at?]

/-- New documents for the collection of an address change what stands there, and if they leave the
    other keys of the collection as they are, nothing else. -/
theorem at?_changed (doc : Option Document) {new : List Stored} (n : Nat)
    (found : s.documents? a.container = .ok documents)
    (here : (new.find? (Stored.isAt a.partition a.id)).map (·.document) = doc)
    (elsewhere : ∀ {partition id}, ¬(Value.equalItems a.partition partition = true ∧ a.id = id) →
      new.find? (Stored.isAt partition id) = documents.find? (Stored.isAt partition id))
    (b : Address) :
    Store.at? { s.setDocuments a.container new with sequence := n } b =
      if a.same b = true then doc else s.at? b := by
  rw [at?_setDocuments n found]
  by_cases hc : b.container = a.container
  · rw [if_pos hc]
    by_cases same : a.same b = true
    · obtain ⟨-, hp, hi⟩ := Address.same_iff.mp same
      rw [if_pos same, ← Stored.isAt_congr hp, ← hi]
      exact here
    · have apart : ¬(Value.equalItems a.partition b.partition = true ∧ a.id = b.id) :=
        fun h => same (Address.same_iff.mpr ⟨hc.symm, h⟩)
      rw [if_neg same, elsewhere apart, at?_of_found (hc ▸ found)]
  · rw [if_neg hc, if_neg fun same => hc (Address.same_iff.mp same).1.symm]

/-- A call changes what stands at the address of its change and nowhere else. -/
theorem at?_of_effect (keyed : Keyed s) (h : Effect made s change next) (b : Address) :
    next.at? b = match change with
      | some change => if change.isAbout b then change.document? else s.at? b
      | none => s.at? b := by
  cases h with
  | unchanged => rfl
  | @appended payload doc a documents carried stamped named nonempty found fresh =>
    refine at?_changed (some doc) _ found ?_ ?_ b
    · rw [List.find?_append, fresh, Option.none_or, List.find?_cons_of_pos (Stored.isAt_self named)]
      rfl
    · intro partition id apart
      have missed : Stored.isAt partition id ⟨a.partition, doc⟩ = false :=
        Stored.isAt_apart apart (Stored.isAt_self named)
      rw [List.find?_append, List.find?_cons_of_neg (by rw [missed]; decide), List.find?_nil,
        Option.or_none]
  | @overwritten payload doc a documents old carried stamped named nonempty found live =>
    have kept : ∀ x : Stored, Stored.isAt a.partition a.id x = true →
        Stored.isAt a.partition a.id { x with document := doc } = true :=
      fun x hx => Stored.isAt_overwritten named hx
    refine at?_changed (some doc) _ found ?_ ?_ b
    · rw [Stored.find?_overwriteFirst kept, live]
      rfl
    · intro partition id apart
      exact Stored.find?_overwriteFirst_of_apart fun x hx =>
        ⟨Stored.isAt_apart apart hx, Stored.isAt_apart apart (kept x hx)⟩
  | @removed a documents old found live =>
    refine at?_changed none s.sequence found ?_ ?_ b
    -- The key stood there once, so that it is gone with the document.
    · rw [Stored.find?_eraseP (keyed _ _ found)]
      rfl
    · intro partition id apart
      exact Stored.find?_eraseP_of_apart fun x hx => Stored.isAt_apart apart hx

theorem keyed_of_effect (keyed : Keyed s) (h : Effect made s change next) : Keyed next := by
  cases h with
  | unchanged => exact keyed
  | appended carried stamped named nonempty found fresh =>
    exact each_setDocuments keyed found
      (Stored.distinct_append (keyed _ _ found) fresh named)
  | overwritten carried stamped named nonempty found live =>
    exact each_setDocuments keyed found
      (Stored.distinct_overwriteFirst (keyed _ _ found) live named)
  | removed found live =>
    exact each_setDocuments keyed found (Stored.distinct_eraseP (keyed _ _ found) _)

/-- Every stored document has an id. -/
def Named (s : Store) : Prop :=
  s.Each fun _ documents => ∀ x ∈ documents, ∃ id, x.document.id? = some id

theorem named_of_effect (named : Named s) (h : Effect made s change next) : Named next :=
  each_stored_of_effect named h (fun _ _ _ _ _ hid => ⟨_, hid⟩) (fun _ _ _ _ _ _ hid _ => ⟨_, hid⟩)

/-- The store is the finite map that its history describes. -/
structure Represents (history : List Change) (s : Store) : Prop where
  keyed : Keyed s
  named : Named s
  lookup : ∀ a, s.at? a = lastWritten? a history

theorem represents_of_effect {history : List Change} (h : Represents history s)
    (effect : Effect made s change next) : Represents (history ++ change.toList) next := by
  refine ⟨keyed_of_effect h.keyed effect, named_of_effect h.named effect, fun a => ?_⟩
  rw [at?_of_effect h.keyed effect a]
  cases change with
  | none => rw [Option.toList_none, List.append_nil, h.lookup a]
  | some change => rw [Option.toList_some, lastWritten?_append, h.lookup a]

/-- **Look-ups of a run.** The store keeps its keys distinct, and under each address stands what
    the history says. -/
theorem represents_run (ops : List Operation) :
    Represents (changes ops empty) (run ops empty) :=
  run_induction Represents
    (fun _ _ name h => ⟨each_createDatabase h.keyed name, each_createDatabase h.named name,
      fun a => (at?_createDatabase name).trans (h.lookup a)⟩)
    (fun _ _ _ h => ⟨each_createCollection h.keyed List.Pairwise.nil,
      each_createCollection h.named (List.forall_mem_nil _),
      fun a => at?_createCollection.trans (h.lookup a)⟩)
    (fun _ _ _ _ _ h effect => represents_of_effect h effect)
    ops [] empty ⟨each_empty, each_empty, fun _ => rfl⟩

end Store

end DocumentStore
