import DocumentStore.Proofs.Statement.Reading
import DocumentStore.Proofs.Statement.Verdict
import DocumentStore.Proofs.Store.Requests

/- A DELETE over the store. A refusal says only in its text whether the document is missing or its
   container, and it ends with names out of the statement. No name can complete the words that are
   looked for (`not_occursIn_append`), so each state of the container has a result of its own
   (`Delete.Ended`), and a DELETE that is run again finds nothing to delete
   (`delete_over_store`). -/
namespace DocumentStore

open Json (Value Whole)
open Text

/-! Refusals that end with names. -/

namespace TransportError

variable {part fixed names : List Char} {p : Char → Bool}

/-- A text shows the part, or ends with a start of it that characters with `p` can complete. -/
def mayOccurIn (p : Char → Bool) (part fixed : List Char) : Bool :=
  occursIn part fixed || (List.range (part.length + 1)).any fun k =>
    (part.take k).isSuffixOf fixed && (part.drop k).all p

/-- What the text shows or can be completed to, the names behind it may show, and nothing else. -/
theorem mayOccurIn_of_occursIn (named : ∀ c ∈ names, p c = true)
    (occurs : occursIn part (fixed ++ names) = true) : mayOccurIn p part fixed = true := by
  obtain ⟨before, after, h⟩ := occursIn_iff.mp occurs
  rw [mayOccurIn, Bool.or_eq_true, occursIn_iff, List.any_eq_true]
  -- The part ends inside the text or among the names, and there it starts before or after the cut.
  rcases List.append_eq_append_iff.mp h with ⟨rest, ends, -⟩ | ⟨taken, cut, ends⟩
  · exact .inl ⟨before, rest, ends.symm⟩
  · have named : ∀ c ∈ taken, p c = true := by
      intro c hc
      exact named c (ends ▸ List.mem_append_left _ hc)
    rcases List.append_eq_append_iff.mp cut with ⟨start, hfixed, rfl⟩ | ⟨start, -, rfl⟩
    · refine .inr ⟨start.length, List.mem_range.mpr (by rw [List.length_append]; omega), ?_⟩
      rw [List.take_left, List.drop_left, Bool.and_eq_true, List.isSuffixOf_iff_suffix]
      exact ⟨⟨before, hfixed.symm⟩, List.all_eq_true.mpr named⟩
    · refine .inr ⟨0, List.mem_range.mpr (Nat.succ_pos _), ?_⟩
      rw [List.take_zero, List.drop_zero, Bool.and_eq_true, List.isSuffixOf_iff_suffix]
      exact ⟨List.nil_suffix, List.all_eq_true.mpr fun c hc => named c (List.mem_append_right _ hc)⟩

theorem not_occursIn_append (named : ∀ c ∈ names, p c = true)
    (apart : mayOccurIn p part fixed = false) : occursIn part (fixed ++ names) = false := by
  refine Bool.eq_false_iff.mpr fun occurs => ?_
  rw [mayOccurIn_of_occursIn named occurs] at apart
  cases apart

end TransportError

namespace Store

open TransportError

/-- A character that a refusal may take over from a statement or put between two names. -/
def isNamePart (c : Char) : Bool :=
  isName c || c == '/'

theorem isNamePart_of_isName {name : String} (h : IsName name) :
    ∀ c ∈ name.toList, isNamePart c = true := by
  intro c hc
  rw [isNamePart, h.2 c hc, Bool.true_or]

/-- **A missing database** is not taken for a missing document. -/
theorem not_isDocumentMissing_databaseMissing {name : String} (h : IsName name) :
    (databaseMissing name).isDocumentMissing = false := by
  rw [isDocumentMissing, databaseMissing, String.toList_append, documentMarker,
    String.toList_ofList, String.toList_ofList,
    not_occursIn_append (isNamePart_of_isName h) (by decide +kernel), Bool.and_false]

/-- **A missing collection** is not taken for a missing document. -/
theorem not_isDocumentMissing_collectionMissing {c : Container} (database : IsName c.database)
    (collection : IsName c.collection) : (collectionMissing c).isDocumentMissing = false := by
  have names : ∀ x ∈ c.database.toList ++ ("/".toList ++ c.collection.toList),
      isNamePart x = true := by
    intro x hx
    rcases List.mem_append.mp hx with hx | hx
    · exact isNamePart_of_isName database x hx
    · rcases List.mem_append.mp hx with hx | hx
      · rw [List.mem_singleton.mp hx]
        decide
      · exact isNamePart_of_isName collection x hx
  rw [isDocumentMissing, collectionMissing, String.toList_append, String.toList_append,
    String.toList_append, List.append_assoc, List.append_assoc, documentMarker,
    String.toList_ofList, String.toList_ofList, not_occursIn_append names (by decide +kernel),
    Bool.and_false]

theorem isDocumentMissing_documentMissing (id : String) :
    (documentMissing id).isDocumentMissing = true := by
  have occurs : documentMarker.toList <:+: (documentMissing id).message.toList := by
    rw [documentMissing, String.toList_append, String.toList_append, documentMarker,
      String.toList_ofList, String.toList_ofList]
    exact (occursIn_iff.mp (by decide +kernel)).trans (List.prefix_append _ _).isInfix
  rw [isDocumentMissing, occursIn_iff.mpr occurs]
  rfl

end Store

/-! The three results. -/

namespace Delete

variable {d : Delete} {args : List Value} {a : Address} {s : Store} {documents : List Stored}
  {old : Stored} {pageSize : Nat} {time : Whole}

theorem exec_of_missing {e : TransportError} (bound : d.address args = .ok a)
    (missing : s.documents? a.container = .error e) (known : e.isDocumentMissing = false) :
    d.exec (Store.transport pageSize time) args s = (.error e.toError, s) := by
  have refused : s.delete a = (.error e, s) := by
    simp only [Store.delete, missing]
  simp only [exec, bound, Transport.delete, Store.transport, refused]
  rw [TransportError.unlessMissing, known]
  rfl

theorem exec_of_fresh (bound : d.address args = .ok a)
    (found : s.documents? a.container = .ok documents)
    (fresh : documents.find? (Stored.isAt a.partition a.id) = none) :
    d.exec (Store.transport pageSize time) args s = (.ok .unchanged, s) := by
  simp only [exec, bound, Transport.delete, Store.transport, Store.delete_of_fresh found fresh]
  rw [TransportError.unlessMissing, Store.isDocumentMissing_documentMissing]
  rfl

theorem exec_of_live (bound : d.address args = .ok a)
    (found : s.documents? a.container = .ok documents)
    (live : documents.find? (Stored.isAt a.partition a.id) = some old) :
    d.exec (Store.transport pageSize time) args s =
      (.ok .applied, s.setDocuments a.container
        (documents.eraseP (Stored.isAt a.partition a.id))) := by
  simp only [exec, bound, Transport.delete, Store.transport, Store.delete_of_live found live]

/-- How a DELETE of the document at `a` can end, with what it leaves. -/
inductive Ended (a : Address) (s : Store) : Except Error Outcome × Store → Prop where
  /-- The container is not there. -/
  | missing : s.hasDatabase a.container.database = false ∨ s.hasCollection a.container = false →
    Ended a s (.error .notFound, s)
  /-- The container is there, and the document is not in it. -/
  | fresh : s.hasCollection a.container = true → s.at? a = none → Ended a s (.ok .unchanged, s)
  /-- The document was there, and nothing else is gone with it. -/
  | live {doc : Document} {next : Store} : s.at? a = some doc → next.Keyed →
    (∀ b, next.at? b = if a.same b = true then none else s.at? b) → Ended a s (.ok .applied, next)

theorem ended_exec (bound : d.address args = .ok a) (database : IsName a.container.database)
    (collection : IsName a.container.collection) (keyed : s.Keyed) :
    Ended a s (d.exec (Store.transport pageSize time) args s) := by
  cases found : s.documents? a.container with
  | error e =>
    rcases Store.documents?_eq_error found with ⟨none, rfl⟩ | ⟨none, rfl⟩
    · rw [exec_of_missing bound found (Store.not_isDocumentMissing_databaseMissing database)]
      exact .missing (.inl none)
    · rw [exec_of_missing bound found
        (Store.not_isDocumentMissing_collectionMissing database collection)]
      exact .missing (.inr none)
  | ok documents =>
    cases live : documents.find? (Stored.isAt a.partition a.id) with
    | none =>
      rw [exec_of_fresh bound found live]
      refine .fresh ?_ ?_
      · rw [Store.hasCollection, found]
        rfl
      · rw [Store.at?_of_found found, live]
        rfl
    | some old =>
      rw [exec_of_live bound found live]
      have here : s.at? a = some old.document := by
        rw [Store.at?_of_found found, live]
        rfl
      have effect : Store.Effect ⟨pageSize, time, .delete a⟩ s _ _ := .removed found live
      exact .live here (Store.keyed_of_effect keyed effect) (Store.at?_of_effect keyed effect)

/-- What the end of a DELETE says of the store before it and after it. -/
theorem Ended.verdict {ran : Except Error Outcome × Store} (h : Ended a s ran) :
    (ran.1 = .error .notFound ↔
      s.hasDatabase a.container.database = false ∨ s.hasCollection a.container = false) ∧
    (ran.1 = .ok .applied ↔ ∃ doc, s.at? a = some doc) ∧
    (ran.1 = .ok .unchanged ↔ s.hasCollection a.container = true ∧ s.at? a = none) ∧
    ∀ b, ran.2.at? b = if a.same b = true then none else s.at? b := by
  -- Where nothing stood, nothing is gone.
  have kept (none : s.at? a = none) (b : Address) :
      s.at? b = if a.same b = true then Option.none else s.at? b := by
    split
    next same => rw [← Store.at?_congr same, none]
    next => rfl
  rw [Store.hasCollection_eq_false]
  cases h with
  | missing missing =>
    have missing := Store.hasCollection_eq_false.mp missing
    have none : s.at? a = none := Option.eq_none_iff_forall_ne_some.mpr fun doc here => by
      rw [Store.hasCollection_of_at? here] at missing
      cases missing
    refine ⟨?_, ?_, ?_, kept none⟩
    · simp [missing]
    · simp [none]
    · simp [missing]
  | fresh there none =>
    refine ⟨?_, ?_, ?_, kept none⟩
    · simp [there]
    · simp [none, Outcome.unchanged, Outcome.applied]
    · simp [there, none]
  | live here _ left =>
    refine ⟨?_, ?_, ?_, left⟩
    · simp [Store.hasCollection_of_at? here]
    · simp [here]
    · simp [here, Outcome.unchanged, Outcome.applied]

theorem Ended.keyed {ran : Except Error Outcome × Store} (h : Ended a s ran) (keyed : s.Keyed) :
    ran.2.Keyed := by
  cases h with
  | missing | fresh => exact keyed
  | live here keyed => exact keyed

theorem Ended.not_succeeded {ran : Except Error Outcome × Store} (h : Ended a s ran)
    (none : s.at? a = none) : succeeded ran.1 = false := by
  cases h with
  | missing | fresh => rfl
  | live here => exact absurd (here.symm.trans none) (Option.some_ne_none _)

/-- **DELETE over the store.** Take the store after any history, and the text of a DELETE with
    arguments that it can be bound to:

    * it asks for the container it names, the id it gives and the partition key in the last
      argument;
    * it fails as not found exactly if that database or that collection does not exist;
    * it succeeds exactly if the collection holds the document;
    * it changes nothing without failing exactly if the collection exists and does not hold it;
    * afterwards the document is gone, and every other one stands as before;
    * run again it does not succeed, and it leaves the store as it is;
    * whatever the names are, what the store says of a missing database or collection is not taken
      for a missing document. -/
theorem delete_over_store (history : List Operation) {text : String} {d : Delete}
    {args : List Value} {a : Address} (parsed : Statement.parse text = .ok (.delete d))
    (bound : d.address args = .ok a) (pageSize : Nat) (time later : Whole) (settings : Settings) :
    let s := Store.run history Store.empty
    let c := d.container
    let ran := (Session.ofStore pageSize time settings).exec text args s
    let again := (Session.ofStore pageSize later settings).exec text args ran.2
    (a.container = c ∧ d.id.resolve args = .ok a.id ∧ ∃ v, args.getLast? = some v ∧
      a.partition = [v]) ∧
    (ran.1 = .error .notFound ↔ s.hasDatabase c.database = false ∨ s.hasCollection c = false) ∧
    (ran.1 = .ok .applied ↔ ∃ doc, s.at? a = some doc) ∧
    (ran.1 = .ok .unchanged ↔ s.hasCollection c = true ∧ s.at? a = none) ∧
    (∀ b, ran.2.at? b = if a.same b = true then none else s.at? b) ∧
    (succeeded again.1 = false ∧ again.2 = ran.2) ∧
    (Store.databaseMissing c.database).isDocumentMissing = false ∧
    (Store.collectionMissing c).isDocumentMissing = false := by
  intro s c ran again
  obtain ⟨id, partition, hid, hpartition, rfl⟩ := address_eq_ok bound
  obtain ⟨database, collection⟩ := Statement.isName_of_parse parsed nofun
  have keyed : s.Keyed := (Store.represents_run history).keyed
  have run (settings : Settings) (time : Whole) {s : Store} (keyed : s.Keyed) :
      Ended ⟨c, partition, id⟩ s
        ((Session.ofStore pageSize time settings).exec text args s) := by
    rw [Session.exec_of_parsed parsed]
    exact ended_exec bound database collection keyed
  have ended : Ended _ s ran := run settings time keyed
  obtain ⟨notFound, applied, unchanged, left⟩ := ended.verdict
  refine ⟨⟨rfl, hid, partitionKey_eq_ok hpartition⟩, notFound, applied, unchanged, left, ?_,
    Store.not_isDocumentMissing_databaseMissing database,
    Store.not_isDocumentMissing_collectionMissing database collection⟩
  -- Nothing stands at the address any more.
  have gone : ran.2.at? ⟨c, partition, id⟩ = none := by
    rw [left, if_pos (Address.same_refl _)]
  have failed : succeeded again.1 = false :=
    (run settings later (ended.keyed keyed)).not_succeeded gone
  exact ⟨failed, Session.store_of_not_succeeded failed⟩

/-- A document that was created is deleted under an id and a partition key from arguments. -/
theorem delete_over_store_created :
    let c : Container := ⟨"d", "c"⟩
    let payload : Document := KeyMap.ofList [("id", .string "o1")]
    let history : List Operation :=
      [.createCollection c, .call ⟨1, .zero, .create ⟨c, [.string "p"], false, payload⟩⟩]
    let args : List Value := [.string "o1", .string "p"]
    let ran := (Session.ofStore 1 .zero {}).exec "DELETE FROM d.c WHERE id=:1" args
      (Store.run history Store.empty)
    Statement.parse "DELETE FROM d.c WHERE id=:1" = .ok (.delete ⟨c, .placeholder 1⟩) ∧
      address ⟨c, .placeholder 1⟩ args = .ok ⟨c, [.string "p"], "o1"⟩ ∧
      ran.1 = .ok .applied ∧ ran.2.at? ⟨c, [.string "p"], "o1"⟩ = none := by
  intro c payload history args ran
  have parsed : Statement.parse "DELETE FROM d.c WHERE id=:1" =
      .ok (.delete ⟨c, .placeholder 1⟩) := by
    refine eq_ok_of_toOption ?_
    decide +kernel
  have bound : address ⟨c, .placeholder 1⟩ args = .ok ⟨c, [.string "p"], "o1"⟩ := rfl
  obtain ⟨-, -, applied, -, left, -⟩ := delete_over_store history parsed bound 1 .zero .zero {}
  have here : (Store.run history Store.empty).at? ⟨c, [.string "p"], "o1"⟩ =
      some (Store.stamp .zero 1 c (Store.mintedId 1) payload) := by
    decide +kernel
  refine ⟨parsed, bound, applied.mpr ⟨_, here⟩, ?_⟩
  rw [left, if_pos (Address.same_refl _)]

end Delete

end DocumentStore
